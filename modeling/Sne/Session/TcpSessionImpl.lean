import Sne.Base.AsioTimer
import Sne.Library.Runs
import Sne.Sgp.SgpMarshaller

/-!
# The TCP session

`TcpSessionImpl.cpp`, the part that writes and closes. Each public operation posts
a handler to the `io_context`, and handlers run one at a time in the order of their
posts. The state has the members of the class together with what the session has
asked for and not yet got: posted handlers and outstanding writes. It also records
the buffers handed to `async_write`, the blocks released and the calls of the
session's callback.
-/

namespace Sne.Session

open Sne.Base Sne.Sgp Sne.Library.Runs

set_option autoImplicit false

/-- `Marshaller`, as the writing side uses it. -/
class Marshaller (μ : Type) where
  marshal : MemoryBlock → MessageType → μ → Bool × MemoryBlock × μ
  reset : TimePoint → μ → μ

instance {κ : Type} [PacketCoder κ] : Marshaller (SgpMarshaller κ) where
  marshal mblock messageType marshaller :=
    let marshalled := marshaller.marshal mblock messageType
    (marshalled.succeeded, marshalled.mblock, marshalled.marshaller)
  reset := SgpMarshaller.reset

/-- A `MemoryBlock*`: which block of the pool it is, and what the block holds. -/
structure BlockPointer where
  address : Nat
  mblock : MemoryBlock

def BlockPointer.bytes (pointer : BlockPointer) : List UInt8 := pointer.mblock.contents

inductive PostedHandler where
  | disconnect
  | disconnectGracefully
  | sendMessage (mblock : BlockPointer) (messageType : MessageType)

def PostedHandler.isDisconnect : PostedHandler → Bool
  | .disconnect => true
  | _ => false

/-- An `async_write` whose completion handler has not run. -/
inductive AsyncWrite where
  | single (mblock : BlockPointer)
  | gather (buffers : List (List UInt8))

def AsyncWrite.buffers : AsyncWrite → List (List UInt8)
  | .single mblock => [mblock.bytes]
  | .gather buffers => buffers

inductive SessionEvent where
  | messageTransfered (messageType : MessageType)
  | disconnected
  | release
deriving DecidableEq, Repr

structure SessionStats where
  sentBytes : Nat := 0
  sentMessageCount : Nat := 0
  useCount : Nat := 0
deriving DecidableEq, Repr

def SessionStats.reset (stats : SessionStats) : SessionStats :=
  { useCount := stats.useCount }

structure TcpSessionImpl (μ : Type) where
  marshaller : μ
  maxPendablePacketCount : Nat
  isSocketOpen : Bool := false
  outputQueue : List BlockPointer := []
  isWritePended : Bool := false
  prevLoggedOutputQueueSize : Nat := 0
  outputBuffers : List (List UInt8) := []
  outputMemoryBlocks : List BlockPointer := []
  disconnectTimer : AsioTimer := {}
  throttleTimer : AsioTimer := {}
  stats : SessionStats := {}
  posted : List PostedHandler := []
  writes : List AsyncWrite := []
  handed : List AsyncWrite := []
  released : List Nat := []
  events : List SessionEvent := []

namespace TcpSessionImpl

variable {μ : Type} [Marshaller μ]

def maxGatherWriteCount : Nat := 10

def isConnected (session : TcpSessionImpl μ) : Bool := session.isSocketOpen

def isDisconnectReserved (session : TcpSessionImpl μ) : Bool := session.disconnectTimer.isRunning

def shouldBlockWrite (session : TcpSessionImpl μ) : Bool := session.disconnectTimer.isRunning

def canSendMessage (session : TcpSessionImpl μ) : Bool :=
  session.isConnected && !session.shouldBlockWrite

def post (handler : PostedHandler) (session : TcpSessionImpl μ) : TcpSessionImpl μ :=
  { session with posted := session.posted ++ [handler] }

def notify (event : SessionEvent) (session : TcpSessionImpl μ) : TcpSessionImpl μ :=
  { session with events := session.events ++ [event] }

/-- `MemoryBlock::release` gives the block back to its manager. -/
def releaseBlock (mblock : BlockPointer) (session : TcpSessionImpl μ) : TcpSessionImpl μ :=
  { session with released := session.released ++ [mblock.address] }

def asyncWrite (write : AsyncWrite) (session : TcpSessionImpl μ) : TcpSessionImpl μ :=
  { session with
    writes := session.writes ++ [write]
    handed := session.handed ++ [write] }

def disconnect (session : TcpSessionImpl μ) : TcpSessionImpl μ := session.post .disconnect

def disconnectGracefully (session : TcpSessionImpl μ) : TcpSessionImpl μ :=
  session.post .disconnectGracefully

def sendMessage (mblock : BlockPointer) (messageType : MessageType) (session : TcpSessionImpl μ) :
    TcpSessionImpl μ :=
  session.post (.sendMessage mblock messageType)

def writeMessage (mblock : BlockPointer) (session : TcpSessionImpl μ) : TcpSessionImpl μ :=
  { session.asyncWrite (.single mblock) with isWritePended := true }

/-- The loop of `gatherWrite`. -/
def gatherBlocks (session : TcpSessionImpl μ) : List BlockPointer → TcpSessionImpl μ
  | [] => { session with outputQueue := [] }
  | mblock :: queue =>
      let session := { session with
        outputBuffers := session.outputBuffers ++ [mblock.bytes]
        outputMemoryBlocks := session.outputMemoryBlocks ++ [mblock] }
      if session.outputMemoryBlocks.length ≥ maxGatherWriteCount then
        { session with outputQueue := queue }
      else
        gatherBlocks session queue

def gatherWrite (session : TcpSessionImpl μ) : TcpSessionImpl μ :=
  match session.outputQueue with
  | [] => session
  | [mblock] => { session with outputQueue := [] }.writeMessage mblock
  | queue =>
      let session := { session with outputBuffers := [], outputMemoryBlocks := [] }.gatherBlocks queue
      { session.asyncWrite (.gather session.outputBuffers) with isWritePended := true }

def writeSucceeded (mblock : BlockPointer) (session : TcpSessionImpl μ) : TcpSessionImpl μ :=
  { session with
    isWritePended := false
    stats := { session.stats with
      sentMessageCount := session.stats.sentMessageCount + 1
      sentBytes := session.stats.sentBytes + mblock.mblock.length } }

def flushOutputQueue (session : TcpSessionImpl μ) : TcpSessionImpl μ :=
  { session with
    outputQueue := []
    released := session.released ++ session.outputQueue.map BlockPointer.address }

def reset (now : TimePoint) (session : TcpSessionImpl μ) : TcpSessionImpl μ :=
  let session := { session with isSocketOpen := false }.flushOutputQueue
  { session with
    stats := session.stats.reset
    isWritePended := false
    prevLoggedOutputQueueSize := 0
    outputBuffers := []
    outputMemoryBlocks := []
    disconnectTimer := session.disconnectTimer.cancel
    throttleTimer := session.throttleTimer.cancel
    marshaller := Marshaller.reset now session.marshaller }

def create (now : TimePoint) (marshaller : μ) (maxPendablePacketCount : Nat) : TcpSessionImpl μ :=
  reset now { marshaller, maxPendablePacketCount }

/-- `sessionOpened`, when the callback's `onConnected` accepts the connection. -/
def sessionOpened (session : TcpSessionImpl μ) : TcpSessionImpl μ :=
  { session with
    isSocketOpen := true
    stats := { session.stats with useCount := session.stats.useCount + 1 } }

def logThreshold : Nat := 10

def checkOutputQueue (session : TcpSessionImpl μ) : Bool × TcpSessionImpl μ :=
  let queueSize := session.outputQueue.length
  if session.maxPendablePacketCount > 0 && queueSize ≥ session.maxPendablePacketCount then
    (false, session)
  else if queueSize > session.prevLoggedOutputQueueSize + logThreshold then
    (true, { session with prevLoggedOutputQueueSize := queueSize })
  else
    (true, session)

def disconnectHandler (now : TimePoint) (session : TcpSessionImpl μ) : TcpSessionImpl μ :=
  if session.isDisconnectReserved then
    session
  else
    let connected := session.isConnected
    let session := { session with
      disconnectTimer := session.disconnectTimer.cancel
      throttleTimer := session.throttleTimer.cancel
      isSocketOpen := false }
    if !connected then
      session
    else
      ((session.reset now).notify .disconnected).notify .release

def disconnectGracefullyHandler (session : TcpSessionImpl μ) : TcpSessionImpl μ :=
  if session.isDisconnectReserved then
    session
  else
    { session with disconnectTimer := session.disconnectTimer.once }

/-- The handler that `sendMessage` posts. The guard releases the block unless it has
been handed on. -/
def sendMessageHandler (mblock : BlockPointer) (messageType : MessageType) (session : TcpSessionImpl μ) :
    TcpSessionImpl μ :=
  if !session.canSendMessage then
    session.releaseBlock mblock
  else
    let (marshalled, block, marshaller) := Marshaller.marshal mblock.mblock messageType session.marshaller
    let mblock := { mblock with mblock := block }
    let session := { session with marshaller }
    if !marshalled then
      session.disconnectGracefully.releaseBlock mblock
    else if session.isWritePended then
      let (accepted, session) := session.checkOutputQueue
      if accepted then
        { session with outputQueue := session.outputQueue ++ [mblock] }.notify
          (.messageTransfered messageType)
      else
        session.disconnect.releaseBlock mblock
    else
      (session.writeMessage mblock).notify (.messageTransfered messageType)

def runHandler (now : TimePoint) : PostedHandler → TcpSessionImpl μ → TcpSessionImpl μ
  | .disconnect => disconnectHandler now
  | .disconnectGracefully => disconnectGracefullyHandler
  | .sendMessage mblock messageType => sendMessageHandler mblock messageType

/-- The `disconnectTimer` part of `timedOut`. -/
def disconnectTimedOut (session : TcpSessionImpl μ) : TcpSessionImpl μ :=
  if session.isWritePended || !session.outputQueue.isEmpty then
    { session with disconnectTimer := session.disconnectTimer.once }
  else
    session.disconnect

/-- `AsioTimer::handle_timeout` of the disconnect timer. It clears `isRunning` once more
after the callback, which may have started the timer again. -/
def disconnectTimerHandler (error : ErrorCode) (session : TcpSessionImpl μ) : TcpSessionImpl μ :=
  let session :=
    if error = .success && session.disconnectTimer.isRunning then
      { session with
        disconnectTimer := { session.disconnectTimer with isRunning := false } }.disconnectTimedOut
    else
      session
  { session with disconnectTimer := { session.disconnectTimer with isRunning := false } }

def handleWrite (error : ErrorCode) (mblock : BlockPointer) (session : TcpSessionImpl μ) :
    TcpSessionImpl μ :=
  let session :=
    if error = .success then
      (session.writeSucceeded mblock).gatherWrite
    else
      session.disconnect
  session.releaseBlock mblock

/-- One round of the loop of `handle_gather_write`. -/
def gatherWritten (error : ErrorCode) (session : TcpSessionImpl μ) (mblock : BlockPointer) :
    TcpSessionImpl μ :=
  if error = .success then
    (session.writeSucceeded mblock).releaseBlock mblock
  else
    session.releaseBlock mblock

def handleGatherWrite (error : ErrorCode) (session : TcpSessionImpl μ) : TcpSessionImpl μ :=
  let session := session.outputMemoryBlocks.foldl (gatherWritten error) session
  let session := { session with outputBuffers := [], outputMemoryBlocks := [] }
  if error = .success then
    session.gatherWrite
  else
    session.disconnect

def writeCompleted (error : ErrorCode) : AsyncWrite → TcpSessionImpl μ → TcpSessionImpl μ
  | .single mblock => handleWrite error mblock
  | .gather _ => handleGatherWrite error

def closesNext (session : TcpSessionImpl μ) : Bool :=
  match session.posted with
  | .disconnect :: _ => !session.isDisconnectReserved && session.isConnected
  | _ => false

def hasDisconnect (session : TcpSessionImpl μ) : Bool := session.posted.any PostedHandler.isDisconnect

def overflows (mblock : BlockPointer) (messageType : MessageType) (session : TcpSessionImpl μ) : Bool :=
  session.canSendMessage && (Marshaller.marshal mblock.mblock messageType session.marshaller).1 &&
    session.isWritePended && !session.checkOutputQueue.1

def overflowsNext (session : TcpSessionImpl μ) : Bool :=
  match session.posted with
  | .sendMessage mblock messageType :: _ => session.overflows mblock messageType
  | _ => false

inductive Label where
  | sendMessage (mblock : BlockPointer) (messageType : MessageType)
  | disconnect
  | disconnectGracefully
  | handler (now : TimePoint)
  | writeCompleted (index : Nat) (error : ErrorCode)
  | disconnectTimerExpires (index : Nat)
  | disconnectTimerHandler (index : Nat)

def Label.isHandler : Label → Bool
  | .handler _ => true
  | _ => false

/-- The oldest posted handler runs. Completions of writes and waits come in any order. -/
inductive Step : TcpSessionImpl μ → Label → TcpSessionImpl μ → Prop where
  | sendMessage (session : TcpSessionImpl μ) (mblock : BlockPointer) (messageType : MessageType) :
      Step session (.sendMessage mblock messageType) (session.sendMessage mblock messageType)
  | disconnect (session : TcpSessionImpl μ) : Step session .disconnect session.disconnect
  | disconnectGracefully (session : TcpSessionImpl μ) :
      Step session .disconnectGracefully session.disconnectGracefully
  | handler {session : TcpSessionImpl μ} {handler : PostedHandler} {rest : List PostedHandler}
      (now : TimePoint) :
      session.posted = handler :: rest →
      Step session (.handler now) (runHandler now handler { session with posted := rest })
  | writeCompleted {session : TcpSessionImpl μ} (earlier : List AsyncWrite) {write : AsyncWrite}
      {later : List AsyncWrite} (error : ErrorCode) :
      session.writes = earlier ++ write :: later →
      Step session (.writeCompleted earlier.length error)
        (writeCompleted error write { session with writes := earlier ++ later })
  | disconnectTimerExpires (session : TcpSessionImpl μ) (index : Nat) :
      Step session (.disconnectTimerExpires index)
        { session with disconnectTimer := session.disconnectTimer.expire index }
  | disconnectTimerHandler {session : TcpSessionImpl μ} (earlier : List Wait) {wait : Wait}
      {later : List Wait} {error : ErrorCode} :
      session.disconnectTimer.waits = earlier ++ wait :: later →
      wait.completion = some error →
      Step session (.disconnectTimerHandler earlier.length)
        (disconnectTimerHandler error { session with
          disconnectTimer := { session.disconnectTimer with waits := earlier ++ later } })

def advance (session : TcpSessionImpl μ) : Label → Option (TcpSessionImpl μ)
  | .sendMessage mblock messageType => some (session.sendMessage mblock messageType)
  | .disconnect => some session.disconnect
  | .disconnectGracefully => some session.disconnectGracefully
  | .handler now =>
      match session.posted with
      | [] => none
      | handler :: rest => some (runHandler now handler { session with posted := rest })
  | .writeCompleted index error =>
      (session.writes[index]?).map fun write =>
        writeCompleted error write { session with writes := session.writes.eraseIdx index }
  | .disconnectTimerExpires index =>
      some { session with disconnectTimer := session.disconnectTimer.expire index }
  | .disconnectTimerHandler index =>
      (session.disconnectTimer.waits[index]?).bind fun wait => wait.completion.map fun error =>
        disconnectTimerHandler error { session with
          disconnectTimer := { session.disconnectTimer with
            waits := session.disconnectTimer.waits.eraseIdx index } }

theorem advance_sound (session : TcpSessionImpl μ) (label : Label) (next : TcpSessionImpl μ)
    (advances : session.advance label = some next) : Step session label next := by
  cases label with
  | sendMessage mblock messageType =>
      cases advances
      exact .sendMessage session mblock messageType
  | disconnect =>
      cases advances
      exact .disconnect session
  | disconnectGracefully =>
      cases advances
      exact .disconnectGracefully session
  | handler now =>
      simp only [advance] at advances
      split at advances
      · cases advances
      · rename_i posted
        cases advances
        exact .handler now posted
  | writeCompleted index error =>
      rcases Option.map_eq_some_iff.mp advances with ⟨write, found, rfl⟩
      rcases split_at found with ⟨earlier, later, split, erased, rfl⟩
      rw [erased]
      exact .writeCompleted earlier error split
  | disconnectTimerExpires index =>
      cases advances
      exact .disconnectTimerExpires session index
  | disconnectTimerHandler index =>
      rcases Option.bind_eq_some_iff.mp advances with ⟨wait, found, handled⟩
      rcases Option.map_eq_some_iff.mp handled with ⟨error, completed, rfl⟩
      rcases split_at found with ⟨earlier, later, split, erased, rfl⟩
      rw [erased]
      exact .disconnectTimerHandler earlier split completed

section Frames

omit [Marshaller μ]

structure Quiet (session next : TcpSessionImpl μ) : Prop where
  marshaller : next.marshaller = session.marshaller
  isSocketOpen : next.isSocketOpen = session.isSocketOpen
  disconnectTimer : next.disconnectTimer = session.disconnectTimer
  posted : next.posted = session.posted
  events : next.events = session.events

theorem Quiet.refl (session : TcpSessionImpl μ) : Quiet session session := ⟨rfl, rfl, rfl, rfl, rfl⟩

theorem Quiet.trans {first second third : TcpSessionImpl μ} (left : Quiet first second)
    (right : Quiet second third) : Quiet first third :=
  { marshaller := right.marshaller.trans left.marshaller
    isSocketOpen := right.isSocketOpen.trans left.isSocketOpen
    disconnectTimer := right.disconnectTimer.trans left.disconnectTimer
    posted := right.posted.trans left.posted
    events := right.events.trans left.events }

theorem gather_blocks_quiet (queue : List BlockPointer) (session : TcpSessionImpl μ) :
    Quiet session (session.gatherBlocks queue) := by
  induction queue generalizing session with
  | nil => exact ⟨rfl, rfl, rfl, rfl, rfl⟩
  | cons mblock queue induction =>
      unfold gatherBlocks
      dsimp only
      split
      · exact ⟨rfl, rfl, rfl, rfl, rfl⟩
      · have rest := induction { session with
          outputBuffers := session.outputBuffers ++ [mblock.bytes]
          outputMemoryBlocks := session.outputMemoryBlocks ++ [mblock] }
        exact { rest with }

theorem gather_write_quiet (session : TcpSessionImpl μ) : Quiet session session.gatherWrite := by
  unfold gatherWrite
  split
  · exact .refl session
  · exact ⟨rfl, rfl, rfl, rfl, rfl⟩
  · have gathered := gather_blocks_quiet session.outputQueue
      { session with outputBuffers := [], outputMemoryBlocks := [] }
    exact { gathered with }

theorem gather_written_quiet (error : ErrorCode) (blocks : List BlockPointer)
    (session : TcpSessionImpl μ) :
    Quiet session (blocks.foldl (gatherWritten error) session) := by
  induction blocks generalizing session with
  | nil => exact .refl session
  | cons mblock blocks induction =>
      have first : Quiet session (gatherWritten error session mblock) := by
        unfold gatherWritten
        split <;> exact ⟨rfl, rfl, rfl, rfl, rfl⟩
      rw [List.foldl_cons]
      exact first.trans (induction _)

theorem write_completed_quiet (error : ErrorCode) (write : AsyncWrite) (session : TcpSessionImpl μ) :
    Quiet (if error = .success then session else session.disconnect)
      (writeCompleted error write session) := by
  cases write with
  | single mblock =>
      simp only [writeCompleted, handleWrite, releaseBlock]
      split
      · have next := gather_write_quiet (session.writeSucceeded mblock)
        exact { next with }
      · exact ⟨rfl, rfl, rfl, rfl, rfl⟩
  | gather buffers =>
      have written := gather_written_quiet error session.outputMemoryBlocks session
      have cleared : Quiet session { session.outputMemoryBlocks.foldl (gatherWritten error) session with
          outputBuffers := [], outputMemoryBlocks := [] } := { written with }
      simp only [writeCompleted, handleGatherWrite]
      split
      · exact cleared.trans (gather_write_quiet _)
      · exact { cleared with
          posted := congrArg (fun handlers => handlers ++ [PostedHandler.disconnect]) cleared.posted }

theorem check_output_queue_quiet (session : TcpSessionImpl μ) :
    Quiet session session.checkOutputQueue.2 := by
  unfold checkOutputQueue
  dsimp only
  split
  · exact .refl session
  · split
    · exact ⟨rfl, rfl, rfl, rfl, rfl⟩
    · exact .refl session

end Frames

section Marshallers

omit [Marshaller μ] in
theorem disconnect_timer_marshaller (error : ErrorCode) (session : TcpSessionImpl μ) :
    (disconnectTimerHandler error session).marshaller = session.marshaller := by
  simp only [disconnectTimerHandler, disconnectTimedOut]
  split
  · split <;> rfl
  · rfl

/-- What `marshal` and `reset` keep of the marshaller is kept by every step. -/
theorem Step.marshaller_kept {session next : TcpSessionImpl μ} {label : Label}
    (step : Step session label next) (Kept : μ → Prop)
    (marshal : ∀ mblock messageType marshaller, Kept marshaller →
      Kept (Marshaller.marshal mblock messageType marshaller).2.2)
    (reset : ∀ now marshaller, Kept marshaller → Kept (Marshaller.reset now marshaller))
    (kept : Kept session.marshaller) : Kept next.marshaller := by
  cases step with
  | sendMessage => exact kept
  | disconnect => exact kept
  | disconnectGracefully => exact kept
  | disconnectTimerExpires => exact kept
  | writeCompleted earlier error outstanding =>
      rw [(write_completed_quiet error _ _).marshaller]
      split <;> exact kept
  | disconnectTimerHandler earlier waits completed =>
      rw [disconnect_timer_marshaller]
      exact kept
  | @handler handler rest now posted =>
      cases handler with
      | disconnect =>
          simp only [runHandler, disconnectHandler]
          split
          · exact kept
          · split
            · exact kept
            · exact reset now _ kept
      | disconnectGracefully =>
          simp only [runHandler, disconnectGracefullyHandler]
          split <;> exact kept
      | sendMessage mblock messageType =>
          simp only [runHandler, sendMessageHandler]
          split
          · exact kept
          · have marshalled : Kept { session with
                marshaller := (Marshaller.marshal mblock.mblock messageType session.marshaller).2.2
                posted := rest }.marshaller := marshal mblock.mblock messageType _ kept
            split
            · exact marshalled
            · split
              · rw [← (check_output_queue_quiet _).marshaller] at marshalled
                split <;> exact marshalled
              · exact marshalled

end Marshallers

section Connections

def timesOut (session : TcpSessionImpl μ) (index : Nat) : Bool :=
  decide ((session.disconnectTimer.waits[index]?).bind Wait.completion = some .success) &&
    session.disconnectTimer.isRunning && !(session.isWritePended || !session.outputQueue.isEmpty)

def postsDisconnect (session : TcpSessionImpl μ) : Label → Bool
  | .disconnect => true
  | .handler _ => session.overflowsNext
  | .writeCompleted _ error => decide (error ≠ .success)
  | .disconnectTimerHandler index => session.timesOut index
  | _ => false

def Label.remainingPosted {α : Type} : Label → List α → List α
  | .handler _, posted => posted.tail
  | _, posted => posted

def Posts (session : TcpSessionImpl μ) (label : Label) (next : TcpSessionImpl μ) : Prop :=
  ∃ added, next.posted = label.remainingPosted session.posted ++ added ∧
    (added.any PostedHandler.isDisconnect = true → session.postsDisconnect label = true)

structure Closes (session : TcpSessionImpl μ) (label : Label) (next : TcpSessionImpl μ) : Prop where
  isHandler : label.isHandler = true
  closesNext : session.closesNext = true
  isConnected : next.isConnected = false
  events : next.events = session.events ++ [.disconnected, .release]

structure Stays (session : TcpSessionImpl μ) (next : TcpSessionImpl μ) : Prop where
  isConnected : next.isConnected = session.isConnected
  events : ∃ transfered, next.events = session.events ++ transfered ∧ .release ∉ transfered

omit [Marshaller μ] in
theorem Stays.of_same {session next : TcpSessionImpl μ}
    (isConnected : next.isConnected = session.isConnected)
    (events : next.events = session.events) : Stays session next :=
  ⟨isConnected, [], by rw [events, List.append_nil], List.not_mem_nil⟩

omit [Marshaller μ] in
theorem check_output_queue_accepts (session : TcpSessionImpl μ) :
    session.checkOutputQueue.1 = !(session.maxPendablePacketCount > 0 &&
      session.outputQueue.length ≥ session.maxPendablePacketCount) := by
  unfold checkOutputQueue
  dsimp only
  split
  · rename_i full
    rw [full, Bool.not_true]
  · rename_i spare
    rw [Bool.eq_false_iff.mpr spare, Bool.not_false]
    split <;> rfl

theorem overflows_eq (mblock : BlockPointer) (messageType : MessageType) (session : TcpSessionImpl μ) :
    session.overflows mblock messageType =
      (session.canSendMessage && (Marshaller.marshal mblock.mblock messageType session.marshaller).1 &&
        session.isWritePended && (session.maxPendablePacketCount > 0 &&
          session.outputQueue.length ≥ session.maxPendablePacketCount)) := by
  rw [overflows, check_output_queue_accepts, Bool.not_not]

/-- What the handler of `sendMessage` does besides writing. -/
theorem send_message_handler_cases (mblock : BlockPointer) (messageType : MessageType)
    (session : TcpSessionImpl μ) :
    Stays session (sendMessageHandler mblock messageType session) ∧
      ∃ added, (sendMessageHandler mblock messageType session).posted = session.posted ++ added ∧
        (added.any PostedHandler.isDisconnect = true → session.overflows mblock messageType = true) := by
  unfold sendMessageHandler
  split
  · exact ⟨.of_same rfl rfl, [], (List.append_nil _).symm, nofun⟩
  · rename_i sends
    dsimp only
    split
    · exact ⟨.of_same rfl rfl, [.disconnectGracefully], rfl, nofun⟩
    · rename_i marshalled
      split
      · rename_i pended
        have quiet := check_output_queue_quiet { session with
          marshaller := (Marshaller.marshal mblock.mblock messageType session.marshaller).2.2 }
        split
        · refine ⟨⟨quiet.isSocketOpen, [.messageTransfered messageType], ?_, by simp⟩, [], ?_, nofun⟩
          · exact congrArg (fun events => events ++ [SessionEvent.messageTransfered messageType])
              quiet.events
          · exact quiet.posted.trans (List.append_nil _).symm
        · rename_i refused
          refine ⟨.of_same quiet.isSocketOpen quiet.events, [.disconnect], ?_, ?_⟩
          · exact congrArg (fun posted => posted ++ [PostedHandler.disconnect]) quiet.posted
          · intro _
            rw [check_output_queue_accepts, Bool.not_eq_true, Bool.not_eq_false'] at refused
            rw [overflows_eq, refused, pended]
            simp only [Bool.and_true, Bool.and_eq_true]
            exact ⟨by simpa using sends, by simpa using marshalled⟩
      · exact ⟨⟨rfl, [.messageTransfered messageType], rfl, by simp⟩, [], (List.append_nil _).symm, nofun⟩

theorem disconnect_timer_posts {session : TcpSessionImpl μ} {earlier later : List Wait} {wait : Wait}
    {error : ErrorCode} (waits : session.disconnectTimer.waits = earlier ++ wait :: later)
    (completed : wait.completion = some error) :
    Posts session (.disconnectTimerHandler earlier.length)
      (disconnectTimerHandler error { session with
        disconnectTimer := { session.disconnectTimer with waits := earlier ++ later } }) := by
  unfold disconnectTimerHandler disconnectTimedOut
  dsimp only
  split
  · rename_i expired
    split
    · exact ⟨[], (List.append_nil _).symm, nofun⟩
    · rename_i idle
      rw [Bool.and_eq_true, decide_eq_true_iff] at expired
      refine ⟨[.disconnect], rfl, ?_⟩
      intro _
      have found : session.disconnectTimer.waits[earlier.length]? = some wait := by
        rw [waits, List.getElem?_append_right (Nat.le_refl _), Nat.sub_self, List.getElem?_cons_zero]
      have succeeded : (session.disconnectTimer.waits[earlier.length]?).bind Wait.completion =
          some .success := by
        rw [found, Option.bind_some, completed, expired.1]
      simp only [postsDisconnect, timesOut]
      rw [decide_eq_true succeeded, expired.2, Bool.eq_false_iff.mpr idle]
      rfl
  · exact ⟨[], (List.append_nil _).symm, nofun⟩

theorem Step.posts {session next : TcpSessionImpl μ} {label : Label}
    (step : Step session label next) : Posts session label next := by
  cases step with
  | sendMessage mblock messageType => exact ⟨[.sendMessage mblock messageType], rfl, nofun⟩
  | disconnect => exact ⟨[.disconnect], rfl, fun _ => rfl⟩
  | disconnectGracefully => exact ⟨[.disconnectGracefully], rfl, nofun⟩
  | disconnectTimerExpires index => exact ⟨[], (List.append_nil _).symm, nofun⟩
  | disconnectTimerHandler earlier waits completed => exact disconnect_timer_posts waits completed
  | writeCompleted earlier error outstanding =>
      rename_i write later
      have quiet := write_completed_quiet error write { session with writes := earlier ++ later }
      unfold Posts
      rw [quiet.posted]
      split
      · exact ⟨[], (List.append_nil _).symm, nofun⟩
      · rename_i failed
        exact ⟨[.disconnect], rfl, fun _ => decide_eq_true failed⟩
  | handler now posted =>
      rename_i handler rest
      have tail : session.posted.tail = rest := by rw [posted, List.tail_cons]
      cases handler with
      | disconnect =>
          refine ⟨[], ?_, nofun⟩
          rw [List.append_nil, Label.remainingPosted, tail]
          simp only [runHandler, disconnectHandler]
          split
          · rfl
          · split <;> rfl
      | disconnectGracefully =>
          refine ⟨[], ?_, nofun⟩
          rw [List.append_nil, Label.remainingPosted, tail]
          simp only [runHandler, disconnectGracefullyHandler]
          split <;> rfl
      | sendMessage mblock messageType =>
          rcases (send_message_handler_cases mblock messageType { session with posted := rest }).2 with
            ⟨added, same, overflows⟩
          refine ⟨added, ?_, ?_⟩
          · rw [Label.remainingPosted, tail]
            exact same
          · intro disconnects
            have fits := overflows disconnects
            rw [overflows_eq] at fits
            simp only [postsDisconnect, overflowsNext, posted, overflows_eq]
            exact fits

/-- A step closes the connection by the oldest handler, or leaves it as it is. -/
theorem Step.connection {session next : TcpSessionImpl μ} {label : Label}
    (step : Step session label next) : Closes session label next ∨ Stays session next := by
  cases step with
  | sendMessage => exact .inr (.of_same rfl rfl)
  | disconnect => exact .inr (.of_same rfl rfl)
  | disconnectGracefully => exact .inr (.of_same rfl rfl)
  | disconnectTimerExpires => exact .inr (.of_same rfl rfl)
  | writeCompleted earlier error outstanding =>
      rename_i write later
      have quiet := write_completed_quiet error write { session with writes := earlier ++ later }
      right
      apply Stays.of_same
      · rw [isConnected, quiet.isSocketOpen]
        split <;> rfl
      · rw [quiet.events]
        split <;> rfl
  | disconnectTimerHandler earlier waits completed =>
      right
      unfold TcpSessionImpl.disconnectTimerHandler disconnectTimedOut
      dsimp only
      split
      · split <;> exact .of_same rfl rfl
      · exact .of_same rfl rfl
  | handler now posted =>
      rename_i handler rest
      cases handler with
      | disconnect =>
          simp only [runHandler, disconnectHandler]
          split
          · exact .inr (.of_same rfl rfl)
          · rename_i unreserved
            split
            · rename_i closed
              right
              exact .of_same (by simpa [isConnected] using closed) rfl
            · rename_i connected
              left
              refine ⟨rfl, ?_, rfl, List.append_assoc _ _ _⟩
              have free : session.isDisconnectReserved = false := Bool.eq_false_iff.mpr unreserved
              have isOpen : session.isConnected = true := by simpa [isConnected] using connected
              simp only [closesNext, posted, free, isOpen]
              rfl
      | disconnectGracefully =>
          right
          simp only [runHandler, disconnectGracefullyHandler]
          split <;> exact .of_same rfl rfl
      | sendMessage mblock messageType =>
          right
          have stays := (send_message_handler_cases mblock messageType { session with posted := rest }).1
          exact ⟨stays.isConnected, stays.events⟩

theorem Step.was_connected {session next : TcpSessionImpl μ} {label : Label}
    (step : Step session label next)
    (connected : next.isConnected = true) : session.isConnected = true := by
  rcases step.connection with closes | stays
  · exact absurd (closes.isConnected.symm.trans connected) Bool.false_ne_true
  · exact stays.isConnected.symm.trans connected

/-- A step that does not close the connection leaves it as it is. -/
theorem Step.same_connection {session next : TcpSessionImpl μ} {label : Label}
    (step : Step session label next)
    (stays : ¬(session.isConnected && !next.isConnected) = true) :
    next.isConnected = session.isConnected := by
  cases after : next.isConnected with
  | true => exact (step.was_connected after).symm
  | false =>
      rw [after, Bool.not_false, Bool.and_true, Bool.not_eq_true] at stays
      exact stays.symm

end Connections

end TcpSessionImpl

end Sne.Session
