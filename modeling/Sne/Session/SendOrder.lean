import Mathlib.Data.List.ReduceOption
import Sne.Session.StaleHandlers
import Sne.Session.WritePath

/-!
# The order of the messages

The handler of `sendMessage` hands its message on or refuses it. A refusal asks for a
disconnect behind the handlers that are posted already, so the messages of these may be
handed on after one that was refused. The state keeps what each handler that found the
connection open did with its message.
-/

namespace Sne.Session

open Sne.Base Sne.Sgp Sne.Library.Runs

set_option autoImplicit false

def PostedHandler.isSendMessage : PostedHandler → Bool
  | .sendMessage _ _ => true
  | _ => false

namespace TcpSessionImpl

variable {μ : Type} [Marshaller μ]

/-- A connection right after its session was opened. -/
structure Fresh (session : TcpSessionImpl μ) : Prop where
  connected : session.isSocketOpen = true
  queue : session.outputQueue = []
  notPended : session.isWritePended = false

/-- No wait is left of an earlier connection. -/
structure FirstOpened (session : TcpSessionImpl μ) : Prop extends session.Fresh where
  disconnectTimer : session.disconnectTimer = {}

theorem created_first_opened (now : TimePoint) (marshaller : μ) (maxPendablePacketCount : Nat) :
    (create now marshaller maxPendablePacketCount).sessionOpened.FirstOpened :=
  ⟨⟨rfl, rfl, rfl⟩, rfl⟩

def accepts (mblock : BlockPointer) (messageType : MessageType) (session : TcpSessionImpl μ) : Bool :=
  session.canSendMessage && (Marshaller.marshal mblock.mblock messageType session.marshaller).1 &&
    (!session.isWritePended || session.checkOutputQueue.1)

def verdict (mblock : BlockPointer) (messageType : MessageType) (session : TcpSessionImpl μ) :
    Option (List UInt8) :=
  if session.accepts mblock messageType then
    some (Marshaller.marshal mblock.mblock messageType session.marshaller).2.1.contents
  else
    none

/-- The verdict of the step, when it is the handler of a message that finds the connection open. -/
def verdicts (session : TcpSessionImpl μ) : Label → List (Option (List UInt8))
  | .handler _ =>
      match session.posted with
      | .sendMessage mblock messageType :: _ =>
          if session.isConnected then [session.verdict mblock messageType] else []
      | _ => []
  | _ => []

def refusesNext (session : TcpSessionImpl μ) : Bool :=
  match session.posted with
  | .sendMessage mblock messageType :: _ =>
      session.canSendMessage && !session.accepts mblock messageType
  | _ => false

def disconnectsNext (session : TcpSessionImpl μ) : Bool :=
  match session.posted with
  | [] => false
  | handler :: _ => !handler.isSendMessage

section Forwarding

/-- The queue and what is newly taken have been handed to writes, or wait in the queue. -/
structure Takes (session next : TcpSessionImpl μ) (taken : List (List UInt8)) : Prop where
  handed : ∃ writes, next.handed = session.handed ++ writes ∧
    handedMessages writes ++ next.outputQueue.map BlockPointer.bytes =
      session.outputQueue.map BlockPointer.bytes ++ taken
  idle : next.isWritePended = false → next.outputQueue = []
  connected : next.isSocketOpen = session.isSocketOpen

omit [Marshaller μ]

theorem Takes.nothing {session next : TcpSessionImpl μ} (handed : next.handed = session.handed)
    (queue : next.outputQueue = session.outputQueue)
    (connected : next.isSocketOpen = session.isSocketOpen)
    (idle : next.isWritePended = false → next.outputQueue = []) : Takes session next [] := by
  refine ⟨⟨[], ?_, ?_⟩, idle, connected⟩
  · rw [handed, List.append_nil]
  · rw [queue, List.append_nil]
    rfl

theorem Takes.after {session middle next : TcpSessionImpl μ} {taken : List (List UInt8)}
    (takes : Takes middle next taken) (handed : middle.handed = session.handed)
    (queue : middle.outputQueue = session.outputQueue)
    (connected : middle.isSocketOpen = session.isSocketOpen) : Takes session next taken := by
  rcases takes.handed with ⟨writes, writesOn, messages⟩
  refine ⟨⟨writes, ?_, ?_⟩, takes.idle, takes.connected.trans connected⟩
  · rw [writesOn, handed]
  · rw [messages, queue]

theorem gather_write_takes (session : TcpSessionImpl μ) : Takes session session.gatherWrite [] := by
  by_cases queued : session.outputQueue = []
  · have same : session.gatherWrite = session := by simp only [gatherWrite, queued]
    rw [same]
    exact .nothing rfl rfl rfl fun _ => queued
  · rcases session.gather_write_hands queued with ⟨taken, rest, write, hands⟩
    refine ⟨⟨[write], hands.handed, ?_⟩, ?_, hands.connected⟩
    · rw [hands.remaining, hands.queue]
      simp [handedMessages, hands.buffers]
    · intro idle
      rw [hands.pended] at idle
      cases idle

theorem gather_written_output (error : ErrorCode) (blocks : List BlockPointer)
    (session : TcpSessionImpl μ) :
    (blocks.foldl (gatherWritten error) session).handed = session.handed ∧
      (blocks.foldl (gatherWritten error) session).outputQueue = session.outputQueue ∧
      (error ≠ .success →
        (blocks.foldl (gatherWritten error) session).isWritePended = session.isWritePended) := by
  induction blocks generalizing session with
  | nil => exact ⟨rfl, rfl, fun _ => rfl⟩
  | cons mblock blocks induction =>
      rcases induction (gatherWritten error session mblock) with ⟨handed, queue, pended⟩
      have first : (gatherWritten error session mblock).handed = session.handed ∧
          (gatherWritten error session mblock).outputQueue = session.outputQueue := by
        unfold gatherWritten
        split <;> exact ⟨rfl, rfl⟩
      refine ⟨handed.trans first.1, queue.trans first.2, ?_⟩
      intro failed
      apply (pended failed).trans
      rw [gatherWritten, if_neg failed]
      rfl

theorem write_completed_takes (error : ErrorCode) (write : AsyncWrite) (session : TcpSessionImpl μ)
    (idle : session.isWritePended = false → session.outputQueue = []) :
    Takes session (writeCompleted error write session) [] := by
  cases write with
  | single mblock =>
      simp only [writeCompleted, handleWrite, releaseBlock]
      split
      · have next := gather_write_takes (session.writeSucceeded mblock)
        exact { next with }
      · exact .nothing rfl rfl rfl idle
  | gather buffers =>
      rcases gather_written_output error session.outputMemoryBlocks session with ⟨handed, queue, pended⟩
      have quiet := gather_written_quiet error session.outputMemoryBlocks session
      simp only [writeCompleted, handleGatherWrite]
      split
      · have next := gather_write_takes { session.outputMemoryBlocks.foldl (gatherWritten error) session with
          outputBuffers := [], outputMemoryBlocks := [] }
        exact next.after handed queue quiet.isSocketOpen
      · rename_i failed
        have idleNow :
            (session.outputMemoryBlocks.foldl (gatherWritten error) session).isWritePended = false →
            (session.outputMemoryBlocks.foldl (gatherWritten error) session).outputQueue = [] := by
          intro notPended
          rw [queue]
          exact idle ((pended failed).symm.trans notPended)
        exact .nothing handed queue quiet.isSocketOpen idleNow

theorem check_output_queue_output (session : TcpSessionImpl μ) :
    session.checkOutputQueue.2.handed = session.handed ∧
      session.checkOutputQueue.2.outputQueue = session.outputQueue ∧
      session.checkOutputQueue.2.isWritePended = session.isWritePended := by
  unfold checkOutputQueue
  dsimp only
  split
  · exact ⟨rfl, rfl, rfl⟩
  · split <;> exact ⟨rfl, rfl, rfl⟩

end Forwarding

theorem accepts_posted (mblock : BlockPointer) (messageType : MessageType) (session : TcpSessionImpl μ)
    (rest : List PostedHandler) :
    { session with posted := rest }.accepts mblock messageType = session.accepts mblock messageType := by
  rw [accepts, accepts, check_output_queue_accepts, check_output_queue_accepts]
  rfl

theorem verdict_posted (mblock : BlockPointer) (messageType : MessageType) (session : TcpSessionImpl μ)
    (rest : List PostedHandler) :
    { session with posted := rest }.verdict mblock messageType = session.verdict mblock messageType := by
  rw [verdict, verdict, accepts_posted]

theorem verdict_refused {mblock : BlockPointer} {messageType : MessageType} {session : TcpSessionImpl μ}
    (refused : session.accepts mblock messageType = false) :
      session.verdict mblock messageType = none := by
  rw [verdict, refused]
  rfl

/-- What the handler of a message writes or queues. -/
theorem send_message_handler_takes (mblock : BlockPointer) (messageType : MessageType)
    (session : TcpSessionImpl μ) (idle : session.isWritePended = false → session.outputQueue = []) :
    Takes session (sendMessageHandler mblock messageType session)
      (session.verdict mblock messageType).toList := by
  unfold sendMessageHandler
  split
  · rename_i blocked
    have refused : session.accepts mblock messageType = false := by
      rw [accepts, (Bool.not_eq_true' _).mp blocked]
      rfl
    rw [verdict_refused refused]
    exact .nothing rfl rfl rfl idle
  · rename_i sends
    have can : session.canSendMessage = true := by simpa using sends
    dsimp only
    split
    · rename_i failed
      have refused : session.accepts mblock messageType = false := by
        rw [accepts, (Bool.not_eq_true' _).mp failed, Bool.and_false]
        rfl
      rw [verdict_refused refused]
      exact .nothing rfl rfl rfl idle
    · rename_i marshalled
      have succeeded : (Marshaller.marshal mblock.mblock messageType session.marshaller).1 = true := by
        simpa using marshalled
      split
      · rename_i pended
        rcases check_output_queue_output { session with
          marshaller := (Marshaller.marshal mblock.mblock messageType session.marshaller).2.2 } with
          ⟨handed, queue, stillPended⟩
        have quiet := check_output_queue_quiet { session with
          marshaller := (Marshaller.marshal mblock.mblock messageType session.marshaller).2.2 }
        have fits : session.accepts mblock messageType = { session with
            marshaller := (Marshaller.marshal mblock.mblock messageType session.marshaller).2.2
            }.checkOutputQueue.1 := by
          have pendedNow : session.isWritePended = true := pended
          rw [accepts, can, succeeded, pendedNow, check_output_queue_accepts, check_output_queue_accepts]
          rfl
        have busy : { session with
            marshaller := (Marshaller.marshal mblock.mblock messageType session.marshaller).2.2
            }.checkOutputQueue.2.isWritePended = true := stillPended.trans pended
        rw [verdict, fits]
        split
        · refine ⟨⟨[], ?_, ?_⟩, ?_, quiet.isSocketOpen⟩
          · exact handed.trans (List.append_nil _).symm
          · simp only [notify, queue]
            rw [List.map_append]
            rfl
          · intro idleNow
            exact absurd (busy.symm.trans idleNow) Bool.noConfusion
        · exact .nothing handed queue quiet.isSocketOpen
            fun idleNow => absurd (busy.symm.trans idleNow) Bool.noConfusion
      · rename_i notPended
        have free : session.isWritePended = false := Bool.eq_false_iff.mpr notPended
        have accepted : session.accepts mblock messageType = true := by
          rw [accepts, can, succeeded, free]
          rfl
        rw [verdict, if_pos accepted]
        refine ⟨⟨[.single _], rfl, ?_⟩, ?_, rfl⟩
        · rw [idle free]
          rfl
        · intro idleNow
          cases idleNow

/-- What the handler of a message posts: a disconnect if it refuses the message of a connection that
may be written to. -/
theorem send_message_handler_posts (mblock : BlockPointer) (messageType : MessageType)
    (session : TcpSessionImpl μ) :
    ∃ added, (sendMessageHandler mblock messageType session).posted = session.posted ++ added ∧
      (session.canSendMessage = true → session.accepts mblock messageType = false →
        ∃ handler, added = [handler] ∧ handler.isSendMessage = false) := by
  unfold sendMessageHandler accepts
  split
  · rename_i blocked
    refine ⟨[], (List.append_nil _).symm, ?_⟩
    intro can
    rw [can] at blocked
    exact absurd blocked Bool.noConfusion
  · dsimp only
    split
    · exact ⟨[.disconnectGracefully], rfl, fun _ _ => ⟨_, rfl, rfl⟩⟩
    · rename_i marshalled
      have succeeded : (Marshaller.marshal mblock.mblock messageType session.marshaller).1 = true := by
        simpa using marshalled
      split
      · rename_i pended
        have quiet := check_output_queue_quiet { session with
          marshaller := (Marshaller.marshal mblock.mblock messageType session.marshaller).2.2 }
        split
        · rename_i accepted
          refine ⟨[], quiet.posted.trans (List.append_nil _).symm, ?_⟩
          intro can refused
          rw [check_output_queue_accepts] at accepted
          rw [can, succeeded, pended, check_output_queue_accepts] at refused
          dsimp only at accepted
          rw [accepted] at refused
          cases refused
        · refine ⟨[.disconnect], ?_, fun _ _ => ⟨_, rfl, rfl⟩⟩
          exact congrArg (fun posted => posted ++ [PostedHandler.disconnect]) quiet.posted
      · rename_i notPended
        refine ⟨[], (List.append_nil _).symm, ?_⟩
        intro can refused
        rw [can, succeeded, Bool.eq_false_iff.mpr notPended] at refused
        cases refused

structure QueueSettled (session : TcpSessionImpl μ) : Prop where
  idle : session.isWritePended = false → session.outputQueue = []
  closed : session.isSocketOpen = false → session.outputQueue = []

/-- A step hands on what it accepts, or closes the connection and drops the queue. -/
theorem Step.takes {session next : TcpSessionImpl μ} {label : Label} (step : Step session label next)
    (settled : session.QueueSettled) :
    Takes session next (session.verdicts label).reduceOption ∨
      next.isSocketOpen = false ∧ next.handed = session.handed ∧ next.outputQueue = [] ∧
        session.verdicts label = [] := by
  cases step with
  | sendMessage => exact .inl (.nothing rfl rfl rfl settled.idle)
  | disconnect => exact .inl (.nothing rfl rfl rfl settled.idle)
  | disconnectGracefully => exact .inl (.nothing rfl rfl rfl settled.idle)
  | disconnectTimerExpires => exact .inl (.nothing rfl rfl rfl settled.idle)
  | writeCompleted earlier error outstanding =>
      rename_i write later
      have takes := write_completed_takes error write { session with writes := earlier ++ later }
        settled.idle
      exact .inl (takes.after rfl rfl rfl)
  | disconnectTimerHandler earlier waits completed =>
      left
      simp only [TcpSessionImpl.disconnectTimerHandler, disconnectTimedOut]
      split
      · split <;> exact .nothing rfl rfl rfl settled.idle
      · exact .nothing rfl rfl rfl settled.idle
  | handler now posted =>
      rename_i handler rest
      cases handler with
      | disconnect =>
          have none : session.verdicts (.handler now) = [] := by simp only [verdicts, posted]
          rw [none]
          unfold runHandler disconnectHandler
          dsimp only
          split
          · exact .inl (.nothing rfl rfl rfl settled.idle)
          · split
            · rename_i wasClosed
              right
              exact ⟨rfl, rfl, settled.closed ((Bool.not_eq_true' _).mp wasClosed), rfl⟩
            · exact .inr ⟨rfl, rfl, rfl, rfl⟩
      | disconnectGracefully =>
          have none : session.verdicts (.handler now) = [] := by simp only [verdicts, posted]
          rw [none]
          left
          simp only [runHandler, disconnectGracefullyHandler]
          split <;> exact .nothing rfl rfl rfl settled.idle
      | sendMessage mblock messageType =>
          left
          have takes := send_message_handler_takes mblock messageType
            { session with posted := rest } settled.idle
          have same : (session.verdicts (.handler now)).reduceOption =
              ({ session with posted := rest }.verdict mblock messageType).toList := by
            rw [verdict_posted]
            simp only [verdicts, posted]
            split
            · cases session.verdict mblock messageType <;> rfl
            · rename_i notConnected
              have refused : session.accepts mblock messageType = false := by
                rw [accepts, canSendMessage, Bool.eq_false_iff.mpr notConnected]
                rfl
              rw [verdict_refused refused]
              rfl
          rw [same]
          exact { takes with }

/-- A step has at most one verdict, on the message whose handler is next. -/
theorem verdicts_one (session : TcpSessionImpl μ) (label : Label) :
    session.verdicts label = [] ∨ ∃ mblock messageType rest,
      session.posted = .sendMessage mblock messageType :: rest ∧ session.isConnected = true ∧
      session.verdicts label = [session.verdict mblock messageType] := by
  cases label with
  | handler now =>
      unfold verdicts
      dsimp only
      split
      · rename_i mblock messageType rest posted
        split
        · rename_i connected
          exact .inr ⟨mblock, messageType, rest, posted, connected, rfl⟩
        · exact .inl rfl
      · exact .inl rfl
  | sendMessage => exact .inl rfl
  | disconnect => exact .inl rfl
  | disconnectGracefully => exact .inl rfl
  | writeCompleted => exact .inl rfl
  | disconnectTimerExpires => exact .inl rfl
  | disconnectTimerHandler => exact .inl rfl

theorem Step.queueSettled {session next : TcpSessionImpl μ} {label : Label}
    (step : Step session label next)
    (settled : session.QueueSettled) : next.QueueSettled := by
  rcases step.takes settled with takes | ⟨_, _, queue, _⟩
  · refine ⟨takes.idle, ?_⟩
    intro closed
    rw [takes.connected] at closed
    rcases takes.handed with ⟨writes, _, moved⟩
    rcases verdicts_one session label with none | ⟨_, _, _, _, connected, _⟩
    · rw [settled.closed closed, none] at moved
      exact List.map_eq_nil_iff.mp (List.append_eq_nil_iff.mp moved).2
    · exact absurd (closed.symm.trans connected) Bool.false_ne_true
  · exact ⟨fun _ => queue, fun _ => queue⟩

omit [Marshaller μ] in
theorem Fresh.queueSettled {session : TcpSessionImpl μ} (fresh : session.Fresh) : session.QueueSettled :=
  ⟨fun _ => fresh.queue, fun _ => fresh.queue⟩

section Refusals

/-- No message is accepted until the connection is closed, as long as the timer runs on. -/
def Guarded (session : TcpSessionImpl μ) : Prop :=
  session.isConnected = true → session.isDisconnectReserved = true ∨ session.disconnectsNext = true

omit [Marshaller μ] in
theorem disconnects_next_append {session next : TcpSessionImpl μ} {added : List PostedHandler}
    (posted : next.posted = session.posted ++ added) (disconnects : session.disconnectsNext = true) :
    next.disconnectsNext = true := by
  unfold disconnectsNext at disconnects ⊢
  rw [posted]
  cases same : session.posted with
  | nil =>
      rw [same] at disconnects
      cases disconnects
  | cons handler rest =>
      rw [same] at disconnects
      exact disconnects

omit [Marshaller μ] in
theorem Guarded.append {session next : TcpSessionImpl μ} {added : List PostedHandler}
    (guarded : session.Guarded) (isOpen : next.isSocketOpen = session.isSocketOpen)
    (timer : next.disconnectTimer.isRunning = session.disconnectTimer.isRunning)
    (posted : next.posted = session.posted ++ added) : next.Guarded := by
  intro connected
  rw [isConnected, isOpen] at connected
  apply (guarded connected).imp
  · intro reserved
    exact timer.trans reserved
  · intro disconnects
    exact disconnects_next_append posted disconnects

/-- The completion of a wait leaves no way to send, when it stops the timer. -/
def StaysClosed (session : TcpSessionImpl μ) (index : Nat) : Bool :=
  !session.isConnected || !session.isDisconnectReserved || session.disconnectsNext ||
    session.posted.isEmpty && session.timesOut index

omit [Marshaller μ] in
/-- A completion of the disconnect timer leaves it stopped, and posts a disconnect if the timer
has run out and nothing is left to write. -/
theorem disconnect_timer_handler_control {session : TcpSessionImpl μ} {earlier later : List Wait}
    {wait : Wait} {error : ErrorCode} (waits : session.disconnectTimer.waits = earlier ++ wait :: later)
    (completed : wait.completion = some error) {next : TcpSessionImpl μ}
    (handled : next = disconnectTimerHandler error { session with
      disconnectTimer := { session.disconnectTimer with waits := earlier ++ later } }) :
    next.isSocketOpen = session.isSocketOpen ∧ next.disconnectTimer.isRunning = false ∧
      next.posted = session.posted ++ if session.timesOut earlier.length then [.disconnect] else [] := by
  have found : session.disconnectTimer.waits[earlier.length]? = some wait := by
    rw [waits, List.getElem?_append_right (Nat.le_refl _), Nat.sub_self, List.getElem?_cons_zero]
  rw [handled, timesOut, found, Option.bind_some, completed]
  unfold disconnectTimerHandler disconnectTimedOut
  dsimp only
  cases error with
  | success =>
      cases running : session.disconnectTimer.isRunning with
      | false => exact ⟨rfl, rfl, (List.append_nil _).symm⟩
      | true =>
          cases busy : session.isWritePended || !session.outputQueue.isEmpty with
          | false => exact ⟨rfl, rfl, rfl⟩
          | true => exact ⟨rfl, rfl, (List.append_nil _).symm⟩
  | operationAborted => exact ⟨rfl, rfl, (List.append_nil _).symm⟩
  | other => exact ⟨rfl, rfl, (List.append_nil _).symm⟩

omit [Marshaller μ] in
theorem disconnect_timer_guarded {session : TcpSessionImpl μ} {earlier later : List Wait} {wait : Wait}
    {error : ErrorCode} (waits : session.disconnectTimer.waits = earlier ++ wait :: later)
    (completed : wait.completion = some error) (guarded : session.Guarded)
    (stays : session.StaysClosed earlier.length = true) {next : TcpSessionImpl μ}
    (handled : next = disconnectTimerHandler error { session with
      disconnectTimer := { session.disconnectTimer with waits := earlier ++ later } }) :
    next.Guarded := by
  rcases disconnect_timer_handler_control waits completed handled with ⟨isOpen, _, posted⟩
  intro connected
  rw [isConnected, isOpen] at connected
  right
  cases disconnects : session.disconnectsNext with
  | true => exact disconnects_next_append posted disconnects
  | false =>
      have reserved : session.isDisconnectReserved = true := by
        apply (guarded connected).resolve_right
        rw [disconnects]
        exact Bool.false_ne_true
      have wasConnected : session.isConnected = true := connected
      rw [StaysClosed, wasConnected, reserved, disconnects] at stays
      simp only [Bool.not_true, Bool.false_or, Bool.and_eq_true] at stays
      rw [disconnectsNext, posted, List.isEmpty_iff.mp stays.1, stays.2]
      rfl

/-- What guards the connection guards it until it is closed. -/
theorem Step.guarded {session next : TcpSessionImpl μ} {label : Label} (step : Step session label next)
    (guarded : session.Guarded)
    (stays : ∀ index, label = .disconnectTimerHandler index → session.StaysClosed index = true) :
    next.Guarded := by
  cases step with
  | sendMessage => exact guarded.append rfl rfl rfl
  | disconnect => exact guarded.append rfl rfl rfl
  | disconnectGracefully => exact guarded.append rfl rfl rfl
  | disconnectTimerExpires => exact guarded.append rfl rfl (List.append_nil _).symm
  | writeCompleted earlier error outstanding =>
      rename_i write later
      have quiet := write_completed_quiet error write { session with writes := earlier ++ later }
      split at quiet
      · exact guarded.append quiet.isSocketOpen (congrArg AsioTimer.isRunning quiet.disconnectTimer)
          (quiet.posted.trans (List.append_nil _).symm)
      · exact guarded.append quiet.isSocketOpen (congrArg AsioTimer.isRunning quiet.disconnectTimer)
          quiet.posted
  | disconnectTimerHandler earlier waits completed =>
      exact disconnect_timer_guarded waits completed guarded (stays _ rfl) rfl
  | handler now posted =>
      rename_i handler rest
      cases handler with
      | disconnect =>
          unfold runHandler disconnectHandler
          dsimp only
          split
          · rename_i reserved
            exact fun _ => .inl reserved
          · split <;> exact fun connected => absurd connected Bool.false_ne_true
      | disconnectGracefully =>
          unfold runHandler disconnectGracefullyHandler
          dsimp only
          split
          · rename_i reserved
            exact fun _ => .inl reserved
          · exact fun _ => .inl rfl
      | sendMessage mblock messageType =>
          have keeps := (send_message_handler_keeps mblock messageType { session with posted := rest }).1
          have stays := (send_message_handler_cases mblock messageType { session with posted := rest }).1
          intro connected
          rw [runHandler, stays.isConnected] at connected
          left
          rw [runHandler, isDisconnectReserved, keeps]
          apply (guarded connected).resolve_right
          simp only [disconnectsNext, posted]
          exact Bool.false_ne_true

/-- A message that is refused on an open connection guards it, when the next handler is not that of
another. -/
theorem Step.refuses {session next : TcpSessionImpl μ} {label : Label} (step : Step session label next)
    (refused : none ∈ session.verdicts label)
    (last : session.refusesNext = true → session.posted.tail.head?.any PostedHandler.isSendMessage = false) :
    next.Guarded := by
  cases step with
  | sendMessage => cases refused
  | disconnect => cases refused
  | disconnectGracefully => cases refused
  | disconnectTimerExpires => cases refused
  | writeCompleted => cases refused
  | disconnectTimerHandler => cases refused
  | handler now posted =>
      rename_i handler rest
      cases handler with
      | disconnect =>
          simp only [verdicts, posted] at refused
          cases refused
      | disconnectGracefully =>
          simp only [verdicts, posted] at refused
          cases refused
      | sendMessage mblock messageType =>
          have keeps := (send_message_handler_keeps mblock messageType { session with posted := rest }).1
          intro _
          cases reserved : session.disconnectTimer.isRunning with
          | true =>
              left
              rw [runHandler, isDisconnectReserved, keeps]
              exact reserved
          | false =>
              right
              simp only [verdicts, posted] at refused
              split at refused
              · rename_i connected
                have can : session.canSendMessage = true := by
                  rw [canSendMessage, connected, shouldBlockWrite, reserved]
                  rfl
                have notAccepted : session.accepts mblock messageType = false := by
                  rw [verdict] at refused
                  split at refused
                  · cases List.mem_singleton.mp refused
                  · rename_i notAccepted
                    exact Bool.eq_false_iff.mpr notAccepted
                rcases send_message_handler_posts mblock messageType { session with posted := rest } with
                  ⟨added, appended, disconnects⟩
                rcases disconnects can ((accepts_posted _ _ _ _).trans notAccepted) with
                  ⟨handler, rfl, other⟩
                have none : rest.head?.any PostedHandler.isSendMessage = false := by
                  have refuses : session.refusesNext = true := by
                    simp only [refusesNext, posted]
                    rw [can, notAccepted]
                    rfl
                  have behind := last refuses
                  rw [posted, List.tail_cons] at behind
                  exact behind
                rw [runHandler, disconnectsNext, appended]
                cases rest with
                | nil =>
                    simp only [List.nil_append]
                    rw [other]
                    rfl
                | cons first others =>
                    have other : first.isSendMessage = false := none
                    simp only [List.cons_append]
                    rw [other]
                    rfl
              · cases refused

end Refusals

end TcpSessionImpl

/-- The session with what became of each message whose handler found the connection open: its
bytes, or that it was refused. -/
structure SendOrder (μ : Type) where
  session : TcpSessionImpl μ
  handled : List (Option (List UInt8)) := []

namespace SendOrder

variable {μ : Type} [Marshaller μ]

inductive Step : SendOrder μ → TcpSessionImpl.Label → SendOrder μ → Prop where
  | session {state : SendOrder μ} {label : TcpSessionImpl.Label} {next : TcpSessionImpl μ} :
      TcpSessionImpl.Step state.session label next →
      Step state label { session := next, handled := state.handled ++ state.session.verdicts label }

def advance (state : SendOrder μ) (label : TcpSessionImpl.Label) : Option (SendOrder μ) :=
  (state.session.advance label).map fun next =>
    { session := next, handled := state.handled ++ state.session.verdicts label }

theorem advance_sound (state : SendOrder μ) (label : TcpSessionImpl.Label) (next : SendOrder μ)
    (advances : state.advance label = some next) : Step state label next := by
  rcases Option.map_eq_some_iff.mp advances with ⟨moved, taken, rfl⟩
  exact .session (state.session.advance_sound label moved taken)

/-- When a message is refused the next handler is not that of another, and after a refusal the
disconnect timer stops only when a disconnect is next. -/
def RefusesLast (state : SendOrder μ) : TcpSessionImpl.Label → Prop
  | .handler _ => state.session.refusesNext = true →
      state.session.posted.tail.head?.any PostedHandler.isSendMessage = false
  | .disconnectTimerHandler index => none ∈ state.handled → state.session.StaysClosed index = true
  | _ => True

instance (state : SendOrder μ) (label : TcpSessionImpl.Label) : Decidable (state.RefusesLast label) :=
  match label with
  | .handler _ => inferInstanceAs (Decidable (_ → _))
  | .disconnectTimerHandler _ => inferInstanceAs (Decidable (_ → _))
  | .sendMessage _ _ => .isTrue trivial
  | .disconnect => .isTrue trivial
  | .disconnectGracefully => .isTrue trivial
  | .writeCompleted _ _ => .isTrue trivial
  | .disconnectTimerExpires _ => .isTrue trivial

/-- What the peer was sent since `first` are the first messages in the order of their handlers, and
none of them follows one that was refused. -/
def NoGap (first : TcpSessionImpl μ) (state : SendOrder μ) : Prop :=
  ∃ writes, state.session.handed = first.handed ++ writes ∧
    TcpSessionImpl.handedMessages writes <+: (state.handled.takeWhile Option.isSome).reduceOption

structure Ordered (first : TcpSessionImpl μ) (accepted : List (List UInt8)) (refused : Nat)
    (state : SendOrder μ) : Prop where
  handled : state.handled = accepted.map some ++ List.replicate refused none
  settled : state.session.QueueSettled
  guarded : refused ≠ 0 → state.session.Guarded
  handed : ∃ writes dropped, state.session.handed = first.handed ++ writes ∧
    TcpSessionImpl.handedMessages writes ++ state.session.outputQueue.map BlockPointer.bytes ++ dropped =
      accepted ∧ (state.session.isSocketOpen = true → dropped = [])

omit [Marshaller μ] in
theorem Ordered.noGap {first : TcpSessionImpl μ} {accepted : List (List UInt8)} {refused : Nat}
    {state : SendOrder μ} (ordered : state.Ordered first accepted refused) : state.NoGap first := by
  rcases ordered.handed with ⟨writes, dropped, handed, messages, _⟩
  refine ⟨writes, handed, ?_⟩
  have whole : (state.handled.takeWhile Option.isSome).reduceOption = accepted := by
    rw [ordered.handled, List.takeWhile_append_of_pos (by simp), List.takeWhile_replicate,
      if_neg (by simp), List.append_nil, List.reduceOption, List.filterMap_map]
    exact List.filterMap_some
  rw [whole, ← messages, List.append_assoc]
  exact List.prefix_append _ _

theorem guarded_refuses {session : TcpSessionImpl μ} {mblock : BlockPointer} {messageType : MessageType}
    {rest : List PostedHandler} (posted : session.posted = .sendMessage mblock messageType :: rest)
    (connected : session.isConnected = true) (guarded : session.Guarded) :
    session.verdict mblock messageType = none := by
  have reserved : session.disconnectTimer.isRunning = true := by
    apply (guarded connected).resolve_right
    simp only [TcpSessionImpl.disconnectsNext, posted]
    exact Bool.false_ne_true
  apply TcpSessionImpl.verdict_refused
  rw [TcpSessionImpl.accepts, TcpSessionImpl.canSendMessage, TcpSessionImpl.shouldBlockWrite, reserved,
    connected]
  rfl

omit [Marshaller μ] in
theorem Ordered.forwards {first next : TcpSessionImpl μ} {accepted taken : List (List UInt8)}
    {refused : Nat} {state : SendOrder μ} (ordered : state.Ordered first accepted refused)
    (takes : TcpSessionImpl.Takes state.session next taken)
    (nothing : state.session.isSocketOpen = false → taken = []) :
    ∃ writes dropped, next.handed = first.handed ++ writes ∧
      TcpSessionImpl.handedMessages writes ++ next.outputQueue.map BlockPointer.bytes ++ dropped =
        accepted ++ taken ∧ (next.isSocketOpen = true → dropped = []) := by
  rcases ordered.handed with ⟨writes, dropped, handed, messages, whole⟩
  rcases takes.handed with ⟨more, handedNow, moved⟩
  have together : TcpSessionImpl.handedMessages (writes ++ more) ++
      next.outputQueue.map BlockPointer.bytes = TcpSessionImpl.handedMessages writes ++
        (state.session.outputQueue.map BlockPointer.bytes ++ taken) := by
    rw [← moved, TcpSessionImpl.handedMessages, List.flatMap_append, List.append_assoc]
    rfl
  refine ⟨writes ++ more, dropped, ?_, ?_, ?_⟩
  · rw [handedNow, handed, List.append_assoc]
  · rw [together, ← messages]
    cases isOpen : state.session.isSocketOpen with
    | true => simp [whole isOpen]
    | false => simp [nothing isOpen]
  · intro isOpen
    exact whole (takes.connected.symm.trans isOpen)

theorem step_ordered {first : TcpSessionImpl μ} {accepted : List (List UInt8)} {refused : Nat}
    {state next : SendOrder μ} {label : TcpSessionImpl.Label}
    (ordered : state.Ordered first accepted refused)
    (step : Step state label next) (last : state.RefusesLast label) :
    ∃ accepted refused, next.Ordered first accepted refused := by
  cases step with
  | session taken =>
      rename_i moved
      have guards : refused ≠ 0 → moved.Guarded := by
        intro some
        have member : none ∈ state.handled := by
          rw [ordered.handled]
          exact List.mem_append_right _ (List.mem_replicate.mpr ⟨some, rfl⟩)
        apply taken.guarded (ordered.guarded some)
        intro index same
        rw [same] at last
        exact last member
      have settled := taken.queueSettled ordered.settled
      rcases taken.takes ordered.settled with takes | ⟨closed, handed, queue, none⟩
      · rcases TcpSessionImpl.verdicts_one state.session label with
          none | ⟨mblock, messageType, rest, posted, connected, one⟩
        · rw [none] at takes
          have handed := ordered.forwards takes (fun _ => rfl)
          refine ⟨accepted, refused, ?_, settled, guards, ?_⟩
          · rw [none, List.append_nil]
            exact ordered.handled
          · rw [List.reduceOption_nil, List.append_nil] at handed
            exact handed
        · have isOpen : state.session.isSocketOpen = true := connected
          have handed := ordered.forwards takes
            (fun closed => absurd (closed.symm.trans isOpen) Bool.false_ne_true)
          cases verdict : state.session.verdict mblock messageType with
          | none =>
              rw [verdict] at one
              refine ⟨accepted, refused + 1, ?_, settled, ?_, ?_⟩
              · rw [one, ordered.handled, List.replicate_succ', List.append_assoc]
              · intro _
                apply taken.refuses
                · rw [one]
                  exact List.mem_singleton_self _
                · intro refuses
                  cases label with
                  | handler now => exact last refuses
                  | _ => cases one
              · rw [one, List.reduceOption_singleton] at handed
                simpa using handed
          | some bytes =>
              rw [verdict] at one
              have never : refused = 0 := by
                by_contra some
                have none := guarded_refuses posted connected (ordered.guarded some)
                rw [verdict] at none
                cases none
              refine ⟨accepted ++ [bytes], 0, ?_, settled, ?_, ?_⟩
              · rw [one, ordered.handled, never]
                simp
              · exact fun some => absurd rfl some
              · rw [one, List.reduceOption_singleton] at handed
                exact handed
      · refine ⟨accepted, refused, ?_⟩
        rcases ordered.handed with ⟨writes, dropped, before, messages, _⟩
        refine ⟨?_, settled, guards, ?_⟩
        · rw [none, List.append_nil]
          exact ordered.handled
        · refine ⟨writes, state.session.outputQueue.map BlockPointer.bytes ++ dropped, ?_, ?_, ?_⟩
          · rw [handed, before]
          · rw [queue, List.map_nil, List.append_nil, ← List.append_assoc]
            exact messages
          · intro isOpen
            exact absurd (closed.symm.trans isOpen) Bool.false_ne_true

section Concrete

open SendLedger

def narrow : SendOrder (SgpMarshaller CsPacketCoder) :=
  { session := (TcpSessionImpl.create 0 smallMarshaller 1).sessionOpened }

def refusing : List TcpSessionImpl.Label :=
  [emptyMessage 0, emptyMessage 1, emptyMessage 2, .handler 0, .handler 0, .handler 0,
    .writeCompleted 0 .success, .handler 0]

def sendingOn : List TcpSessionImpl.Label :=
  [emptyMessage 0, .handler 0, emptyMessage 1, emptyMessage 2, emptyMessage 3, .handler 0, .handler 0,
    .writeCompleted 0 .success, .handler 0, .writeCompleted 0 .success]

end Concrete

end SendOrder

end Sne.Session
