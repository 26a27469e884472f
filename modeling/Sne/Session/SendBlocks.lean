import Mathlib.Data.List.InsertIdx
import Sne.Session.WritePath

/-!
# The blocks of messages to send

A block that was passed to `sendMessage` is in the guard of a posted handler, in the
output queue, with an outstanding write or released. A gathered write finds its blocks
in a member of the session, not in its handler, and closing the connection clears this
member. The session may be opened any number of times.
-/

namespace Sne.Session

open Sne.Base Sne.Sgp Sne.Library.Runs

set_option autoImplicit false

def PostedHandler.blocks : PostedHandler → List BlockPointer
  | .sendMessage mblock _ => [mblock]
  | _ => []

def AsyncWrite.isGather : AsyncWrite → Bool
  | .single _ => false
  | .gather _ => true

def AsyncWrite.blocks (gathered : List BlockPointer) : AsyncWrite → List BlockPointer
  | .single mblock => [mblock]
  | .gather _ => gathered

/-- Where the blocks of a session are. -/
structure SendBlocks where
  isSocketOpen : Bool
  posted : List BlockPointer
  outputQueue : List BlockPointer
  writes : List AsyncWrite
  outputMemoryBlocks : List BlockPointer
  released : List Nat

def TcpSessionImpl.sendBlocks {μ : Type} (session : TcpSessionImpl μ) : SendBlocks :=
  { isSocketOpen := session.isSocketOpen
    posted := session.posted.flatMap PostedHandler.blocks
    outputQueue := session.outputQueue
    writes := session.writes
    outputMemoryBlocks := session.outputMemoryBlocks
    released := session.released }

namespace SendBlocks

def held (blocks : SendBlocks) : List BlockPointer :=
  blocks.posted ++ blocks.outputQueue ++
    blocks.writes.flatMap (AsyncWrite.blocks blocks.outputMemoryBlocks)

def Ungathered (writes : List AsyncWrite) : Prop := ∀ write ∈ writes, write.isGather = false

instance (writes : List AsyncWrite) : Decidable (Ungathered writes) :=
  inferInstanceAs (Decidable (∀ write ∈ writes, write.isGather = false))

/-- Every block that was sent is held or released, and held once. -/
structure Conserved (sent : List Nat) (blocks : SendBlocks) : Prop where
  gathers : blocks.writes.countP AsyncWrite.isGather ≤ 1
  idle : Ungathered blocks.writes → blocks.outputMemoryBlocks = []
  closed : blocks.isSocketOpen = false → blocks.outputQueue = []
  counts : ∀ address, sent.count address = blocks.released.count address +
    (blocks.held.map BlockPointer.address).count address

inductive GatherWrites (blocks : SendBlocks) : SendBlocks → Prop where
  | empty : blocks.outputQueue = [] → GatherWrites blocks blocks
  | single (mblock : BlockPointer) : blocks.outputQueue = [mblock] →
      GatherWrites blocks
        { blocks with outputQueue := [], writes := blocks.writes ++ [.single mblock] }
  | gather (taken rest : List BlockPointer) (buffers : List (List UInt8)) :
      2 ≤ blocks.outputQueue.length → blocks.outputQueue = taken ++ rest →
      GatherWrites blocks { blocks with
        outputQueue := rest
        writes := blocks.writes ++ [.gather buffers]
        outputMemoryBlocks := taken }

theorem ungathered_blocks {writes : List AsyncWrite} (ungathered : Ungathered writes)
    (first second : List BlockPointer) :
    writes.flatMap (AsyncWrite.blocks first) = writes.flatMap (AsyncWrite.blocks second) := by
  induction writes with
  | nil => rfl
  | cons write rest induction =>
      have others : Ungathered rest := fun other member => ungathered other (List.mem_cons_of_mem _ member)
      have single := ungathered write List.mem_cons_self
      rw [List.flatMap_cons, List.flatMap_cons, induction others]
      cases write with
      | single mblock => rfl
      | gather buffers => cases single

theorem ungathered_count {writes : List AsyncWrite} :
    Ungathered writes ↔ writes.countP AsyncWrite.isGather = 0 := by
  rw [List.countP_eq_zero]
  constructor
  · intro ungathered write member gathers
    exact absurd ((ungathered write member).symm.trans gathers) Bool.false_ne_true
  · intro none write member
    exact Bool.eq_false_iff.mpr (none write member)

/-- The blocks may have moved, as long as each address is still counted once. -/
theorem Conserved.moves {sent : List Nat} {blocks next : SendBlocks} (conserved : Conserved sent blocks)
    (gathers : next.writes.countP AsyncWrite.isGather ≤ 1)
    (idle : Ungathered next.writes → next.outputMemoryBlocks = [])
    (closed : next.isSocketOpen = false → next.outputQueue = []) 
    (counts : ∀ address, next.released.count address + (next.held.map BlockPointer.address).count address =
      blocks.released.count address + (blocks.held.map BlockPointer.address).count address) :
    Conserved sent next :=
  { gathers, idle, closed, counts := fun address => (conserved.counts address).trans (counts address).symm }

theorem Conserved.gatherWrite {sent : List Nat} {blocks next : SendBlocks}
    (conserved : Conserved sent blocks) (gathers : GatherWrites blocks next)
    (free : 2 ≤ blocks.outputQueue.length → Ungathered blocks.writes) : Conserved sent next := by
  cases gathers with
  | empty _ => exact conserved
  | single mblock queue =>
      apply conserved.moves
      · simpa [AsyncWrite.isGather] using conserved.gathers
      · intro ungathered
        exact conserved.idle fun write member => ungathered write (List.mem_append_left _ member)
      · intro _
        rfl
      · intro address
        simp [held, queue, AsyncWrite.blocks, List.count_cons]
  | gather taken rest buffers many queue =>
      have ungathered := free many
      apply conserved.moves
      · simp [ungathered_count.mp ungathered, AsyncWrite.isGather]
      · intro none
        have last := none (.gather buffers) (List.mem_append_right _ List.mem_cons_self)
        cases last
      · intro closed
        rw [conserved.closed closed] at many
        simp at many
      · intro address
        simp [held, queue, AsyncWrite.blocks, ungathered_blocks ungathered taken blocks.outputMemoryBlocks]
        omega

theorem GatherWrites.release {blocks next : SendBlocks} (gathers : GatherWrites blocks next)
    (released : List Nat) :
    GatherWrites { blocks with released := blocks.released ++ released }
      { next with released := next.released ++ released } := by
  cases gathers with
  | empty queue => exact .empty queue
  | single mblock queue => exact .single mblock queue
  | gather taken rest buffers many queue => exact .gather taken rest buffers many queue

/-- Older writes stay outstanding, and the gathered blocks change only for a new write. -/
theorem GatherWrites.keeps {blocks next : SendBlocks} (gathers : GatherWrites blocks next) :
    blocks.writes <+: next.writes ∧
      (next.outputMemoryBlocks = blocks.outputMemoryBlocks ∨ 2 ≤ blocks.outputQueue.length) := by
  cases gathers with
  | empty _ => exact ⟨List.prefix_rfl, .inl rfl⟩
  | single mblock _ => exact ⟨List.prefix_append _ _, .inl rfl⟩
  | gather taken rest buffers many _ => exact ⟨List.prefix_append _ _, .inr many⟩

structure Settles (sent : List Nat) (kept : List AsyncWrite) (gathered : List BlockPointer)
    (next : SendBlocks) : Prop where
  conserved : Conserved sent next
  writes : kept <+: next.writes
  gathered : next.outputMemoryBlocks = gathered ∨ Ungathered kept

theorem Conserved.settles {sent : List Nat} {blocks : SendBlocks} (conserved : Conserved sent blocks) :
    Settles sent blocks.writes blocks.outputMemoryBlocks blocks :=
  ⟨conserved, List.prefix_rfl, .inl rfl⟩

theorem Conserved.settles_gatherWrite {sent : List Nat} {blocks next : SendBlocks}
    (conserved : Conserved sent blocks) (gathers : GatherWrites blocks next)
    (free : 2 ≤ blocks.outputQueue.length → Ungathered blocks.writes) :
    Settles sent blocks.writes blocks.outputMemoryBlocks next := by
  rcases gathers.keeps with ⟨writes, gathered⟩
  exact ⟨conserved.gatherWrite gathers free, writes, gathered.imp_right free⟩

theorem Conserved.completeSingle {sent : List Nat} {blocks : SendBlocks}
    {earlier later : List AsyncWrite}
    {mblock : BlockPointer} (conserved : Conserved sent blocks)
    (outstanding : blocks.writes = earlier ++ .single mblock :: later) :
    Conserved sent { blocks with
      writes := earlier ++ later
      released := blocks.released ++ [mblock.address] } := by
  apply conserved.moves
  · simpa [outstanding, AsyncWrite.isGather] using conserved.gathers
  · intro ungathered
    apply conserved.idle
    rw [ungathered_count] at ungathered ⊢
    simpa [outstanding, AsyncWrite.isGather] using ungathered
  · exact conserved.closed
  · intro address
    simp [held, outstanding, AsyncWrite.blocks, List.count_cons]
    omega

theorem Conserved.other_ungathered {sent : List Nat} {blocks : SendBlocks}
    {earlier later : List AsyncWrite} {buffers : List (List UInt8)} (conserved : Conserved sent blocks)
    (outstanding : blocks.writes = earlier ++ .gather buffers :: later) :
      Ungathered (earlier ++ later) := by
  have gathers := conserved.gathers
  have one : (AsyncWrite.gather buffers).isGather = true := rfl
  rw [outstanding, List.countP_append, List.countP_cons, if_pos one] at gathers
  rw [ungathered_count, List.countP_append]
  omega

theorem Conserved.completeGather {sent : List Nat} {blocks : SendBlocks}
    {earlier later : List AsyncWrite}
    {buffers : List (List UInt8)} (conserved : Conserved sent blocks)
    (outstanding : blocks.writes = earlier ++ .gather buffers :: later) :
    Conserved sent { blocks with
      writes := earlier ++ later
      outputMemoryBlocks := []
      released := blocks.released ++ blocks.outputMemoryBlocks.map BlockPointer.address } := by
  have ungathered := conserved.other_ungathered outstanding
  apply conserved.moves
  · rw [ungathered_count.mp ungathered]
    exact Nat.zero_le 1
  · intro _
    rfl
  · exact conserved.closed
  · intro address
    have same := ungathered_blocks ungathered [] blocks.outputMemoryBlocks
    simp only [held, same]
    simp [outstanding, AsyncWrite.blocks]
    omega

/-- The connection is closed while no gathered write is outstanding. -/
theorem Conserved.close {sent : List Nat} {blocks : SendBlocks} (conserved : Conserved sent blocks)
    (ungathered : Ungathered blocks.writes) :
    Conserved sent { blocks with
      isSocketOpen := false
      outputQueue := []
      outputMemoryBlocks := []
      released := blocks.released ++ blocks.outputQueue.map BlockPointer.address } := by
  apply conserved.moves
  · exact conserved.gathers
  · intro _
    rfl
  · intro _
    rfl
  · intro address
    simp [held, conserved.idle ungathered]
    omega

end SendBlocks

namespace TcpSessionImpl

open SendBlocks

variable {μ : Type}

theorem disconnect_sendBlocks (session : TcpSessionImpl μ) :
    session.disconnect.sendBlocks = session.sendBlocks := by
  simp [sendBlocks, disconnect, post, PostedHandler.blocks]

theorem disconnect_gracefully_sendBlocks (session : TcpSessionImpl μ) :
    session.disconnectGracefully.sendBlocks = session.sendBlocks := by
  simp [sendBlocks, disconnectGracefully, post, PostedHandler.blocks]

theorem release_sendBlocks (mblock : BlockPointer) (session : TcpSessionImpl μ) :
    (session.releaseBlock mblock).sendBlocks =
      { session.sendBlocks with released := session.sendBlocks.released ++ [mblock.address] } := rfl

theorem gather_write_sendBlocks (session : TcpSessionImpl μ) :
    GatherWrites session.sendBlocks session.gatherWrite.sendBlocks := by
  rcases queue : session.outputQueue with _ | ⟨mblock, _ | ⟨second, others⟩⟩
  · have same : session.gatherWrite = session := by simp only [gatherWrite, queue]
    rw [same]
    exact .empty queue
  · have single : session.gatherWrite = { session with outputQueue := [] }.writeMessage mblock := by
      simp only [gatherWrite, queue]
    rw [single]
    exact .single mblock queue
  · rcases gather_blocks_takes { session with outputBuffers := [], outputMemoryBlocks := [] }
      session.outputQueue (by simp [maxGatherWriteCount]) with ⟨taken, rest, split, _, _, gathers⟩
    rw [gather_write_many queue, gathers]
    exact .gather taken rest _ (by simp [sendBlocks, queue]) split

theorem gather_written_sendBlocks (error : ErrorCode) (mblocks : List BlockPointer)
    (session : TcpSessionImpl μ) :
    (mblocks.foldl (gatherWritten error) session).sendBlocks =
      { session.sendBlocks with
        released := session.sendBlocks.released ++ mblocks.map BlockPointer.address } := by
  induction mblocks generalizing session with
  | nil => simp
  | cons mblock rest induction =>
      have first : (gatherWritten error session mblock).sendBlocks =
          { session.sendBlocks with released := session.sendBlocks.released ++ [mblock.address] } := by
        unfold gatherWritten
        split <;> rfl
      rw [List.foldl_cons, induction, first]
      simp

theorem write_completed_settles {sent : List Nat} {session : TcpSessionImpl μ}
    {earlier later : List AsyncWrite} {write : AsyncWrite} {error : ErrorCode}
    (conserved : Conserved sent session.sendBlocks)
    (outstanding : session.writes = earlier ++ write :: later)
    (free : error = .success → write.isGather = false → 2 ≤ session.outputQueue.length →
      Ungathered session.writes) :
    Settles sent (earlier ++ later) session.outputMemoryBlocks
      (writeCompleted error write { session with writes := earlier ++ later }).sendBlocks := by
  cases write with
  | single mblock =>
      have completed := conserved.completeSingle outstanding
      simp only [writeCompleted, handleWrite]
      split
      case isTrue succeeded =>
        have gathers := (gather_write_sendBlocks
          ({ session with writes := earlier ++ later }.writeSucceeded mblock)).release [mblock.address]
        apply completed.settles_gatherWrite gathers
        intro many write member
        apply free succeeded rfl many
        rw [outstanding]
        rcases List.mem_append.mp member with before | after
        · exact List.mem_append_left _ before
        · exact List.mem_append_right _ (List.mem_cons_of_mem _ after)
      case isFalse failed =>
        rw [release_sendBlocks, disconnect_sendBlocks]
        exact completed.settles
  | gather buffers =>
      have completed := conserved.completeGather outstanding
      have ungathered := conserved.other_ungathered outstanding
      have written := gather_written_sendBlocks error session.outputMemoryBlocks
        { session with writes := earlier ++ later }
      have cleared : { session.outputMemoryBlocks.foldl (gatherWritten error)
            { session with writes := earlier ++ later } with
          outputBuffers := [], outputMemoryBlocks := [] }.sendBlocks =
          { session.sendBlocks with
            writes := earlier ++ later
            outputMemoryBlocks := []
            released := session.sendBlocks.released ++
              session.outputMemoryBlocks.map BlockPointer.address } :=
        congrArg (fun blocks : SendBlocks => { blocks with outputMemoryBlocks := [] }) written
      simp only [writeCompleted, handleGatherWrite]
      split
      case isTrue succeeded =>
        have gathers := gather_write_sendBlocks { session.outputMemoryBlocks.foldl (gatherWritten error)
            { session with writes := earlier ++ later } with
          outputBuffers := [], outputMemoryBlocks := [] }
        rw [cleared] at gathers
        have settles := completed.settles_gatherWrite gathers (fun _ => ungathered)
        exact ⟨settles.conserved, settles.writes, .inr ungathered⟩
      case isFalse failed =>
        rw [disconnect_sendBlocks, cleared]
        exact ⟨completed, List.prefix_rfl, .inr ungathered⟩

theorem posted_blocks {session : TcpSessionImpl μ} {handler : PostedHandler} {rest : List PostedHandler}
    (posted : session.posted = handler :: rest) :
    session.sendBlocks = { { session with posted := rest }.sendBlocks with
      posted := handler.blocks ++ { session with posted := rest }.sendBlocks.posted } := by
  simp [sendBlocks, posted]

end TcpSessionImpl

namespace SendBlocks

theorem Conserved.releasePosted {sent : List Nat} {blocks : SendBlocks} {mblock : BlockPointer}
    (conserved : Conserved sent { blocks with posted := [mblock] ++ blocks.posted }) :
    Conserved sent { blocks with released := blocks.released ++ [mblock.address] } := by
  apply conserved.moves
  · exact conserved.gathers
  · exact conserved.idle
  · exact conserved.closed
  · intro address
    simp [held, List.count_cons]
    omega

theorem Conserved.queuePosted {sent : List Nat} {blocks : SendBlocks} {mblock : BlockPointer}
    (conserved : Conserved sent { blocks with posted := [mblock] ++ blocks.posted })
    (isOpen : blocks.isSocketOpen = true) (marshalled : MemoryBlock) :
    Conserved sent { blocks with
      outputQueue := blocks.outputQueue ++ [{ mblock with mblock := marshalled }] } := by
  apply conserved.moves
  · exact conserved.gathers
  · exact conserved.idle
  · intro closed
    exact absurd (closed.symm.trans isOpen) Bool.false_ne_true
  · intro address
    simp [held, List.count_cons]
    omega

theorem Conserved.writePosted {sent : List Nat} {blocks : SendBlocks} {mblock : BlockPointer}
    (conserved : Conserved sent { blocks with posted := [mblock] ++ blocks.posted })
    (marshalled : MemoryBlock) :
    Conserved sent { blocks with
      writes := blocks.writes ++ [.single { mblock with mblock := marshalled }] } := by
  apply conserved.moves
  · simpa [AsyncWrite.isGather] using conserved.gathers
  · intro ungathered
    exact conserved.idle fun write member => ungathered write (List.mem_append_left _ member)
  · exact conserved.closed
  · intro address
    simp [held, AsyncWrite.blocks, List.count_cons]
    omega

end SendBlocks

namespace TcpSessionImpl

open SendBlocks

variable {μ : Type}

theorem check_output_queue_sendBlocks (session : TcpSessionImpl μ) :
    session.checkOutputQueue.2.sendBlocks = session.sendBlocks := by
  unfold checkOutputQueue
  dsimp only
  split
  · rfl
  · split <;> rfl

theorem send_message_handler_settles [Marshaller μ] {sent : List Nat} {session : TcpSessionImpl μ}
    {mblock : BlockPointer} (messageType : MessageType)
    (conserved : Conserved sent { session.sendBlocks with
      posted := [mblock] ++ session.sendBlocks.posted }) :
    Settles sent session.writes session.outputMemoryBlocks
      (session.sendMessageHandler mblock messageType).sendBlocks := by
  have releases := conserved.releasePosted
  unfold sendMessageHandler
  split
  · exact releases.settles
  · rename_i sendable
    have isOpen : session.isSocketOpen = true := by
      simp [canSendMessage, isConnected] at sendable
      exact sendable.1
    generalize Marshaller.marshal mblock.mblock messageType session.marshaller = result
    rcases result with ⟨marshalled, block, marshaller⟩
    dsimp only
    split
    · rw [release_sendBlocks, disconnect_gracefully_sendBlocks]
      exact releases.settles
    · split
      · have same := check_output_queue_sendBlocks { session with marshaller }
        generalize { session with marshaller }.checkOutputQueue = result at same
        rcases result with ⟨accepted, next⟩
        have sameNext : next.sendBlocks = session.sendBlocks := same
        dsimp only
        split
        · have queued : Settles sent session.writes session.outputMemoryBlocks { session.sendBlocks with
              outputQueue := session.sendBlocks.outputQueue ++ [{ mblock with mblock := block }] } :=
            (conserved.queuePosted isOpen block).settles
          rw [← sameNext] at queued
          exact queued
        · rw [release_sendBlocks, disconnect_sendBlocks, sameNext]
          exact releases.settles
      · exact ⟨conserved.writePosted block, List.prefix_append _ _, .inl rfl⟩

def Label.sent : Label → List Nat
  | .sendMessage mblock _ => [mblock.address]
  | _ => []

def Label.remaining {α : Type} (label : Label) (entries : List α) : List α :=
  match label with
  | .writeCompleted index _ => entries.eraseIdx index
  | _ => entries

/-- The handler of a single write starts a gathered one. -/
def gathersNext (session : TcpSessionImpl μ) (index : Nat) (error : ErrorCode) : Bool :=
  match session.writes[index]? with
  | some (.single _) => decide (error = .success) && decide (2 ≤ session.outputQueue.length)
  | _ => false

/-- A connection is not closed while a gathered write is outstanding, and no gathered write
is started then. -/
def GatherSettled (session : TcpSessionImpl μ) : Label → Prop
  | .handler _ => session.closesNext = true → Ungathered session.writes
  | .writeCompleted index error => session.gathersNext index error = true → Ungathered session.writes
  | _ => True

instance (session : TcpSessionImpl μ) (label : Label) : Decidable (session.GatherSettled label) :=
  match label with
  | .handler _ => inferInstanceAs (Decidable (_ → _))
  | .writeCompleted _ _ => inferInstanceAs (Decidable (_ → _))
  | .sendMessage _ _ => .isTrue trivial
  | .disconnect => .isTrue trivial
  | .disconnectGracefully => .isTrue trivial
  | .disconnectTimerExpires _ => .isTrue trivial
  | .disconnectTimerHandler _ => .isTrue trivial

theorem disconnect_handler_settles [Marshaller μ] {sent : List Nat} {session : TcpSessionImpl μ}
    (now : TimePoint) (conserved : Conserved sent session.sendBlocks)
    (settled : session.isDisconnectReserved = false → session.isConnected = true →
      Ungathered session.writes) :
    Settles sent session.writes session.outputMemoryBlocks (session.disconnectHandler now).sendBlocks := by
  unfold disconnectHandler
  split
  · exact conserved.settles
  · rename_i unreserved
    have reserved : session.isDisconnectReserved = false := Bool.eq_false_iff.mpr unreserved
    dsimp only
    cases connected : session.isConnected with
    | false =>
        have same : { session with
            disconnectTimer := session.disconnectTimer.cancel
            throttleTimer := session.throttleTimer.cancel
            isSocketOpen := false }.sendBlocks = session.sendBlocks :=
          congrArg (fun isOpen => { session.sendBlocks with isSocketOpen := isOpen }) connected.symm
        rw [if_pos Bool.not_false, same]
        exact conserved.settles
    | true =>
        have ungathered := settled reserved connected
        exact ⟨conserved.close ungathered, List.prefix_rfl, .inr ungathered⟩

theorem handler_settles [Marshaller μ] {sent : List Nat} {session : TcpSessionImpl μ}
    {handler : PostedHandler} {rest : List PostedHandler} (now : TimePoint)
    (posted : session.posted = handler :: rest) (conserved : Conserved sent session.sendBlocks)
    (settled : session.closesNext = true → Ungathered session.writes) :
    Settles sent session.writes session.outputMemoryBlocks
      (runHandler now handler { session with posted := rest }).sendBlocks := by
  rw [posted_blocks posted] at conserved
  cases handler with
  | disconnect =>
      have running : Conserved sent { session with posted := rest }.sendBlocks := conserved
      apply disconnect_handler_settles now running
      intro unreserved connected
      apply settled
      simp only [closesNext, posted]
      change session.isDisconnectReserved = false at unreserved
      change session.isConnected = true at connected
      rw [unreserved, connected, Bool.not_false, Bool.and_self]
  | disconnectGracefully =>
      have running : Conserved sent { session with posted := rest }.sendBlocks := conserved
      simp only [runHandler, disconnectGracefullyHandler]
      split
      · exact running.settles
      · exact running.settles
  | sendMessage mblock messageType => exact send_message_handler_settles messageType conserved

theorem step_settles [Marshaller μ] {sent : List Nat} {session next : TcpSessionImpl μ} {label : Label}
    (step : Step session label next) (conserved : Conserved sent session.sendBlocks)
    (settled : session.GatherSettled label) :
    Settles (sent ++ label.sent) (label.remaining session.writes) session.outputMemoryBlocks
      next.sendBlocks := by
  cases step with
  | sendMessage mblock messageType =>
      refine ⟨?_, List.prefix_rfl, .inl rfl⟩
      constructor
      · exact conserved.gathers
      · exact conserved.idle
      · exact conserved.closed
      · intro address
        have counts := conserved.counts address
        simp [held, sendBlocks, sendMessage, post, PostedHandler.blocks, Label.sent,
          List.count_cons] at counts ⊢
        omega
  | disconnect =>
      simp only [disconnect_sendBlocks, Label.sent, List.append_nil]
      exact conserved.settles
  | disconnectGracefully =>
      simp only [disconnect_gracefully_sendBlocks, Label.sent, List.append_nil]
      exact conserved.settles
  | disconnectTimerExpires index =>
      simp only [Label.sent, List.append_nil]
      exact conserved.settles
  | disconnectTimerHandler earlier waits completed =>
      simp only [Label.sent, List.append_nil]
      unfold disconnectTimerHandler disconnectTimedOut
      dsimp only
      split
      · split
        · exact conserved.settles
        · have same := disconnect_sendBlocks session
          rw [← same] at conserved
          exact conserved.settles
      · exact conserved.settles
  | writeCompleted earlier error outstanding =>
      rename_i write later
      have kept : (Label.writeCompleted earlier.length error).remaining session.writes =
          earlier ++ later := by
        rw [outstanding, Label.remaining, erase_middle]
      simp only [kept, Label.sent, List.append_nil]
      apply write_completed_settles conserved outstanding
      intro succeeded single many
      apply settled
      cases write with
      | gather buffers => cases single
      | single mblock =>
          have found : session.writes[earlier.length]? = some (.single mblock) := by
            rw [outstanding, List.getElem?_append_right (Nat.le_refl _), Nat.sub_self,
              List.getElem?_cons_zero]
          simp only [gathersNext, found]
          rw [decide_eq_true succeeded, decide_eq_true many, Bool.and_self]
  | handler now posted =>
      simp only [Label.sent, List.append_nil]
      exact handler_settles now posted conserved settled

end TcpSessionImpl

/-- A session with the blocks of its outstanding writes, in the order of the writes. -/
structure SendLedger (μ : Type) where
  session : TcpSessionImpl μ
  written : List (List BlockPointer) := []

namespace SendLedger

open SendBlocks

variable {μ : Type} [Marshaller μ]

inductive Label where
  | opened
  | session (label : TcpSessionImpl.Label)

def Label.sent : Label → List Nat
  | .opened => []
  | .session label => label.sent

def writtenAfter (label : TcpSessionImpl.Label) (next : TcpSessionImpl μ)
    (written : List (List BlockPointer)) : List (List BlockPointer) :=
  let remaining := label.remaining written
  remaining ++ (next.writes.drop remaining.length).map (AsyncWrite.blocks next.outputMemoryBlocks)

/-- A session makes a step, or is opened after it was closed. -/
inductive Step : SendLedger μ → Label → SendLedger μ → Prop where
  | opened {ledger : SendLedger μ} : ledger.session.isConnected = false →
      Step ledger .opened { ledger with session := ledger.session.sessionOpened }
  | session {ledger : SendLedger μ} {label : TcpSessionImpl.Label} {next : TcpSessionImpl μ} :
      TcpSessionImpl.Step ledger.session label next →
      Step ledger (.session label) { session := next, written := writtenAfter label next ledger.written }

def advance (ledger : SendLedger μ) : Label → Option (SendLedger μ)
  | .opened =>
      if ledger.session.isConnected then none
      else some { ledger with session := ledger.session.sessionOpened }
  | .session label => (ledger.session.advance label).map fun next =>
      { session := next, written := writtenAfter label next ledger.written }

theorem advance_sound (ledger : SendLedger μ) (label : Label) (next : SendLedger μ)
    (advances : ledger.advance label = some next) : Step ledger label next := by
  cases label with
  | opened =>
      simp only [advance] at advances
      split at advances
      · cases advances
      · rename_i closed
        cases advances
        exact .opened (Bool.eq_false_iff.mpr closed)
  | session label =>
      rcases Option.map_eq_some_iff.mp advances with ⟨taken, moves, rfl⟩
      exact .session (ledger.session.advance_sound label taken moves)

/-- All handlers have run, all writes have completed and the connection is closed. -/
structure Quiescent (ledger : SendLedger μ) : Prop where
  posted : ledger.session.posted = []
  writes : ledger.session.writes = []
  closed : ledger.session.isConnected = false

/-- A block is not released before its write has completed, and at the end each block has
been released as often as it was sent. -/
structure ReleasedOnce (sent : List Nat) (ledger : SendLedger μ) : Prop where
  outstanding : ∀ address, ledger.session.released.count address +
    (ledger.written.flatten.map BlockPointer.address).count address ≤ sent.count address
  quiescent : ledger.Quiescent → ∀ address,
    ledger.session.released.count address = sent.count address

def GatherSettled (ledger : SendLedger μ) : Label → Prop
  | .opened => True
  | .session label => ledger.session.GatherSettled label

instance (ledger : SendLedger μ) (label : Label) : Decidable (ledger.GatherSettled label) :=
  match label with
  | .opened => .isTrue trivial
  | .session label => inferInstanceAs (Decidable (ledger.session.GatherSettled label))

structure Balanced (sent : List Nat) (ledger : SendLedger μ) : Prop where
  conserved : Conserved sent ledger.session.sendBlocks
  written : ledger.written =
    ledger.session.writes.map (AsyncWrite.blocks ledger.session.outputMemoryBlocks)

omit [Marshaller μ] in
theorem written_after {sent : List Nat} {kept : List AsyncWrite} {gathered : List BlockPointer}
    {label : TcpSessionImpl.Label} {next : TcpSessionImpl μ} {written : List (List BlockPointer)}
    (settles : Settles sent kept gathered next.sendBlocks)
    (remaining : label.remaining written = kept.map (AsyncWrite.blocks gathered)) :
    writtenAfter label next written = next.writes.map (AsyncWrite.blocks next.outputMemoryBlocks) := by
  have same : kept.map (AsyncWrite.blocks gathered) =
      kept.map (AsyncWrite.blocks next.outputMemoryBlocks) := by
    rcases settles.gathered with same | ungathered
    · exact congrArg (fun blocks => kept.map (AsyncWrite.blocks blocks)) same.symm
    · apply List.map_congr_left
      intro write member
      cases write with
      | single mblock => rfl
      | gather buffers => cases ungathered _ member
  rcases settles.writes with ⟨started, writes⟩
  have split : next.writes = kept ++ started := writes.symm
  simp only [writtenAfter]
  rw [remaining, List.length_map, split, List.drop_left, same, List.map_append]

theorem step_balanced {sent : List Nat} {ledger next : SendLedger μ} {label : Label}
    (balanced : ledger.Balanced sent) (step : Step ledger label next)
    (settled : ledger.GatherSettled label) : next.Balanced (sent ++ label.sent) := by
  cases step with
  | opened closed =>
      simp only [Label.sent, List.append_nil]
      have conserved := balanced.conserved
      exact ⟨⟨conserved.gathers, conserved.idle, nofun, conserved.counts⟩, balanced.written⟩
  | session taken =>
      have settles := TcpSessionImpl.step_settles taken balanced.conserved settled
      refine ⟨settles.conserved, written_after settles ?_⟩
      rw [balanced.written]
      unfold TcpSessionImpl.Label.remaining
      split
      · rw [List.eraseIdx_map]
      · rfl

omit [Marshaller μ] in
theorem Balanced.releasedOnce {sent : List Nat} {ledger : SendLedger μ}
    (balanced : ledger.Balanced sent) :
    ledger.ReleasedOnce sent := by
  have written : ledger.written.flatten =
      ledger.session.writes.flatMap (AsyncWrite.blocks ledger.session.outputMemoryBlocks) := by
    rw [balanced.written, List.flatMap_def]
  constructor
  · intro address
    have counts := balanced.conserved.counts address
    rw [written]
    simp [held, TcpSessionImpl.sendBlocks] at counts
    omega
  · intro quiescent address
    have counts := balanced.conserved.counts address
    have queue : ledger.session.outputQueue = [] := balanced.conserved.closed quiescent.closed
    simp [held, TcpSessionImpl.sendBlocks, quiescent.posted, quiescent.writes, queue] at counts
    omega

/-- As long as no connection is closed during a gathered write and no two gathered writes are
outstanding, every block is released exactly once and not before its write has completed. -/
theorem blocks_released_once (now : TimePoint) (marshaller : μ) (maxPendablePacketCount : Nat)
    {labels : List Label} {last : SendLedger μ}
    (run : Run (Where Step GatherSettled)
      { session := .create now marshaller maxPendablePacketCount } labels last) :
    last.ReleasedOnce (labels.flatMap Label.sent) := by
  have balanced : last.Balanced (labels.flatMap Label.sent) := by
    apply run.invariant (fun labels ledger => ledger.Balanced (labels.flatMap Label.sent))
    · constructor
      · exact ⟨Nat.zero_le 1, fun _ => rfl, fun _ => rfl, fun _ => rfl⟩
      · rfl
    · intro history ledger label next before step
      rw [List.flatMap_append, List.flatMap_singleton]
      exact step_balanced before step.1 step.2
  exact balanced.releasedOnce

section Concrete

def smallMarshaller : SgpMarshaller CsPacketCoder := .create .mk (.create 8) (.create 8)

def emptyMessage (address : Nat) : TcpSessionImpl.Label :=
  .sendMessage { address, mblock := smallMarshaller.acquireSendBlock (.create 8) } 21

def gathering : List Label :=
  [.opened, .session (emptyMessage 0), .session (emptyMessage 1), .session (emptyMessage 2),
    .session (.handler 0), .session (.handler 0), .session (.handler 0),
    .session (.writeCompleted 0 .success)]

def completing : List Label :=
  gathering ++ [.session (.writeCompleted 0 .success), .session .disconnect, .session (.handler 0)]

def aborting : List Label :=
  gathering ++ [.session .disconnect, .session (.handler 0),
    .session (.writeCompleted 0 .operationAborted), .session (.handler 0)]

def fresh : SendLedger (SgpMarshaller CsPacketCoder) := { session := .create 0 smallMarshaller 0 }

theorem blocks_released_once_gathered :
    ∃ last, Run (Where Step GatherSettled) fresh completing last ∧
      last.session.released = [0, 1, 2] ∧ last.ReleasedOnce (completing.flatMap Label.sent) := by
  have executes : (execute (guarded advance GatherSettled) fresh completing).map
      (fun ledger => ledger.session.released) = some [0, 1, 2] := by
    decide +kernel
  rcases Run.of_guarded Step GatherSettled advance_sound executes with ⟨last, run, released⟩
  exact ⟨last, run, released, blocks_released_once 0 smallMarshaller 0 run⟩

/-- The session disconnects while a gathered write is outstanding. The write is aborted, and the
blocks of the second and third message are never released. -/
theorem gathered_blocks_are_lost :
    ¬∀ labels last, Run Step fresh labels last → last.ReleasedOnce (labels.flatMap Label.sent) := by
  intro once
  have executes : (execute advance fresh aborting).map (fun ledger =>
      (ledger.session.posted.length, ledger.session.writes.length, ledger.session.isConnected,
        ledger.session.released)) = some (0, 0, false, [0]) := by
    decide +kernel
  rcases Run.of_observed Step advance_sound executes with ⟨last, run, facts⟩
  simp only [Prod.mk.injEq] at facts
  have quiescent : last.Quiescent :=
    ⟨List.eq_nil_of_length_eq_zero facts.1, List.eq_nil_of_length_eq_zero facts.2.1, facts.2.2.1⟩
  have second := (once aborting last run).quiescent quiescent 1
  rw [facts.2.2.2] at second
  revert second
  decide

end Concrete

end SendLedger

end Sne.Session
