import Sne.Session.StaleHandlers

/-!
# The pending write

`isWritePended_` says that a write of the current connection is outstanding. It is set
when a write is started and cleared when one succeeds, whichever it is. Of the session
only the side that writes is looked at: what a step can do to it is said once.
-/

namespace Sne.Session

open Sne.Base Sne.Sgp Sne.Library.Runs

set_option autoImplicit false

/-- The part of the session that writes. -/
structure WriteSide where
  isSocketOpen : Bool
  isWritePended : Bool
  outputQueue : List BlockPointer
  outputMemoryBlocks : List BlockPointer
  writes : List AsyncWrite

def TcpSessionImpl.writeSide {μ : Type} (session : TcpSessionImpl μ) : WriteSide :=
  { isSocketOpen := session.isSocketOpen
    isWritePended := session.isWritePended
    outputQueue := session.outputQueue
    outputMemoryBlocks := session.outputMemoryBlocks
    writes := session.writes }

namespace WriteSide

inductive Starts (side : WriteSide) : WriteSide → Prop where
  | nothing : side.outputQueue = [] → Starts side side
  | write (write : AsyncWrite) (rest gathered : List BlockPointer) : side.outputQueue ≠ [] →
      (write.isGather = true → gathered ≠ []) →
      Starts side { side with
        isWritePended := true
        outputQueue := rest
        outputMemoryBlocks := gathered
        writes := side.writes ++ [write] }

def written (write : AsyncWrite) (side : WriteSide) : WriteSide :=
  match write with
  | .single _ => { side with isWritePended := false }
  | .gather _ => { side with
      isWritePended := side.isWritePended && side.outputMemoryBlocks.isEmpty
      outputMemoryBlocks := [] }

def failed (write : AsyncWrite) (side : WriteSide) : WriteSide :=
  match write with
  | .single _ => side
  | .gather _ => { side with outputMemoryBlocks := [] }

inductive Moves (side : WriteSide) : TcpSessionImpl.Label → WriteSide → Prop where
  | kept {label : TcpSessionImpl.Label} : (∀ writers : List Nat, label.remaining writers = writers) →
      Moves side label side
  | queued {now : TimePoint} (mblock : BlockPointer) : side.isSocketOpen = true →
      side.isWritePended = true →
      Moves side (.handler now) { side with outputQueue := side.outputQueue ++ [mblock] }
  | sent {now : TimePoint} (mblock : BlockPointer) : side.isSocketOpen = true →
      side.isWritePended = false →
      Moves side (.handler now)
        { side with isWritePended := true, writes := side.writes ++ [.single mblock] }
  | closed {now : TimePoint} : Moves side (.handler now)
      { isSocketOpen := false, isWritePended := false, outputQueue := [], outputMemoryBlocks := []
        writes := side.writes }
  | succeeded (earlier later : List AsyncWrite) (write : AsyncWrite) {next : WriteSide} :
      side.writes = earlier ++ write :: later →
      Starts ({ side with writes := earlier ++ later }.written write) next →
      Moves side (.writeCompleted earlier.length .success) next
  | failed (earlier later : List AsyncWrite) (write : AsyncWrite) {error : ErrorCode} :
      side.writes = earlier ++ write :: later → error ≠ .success →
      Moves side (.writeCompleted earlier.length error)
        ({ side with writes := earlier ++ later }.failed write)

end WriteSide

namespace TcpSessionImpl

open WriteSide

variable {μ : Type}

theorem gather_write_starts (session : TcpSessionImpl μ) :
    Starts session.writeSide session.gatherWrite.writeSide := by
  by_cases queued : session.outputQueue = []
  · have same : session.gatherWrite = session := by simp only [gatherWrite, queued]
    rw [same]
    exact .nothing queued
  · rcases session.gather_write_hands queued with ⟨taken, rest, write, hands⟩
    have side : session.gatherWrite.writeSide = { session.writeSide with
        isWritePended := true
        outputQueue := session.gatherWrite.outputQueue
        outputMemoryBlocks := session.gatherWrite.outputMemoryBlocks
        writes := session.writes ++ [write] } := by
      simp only [writeSide, hands.pended, hands.connected, hands.writes]
    rw [side]
    apply Starts.write write _ _ queued
    intro gathers
    cases write with
    | single mblock => cases gathers
    | gather buffers => exact hands.gathered buffers rfl

theorem gather_written_fails {error : ErrorCode} (failed : error ≠ .success) (blocks : List BlockPointer)
    (session : TcpSessionImpl μ) :
    (blocks.foldl (gatherWritten error) session).writeSide = session.writeSide := by
  induction blocks generalizing session with
  | nil => rfl
  | cons mblock blocks induction =>
      rw [List.foldl_cons, induction, gatherWritten, if_neg failed]
      rfl

theorem write_completed_moves {session : TcpSessionImpl μ} {earlier later : List AsyncWrite}
    {write : AsyncWrite} (error : ErrorCode) (outstanding : session.writes = earlier ++ write :: later) :
    Moves session.writeSide (.writeCompleted earlier.length error)
      (writeCompleted error write { session with writes := earlier ++ later }).writeSide := by
  by_cases succeeded : error = .success
  · subst succeeded
    apply Moves.succeeded earlier later write outstanding
    cases write with
    | single mblock =>
        simp only [writeCompleted, handleWrite]
        exact gather_write_starts ({ session with writes := earlier ++ later }.writeSucceeded mblock)
    | gather buffers =>
        rcases gather_written_loop session.outputMemoryBlocks { session with writes := earlier ++ later }
          with ⟨stats, released, rounds⟩
        simp only [writeCompleted, handleGatherWrite, rounds, if_true]
        exact gather_write_starts { session with
          writes := earlier ++ later
          isWritePended := session.isWritePended && session.outputMemoryBlocks.isEmpty
          outputBuffers := []
          outputMemoryBlocks := []
          stats
          released }
  · have side : (writeCompleted error write { session with writes := earlier ++ later }).writeSide =
        { session.writeSide with writes := earlier ++ later }.failed write := by
      cases write with
      | single mblock =>
          simp only [writeCompleted, handleWrite, if_neg succeeded]
          rfl
      | gather buffers =>
          have fails := gather_written_fails succeeded session.outputMemoryBlocks
            { session with writes := earlier ++ later }
          simp only [writeCompleted, handleGatherWrite, if_neg succeeded]
          exact congrArg (fun side : WriteSide => { side with outputMemoryBlocks := [] }) fails
    rw [side]
    exact .failed earlier later write outstanding succeeded

theorem check_output_queue_writeSide (session : TcpSessionImpl μ) :
    session.checkOutputQueue.2.writeSide = session.writeSide := by
  unfold checkOutputQueue
  dsimp only
  split
  · rfl
  · split <;> rfl

theorem send_message_handler_moves [Marshaller μ] (mblock : BlockPointer) (messageType : MessageType)
    (now : TimePoint) (session : TcpSessionImpl μ) :
    Moves session.writeSide (.handler now)
    (sendMessageHandler mblock messageType session).writeSide := by
  unfold sendMessageHandler
  split
  · exact .kept fun _ => rfl
  · rename_i sends
    have isOpen : session.isSocketOpen = true := by
      simp [canSendMessage, isConnected] at sends
      exact sends.1
    dsimp only
    split
    · exact .kept fun _ => rfl
    · split
      · rename_i pended
        have same := check_output_queue_writeSide { session with
          marshaller := (Marshaller.marshal mblock.mblock messageType session.marshaller).2.2 }
        generalize { session with
          marshaller := (Marshaller.marshal mblock.mblock messageType session.marshaller).2.2
          }.checkOutputQueue = result at same
        rcases result with ⟨accepted, next⟩
        dsimp only at same ⊢
        split
        · have queued : Moves session.writeSide (.handler now) { next.writeSide with
              outputQueue := next.writeSide.outputQueue ++ [{ mblock with
                mblock := (Marshaller.marshal mblock.mblock messageType session.marshaller).2.1 }] } := by
            rw [same]
            exact .queued _ isOpen pended
          exact queued
        · have kept : Moves session.writeSide (.handler now) next.writeSide := by
            rw [same]
            exact .kept fun _ => rfl
          exact kept
      · rename_i idle
        exact .sent _ isOpen (Bool.eq_false_iff.mpr idle)

theorem Step.moves [Marshaller μ] {session next : TcpSessionImpl μ} {label : Label}
    (step : Step session label next) : Moves session.writeSide label next.writeSide := by
  cases step with
  | sendMessage => exact .kept fun _ => rfl
  | disconnect => exact .kept fun _ => rfl
  | disconnectGracefully => exact .kept fun _ => rfl
  | disconnectTimerExpires => exact .kept fun _ => rfl
  | writeCompleted earlier error outstanding => exact write_completed_moves error outstanding
  | disconnectTimerHandler earlier waits completed =>
      simp only [TcpSessionImpl.disconnectTimerHandler, disconnectTimedOut]
      split
      · split <;> exact .kept fun _ => rfl
      · exact .kept fun _ => rfl
  | handler now posted =>
      rename_i handler rest
      cases handler with
      | disconnect =>
          unfold runHandler disconnectHandler
          dsimp only
          split
          · exact .kept fun _ => rfl
          · split
            · rename_i closed
              have isClosed : session.isSocketOpen = false := (Bool.not_eq_true' _).mp closed
              have same : session.writeSide = { session.writeSide with isSocketOpen := false } := by
                simp only [writeSide, isClosed]
              have kept : Moves session.writeSide (.handler now)
                  { session.writeSide with isSocketOpen := false } := by
                rw [← same]
                exact .kept fun _ => rfl
              exact kept
            · exact .closed
      | disconnectGracefully =>
          unfold runHandler disconnectGracefullyHandler
          dsimp only
          split <;> exact .kept fun _ => rfl
      | sendMessage mblock messageType =>
          exact send_message_handler_moves mblock messageType now { session with posted := rest }

end TcpSessionImpl

namespace WriteSide

def startedFor (connection : Nat) (writes : List AsyncWrite) (writers : List Nat) : List AsyncWrite :=
  ((writes.zip writers).filter fun entry => decide (entry.2 = connection)).map Prod.fst

structure Accounted (connection : Nat) (writers : List Nat) (side : WriteSide) : Prop where
  aligned : writers.length = side.writes.length
  known : ∀ writer ∈ writers, writer ≤ connection
  closed : side.isSocketOpen = false → side.isWritePended = false ∧ side.outputQueue = [] ∧
    side.outputMemoryBlocks = []
  idle : side.isSocketOpen = true → side.isWritePended = false →
    startedFor connection side.writes writers = [] ∧ side.outputQueue = []
  busy : side.isSocketOpen = true → side.isWritePended = true →
    ∃ write, startedFor connection side.writes writers = [write] ∧
      (write.isGather = true → side.outputMemoryBlocks ≠ [])

theorem started_for_append {connection : Nat} {writes : List AsyncWrite} {writers : List Nat}
    (aligned : writers.length = writes.length) (write : AsyncWrite) :
    startedFor connection (writes ++ [write]) (writers ++ [connection]) =
      startedFor connection writes writers ++ [write] := by
  unfold startedFor
  rw [List.zip_append aligned.symm, List.filter_append, List.map_append]
  simp

theorem started_for_split {connection : Nat} {earlier later : List AsyncWrite} {write : AsyncWrite}
    {writers : List Nat} (aligned : writers.length = (earlier ++ write :: later).length) :
    ∃ first writer last, writers[earlier.length]? = some writer ∧
      startedFor connection (earlier ++ write :: later) writers =
        first ++ (if writer = connection then [write] else []) ++ last ∧
      startedFor connection (earlier ++ later) (writers.eraseIdx earlier.length) = first ++ last := by
  have bound : earlier.length < writers.length := by
    rw [aligned, List.length_append, List.length_cons]
    omega
  rcases split_at (List.getElem?_eq_getElem bound) with ⟨before, after, split, erased, length⟩
  refine ⟨startedFor connection earlier before, writers[earlier.length], startedFor connection later after,
    List.getElem?_eq_getElem bound, ?_, ?_⟩
  · nth_rewrite 1 [split]
    unfold startedFor
    rw [List.zip_append length.symm, List.zip_cons_cons, List.filter_append, List.map_append,
      List.filter_cons, List.append_assoc]
    by_cases current : writers[earlier.length] = connection
    · simp [current]
    · simp [current]
  · rw [erased]
    unfold startedFor
    rw [List.zip_append length.symm, List.filter_append, List.map_append]

theorem started_for_current {connection : Nat} {earlier later : List AsyncWrite}
    {write current : AsyncWrite}
    {writers : List Nat} (aligned : writers.length = (earlier ++ write :: later).length)
    (writer : writers[earlier.length]? = some connection)
    (only : startedFor connection (earlier ++ write :: later) writers = [current]) :
    current = write ∧ startedFor connection (earlier ++ later)
    (writers.eraseIdx earlier.length) = [] := by
  rcases started_for_split aligned with ⟨first, other, last, found, whole, remaining⟩
  have same : other = connection := Option.some.inj (found.symm.trans writer)
  rw [whole, if_pos same] at only
  rw [remaining]
  cases first with
  | nil =>
      rw [List.nil_append, List.singleton_append, List.cons.injEq] at only
      exact ⟨only.1.symm, only.2⟩
  | cons one others => simp at only

theorem started_for_stale {connection : Nat} {earlier later : List AsyncWrite} {write : AsyncWrite}
    {writers : List Nat} (aligned : writers.length = (earlier ++ write :: later).length)
    (writer : writers[earlier.length]? ≠ some connection) :
    startedFor connection (earlier ++ later) (writers.eraseIdx earlier.length) =
      startedFor connection (earlier ++ write :: later) writers := by
  rcases started_for_split aligned with ⟨first, other, last, found, whole, remaining⟩
  have stale : other ≠ connection := by
    intro same
    rw [same] at found
    exact writer found
  rw [whole, remaining, if_neg stale, List.append_nil]

theorem started_for_none {connection : Nat} {earlier later : List AsyncWrite} {write : AsyncWrite}
    {writers : List Nat} (aligned : writers.length = (earlier ++ write :: later).length)
    (none : startedFor connection (earlier ++ write :: later) writers = []) :
    writers[earlier.length]? ≠ some connection := by
  rcases started_for_split aligned with ⟨first, other, last, found, whole, remaining⟩
  intro writer
  rw [whole, if_pos (Option.some.inj (found.symm.trans writer))] at none
  simp at none

/-- The flag is true exactly when a write of the current connection is outstanding. -/
theorem Accounted.flag {connection : Nat} {writers : List Nat} {side : WriteSide}
    (accounted : side.Accounted connection writers) (isOpen : side.isSocketOpen = true) :
    side.isWritePended = true ↔ connection ∈ writers := by
  have among : connection ∈ writers ↔ startedFor connection side.writes writers ≠ [] := by
    rw [startedFor, ne_eq, List.map_eq_nil_iff, List.filter_eq_nil_iff]
    push Not
    constructor
    · intro member
      have second : connection ∈ (side.writes.zip writers).map Prod.snd := by
        rw [List.map_snd_zip (Nat.le_of_eq accounted.aligned)]
        exact member
      rcases List.mem_map.mp second with ⟨entry, found, same⟩
      exact ⟨entry, found, decide_eq_true same⟩
    · rintro ⟨entry, found, same⟩
      rw [← of_decide_eq_true same]
      exact (List.of_mem_zip found).2
  rw [among]
  cases pended : side.isWritePended with
  | true =>
      rcases accounted.busy isOpen pended with ⟨write, only, _⟩
      simp [only]
  | false => simp [(accounted.idle isOpen pended).1]

/-- A completion that keeps the flag right: no write is pending, or it is that of the pending write and
a success, or it is an earlier one that failed and has no part in the gathered blocks. -/
def CompletesInTurn (connection : Nat) (writers : List Nat) (side : WriteSide) (index : Nat)
    (error : ErrorCode) : Prop :=
  side.isSocketOpen = true → side.isWritePended = true →
    (error = .success ∧ writers[index]? = some connection) ∨
      (error ≠ .success ∧ writers[index]? ≠ some connection ∧
        (side.outputMemoryBlocks.isEmpty = true ∨ (side.writes[index]?).any AsyncWrite.isGather = false))

instance (connection : Nat) (writers : List Nat) (side : WriteSide) (index : Nat) (error : ErrorCode) :
    Decidable (side.CompletesInTurn connection writers index error) :=
  inferInstanceAs (Decidable (_ → _ → _))

theorem extend_aligned {writers : List Nat} {length : Nat} (aligned : writers.length = length)
    (connection : Nat) : PooledSession.extend writers length connection = writers := by
  rw [PooledSession.extend, aligned, Nat.sub_self, List.replicate_zero, List.append_nil]

theorem extend_one {writers : List Nat} {length : Nat} (aligned : writers.length + 1 = length)
    (connection : Nat) : PooledSession.extend writers length connection = writers ++ [connection] := by
  rw [PooledSession.extend, ← aligned, Nat.add_sub_cancel_left]
  rfl

theorem accounted_started {connection : Nat} {writers : List Nat} {side : WriteSide} {write : AsyncWrite}
    {rest gathered : List BlockPointer} (aligned : writers.length = side.writes.length)
    (known : ∀ writer ∈ writers, writer ≤ connection)
    (none : startedFor connection side.writes writers = []) (isOpen : side.isSocketOpen = true)
    (gathers : write.isGather = true → gathered ≠ []) :
    Accounted connection (PooledSession.extend writers (side.writes ++ [write]).length connection)
      { side with
        isWritePended := true
        outputQueue := rest
        outputMemoryBlocks := gathered
        writes := side.writes ++ [write] } := by
  have length : writers.length + 1 = (side.writes ++ [write]).length := by
    rw [aligned, List.length_append, List.length_singleton]
  rw [extend_one length]
  constructor
  · rw [List.length_append, List.length_append, aligned]
    rfl
  · intro writer member
    rcases List.mem_append.mp member with earlier | last
    · exact known writer earlier
    · exact Nat.le_of_eq (List.mem_singleton.mp last)
  · exact fun closed => absurd (isOpen.symm.trans closed) Bool.noConfusion
  · exact fun _ idle => Bool.noConfusion idle
  · intro _ _
    refine ⟨write, ?_, gathers⟩
    rw [started_for_append aligned, none]
    rfl

theorem starts_accounted {connection : Nat} {writers : List Nat} {side next : WriteSide}
    (starts : Starts side next) (aligned : writers.length = side.writes.length)
    (known : ∀ writer ∈ writers, writer ≤ connection)
    (none : side.isSocketOpen = true → startedFor connection side.writes writers = [])
    (notPended : side.isWritePended = false)
    (closed : side.isSocketOpen = false → side.outputQueue = [] ∧ side.outputMemoryBlocks = []) :
    next.Accounted connection (PooledSession.extend writers next.writes.length connection) := by
  cases starts with
  | nothing empty =>
      rw [extend_aligned aligned]
      exact {
        aligned := aligned
        known := known
        closed := fun isClosed => ⟨notPended, closed isClosed⟩
        idle := fun isOpen _ => ⟨none isOpen, empty⟩
        busy := fun _ pended => absurd (notPended.symm.trans pended) Bool.noConfusion }
  | write write rest gathered queued gathers =>
      have isOpen : side.isSocketOpen = true := by
        by_contra isClosed
        exact queued (closed (Bool.eq_false_iff.mpr isClosed)).1
      exact accounted_started aligned known (none isOpen) isOpen gathers

theorem remaining_aligned {earlier later : List AsyncWrite} {write : AsyncWrite} {writers : List Nat}
    (aligned : writers.length = (earlier ++ write :: later).length) :
    (writers.eraseIdx earlier.length).length = (earlier ++ later).length := by
  have bound : earlier.length < writers.length := by
    rw [aligned, List.length_append, List.length_cons]
    omega
  rw [List.length_eraseIdx_of_lt bound, aligned, List.length_append, List.length_append, List.length_cons]
  omega

/-- A write of an idle connection that completes leaves it idle. -/
theorem remaining_idle {connection : Nat} {earlier later : List AsyncWrite} {write : AsyncWrite}
    {writers : List Nat} (aligned : writers.length = (earlier ++ write :: later).length)
    (none : startedFor connection (earlier ++ write :: later) writers = []) :
    startedFor connection (earlier ++ later) (writers.eraseIdx earlier.length) = [] := by
  rw [started_for_stale aligned (started_for_none aligned none)]
  exact none

section Completed

variable (side : WriteSide) (write : AsyncWrite)

@[simp] theorem written_writes : (side.written write).writes = side.writes := by
  cases write <;> rfl

@[simp] theorem written_isSocketOpen : (side.written write).isSocketOpen = side.isSocketOpen := by
  cases write <;> rfl

@[simp] theorem failed_writes : (side.failed write).writes = side.writes := by
  cases write <;> rfl

@[simp] theorem failed_isSocketOpen : (side.failed write).isSocketOpen = side.isSocketOpen := by
  cases write <;> rfl

@[simp] theorem failed_isWritePended : (side.failed write).isWritePended = side.isWritePended := by
  cases write <;> rfl

@[simp] theorem failed_outputQueue : (side.failed write).outputQueue = side.outputQueue := by
  cases write <;> rfl

end Completed

theorem written_idle {side : WriteSide} (idle : side.isWritePended = false) (writes : List AsyncWrite)
    (write : AsyncWrite) : ({ side with writes }.written write).isWritePended = false := by
  cases write with
  | single mblock => rfl
  | gather buffers => simp only [written, idle, Bool.false_and]

/-- A write that completes in turn was the only current one, and clears the flag. -/
theorem written_clears {connection : Nat} {writers : List Nat} {side : WriteSide}
    {earlier later : List AsyncWrite} {write : AsyncWrite}
    (accounted : side.Accounted connection writers)
    (outstanding : side.writes = earlier ++ write :: later) (isOpen : side.isSocketOpen = true)
    (pended : side.isWritePended = true) (writer : writers[earlier.length]? = some connection) :
    startedFor connection (earlier ++ later) (writers.eraseIdx earlier.length) = [] ∧
      ({ side with writes := earlier ++ later }.written write).isWritePended = false := by
  have aligned := accounted.aligned
  rw [outstanding] at aligned
  obtain ⟨current, only, gathers⟩ := accounted.busy isOpen pended
  rw [outstanding] at only
  obtain ⟨same, none⟩ := started_for_current aligned writer only
  refine ⟨none, ?_⟩
  cases write with
  | single mblock => rfl
  | gather buffers =>
      rw [same] at gathers
      have some : side.outputMemoryBlocks.isEmpty = false := by
        simpa using gathers rfl
      simp only [written, some, Bool.and_false]

theorem succeeded_accounted {connection : Nat} {writers : List Nat} {side next : WriteSide}
    {earlier later : List AsyncWrite} {write : AsyncWrite}
    (accounted : side.Accounted connection writers)
    (outstanding : side.writes = earlier ++ write :: later)
    (starts : Starts ({ side with writes := earlier ++ later }.written write) next)
    (inTurn : side.CompletesInTurn connection writers earlier.length .success) :
    next.Accounted connection
      (PooledSession.extend (writers.eraseIdx earlier.length) next.writes.length connection) := by
  have aligned := accounted.aligned
  rw [outstanding] at aligned
  have known : ∀ writer ∈ writers.eraseIdx earlier.length, writer ≤ connection :=
    fun writer member => accounted.known writer (List.mem_of_mem_eraseIdx member)
  have cleared : (side.isSocketOpen = true →
      startedFor connection (earlier ++ later) (writers.eraseIdx earlier.length) = []) ∧
      ({ side with writes := earlier ++ later }.written write).isWritePended = false := by
    by_cases pended : side.isWritePended = true
    · have isOpen : side.isSocketOpen = true := by
        by_contra isClosed
        have idle := (accounted.closed (Bool.eq_false_iff.mpr isClosed)).1
        exact absurd (pended.symm.trans idle) Bool.noConfusion
      rcases inTurn isOpen pended with ⟨_, writer⟩ | ⟨fails, _⟩
      · have clears := written_clears accounted outstanding isOpen pended writer
        exact ⟨fun _ => clears.1, clears.2⟩
      · exact absurd rfl fails
    · have idle : side.isWritePended = false := Bool.eq_false_iff.mpr pended
      refine ⟨?_, written_idle idle _ write⟩
      intro isOpen
      have none := (accounted.idle isOpen idle).1
      rw [outstanding] at none
      exact remaining_idle aligned none
  apply starts_accounted starts
  · rw [written_writes]
    exact remaining_aligned aligned
  · exact known
  · intro isOpen
    rw [written_isSocketOpen] at isOpen
    rw [written_writes]
    exact cleared.1 isOpen
  · exact cleared.2
  · intro isClosed
    rw [written_isSocketOpen] at isClosed
    have before := accounted.closed isClosed
    cases write with
    | single mblock => exact before.2
    | gather buffers => exact ⟨before.2.1, rfl⟩

theorem failed_accounted {connection : Nat} {writers : List Nat} {side : WriteSide}
    {earlier later : List AsyncWrite} {write : AsyncWrite} {error : ErrorCode}
    (accounted : side.Accounted connection writers)
    (outstanding : side.writes = earlier ++ write :: later)
    (failed : error ≠ .success) (inTurn : side.CompletesInTurn connection writers earlier.length error) :
    ({ side with writes := earlier ++ later }.failed write).Accounted connection
      (PooledSession.extend (writers.eraseIdx earlier.length)
        ({ side with writes := earlier ++ later }.failed write).writes.length connection) := by
  have aligned := accounted.aligned
  rw [outstanding] at aligned
  rw [failed_writes, extend_aligned (remaining_aligned aligned)]
  constructor
  · rw [failed_writes]
    exact remaining_aligned aligned
  · exact fun writer member => accounted.known writer (List.mem_of_mem_eraseIdx member)
  · rw [failed_isSocketOpen, failed_isWritePended, failed_outputQueue]
    intro isClosed
    have before := accounted.closed isClosed
    refine ⟨before.1, before.2.1, ?_⟩
    cases write with
    | single mblock => exact before.2.2
    | gather buffers => rfl
  · rw [failed_isSocketOpen, failed_isWritePended, failed_outputQueue, failed_writes]
    intro isOpen idle
    have none := accounted.idle isOpen idle
    rw [outstanding] at none
    exact ⟨remaining_idle aligned none.1, none.2⟩
  · rw [failed_isSocketOpen, failed_isWritePended, failed_writes]
    intro isOpen pended
    rcases accounted.busy isOpen pended with ⟨current, only, gathers⟩
    rcases inTurn isOpen pended with ⟨succeeds, _⟩ | ⟨_, stale, apart⟩
    · exact absurd succeeds failed
    · refine ⟨current, ?_, ?_⟩
      · rw [started_for_stale aligned stale, ← outstanding]
        exact only
      · cases write with
        | single mblock => exact gathers
        | gather buffers =>
            intro gathered
            have found : side.writes[earlier.length]? = some (.gather buffers) := by
              rw [outstanding, List.getElem?_append_right (Nat.le_refl _), Nat.sub_self,
                List.getElem?_cons_zero]
            rw [found] at apart
            rcases apart with empty | single
            · exact absurd (List.isEmpty_iff.mp empty) (gathers gathered)
            · cases single

theorem moves_accounted {connection : Nat} {writers : List Nat} {side next : WriteSide}
    {label : TcpSessionImpl.Label} (moves : Moves side label next)
    (accounted : side.Accounted connection writers)
    (inTurn : ∀ index error, label = .writeCompleted index error →
      side.CompletesInTurn connection writers index error) :
    next.Accounted connection
      (PooledSession.extend (label.remaining writers) next.writes.length connection) := by
  cases moves with
  | kept same =>
      rw [same, extend_aligned accounted.aligned]
      exact accounted
  | @queued now mblock isOpen pended =>
      have same : PooledSession.extend ((TcpSessionImpl.Label.handler now).remaining writers)
          side.writes.length connection = writers := extend_aligned accounted.aligned connection
      rw [same]
      exact { accounted with
        closed := fun closed => absurd (isOpen.symm.trans closed) Bool.noConfusion
        idle := fun _ idle => absurd (pended.symm.trans idle) Bool.noConfusion }
  | sent mblock isOpen idle =>
      exact accounted_started accounted.aligned accounted.known (accounted.idle isOpen idle).1 isOpen nofun
  | @closed now =>
      have same : PooledSession.extend ((TcpSessionImpl.Label.handler now).remaining writers)
          side.writes.length connection = writers := extend_aligned accounted.aligned connection
      rw [same]
      exact {
        aligned := accounted.aligned
        known := accounted.known
        closed := fun _ => ⟨rfl, rfl, rfl⟩
        idle := nofun
        busy := nofun }
  | succeeded earlier later write outstanding starts =>
      exact succeeded_accounted accounted outstanding starts (inTurn _ _ rfl)
  | failed earlier later write outstanding failed =>
      exact failed_accounted accounted outstanding failed (inTurn _ _ rfl)

end WriteSide

namespace PooledSession

variable {μ : Type} [Marshaller μ]

/-- While the socket is open the flag says whether a write of the current connection is outstanding. -/
def FlagAccurate (state : PooledSession μ) : Prop :=
  state.session.isConnected = true → (state.session.isWritePended = true ↔ state.connection ∈ state.writers)

def CompletesInTurn (state : PooledSession μ) : Label μ → Prop
  | .session (.writeCompleted index error) =>
      state.session.writeSide.CompletesInTurn state.connection state.writers index error
  | _ => True

instance (state : PooledSession μ) (label : Label μ) : Decidable (state.CompletesInTurn label) :=
  match label with
  | .session (.writeCompleted _ _) => inferInstanceAs (Decidable (WriteSide.CompletesInTurn _ _ _ _ _))
  | .session (.sendMessage _ _) => .isTrue trivial
  | .session .disconnect => .isTrue trivial
  | .session .disconnectGracefully => .isTrue trivial
  | .session (.handler _) => .isTrue trivial
  | .session (.disconnectTimerExpires _) => .isTrue trivial
  | .session (.disconnectTimerHandler _) => .isTrue trivial
  | .opened _ => .isTrue trivial
  | .readCompleted _ _ _ => .isTrue trivial
  | .throttleTimerExpires _ => .isTrue trivial
  | .throttleTimerHandler _ => .isTrue trivial

def Accounted (state : PooledSession μ) : Prop :=
  state.session.writeSide.Accounted state.connection state.writers

omit [Marshaller μ]

theorem read_accounted {state : PooledSession μ} {error : ErrorCode} {reader : Nat}
    {received : Received μ}
    (accounted : state.Accounted) : (state.handleRead error reader received).Accounted := by
  unfold handleRead messageBlockReceived startThrottleTimer
  split
  · dsimp only
    split
    · exact accounted
    · split
      · split <;> exact accounted
      · exact accounted
  · exact accounted

theorem throttle_accounted {state : PooledSession μ} {error : ErrorCode} (accounted : state.Accounted) :
    (state.throttleTimerHandler error).Accounted := by
  unfold throttleTimerHandler
  dsimp only
  split <;> exact accounted

theorem opened_accounted {state : PooledSession μ} (accounted : state.Accounted)
    (isClosed : state.session.isSocketOpen = false) (onConnected : Bool) :
    (state.sessionOpened onConnected).Accounted := by
  have before := accounted.closed isClosed
  have opened : WriteSide.Accounted (state.connection + 1) state.writers
      { state.session.writeSide with isSocketOpen := true } := by
    constructor
    · exact accounted.aligned
    · exact fun writer member => Nat.le_succ_of_le (accounted.known writer member)
    · exact nofun
    · intro _ _
      refine ⟨?_, before.2.1⟩
      rw [WriteSide.startedFor, List.map_eq_nil_iff, List.filter_eq_nil_iff]
      intro entry member
      have known := accounted.known entry.2 (List.of_mem_zip member).2
      simp only [decide_eq_true_eq]
      omega
    · intro _ pended
      exact absurd (before.1.symm.trans pended) Bool.noConfusion
  unfold PooledSession.sessionOpened
  dsimp only
  split <;> exact opened

theorem step_accounted [Marshaller μ] {state next : PooledSession μ} {label : Label μ}
    (accounted : state.Accounted) (step : Step state label next) (inTurn : state.CompletesInTurn label) :
    next.Accounted := by
  unfold Step at step
  cases label with
  | opened onConnected =>
      simp only [advance] at step
      split at step
      · cases step
      · rename_i isClosed
        cases step
        exact opened_accounted accounted (Bool.eq_false_iff.mpr isClosed) onConnected
  | readCompleted index error received =>
      rcases Option.map_eq_some_iff.mp step with ⟨reader, _, same⟩
      rw [← same]
      apply read_accounted
      exact accounted
  | throttleTimerExpires index =>
      cases step
      exact accounted
  | throttleTimerHandler index =>
      rcases Option.bind_eq_some_iff.mp step with ⟨wait, _, handled⟩
      rcases Option.map_eq_some_iff.mp handled with ⟨error, _, same⟩
      rw [← same]
      apply throttle_accounted
      exact accounted
  | session label =>
      rcases Option.map_eq_some_iff.mp step with ⟨moved, advances, same⟩
      have moves := (state.session.advance_sound label moved advances).moves
      rw [← same]
      apply WriteSide.moves_accounted moves accounted
      intro index error completes
      rw [completes] at inTurn
      exact inTurn

/-- As long as the completions that find a write pending are that of the pending write, with a success,
or those of earlier writes that failed, the flag is accurate. -/
theorem pending_write_accurate [Marshaller μ] (now : TimePoint) (marshaller : μ)
    (maxPendablePacketCount : Nat) {labels : List (Label μ)} {last : PooledSession μ}
    (run : Run (Where Step CompletesInTurn)
      { session := .create now marshaller maxPendablePacketCount } labels last) : last.FlagAccurate := by
  have accounted : last.Accounted := by
    apply run.invariant (fun _ state => state.Accounted)
    · exact {
        aligned := rfl
        known := nofun
        closed := fun _ => ⟨rfl, rfl, rfl⟩
        idle := nofun
        busy := nofun }
    · intro history state label next before step
      exact step_accounted before step.1 step.2
  intro connected
  exact accounted.flag connected

section Concrete

open SendLedger

def writingAgain : List (Label (SgpMarshaller CsPacketCoder)) :=
  [.opened true, .session (emptyMessage 0), .session (.handler 0), .session .disconnect,
    .session (.handler 0), .opened true, .session (emptyMessage 1), .session (.handler 0),
    .session (.writeCompleted 0 .operationAborted)]

def failing : List (Label (SgpMarshaller CsPacketCoder)) :=
  [.opened true, .session (emptyMessage 0), .session (.handler 0), .session (.writeCompleted 0 .other)]

theorem pending_write_accurate_reopened :
    ∃ last, Run (Where Step CompletesInTurn) created writingAgain last ∧
      last.session.isConnected = true ∧ last.session.isWritePended = true ∧ last.writers = [2] ∧
      last.FlagAccurate := by
  have executes : (execute (guarded advance CompletesInTurn) created writingAgain).map (fun last =>
      (last.session.isConnected, last.session.isWritePended, last.writers)) = some (true, true, [2]) := by
    decide +kernel
  rcases Run.of_guarded Step CompletesInTurn (fun _ _ _ taken => taken) executes with ⟨last, run, facts⟩
  simp only [Prod.mk.injEq] at facts
  exact ⟨last, run, facts.1, facts.2.1, facts.2.2, pending_write_accurate 0 smallMarshaller 0 run⟩

/-- A write fails. Its handler posts a disconnect and leaves the flag set, although no write is
outstanding on the open connection. -/
theorem failed_write_stays_pending :
    ¬∀ labels last, Run Step created labels last → last.FlagAccurate := by
  intro accurate
  have executes : (execute advance created failing).map (fun last =>
      (last.session.isConnected, last.session.isWritePended, last.writers)) = some (true, true, []) := by
    decide +kernel
  rcases Run.of_observed Step (fun _ _ _ taken => taken) executes with ⟨last, run, facts⟩
  simp only [Prod.mk.injEq] at facts
  have member := (accurate failing last run facts.1).mp facts.2.1
  rw [facts.2.2] at member
  cases member

end Concrete

end PooledSession

end Sne.Session
