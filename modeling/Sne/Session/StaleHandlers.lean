import Mathlib.Data.List.Forall2
import Sne.Session.SendBlocks

/-!
# Handlers of earlier connections

A session of the pool is opened again after it was closed. Its reads, writes, waits and
posted handlers know the session but not the connection they were started for, so the
state keeps for each of them the number of this connection. What a posted handler does to
the connection is recorded with both numbers.
-/

namespace Sne.Session

open Sne.Base Sne.Sgp Sne.Library.Runs

set_option autoImplicit false

structure Received (μ : Type) where
  marshaller : μ
  calls : List PostedHandler := []
  isUnmarshalled : Bool := true
  isKarmaRemained : Bool := true

/-- A call of the session's callback by a handler that was posted for the connection `poster`. -/
structure Effect where
  event : SessionEvent
  poster : Nat
  connection : Nat
deriving DecidableEq, Repr

structure PooledSession (μ : Type) where
  session : TcpSessionImpl μ
  connection : Nat := 0
  posters : List Nat := []
  writers : List Nat := []
  waiters : List Nat := []
  readers : List Nat := []
  effects : List Effect := []

def TcpSessionImpl.Label.remainingWaits {α : Type} (label : TcpSessionImpl.Label) (entries : List α) :
    List α :=
  match label with
  | .disconnectTimerHandler index => entries.eraseIdx index
  | _ => entries

section Waits

def Ages (before after : List Wait) : Prop :=
  List.Forall₂ (fun wait next => wait.status = .aborted → next.status = .aborted) before after

theorem ages_refl (waits : List Wait) : Ages waits waits :=
  List.forall₂_same.mpr fun _ _ aborted => aborted

theorem ages_abort (waits : List Wait) : Ages waits (waits.map AsioTimer.abortWait) := by
  apply List.forall₂_map_right_iff.mpr
  apply List.forall₂_same.mpr
  intro wait _ aborted
  rw [AsioTimer.abortWait, aborted]
  exact aborted

theorem ages_cancel (timer : AsioTimer) : Ages timer.waits timer.cancel.waits := by
  unfold AsioTimer.cancel
  split
  · exact ages_abort timer.waits
  · exact ages_refl timer.waits

theorem ages_expire (index : Nat) (timer : AsioTimer) : Ages timer.waits (timer.expire index).waits := by
  apply List.forall₂_iff_get.mpr
  refine ⟨(List.length_modify _ _ _).symm, ?_⟩
  intro place before after aborted
  simp only [AsioTimer.expire, List.get_eq_getElem, List.getElem_modify]
  split
  · rename_i same
    simp only [List.get_eq_getElem] at aborted
    rw [aborted]
    exact aborted
  · exact aborted

theorem Ages.trans {first second third : List Wait} (left : Ages first second)
    (right : Ages second third) : Ages first third := by
  induction left generalizing third with
  | nil => exact right
  | cons earlier _ induction =>
      cases right with
      | cons later rest => exact .cons (fun aborted => later (earlier aborted)) (induction rest)

theorem Ages.entries {before after : List Wait} {entries : List Nat} (ages : Ages before after)
    {Holds : Nat → Prop}
    (entered : List.Forall₂ (fun wait entry => wait.status = .aborted ∨ Holds entry) before entries) :
    List.Forall₂ (fun wait entry => wait.status = .aborted ∨ Holds entry) after entries := by
  induction ages generalizing entries with
  | nil => exact entered
  | cons first _ induction =>
      cases entered with
      | cons holds rest => exact .cons (holds.imp_left first) (induction rest)

end Waits

namespace TcpSessionImpl

variable {μ : Type} [Marshaller μ]

theorem send_message_handler_keeps (mblock : BlockPointer) (messageType : MessageType)
    (session : TcpSessionImpl μ) :
    (sendMessageHandler mblock messageType session).disconnectTimer = session.disconnectTimer ∧
      session.writes <+: (sendMessageHandler mblock messageType session).writes := by
  unfold sendMessageHandler
  split
  · exact ⟨rfl, List.prefix_rfl⟩
  · dsimp only
    split
    · exact ⟨rfl, List.prefix_rfl⟩
    · split
      · have quiet := check_output_queue_quiet { session with
          marshaller := (Marshaller.marshal mblock.mblock messageType session.marshaller).2.2 }
        have blocks := check_output_queue_sendBlocks { session with
          marshaller := (Marshaller.marshal mblock.mblock messageType session.marshaller).2.2 }
        have writes : session.writes <+: { session with
            marshaller := (Marshaller.marshal mblock.mblock messageType session.marshaller).2.2
            }.checkOutputQueue.2.writes :=
              ⟨[], (List.append_nil _).trans (congrArg SendBlocks.writes blocks).symm⟩
        split <;> exact ⟨quiet.disconnectTimer, writes⟩
      · exact ⟨rfl, List.prefix_append _ _⟩

/-- What a step does to the waits of the disconnect timer. -/
theorem Step.waits {session next : TcpSessionImpl μ} {label : Label} (step : Step session label next) :
    ∃ aged started, next.disconnectTimer.waits = aged ++ started ∧
      Ages (label.remainingWaits session.disconnectTimer.waits) aged := by
  have kept : ∀ {timer : AsioTimer}, Ages (label.remainingWaits session.disconnectTimer.waits) timer.waits →
      ∃ aged started, timer.waits = aged ++ started ∧
        Ages (label.remainingWaits session.disconnectTimer.waits) aged :=
    fun {timer} ages => ⟨timer.waits, [], (List.append_nil _).symm, ages⟩
  cases step with
  | sendMessage => exact kept (ages_refl _)
  | disconnect => exact kept (ages_refl _)
  | disconnectGracefully => exact kept (ages_refl _)
  | disconnectTimerExpires index => exact kept (ages_expire index session.disconnectTimer)
  | writeCompleted earlier error outstanding =>
      rw [(write_completed_quiet error _ _).disconnectTimer]
      split <;> exact kept (ages_refl _)
  | disconnectTimerHandler earlier waits completed =>
      rename_i wait later error
      have remaining : Ages ((Label.disconnectTimerHandler earlier.length).remainingWaits
          session.disconnectTimer.waits) (earlier ++ later) := by
        rw [waits, Label.remainingWaits, erase_middle]
        exact ages_refl _
      simp only [TcpSessionImpl.disconnectTimerHandler, disconnectTimedOut]
      split
      · split
        · exact ⟨(earlier ++ later).map AsioTimer.abortWait, _, rfl, remaining.trans (ages_abort _)⟩
        · exact ⟨earlier ++ later, [], (List.append_nil _).symm, remaining⟩
      · exact ⟨earlier ++ later, [], (List.append_nil _).symm, remaining⟩
  | handler now posted =>
      rename_i handler rest
      cases handler with
      | disconnect =>
          simp only [runHandler, disconnectHandler]
          split
          · exact kept (ages_refl _)
          · split
            · exact kept (ages_cancel session.disconnectTimer)
            · exact kept ((ages_cancel session.disconnectTimer).trans (ages_cancel _))
      | disconnectGracefully =>
          simp only [runHandler, disconnectGracefullyHandler]
          split
          · exact kept (ages_refl _)
          · exact ⟨session.disconnectTimer.waits.map AsioTimer.abortWait, _, rfl, ages_abort _⟩
      | sendMessage mblock messageType =>
          rw [runHandler, (send_message_handler_keeps mblock messageType _).1]
          exact kept (ages_refl _)

omit [Marshaller μ] in
theorem write_completed_writes (error : ErrorCode) (write : AsyncWrite) (session : TcpSessionImpl μ) :
    session.writes <+: (writeCompleted error write session).writes := by
  cases write with
  | single mblock =>
      simp only [writeCompleted, handleWrite, releaseBlock]
      split
      · exact (gather_write_sendBlocks (session.writeSucceeded mblock)).keeps.1
      · exact List.prefix_rfl
  | gather buffers =>
      have written := gather_written_sendBlocks error session.outputMemoryBlocks session
      have writes : session.writes <+:
          (session.outputMemoryBlocks.foldl (gatherWritten error) session).writes :=
        ⟨[], (List.append_nil _).trans (congrArg SendBlocks.writes written).symm⟩
      simp only [writeCompleted, handleGatherWrite]
      split
      · exact writes.trans (gather_write_sendBlocks { session.outputMemoryBlocks.foldl
          (gatherWritten error) session with outputBuffers := [], outputMemoryBlocks := [] }).keeps.1
      · exact writes

theorem Step.writes {session next : TcpSessionImpl μ} {label : Label} (step : Step session label next) :
    label.remaining session.writes <+: next.writes := by
  cases step with
  | sendMessage => exact List.prefix_rfl
  | disconnect => exact List.prefix_rfl
  | disconnectGracefully => exact List.prefix_rfl
  | disconnectTimerExpires => exact List.prefix_rfl
  | writeCompleted earlier error outstanding =>
      rename_i write later
      rw [outstanding, Label.remaining, erase_middle]
      exact write_completed_writes error write { session with writes := earlier ++ later }
  | disconnectTimerHandler earlier waits completed =>
      simp only [TcpSessionImpl.disconnectTimerHandler, disconnectTimedOut]
      split
      · split <;> exact List.prefix_rfl
      · exact List.prefix_rfl
  | handler now posted =>
      rename_i handler rest
      cases handler with
      | disconnect =>
          simp only [runHandler, disconnectHandler]
          split
          · exact List.prefix_rfl
          · split <;> exact List.prefix_rfl
      | disconnectGracefully =>
          simp only [runHandler, disconnectGracefullyHandler]
          split <;> exact List.prefix_rfl
      | sendMessage mblock messageType =>
          exact (send_message_handler_keeps mblock messageType { session with posted := rest }).2

end TcpSessionImpl

namespace PooledSession

variable {μ : Type} [Marshaller μ]

def extend (connections : List Nat) (length connection : Nat) : List Nat :=
  connections ++ List.replicate (length - connections.length) connection

def postAll (poster : Nat) (handlers : List PostedHandler) (state : PooledSession μ) : PooledSession μ :=
  { state with
    session := { state.session with posted := state.session.posted ++ handlers }
    posters := state.posters ++ List.replicate handlers.length poster }

/-- `async_read_some` on the socket of the current connection. -/
def readMessage (state : PooledSession μ) : PooledSession μ :=
  { state with readers := state.readers ++ [state.connection] }

def startThrottleTimer (state : PooledSession μ) : PooledSession μ :=
  if state.session.throttleTimer.isRunning then state
  else { state with
    session := { state.session with throttleTimer := state.session.throttleTimer.once } }

def messageBlockReceived (reader : Nat) (received : Received μ) (state : PooledSession μ) :
    PooledSession μ :=
  let state := { state with
    session := { state.session with marshaller := received.marshaller } }.postAll reader received.calls
  if !received.isUnmarshalled then state.postAll reader [.disconnect]
  else if !received.isKarmaRemained then state.startThrottleTimer
  else state.readMessage

/-- `handle_read`. A read that was aborted disconnects like any other that failed. -/
def handleRead (error : ErrorCode) (reader : Nat) (received : Received μ) (state : PooledSession μ) :
    PooledSession μ :=
  if error = .success then state.messageBlockReceived reader received
  else state.postAll reader [.disconnect]

def throttleTimerHandler (error : ErrorCode) (state : PooledSession μ) : PooledSession μ :=
  let state :=
    if error = .success && state.session.throttleTimer.isRunning then state.readMessage else state
  { state with session := { state.session with
    throttleTimer := { state.session.throttleTimer with isRunning := false } } }

/-- The accepted socket is assigned to the session, and `sessionOpened` asks the callback. -/
def sessionOpened (onConnected : Bool) (state : PooledSession μ) : PooledSession μ :=
  let state := { state with
    session := state.session.sessionOpened
    connection := state.connection + 1 }
  if onConnected then state.readMessage else state.postAll state.connection [.disconnect]

/-- The connection for which a step posts. A handler posts for the connection it was posted
for, and a call of the application is for the current connection. -/
def poster (state : PooledSession μ) : TcpSessionImpl.Label → Nat
  | .handler _ => state.posters.headD state.connection
  | .writeCompleted index _ => state.writers.getD index state.connection
  | .disconnectTimerHandler index => state.waiters.getD index state.connection
  | _ => state.connection

def newEffects (label : TcpSessionImpl.Label) (next : TcpSessionImpl μ) (state : PooledSession μ) :
    List Effect :=
  if label.isHandler then
    (next.events.drop state.session.events.length).map fun event =>
      { event, poster := state.poster label, connection := state.connection }
  else
    []

def sessionStepped (label : TcpSessionImpl.Label) (next : TcpSessionImpl μ) (state : PooledSession μ) :
    PooledSession μ :=
  { state with
    session := next
    posters := extend (label.remainingPosted state.posters) next.posted.length (state.poster label)
    writers := extend (label.remaining state.writers) next.writes.length state.connection
    waiters := extend (label.remainingWaits state.waiters) next.disconnectTimer.waits.length
      (state.poster label)
    effects := state.effects ++ state.newEffects label next }

inductive Label (μ : Type) where
  | opened (onConnected : Bool)
  | readCompleted (index : Nat) (error : ErrorCode) (received : Received μ)
  | throttleTimerExpires (index : Nat)
  | throttleTimerHandler (index : Nat)
  | session (label : TcpSessionImpl.Label)

def advance (state : PooledSession μ) : Label μ → Option (PooledSession μ)
  | .opened onConnected =>
      if state.session.isConnected then none else some (state.sessionOpened onConnected)
  | .readCompleted index error received => (state.readers[index]?).map fun reader =>
      handleRead error reader received { state with readers := state.readers.eraseIdx index }
  | .throttleTimerExpires index =>
      some { state with session := { state.session with
        throttleTimer := state.session.throttleTimer.expire index } }
  | .throttleTimerHandler index =>
      (state.session.throttleTimer.waits[index]?).bind fun wait => wait.completion.map fun error =>
        throttleTimerHandler error { state with session := { state.session with
          throttleTimer := { state.session.throttleTimer with
            waits := state.session.throttleTimer.waits.eraseIdx index } } }
  | .session label => (state.session.advance label).map fun next => state.sessionStepped label next

/-- A closed session is opened at any time. Completions come in any order, and posted handlers
in that of their posts. -/
def Step (state : PooledSession μ) (label : Label μ) (next : PooledSession μ) : Prop :=
  state.advance label = some next

/-- No handler has closed, or written to, a connection later than the one it was posted for. -/
def NoStaleEffect (state : PooledSession μ) : Prop :=
  ∀ effect ∈ state.effects, ¬effect.poster < effect.connection

/-- Nothing of an earlier connection is left when the session is opened. -/
def OpensSettled (state : PooledSession μ) : Label μ → Prop
  | .opened _ => state.session.posted = [] ∧ state.session.writes = [] ∧ state.readers = [] ∧
      ∀ wait ∈ state.session.disconnectTimer.waits, wait.status = .aborted
  | _ => True

instance (state : PooledSession μ) (label : Label μ) : Decidable (state.OpensSettled label) :=
  match label with
  | .opened _ => inferInstanceAs (Decidable (_ ∧ _))
  | .readCompleted _ _ _ => .isTrue trivial
  | .throttleTimerExpires _ => .isTrue trivial
  | .throttleTimerHandler _ => .isTrue trivial
  | .session _ => .isTrue trivial

/-- Everything that is outstanding is for the current connection, apart from aborted waits. -/
structure Current (state : PooledSession μ) : Prop where
  posters : state.posters = List.replicate state.session.posted.length state.connection
  writers : state.writers = List.replicate state.session.writes.length state.connection
  waiters : List.Forall₂ (fun wait waiter => wait.status = .aborted ∨ waiter = state.connection)
    state.session.disconnectTimer.waits state.waiters
  readers : ∀ reader ∈ state.readers, reader = state.connection
  effects : state.NoStaleEffect

theorem remaining_posted_replicate (label : TcpSessionImpl.Label) (posted : List PostedHandler)
    (connection : Nat) : label.remainingPosted (List.replicate posted.length connection) =
      List.replicate (label.remainingPosted posted).length connection := by
  unfold TcpSessionImpl.Label.remainingPosted
  split
  · rw [List.tail_replicate, List.length_tail]
  · rfl

theorem remaining_replicate (label : TcpSessionImpl.Label) (writes : List AsyncWrite)
    (connection : Nat) : label.remaining (List.replicate writes.length connection) =
      List.replicate (label.remaining writes).length connection := by
  unfold TcpSessionImpl.Label.remaining
  split
  · rw [← List.map_const', List.eraseIdx_map, List.map_const']
  · rfl

theorem remaining_waits_entered {Entered : Wait → Nat → Prop} {waits : List Wait} {waiters : List Nat}
    (label : TcpSessionImpl.Label) (entered : List.Forall₂ Entered waits waiters) :
    List.Forall₂ Entered (label.remainingWaits waits) (label.remainingWaits waiters) := by
  unfold TcpSessionImpl.Label.remainingWaits
  split
  · rw [List.eraseIdx_eq_take_drop_succ, List.eraseIdx_eq_take_drop_succ]
    exact List.rel_append (List.forall₂_take _ entered) (List.forall₂_drop _ entered)
  · exact entered

theorem entered_replicate {Entered : Wait → Nat → Prop} {connection : Nat}
    (each : ∀ wait, Entered wait connection) (waits : List Wait) :
    List.Forall₂ Entered waits (List.replicate waits.length connection) := by
  induction waits with
  | nil => exact .nil
  | cons wait waits induction => exact .cons (each wait) induction

theorem extend_replicate {count length connection tag : Nat} (grows : count ≤ length)
    (same : tag = connection ∨ length = count) :
    extend (List.replicate count connection) length tag = List.replicate length connection := by
  unfold extend
  rw [List.length_replicate]
  rcases same with rfl | rfl
  · rw [← List.replicate_add, Nat.add_sub_cancel' grows]
  · rw [Nat.sub_self, List.replicate_zero, List.append_nil]

omit [Marshaller μ] in
theorem Current.postAll {state : PooledSession μ} (current : state.Current)
    (handlers : List PostedHandler) :
    (state.postAll state.connection handlers).Current := by
  constructor
  · simp only [PooledSession.postAll, current.posters, List.length_append, List.replicate_add]
  · exact current.writers
  · exact current.waiters
  · exact current.readers
  · exact current.effects

omit [Marshaller μ] in
theorem Current.readMessage {state : PooledSession μ} (current : state.Current) :
    state.readMessage.Current := by
  refine { current with readers := ?_ }
  intro reader member
  rcases List.mem_append.mp member with earlier | last
  · exact current.readers reader earlier
  · exact List.mem_singleton.mp last

omit [Marshaller μ] in
theorem Current.handleRead {state : PooledSession μ} (current : state.Current) (error : ErrorCode)
    (received : Received μ) : (state.handleRead error state.connection received).Current := by
  have running : { state with session := { state.session with
      marshaller := received.marshaller } }.Current := { current with }
  have called := running.postAll received.calls
  unfold PooledSession.handleRead messageBlockReceived
  split
  · dsimp only
    split
    · exact called.postAll [.disconnect]
    · split
      · unfold startThrottleTimer
        split
        · exact called
        · exact { called with }
      · exact called.readMessage
  · exact current.postAll [.disconnect]

/-- A step of the session acts for the current connection, or the wait that it ends was aborted and
nothing comes of it. -/
theorem Current.poster {state : PooledSession μ} (current : state.Current) {label : TcpSessionImpl.Label}
    {next : TcpSessionImpl μ} (step : TcpSessionImpl.Step state.session label next) :
    state.poster label = state.connection ∨ label.isHandler = false ∧
      next.posted.length = (label.remainingPosted state.session.posted).length ∧
      next.disconnectTimer.waits.length =
        (label.remainingWaits state.session.disconnectTimer.waits).length := by
  cases step with
  | sendMessage => exact .inl rfl
  | disconnect => exact .inl rfl
  | disconnectGracefully => exact .inl rfl
  | disconnectTimerExpires => exact .inl rfl
  | handler now posted =>
      left
      rw [PooledSession.poster, current.posters, posted]
      rfl
  | writeCompleted earlier error outstanding =>
      left
      simp [PooledSession.poster, current.writers, outstanding]
  | disconnectTimerHandler earlier waits completed =>
      rename_i wait later error
      have bound : earlier.length < state.session.disconnectTimer.waits.length := by
        rw [waits, List.length_append, List.length_cons]
        omega
      have entered := current.waiters.get bound (current.waiters.length_eq ▸ bound)
      have same : state.session.disconnectTimer.waits.get ⟨earlier.length, bound⟩ = wait := by
        simp [waits]
      rw [same] at entered
      rcases entered with aborted | waiter
      · right
        rw [Wait.completion, aborted] at completed
        cases completed
        refine ⟨rfl, rfl, ?_⟩
        rw [waits, TcpSessionImpl.Label.remainingWaits, erase_middle]
        rfl
      · left
        rw [PooledSession.poster, List.getD_eq_getElem?_getD,
          List.getElem?_eq_getElem (current.waiters.length_eq ▸ bound)]
        exact waiter

theorem Current.sessionStepped {state : PooledSession μ} (current : state.Current)
    {label : TcpSessionImpl.Label} {next : TcpSessionImpl μ}
    (step : TcpSessionImpl.Step state.session label next) :
      (state.sessionStepped label next).Current := by
  rcases step.posts with ⟨added, posted, _⟩
  rcases step.writes with ⟨started, writes⟩
  rcases step.waits with ⟨aged, waiting, waits, ages⟩
  have acts := current.poster step
  constructor
  · simp only [PooledSession.sessionStepped]
    rw [current.posters, remaining_posted_replicate]
    apply extend_replicate
    · rw [posted, List.length_append]
      exact Nat.le_add_right _ _
    · exact acts.imp_right fun quiet => quiet.2.1
  · simp only [PooledSession.sessionStepped]
    rw [current.writers, remaining_replicate]
    apply extend_replicate
    · rw [← writes, List.length_append]
      exact Nat.le_add_right _ _
    · exact .inl rfl
  · have entered := ages.entries (remaining_waits_entered label current.waiters)
    simp only [PooledSession.sessionStepped, extend]
    rw [waits, List.length_append, ← entered.length_eq, Nat.add_sub_cancel_left]
    apply List.rel_append entered
    rcases acts with poster | quiet
    · rw [poster]
      exact entered_replicate (fun _ => .inr rfl) waiting
    · have none : waiting = [] := by
        have count := quiet.2.2
        rw [waits, List.length_append, ages.length_eq] at count
        exact List.eq_nil_of_length_eq_zero (by omega)
      rw [none]
      exact .nil
  · exact current.readers
  · intro effect member
    rcases List.mem_append.mp member with earlier | fresh
    · exact current.effects effect earlier
    · unfold newEffects at fresh
      split at fresh
      · rename_i isHandler
        rcases List.mem_map.mp fresh with ⟨event, _, same⟩
        have poster : state.poster label = state.connection := by
          apply acts.resolve_right
          intro quiet
          exact absurd (quiet.1.symm.trans isHandler) Bool.false_ne_true
        rw [← same, poster]
        exact Nat.lt_irrefl _
      · cases fresh

omit [Marshaller μ] in
theorem Current.sessionOpened {state : PooledSession μ} (current : state.Current)
    (settled : state.session.posted = [] ∧ state.session.writes = [] ∧ state.readers = [] ∧
      ∀ wait ∈ state.session.disconnectTimer.waits, wait.status = .aborted) (onConnected : Bool) :
    (state.sessionOpened onConnected).Current := by
  rcases settled with ⟨posted, writes, readers, aborted⟩
  have opened : { state with
      session := state.session.sessionOpened
      connection := state.connection + 1 }.Current := by
    constructor
    · have none := current.posters
      rw [posted] at none
      simp only [TcpSessionImpl.sessionOpened, none, posted]
      rfl
    · have none := current.writers
      rw [writes] at none
      simp only [TcpSessionImpl.sessionOpened, none, writes]
      rfl
    · have entered := List.forall₂_and_left _ _ |>.mpr ⟨aborted, current.waiters⟩
      exact entered.imp fun _ _ both => .inl both.1
    · intro reader member
      rw [readers] at member
      cases member
    · exact current.effects
  unfold PooledSession.sessionOpened
  dsimp only
  split
  · exact opened.readMessage
  · exact opened.postAll [.disconnect]

theorem step_current {state next : PooledSession μ} {label : Label μ} (current : state.Current)
    (step : Step state label next) (settled : state.OpensSettled label) : next.Current := by
  unfold Step at step
  cases label with
  | opened onConnected =>
      simp only [advance] at step
      split at step
      · cases step
      · cases step
        exact current.sessionOpened settled onConnected
  | readCompleted index error received =>
      rcases Option.map_eq_some_iff.mp step with ⟨reader, found, same⟩
      have remaining : { state with readers := state.readers.eraseIdx index }.Current := by
        refine { current with readers := ?_ }
        intro other member
        exact current.readers other (List.mem_of_mem_eraseIdx member)
      rw [← same, current.readers reader (List.mem_of_getElem? found)]
      exact remaining.handleRead error received
  | throttleTimerExpires index =>
      cases step
      exact { current with }
  | throttleTimerHandler index =>
      rcases Option.bind_eq_some_iff.mp step with ⟨wait, found, handled⟩
      rcases Option.map_eq_some_iff.mp handled with ⟨error, completed, same⟩
      rw [← same, PooledSession.throttleTimerHandler]
      dsimp only
      split
      · exact { current.readMessage with }
      · exact { current with }
  | session label =>
      rcases Option.map_eq_some_iff.mp step with ⟨moved, advances, same⟩
      rw [← same]
      exact current.sessionStepped (state.session.advance_sound label moved advances)

/-- As long as the session is opened only when nothing of an earlier connection is left, no
handler closes or writes to a later connection than the one it was posted for. -/
theorem no_stale_effect (now : TimePoint) (marshaller : μ) (maxPendablePacketCount : Nat)
    {labels : List (Label μ)} {last : PooledSession μ}
    (run : Run (Where Step OpensSettled)
      { session := .create now marshaller maxPendablePacketCount } labels last) :
    last.NoStaleEffect := by
  have current : last.Current := by
    apply run.invariant (fun _ state => state.Current)
    · exact ⟨rfl, rfl, .nil, nofun, nofun⟩
    · intro history state label next before step
      exact step_current before step.1 step.2
  exact current.effects

section Concrete

open SendLedger

def created : PooledSession (SgpMarshaller CsPacketCoder) := { session := .create 0 smallMarshaller 0 }

def closing : List (Label (SgpMarshaller CsPacketCoder)) :=
  [.opened true, .session .disconnect, .session (.handler 0),
    .readCompleted 0 .operationAborted { marshaller := smallMarshaller }]

def reopening : List (Label (SgpMarshaller CsPacketCoder)) :=
  closing ++ [.session (.handler 0), .opened true, .session (emptyMessage 0), .session (.handler 0)]

def overtaking : List (Label (SgpMarshaller CsPacketCoder)) :=
  closing ++ [.opened true, .session (.handler 0)]

theorem no_stale_effect_reopened :
    ∃ last, Run (Where Step OpensSettled) created reopening last ∧
      last.effects = [⟨.disconnected, 1, 1⟩, ⟨.release, 1, 1⟩, ⟨.messageTransfered 21, 2, 2⟩] ∧
      last.NoStaleEffect := by
  have executes : (execute (guarded advance OpensSettled) created reopening).map PooledSession.effects =
      some [⟨.disconnected, 1, 1⟩, ⟨.release, 1, 1⟩, ⟨.messageTransfered 21, 2, 2⟩] := by
    decide +kernel
  rcases Run.of_guarded Step OpensSettled (fun _ _ _ taken => taken) executes with ⟨last, run, effects⟩
  exact ⟨last, run, effects, no_stale_effect 0 smallMarshaller 0 run⟩

/-- The disconnect that the aborted read of the first connection has posted closes the second. -/
theorem aborted_read_closes_later_connection :
    ¬∀ labels last, Run Step created labels last → last.NoStaleEffect := by
  intro fresh
  have executes : (execute advance created overtaking).map PooledSession.effects =
      some [⟨.disconnected, 1, 1⟩, ⟨.release, 1, 1⟩, ⟨.disconnected, 1, 2⟩, ⟨.release, 1, 2⟩] := by
    decide +kernel
  rcases Run.of_observed Step (fun _ _ _ taken => taken) executes with ⟨last, run, effects⟩
  have stale : (⟨.disconnected, 1, 2⟩ : Effect) ∈ last.effects := by
    rw [effects]
    decide
  exact fresh overtaking last run _ stale Nat.one_lt_two

end Concrete

end PooledSession

end Sne.Session
