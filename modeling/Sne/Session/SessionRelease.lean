import Sne.Session.IoContextSessions

/-!
# Releasing sessions

A session that was acquired goes back to its manager once. While it is away, it waits
for an accept or connect or it is connected; when it is back, nothing that is still to
come releases it again. The acceptor and the connector release a session that they have
also told to disconnect, and they drop one whose socket is open.
-/

namespace Sne.Session.IoContextSessions

open Sne.Base Sne.Sgp Sne.Library.Runs

set_option autoImplicit false

variable {μ : Type} [Marshaller μ]

/-- The disconnect that is posted finds the socket open and releases the session. -/
def awaitsDisconnect (impl : TcpSessionImpl μ) : Bool := impl.isConnected && impl.hasDisconnect

/-- A session is acquired when all its acquisitions were released, and released when one was not. -/
def Fits (before : List ManagerRecord) : ManagerRecord → Prop
  | .acquired session => before.count (.acquired session) = before.count (.released session)
  | .released session => before.count (.acquired session) = before.count (.released session) + 1

def Returned (state : IoContextSessions μ) (session : Nat) : Prop :=
  state.history.count (.acquired session) = state.history.count (.released session)

structure ReleasedOnce (state : IoContextSessions μ) : Prop where
  history : Throughout Fits state.history
  away : ∀ session, state.Returned session ∨ session ∈ state.operations.map Operation.session ∨
    (state.sessions session).isConnected = true
  back : ∀ session, state.Returned session → session ∉ state.operations.map Operation.session ∧
    awaitsDisconnect (state.sessions session) = false

/-- The completion does not release a session that will be released again. -/
def SettlesOperation (state : IoContextSessions μ) (error : ErrorCode) (answers : Answers) :
    Operation → Prop
  | .accept session =>
      if error = .success then
        if state.shouldAcceptorFinish then (state.sessions session).hasDisconnect = false
        else answers.isValidated = true
      else
        awaitsDisconnect (state.sessions session) = false
  | .connect session _ =>
      if error = .success then
        state.shouldConnectorFinish = true → awaitsDisconnect (state.sessions session) = false
      else
        error = .operationAborted

/-- No session is released behind its operation or after its release. -/
def ReleasesSettled (state : IoContextSessions μ) : Label → Prop
  | .completed index error answers => ∀ operation ∈ state.operations[index]?,
      state.SettlesOperation error answers operation
  | .session session label =>
      if session ∈ state.manager.activeResources then
        session ∈ state.operations.map Operation.session → label.isHandler = true →
          (state.sessions session).closesNext = false
      else
        (state.sessions session).isConnected = true → (state.sessions session).postsDisconnect label = false
  | _ => True

instance (state : IoContextSessions μ) (error : ErrorCode) (answers : Answers) (operation : Operation) :
    Decidable (state.SettlesOperation error answers operation) :=
  match operation with
  | .accept _ => inferInstanceAs (Decidable (ite _ _ _))
  | .connect _ _ => inferInstanceAs (Decidable (ite _ _ _))

instance (state : IoContextSessions μ) (label : Label) : Decidable (state.ReleasesSettled label) :=
  match label with
  | .completed index error answers => inferInstanceAs (Decidable (∀ operation ∈ state.operations[index]?,
      state.SettlesOperation error answers operation))
  | .session _ _ => inferInstanceAs (Decidable (ite _ _ _))
  | .acceptorOpened => .isTrue trivial
  | .connectorOpened => .isTrue trivial
  | .acceptorClosed => .isTrue trivial
  | .connectorClosed => .isTrue trivial

/-- The sessions in use are the `pending` ones, which wait for an operation or for its handler,
and the connected ones. -/
structure Consistent (pending : List Nat) (state : IoContextSessions μ) : Prop where
  history : Throughout Fits state.history
  counts : ∀ session, state.history.count (.acquired session) =
    state.history.count (.released session) + if session ∈ state.manager.activeResources then 1 else 0
  distinct : pending.Nodup
  active : ∀ session ∈ pending, session ∈ state.manager.activeResources
  connected : ∀ session ∈ state.manager.activeResources, session ∉ pending →
    (state.sessions session).isConnected = true
  released : ∀ session, session ∉ state.manager.activeResources →
    awaitsDisconnect (state.sessions session) = false

omit [Marshaller μ] in
theorem on_session_self (state : IoContextSessions μ) (session : Nat)
    (change : TcpSessionImpl μ → TcpSessionImpl μ) :
    (state.onSession session change).sessions session = change (state.sessions session) :=
  Function.update_self _ _ _

omit [Marshaller μ] in
theorem on_session_other (state : IoContextSessions μ) {session other : Nat}
    (change : TcpSessionImpl μ → TcpSessionImpl μ) (different : other ≠ session) :
    (state.onSession session change).sessions other = state.sessions other :=
  Function.update_of_ne different _ _

omit [Marshaller μ] in
theorem Consistent.returned_iff {pending : List Nat} {state : IoContextSessions μ}
    (consistent : Consistent pending state) (session : Nat) :
    state.Returned session ↔ session ∉ state.manager.activeResources := by
  rw [Returned, consistent.counts]
  split <;> simp_all

omit [Marshaller μ] in
theorem Consistent.releasedOnce {state : IoContextSessions μ}
    (consistent : Consistent (state.operations.map Operation.session) state) : state.ReleasedOnce := by
  constructor
  · exact consistent.history
  · intro session
    rw [consistent.returned_iff]
    by_cases active : session ∈ state.manager.activeResources
    · right
      by_cases pending : session ∈ state.operations.map Operation.session
      · exact .inl pending
      · exact .inr (consistent.connected session active pending)
    · exact .inl active
  · intro session returned
    rw [consistent.returned_iff] at returned
    refine ⟨?_, consistent.released session returned⟩
    intro pending
    exact returned (consistent.active session pending)

omit [Marshaller μ] in
theorem Consistent.perm {pending others : List Nat} {state : IoContextSessions μ}
    (consistent : Consistent pending state) (perm : pending.Perm others) : Consistent others state :=
  { consistent with
    distinct := perm.nodup_iff.mp consistent.distinct
    active := fun session member => consistent.active session (perm.mem_iff.mpr member)
    connected := fun session active absent =>
      consistent.connected session active fun member => absent (perm.mem_iff.mp member) }

omit [Marshaller μ] in
theorem Consistent.acquire {pending : List Nat} {state next : IoContextSessions μ} {session : Nat}
    (consistent : Consistent pending state) (acquired : state.acquire = some (session, next)) :
    Consistent (session :: pending) next ∧ next.operations = state.operations := by
  rcases Option.map_eq_some_iff.mp acquired with ⟨⟨resource, manager⟩, pool, same⟩
  cases same
  rcases MemoryPool.acquire_active pool with ⟨fresh, active⟩
  have free := (consistent.returned_iff session).mpr fresh
  refine ⟨⟨?_, ?_, ?_, ?_, ?_, ?_⟩, rfl⟩
  · exact (throughout_concat _ _ _).mpr ⟨consistent.history, free⟩
  · intro other
    have counts := consistent.counts other
    simp only [List.count_append, List.count_singleton]
    by_cases same : other = session
    · rw [same] at counts ⊢
      simp [active, fresh] at counts ⊢
      omega
    · have distinct : ¬session = other := fun equal => same equal.symm
      simp [active, same, distinct, counts]
  · refine List.nodup_cons.mpr ⟨?_, consistent.distinct⟩
    intro member
    exact fresh (consistent.active session member)
  · intro other member
    rw [active]
    rcases List.mem_cons.mp member with same | earlier
    · exact .inl same
    · exact .inr (consistent.active other earlier)
  · intro other used absent
    rw [active] at used
    rcases used with same | used
    · exact absurd (same ▸ List.mem_cons_self) absent
    · exact consistent.connected other used fun member => absent (List.mem_cons_of_mem _ member)
  · intro other unused
    rw [active] at unused
    exact consistent.released other fun used => unused (.inr used)

omit [Marshaller μ] in
theorem Consistent.release {pending : List Nat} {state : IoContextSessions μ} {session : Nat}
    (consistent : Consistent (session :: pending) state)
    (settled : awaitsDisconnect (state.sessions session) = false) :
    Consistent pending (state.release session) := by
  rcases List.nodup_cons.mp consistent.distinct with ⟨absent, distinct⟩
  have used := consistent.active session List.mem_cons_self
  have active := state.manager.release_active session
  refine ⟨?_, ?_, distinct, ?_, ?_, ?_⟩
  · refine (throughout_concat _ _ _).mpr ⟨consistent.history, ?_⟩
    have counts := consistent.counts session
    rw [if_pos used] at counts
    exact counts
  · intro other
    have counts := consistent.counts other
    simp only [IoContextSessions.release, List.count_append, List.count_singleton]
    by_cases same : other = session
    · rw [same] at counts ⊢
      simp [active, used] at counts ⊢
      omega
    · have distinct : ¬session = other := fun equal => same equal.symm
      simp [active, same, distinct, counts]
  · intro other member
    refine (active other).mpr ⟨consistent.active other (List.mem_cons_of_mem _ member), ?_⟩
    intro same
    exact absent (same ▸ member)
  · intro other usedStill outside
    rcases (active other).mp usedStill with ⟨usedBefore, different⟩
    apply consistent.connected other usedBefore
    intro member
    exact (List.mem_cons.mp member).elim different outside
  · intro other unused
    by_cases same : other = session
    · rw [same]
      exact settled
    · exact consistent.released other fun usedBefore => unused ((active other).mpr ⟨usedBefore, same⟩)

omit [Marshaller μ] in
theorem Consistent.change {pending : List Nat} {state : IoContextSessions μ} {session : Nat}
    (consistent : Consistent pending state) (member : session ∈ pending)
    (change : TcpSessionImpl μ → TcpSessionImpl μ) :
      Consistent pending (state.onSession session change) := by
  refine ⟨consistent.history, consistent.counts, consistent.distinct, consistent.active, ?_, ?_⟩
  · intro other active absent
    have different : other ≠ session := by
      intro same
      rw [same] at absent
      exact absent member
    rw [on_session_other state change different]
    exact consistent.connected other active absent
  · intro other unused
    have different : other ≠ session := by
      intro same
      rw [same] at unused
      exact unused (consistent.active session member)
    rw [on_session_other state change different]
    exact consistent.released other unused

omit [Marshaller μ] in
theorem Consistent.opened {pending : List Nat} {state : IoContextSessions μ} {session : Nat}
    (consistent : Consistent (session :: pending) state)
    (connected : (state.sessions session).isConnected = true) : Consistent pending state := by
  refine { consistent with
    distinct := (List.nodup_cons.mp consistent.distinct).2
    active := fun other member => consistent.active other (List.mem_cons_of_mem _ member)
    connected := ?_ }
  intro other active absent
  by_cases same : other = session
  · rw [same]
    exact connected
  · apply consistent.connected other active
    intro member
    exact (List.mem_cons.mp member).elim same absent

omit [Marshaller μ] in
theorem Consistent.hold {pending : List Nat} {state : IoContextSessions μ} {session : Nat}
    (consistent : Consistent pending state) (active : session ∈ state.manager.activeResources)
    (absent : session ∉ pending) : Consistent (session :: pending) state := by
  refine { consistent with
    distinct := List.nodup_cons.mpr ⟨absent, consistent.distinct⟩
    active := ?_
    connected := fun other used outside =>
      consistent.connected other used fun member => outside (List.mem_cons_of_mem _ member) }
  intro other member
  rcases List.mem_cons.mp member with same | earlier
  · rw [same]
    exact active
  · exact consistent.active other earlier

omit [Marshaller μ] in
/-- An operation is started on a session that was acquired. -/
theorem Consistent.start (state : IoContextSessions μ) (operation : Operation)
    (consistent : Consistent (operation.session :: state.operations.map Operation.session) state) :
    Consistent ((state.operations ++ [operation]).map Operation.session)
      { state with operations := state.operations ++ [operation] } := by
  rw [List.map_append]
  have moved := consistent.perm (List.perm_append_singleton operation.session _).symm
  exact { moved with }

omit [Marshaller μ] in
theorem accept_consistent {state next : IoContextSessions μ}
    (consistent : Consistent (state.operations.map Operation.session) state)
    (accepts : state.accept = some next) : Consistent (next.operations.map Operation.session) next := by
  rcases Option.map_eq_some_iff.mp accepts with ⟨⟨session, acquired⟩, taken, same⟩
  rcases consistent.acquire taken with ⟨held, operations⟩
  rw [← operations] at held
  cases same
  exact Consistent.start acquired (.accept session) held

omit [Marshaller μ] in
theorem connect_consistent {connectionIndex : Nat} {state next : IoContextSessions μ}
    (consistent : Consistent (state.operations.map Operation.session) state)
    (connects : state.connect connectionIndex = some next) :
    Consistent (next.operations.map Operation.session) next := by
  rcases Option.map_eq_some_iff.mp connects with ⟨⟨session, acquired⟩, taken, same⟩
  rcases consistent.acquire taken with ⟨held, operations⟩
  rw [← operations] at held
  cases same
  let opened := acquired.onSession session fun impl => { impl with isSocketOpen := true }
  exact Consistent.start opened (.connect session connectionIndex) (held.change List.mem_cons_self _)

omit [Marshaller μ] in
theorem initialize_session_consistent {state : IoContextSessions μ} {session : Nat} {pending : List Nat}
    (consistent : Consistent (session :: pending) state) (onConnected : Bool) :
    Consistent pending (state.initializeSession session onConnected) := by
  apply (consistent.change List.mem_cons_self _).opened
  rw [on_session_self]
  split <;> rfl

omit [Marshaller μ] in
theorem accept_completed_consistent {state next : IoContextSessions μ} {session : Nat}
    {error : ErrorCode}
    {answers : Answers} (consistent : Consistent (session :: state.operations.map Operation.session) state)
    (settled : state.SettlesOperation error answers (.accept session))
    (completed : state.acceptCompleted session error answers = some next) :
    Consistent (next.operations.map Operation.session) next := by
  have accepts : ∀ middle : IoContextSessions μ,
      Consistent (middle.operations.map Operation.session) middle →
      (if middle.shouldAcceptorFinish then some middle else middle.accept) = some next →
      Consistent (next.operations.map Operation.session) next := by
    intro middle settledMiddle finishes
    split at finishes
    · cases finishes
      exact settledMiddle
    · exact accept_consistent settledMiddle finishes
  unfold acceptCompleted at completed
  apply accepts _ _ completed
  simp only [SettlesOperation] at settled
  split
  · rename_i succeeded
    rw [if_pos succeeded] at settled
    have accepted := consistent.change List.mem_cons_self fun impl => { impl with isSocketOpen := true }
    dsimp only
    split
    · rename_i finish
      have finishes : state.shouldAcceptorFinish = true := finish
      rw [if_pos finishes] at settled
      apply accepted.release
      rw [on_session_self]
      exact settled
    · rename_i runs
      have continues : ¬state.shouldAcceptorFinish = true := runs
      rw [if_neg continues] at settled
      rw [settled, Bool.not_true, if_neg Bool.false_ne_true]
      exact initialize_session_consistent accepted answers.onConnected
  · rename_i failed
    rw [if_neg failed] at settled
    exact consistent.release settled

omit [Marshaller μ] in
theorem connect_completed_consistent {state next : IoContextSessions μ} {session connectionIndex : Nat}
    {error : ErrorCode} {answers : Answers}
    (consistent : Consistent (session :: state.operations.map Operation.session) state)
    (settled : state.SettlesOperation error answers (.connect session connectionIndex))
    (possible : state.canComplete error (.connect session connectionIndex) = true)
    (completed : state.connectCompleted session connectionIndex error answers = some next) :
    Consistent (next.operations.map Operation.session) next := by
  have connects : ∀ middle : IoContextSessions μ,
      Consistent (middle.operations.map Operation.session) middle →
      (if !middle.shouldConnectorFinish && decide (connectionIndex + 1 < middle.connectionCount) then
        middle.connect (connectionIndex + 1) else some middle) = some next →
      Consistent (next.operations.map Operation.session) next := by
    intro middle settledMiddle finishes
    split at finishes
    · exact connect_consistent settledMiddle finishes
    · cases finishes
      exact settledMiddle
  unfold connectCompleted at completed
  apply connects _ _ completed
  simp only [SettlesOperation] at settled
  split
  · rename_i succeeded
    rw [if_pos succeeded] at settled
    split
    · rename_i finish
      exact consistent.release (settled finish)
    · exact initialize_session_consistent consistent answers.onConnected
  · rename_i failed
    rw [if_neg failed] at settled
    rw [if_pos settled]
    apply consistent.release
    rw [settled] at possible
    have closed : (state.sessions session).isConnected = false := by simpa [canComplete] using possible
    rw [awaitsDisconnect, closed, Bool.false_and]

omit [Marshaller μ] in
theorem complete_consistent (state : IoContextSessions μ) {next : IoContextSessions μ}
    {operation : Operation}
    {error : ErrorCode} {answers : Answers}
    (consistent : Consistent (operation.session :: state.operations.map Operation.session) state)
    (settled : state.SettlesOperation error answers operation)
    (possible : state.canComplete error operation = true)
    (completed : complete error answers operation state = some next) :
    Consistent (next.operations.map Operation.session) next := by
  cases operation with
  | accept session => exact accept_completed_consistent consistent settled completed
  | connect session connectionIndex =>
      exact connect_completed_consistent consistent settled possible completed

omit [Marshaller μ] in
theorem closed_consistent {state : IoContextSessions μ} {session : Nat} {pending : List Nat}
    {next : TcpSessionImpl μ} (consistent : Consistent pending state)
    (active : session ∈ state.manager.activeResources) (absent : session ∉ pending)
    (closed : next.isConnected = false) :
    Consistent pending ((state.onSession session fun _ => next).release session) := by
  apply ((consistent.hold active absent).change List.mem_cons_self _).release
  rw [on_session_self, awaitsDisconnect, closed, Bool.false_and]

omit [Marshaller μ] in
theorem stayed_consistent {state : IoContextSessions μ} {session : Nat} {pending : List Nat}
    {next : TcpSessionImpl μ} (consistent : Consistent pending state)
    (stays : next.isConnected = (state.sessions session).isConnected)
    (released : session ∉ state.manager.activeResources → awaitsDisconnect next = false) :
    Consistent pending (state.onSession session fun _ => next) := by
  refine ⟨consistent.history, consistent.counts, consistent.distinct, consistent.active, ?_, ?_⟩
  · intro other active absent
    have connected := consistent.connected other active absent
    by_cases same : other = session
    · rw [same] at connected ⊢
      rw [on_session_self, stays, connected]
    · rw [on_session_other state _ same]
      exact connected
  · intro other unused
    by_cases same : other = session
    · rw [same] at unused ⊢
      rw [on_session_self]
      exact released unused
    · rw [on_session_other state _ same]
      exact consistent.released other unused

/-- A session that is not in use stays closed, or nobody tells it to disconnect. -/
theorem released_stays {session next : TcpSessionImpl μ} {label : TcpSessionImpl.Label}
    (step : TcpSessionImpl.Step session label next) (stays : next.isConnected = session.isConnected)
    (settled : awaitsDisconnect session = false)
    (quiet : session.isConnected = true → session.postsDisconnect label = false) :
    awaitsDisconnect next = false := by
  unfold awaitsDisconnect at settled ⊢
  rw [stays]
  cases connected : session.isConnected with
  | false => rfl
  | true =>
      rw [connected, Bool.true_and] at settled
      rcases step.posts with ⟨added, posted, posts⟩
      have none : added.any PostedHandler.isDisconnect = false := by
        rw [← Bool.not_eq_true]
        intro disconnects
        exact absurd ((quiet connected).symm.trans (posts disconnects)) Bool.false_ne_true
      rw [Bool.true_and, TcpSessionImpl.hasDisconnect, posted, List.any_append, none, Bool.or_false,
        List.any_eq_false]
      intro handler member
      apply List.any_eq_false.mp settled handler
      unfold TcpSessionImpl.Label.remainingPosted at member
      split at member
      · exact List.mem_of_mem_tail member
      · exact member

omit [Marshaller μ] in
theorem closes_next_awaits {session : TcpSessionImpl μ} (closes : session.closesNext = true) :
    awaitsDisconnect session = true := by
  unfold TcpSessionImpl.closesNext at closes
  split at closes
  · rename_i posted
    rw [Bool.and_eq_true] at closes
    rw [awaitsDisconnect, closes.2, TcpSessionImpl.hasDisconnect, posted, List.any_cons]
    rfl
  · cases closes

theorem session_stepped_consistent {state : IoContextSessions μ} {session : Nat}
    {label : TcpSessionImpl.Label} {next : TcpSessionImpl μ} {pending : List Nat}
    (consistent : Consistent pending state)
    (step : TcpSessionImpl.Step (state.sessions session) label next)
    (released : session ∉ state.manager.activeResources → (state.sessions session).isConnected = true →
      (state.sessions session).postsDisconnect label = false)
    (waiting : session ∈ pending → label.isHandler = true → (state.sessions session).closesNext = false) :
    Consistent pending (state.sessionStepped session next) := by
  unfold sessionStepped
  rcases step.connection with closes | stays
  · have calls : callsRelease (state.sessions session) next = true := by
      rw [callsRelease, closes.events, List.drop_left]
      rfl
    have closing : awaitsDisconnect (state.sessions session) = true :=
      closes_next_awaits closes.closesNext
    have active : session ∈ state.manager.activeResources := by
      by_contra unused
      exact absurd ((consistent.released session unused).symm.trans closing) Bool.false_ne_true
    have absent : session ∉ pending := by
      intro member
      exact absurd ((waiting member closes.isHandler).symm.trans closes.closesNext) Bool.false_ne_true
    rw [if_pos calls]
    exact closed_consistent consistent active absent closes.isConnected
  · rcases stays.events with ⟨transfered, events, silent⟩
    have calls : ¬callsRelease (state.sessions session) next = true := by
      rw [callsRelease, events, List.drop_left, List.contains_iff_mem]
      exact silent
    rw [if_neg calls]
    apply stayed_consistent consistent stays.isConnected
    intro unused
    exact released_stays step stays.isConnected (consistent.released session unused) (released unused)

/-- Each step keeps what holds of the sessions, unless it releases one that is released again. -/
theorem step_consistent {state next : IoContextSessions μ} {label : Label}
    (consistent : Consistent (state.operations.map Operation.session) state)
    (step : Step state label next)
    (settled : state.ReleasesSettled label) :
      Consistent (next.operations.map Operation.session) next := by
  unfold Step at step
  cases label with
  | acceptorOpened =>
      simp only [advance] at step
      split at step
      · cases step
      · exact accept_consistent consistent step
  | connectorOpened =>
      simp only [advance] at step
      split at step
      · cases step
      · exact connect_consistent consistent step
  | acceptorClosed =>
      cases step
      exact { consistent with }
  | connectorClosed =>
      cases step
      exact { consistent with }
  | completed index error answers =>
      rcases Option.bind_eq_some_iff.mp step with ⟨operation, found, completed⟩
      rcases split_at found with ⟨earlier, later, split, erased, _⟩
      have settles := settled operation found
      split at completed
      · rename_i possible
        rw [erased] at completed
        have moved : (state.operations.map Operation.session).Perm
            (operation.session :: (earlier ++ later).map Operation.session) := by
          rw [split]
          exact List.perm_middle.map Operation.session
        have held := consistent.perm moved
        apply complete_consistent { state with operations := earlier ++ later } _ settles possible completed
        exact { held with }
      · cases completed
  | session session label =>
      rcases Option.map_eq_some_iff.mp step with ⟨moved, advances, same⟩
      have taken := (state.sessions session).advance_sound label moved advances
      have operations : next.operations = state.operations := by
        rw [← same, sessionStepped]
        split <;> rfl
      rw [operations, ← same]
      apply session_stepped_consistent consistent taken
      · intro unused
        simp only [ReleasesSettled] at settled
        rw [if_neg unused] at settled
        exact settled
      · intro member
        simp only [ReleasesSettled] at settled
        rw [if_pos (consistent.active session member)] at settled
        exact settled member

/-- As long as no session is refused by the validator or fails to connect, and none is closed
while an operation waits for it or told to disconnect after it was dropped, every session is
released once for each time it was acquired. -/
theorem sessions_released_once (poolSize connectionCount : Nat) (now : TimePoint) (marshaller : μ)
    (maxPendablePacketCount : Nat) {labels : List Label} {last : IoContextSessions μ}
    (run : Run (Where Step ReleasesSettled)
      (.create poolSize connectionCount now marshaller maxPendablePacketCount) labels last) :
    last.ReleasedOnce := by
  have consistent : Consistent (last.operations.map Operation.session) last := by
    apply run.invariant (fun _ state => Consistent (state.operations.map Operation.session) state)
    · exact ⟨throughout_nil Fits, fun _ => rfl, List.nodup_nil, nofun, nofun, fun _ _ => rfl⟩
    · intro history state label next before step
      exact step_consistent before step.1 step.2
  exact consistent.releasedOnce

section Concrete

def plainMarshaller : SgpMarshaller CsPacketCoder := .create .mk (.create 8) (.create 8)

def idle : IoContextSessions (SgpMarshaller CsPacketCoder) := .create 1 0 0 plainMarshaller 0

def served : List Label :=
  [.acceptorOpened, .completed 0 .success {}, .session 0 .disconnect, .session 0 (.handler 0)]

def refused : List Label :=
  [.acceptorOpened, .completed 0 .success { isValidated := false }, .session 0 (.handler 0)]

theorem sessions_released_once_served :
    ∃ last, Run (Where Step ReleasesSettled) idle served last ∧
      last.history = [.acquired 0, .acquired 1, .released 0] ∧ last.ReleasedOnce := by
  have executes : (execute (guarded advance ReleasesSettled) idle served).map IoContextSessions.history =
      some [.acquired 0, .acquired 1, .released 0] := by
    decide +kernel
  rcases Run.of_guarded Step ReleasesSettled (fun _ _ _ taken => taken) executes with ⟨last, run, history⟩
  exact ⟨last, run, history, sessions_released_once 1 0 0 plainMarshaller 0 run⟩

/-- A session whose connection is refused is released at once and again by the disconnect that
was posted before. -/
theorem refused_session_released_twice :
    ¬∀ labels last, Run Step idle labels last → last.ReleasedOnce := by
  intro once
  have executes : (execute advance idle refused).map IoContextSessions.history =
      some [.acquired 0, .released 0, .acquired 1, .released 0] := by
    decide +kernel
  rcases Run.of_observed Step (fun _ _ _ taken => taken) executes with ⟨last, run, history⟩
  have fits := (once refused last run).history [.acquired 0, .released 0, .acquired 1] (.released 0) []
    history
  revert fits
  unfold Fits
  decide

end Concrete

end Sne.Session.IoContextSessions
