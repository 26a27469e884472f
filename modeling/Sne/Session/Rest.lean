import Mathlib.Data.Prod.Lex
import Sne.Session.Connection

/-!
# A connection at rest

Nothing fails, nobody disconnects, no message of the run is refused, and the applications have
stopped asking for messages. What is left to do are posted handlers, completions of writes, reads of
what was written and the throttle timers. It comes to an end, and by then every message that was
asked for has been shown to the other end.
-/

namespace Sne.Session

open Sne.Base Sne.Sgp Sne.Library.Runs

set_option autoImplicit false

namespace Endpoint

variable {κ χ : Type} [PlainHeaderCoder κ]

section Steps

variable {coders : DuplexCoders κ} {callback : MarshallerCallback κ χ} {endpoint : Endpoint κ χ}

def Stuck (coders : DuplexCoders κ) (callback : MarshallerCallback κ χ)
    (endpoint peer : Endpoint κ χ) : Prop :=
  ∀ label, endpoint.Undisturbed coders label → endpoint.GoesOn label →
    Connection.FromPeer endpoint peer label →
    endpoint.advance callback label = none

theorem Stuck.no_step {peer : Endpoint κ χ} (stuck : Stuck coders callback endpoint peer)
    (label : Label) (undisturbed : endpoint.Undisturbed coders label) (goesOn : endpoint.GoesOn label)
    (fromPeer : Connection.FromPeer endpoint peer label) (canHappen : CanHappen label)
    (ofConnection : endpoint.connection.OfConnection (label.ofSession callback endpoint)) :
    endpoint.connection.pooled.advance (label.ofSession callback endpoint) = none := by
  have none := stuck label undisturbed goesOn fromPeer
  rw [Endpoint.advance, if_pos canHappen, Option.map_eq_none_iff] at none
  rw [ReadingSession.advance, if_pos ofConnection, Option.map_eq_none_iff] at none
  exact none

theorem Stuck.no_session_step {peer : Endpoint κ χ} (stuck : Stuck coders callback endpoint peer)
    (label : TcpSessionImpl.Label) (undisturbed : endpoint.Undisturbed coders (.session label))
    (goesOn : endpoint.GoesOn (.session label)) : endpoint.session.advance label = none := by
  exact Option.map_eq_none_iff.mp (stuck.no_step _ undisturbed goesOn trivial trivial trivial)

theorem Stuck.emptied {peer : Endpoint κ χ} {asked : List (MessageType × List UInt8)}
    (stuck : Stuck coders callback endpoint peer) (calm : endpoint.Calm coders.headerSize asked) :
    endpoint.session.posted = [] ∧ endpoint.session.outputQueue = [] := by
  have free : endpoint.session.isWritePended = false := by
    by_contra pended
    obtain ⟨write, single, _⟩ := calm.session.busy (eq_true_of_ne_false pended)
    have none := stuck.no_session_step (.writeCompleted 0 .success) ⟨trivial, rfl⟩ rfl
    simp only [TcpSessionImpl.advance, single] at none
    cases none
  refine ⟨?_, (calm.session.idle free).1⟩
  rcases posted : endpoint.session.posted with _ | ⟨handler, rest⟩
  · rfl
  · have fits : endpoint.session.overflowsNext = false := by
      unfold TcpSessionImpl.overflowsNext TcpSessionImpl.overflows
      split
      · rw [free, Bool.and_false, Bool.false_and]
      · rfl
    have none := stuck.no_session_step (.handler 0) ⟨fits, rfl⟩ trivial
    simp only [TcpSessionImpl.advance, posted] at none
    cases none

theorem Stuck.read_all {peer : Endpoint κ χ} {asked : List (MessageType × List UInt8)}
    (stuck : Stuck coders callback endpoint peer) (calm : endpoint.Calm coders.headerSize asked)
    (phase : endpoint.connection.Phase) (read : endpoint.read <+: peer.written) :
    endpoint.read = peer.written := by
  obtain ⟨rest, written⟩ := read
  by_contra unread
  have something : rest ≠ [] := by
    rintro rfl
    exact unread ((List.append_nil _).symm.trans written)
  cases phase with
  | reads one =>
      obtain ⟨index, found⟩ := List.mem_iff_getElem?.mp
        (List.count_pos_iff.mp (show 0 < endpoint.connection.outstandingReads by omega))
      have none := stuck.no_step (.read index rest [] true) ⟨fun _ _ => nofun, rfl⟩
        ⟨something, rfl⟩ ⟨[], by rw [List.append_nil, written]⟩ trivial found
      simp only [Label.ofSession, PooledSession.advance, found] at none
      cases none
  | throttled wait _ _ own live =>
      have found : endpoint.connection.pooled.session.throttleTimer.waits[endpoint.connection.staleWaits]? =
          some wait := by
        rw [← List.head?_drop, own]
        rfl
      cases status : wait.status with
      | waiting =>
          have waiting : endpoint.GoesOn (.throttleTimerExpires endpoint.connection.staleWaits) := by
            simp only [GoesOn, Endpoint.session, found, Option.map_some, status]
          have none := stuck.no_step (.throttleTimerExpires endpoint.connection.staleWaits)
            ⟨trivial, rfl⟩ waiting trivial trivial trivial
          cases none
      | expired =>
          have none := stuck.no_step (.throttleTimerHandler endpoint.connection.staleWaits)
            ⟨trivial, rfl⟩ trivial trivial trivial (Nat.le_refl _)
          simp only [Label.ofSession, PooledSession.advance, found, Option.bind_some, Wait.completion,
            status] at none
          cases none
      | aborted =>
          rw [Wait.isAborted, status] at live
          cases live
  | failed _ _ _ requested => exact Bool.false_ne_true (calm.unrequested.symm.trans requested)

end Steps

end Endpoint

namespace Connection

variable {κ χ : Type} [PlainHeaderCoder κ]

def Undisturbed (coders : DuplexCoders κ) (connection : Connection κ χ) : Side × Endpoint.Label → Prop
  | (.near, label) => connection.near.Undisturbed coders label
  | (.far, label) => connection.far.Undisturbed coders label

def GoesOn (connection : Connection κ χ) : Side × Endpoint.Label → Prop
  | (.near, label) => connection.near.GoesOn label
  | (.far, label) => connection.far.GoesOn label

/-- Neither callback was called with a message that it did not accept. -/
structure Unrefused (connection : Connection κ χ) : Prop where
  near : connection.near.hasRefused = false
  far : connection.far.hasRefused = false

/-- What the connection can do without the applications. -/
def Proceeds (coders : DuplexCoders κ) (callbacks : Side → MarshallerCallback κ χ) :
    Connection κ χ → Side × Endpoint.Label → Connection κ χ → Prop :=
  Where (Where (Step callbacks) (Undisturbed coders)) GoesOn

/-- The connection goes on without the applications, and no message is refused. -/
def GoingOn (coders : DuplexCoders κ) (callbacks : Side → MarshallerCallback κ χ)
    (connection : Connection κ χ) (label : Side × Endpoint.Label) (next : Connection κ χ) : Prop :=
  Proceeds coders callbacks connection label next ∧ next.Unrefused

/-- Nothing is left to do, not even a read whose message would be refused. -/
def AtRest (coders : DuplexCoders κ) (callbacks : Side → MarshallerCallback κ χ)
    (connection : Connection κ χ) : Prop :=
  ∀ label next, ¬Proceeds coders callbacks connection label next

structure Calm (coders : DuplexCoders κ) (labels : List (Side × Endpoint.Label))
    (connection : Connection κ χ) : Prop where
  flows : connection.Flows coders labels
  near : connection.near.Calm coders.headerSize (asked coders.headerSize .near labels)
  far : connection.far.Calm coders.headerSize (asked coders.headerSize .far labels)

def unread (endpoint peer : Endpoint κ χ) : Nat := peer.written.length - endpoint.read.length

/-- What is left to do: handlers, then writes, then reads, then waits. -/
def remaining (connection : Connection κ χ) : ℕ ×ₗ ℕ ×ₗ ℕ ×ₗ ℕ :=
  toLex (connection.near.session.posted.length + connection.far.session.posted.length,
    toLex (connection.near.session.backlog + connection.far.session.backlog,
      toLex (unread connection.near connection.far + unread connection.far connection.near,
        throttling connection.near.session.throttleTimer + throttling connection.far.session.throttleTimer)))

section Rest

variable {coders : DuplexCoders κ} {callbacks : Side → MarshallerCallback κ χ}

theorem Undisturbed.orderly {connection : Connection κ χ} {label : Side × Endpoint.Label}
    (undisturbed : connection.Undisturbed coders label) : connection.Orderly coders label := by
  obtain ⟨side, label⟩ := label
  cases side with
  | near => exact undisturbed.1
  | far => exact undisturbed.1

omit [PlainHeaderCoder κ] in
theorem remaining_swap (near far : Endpoint κ χ) :
    remaining ⟨near, far⟩ = remaining ⟨far, near⟩ := by
  simp only [remaining, Nat.add_comm]

omit [PlainHeaderCoder κ] in
theorem advances_remaining {endpoint next : Endpoint κ χ} (peer : Endpoint κ χ)
    (advances : endpoint.Advances next) (read : next.read <+: peer.written) :
    remaining ⟨next, peer⟩ < remaining ⟨endpoint, peer⟩ := by
  have bound := read.length_le
  simp only [remaining, unread, Prod.Lex.toLex_lt_toLex]
  cases advances with
  | handles fewer =>
      left
      omega
  | writes posted fewer =>
      right
      refine ⟨by rw [posted], .inl ?_⟩
      omega
  | reads posted backlog written more =>
      right
      refine ⟨by rw [posted], .inr ⟨by rw [backlog], .inl ?_⟩⟩
      rw [written]
      omega
  | waits posted backlog written read fewer =>
      right
      refine ⟨by rw [posted], .inr ⟨by rw [backlog], .inr ⟨by rw [written, read], ?_⟩⟩⟩
      omega

theorem Unrefused.before {connection next : Connection κ χ} {label : Side × Endpoint.Label}
    (step : Step callbacks connection label next) (unrefused : next.Unrefused) :
      connection.Unrefused := by
  obtain ⟨side, label⟩ := label
  cases side with
  | near =>
      obtain ⟨_, moves, same⟩ := step.of_near
      exact ⟨step_refused moves unrefused.near, same ▸ unrefused.far⟩
  | far =>
      obtain ⟨_, moves, same⟩ := step.of_far
      exact ⟨same ▸ unrefused.near, step_refused moves unrefused.far⟩

theorem Calm.step (leaves : ∀ side, LeavesCoder (callbacks side)) {labels : List (Side × Endpoint.Label)}
    {connection next : Connection κ χ} {label : Side × Endpoint.Label}
    (calm : connection.Calm coders labels)
    (step : Where (Step callbacks) (Undisturbed coders) connection label next)
    (unrefused : next.Unrefused) :
    next.Calm coders (labels ++ [label]) ∧
      (connection.GoesOn label → next.remaining < connection.remaining) := by
  obtain ⟨step, undisturbed⟩ := step
  have flows := calm.flows.step leaves step undisturbed.orderly
  obtain ⟨side, label⟩ := label
  cases side with
  | near =>
      obtain ⟨fromPeer, moves, same⟩ := step.of_near
      obtain ⟨near, advances⟩ := step_calm (leaves .near) calm.near calm.flows.toFar
        calm.flows.toNear moves fromPeer undisturbed unrefused.near
      refine ⟨⟨flows, ?_, ?_⟩, ?_⟩
      · rw [asked_concat, if_pos rfl]
        exact near
      · rw [asked_concat, if_neg nofun, List.append_nil, same]
        exact calm.far
      · intro goesOn
        have down := advances_remaining connection.far (advances goesOn) (same ▸ flows.toNear.read)
        rw [← same] at down
        exact lt_of_lt_of_eq down (by rw [same])
  | far =>
      obtain ⟨fromPeer, moves, same⟩ := step.of_far
      obtain ⟨far, advances⟩ := step_calm (leaves .far) calm.far calm.flows.toNear
        calm.flows.toFar moves fromPeer undisturbed unrefused.far
      refine ⟨⟨flows, ?_, ?_⟩, ?_⟩
      · rw [asked_concat, if_neg nofun, List.append_nil, same]
        exact calm.near
      · rw [asked_concat, if_pos rfl]
        exact far
      · intro goesOn
        have down := advances_remaining connection.near (advances goesOn) (same ▸ flows.toFar.read)
        rw [remaining_swap, remaining_swap connection.far, ← same] at down
        exact lt_of_lt_of_eq down (by rw [same])

/-- An end at rest was shown everything that the other was asked for. -/
theorem rest_delivers {sender receiver : Endpoint κ χ}
    {callback otherCallback : MarshallerCallback κ χ} {asked other : List (MessageType × List UInt8)}
    (sends : sender.Calm coders.headerSize asked) (receives : receiver.Calm coders.headerSize other)
    (flow : Endpoint.Flow coders sender receiver) (recorded : receiver.Recorded)
    (sending : Endpoint.Stuck coders callback sender receiver)
    (receiving : Endpoint.Stuck coders otherCallback receiver sender) :
    receiver.arrived = asked.map coders.opened := by
  obtain ⟨posted, queue⟩ := sending.emptied sends
  obtain ⟨packets, last, _, phases⟩ := flow.packets
  have connected : receiver.isConnected = true := receives.session.connected
  have read := receiving.read_all receives (phases connected).phase flow.read
  have delivered := flow.delivered recorded
  have handed := flow.all_handed sends.session.connected queue
  have sent : sender.sent = asked := by
    have outgoing := sends.outgoing
    rw [Endpoint.outgoing, posted] at outgoing
    exact (List.append_nil _).symm.trans outgoing
  calc receiver.arrived
      = receiver.unmarshalled := delivered.undropped receives.undropped
    _ = (sender.sent.map coders.opened).take sender.sent.length := by
        rw [delivered.whole connected receives.unrequested read, handed]
    _ = asked.map coders.opened := by
        rw [List.take_of_length_le (by rw [List.length_map]), sent]

theorem AtRest.near {connection : Connection κ χ} (rest : connection.AtRest coders callbacks) :
    Endpoint.Stuck coders (callbacks .near) connection.near connection.far := by
  intro label undisturbed goesOn fromPeer
  by_contra some
  obtain ⟨next, advances⟩ := Option.ne_none_iff_exists'.mp some
  refine rest (.near, label) { connection with near := next } ⟨⟨?_, undisturbed⟩, goesOn⟩
  rw [Step, advance, if_pos fromPeer, advances]
  rfl

theorem AtRest.far {connection : Connection κ χ} (rest : connection.AtRest coders callbacks) :
    Endpoint.Stuck coders (callbacks .far) connection.far connection.near := by
  intro label undisturbed goesOn fromPeer
  by_contra some
  obtain ⟨next, advances⟩ := Option.ne_none_iff_exists'.mp some
  refine rest (.far, label) { connection with far := next } ⟨⟨?_, undisturbed⟩, goesOn⟩
  rw [Step, advance, if_pos fromPeer, advances]
  rfl

omit [PlainHeaderCoder κ] in
theorem goes_on_asks {connection : Connection κ χ} {label : Side × Endpoint.Label}
    (goesOn : connection.GoesOn label) : label.2.asks = [] := by
  obtain ⟨side, label⟩ := label
  have none : ∀ endpoint : Endpoint κ χ, endpoint.GoesOn label → label.asks = [] := by
    intro endpoint goesOn
    cases label with
    | session label => cases label <;> first | rfl | exact absurd goesOn id
    | read index chunk calls isKarmaRemained => exact goesOn.2
    | _ => rfl
  cases side with
  | near => exact none connection.near goesOn
  | far => exact none connection.far goesOn

/-- While the connection goes on without the applications it stays calm, and nothing is asked. -/
theorem Calm.goes_on (leaves : ∀ side, LeavesCoder (callbacks side))
    {labels more : List (Side × Endpoint.Label)} {connection last : Connection κ χ}
    (calm : connection.Calm coders labels) (run : Run (GoingOn coders callbacks) connection more last) :
    last.Calm coders (labels ++ more) ∧
      ∀ side, asked coders.headerSize side (labels ++ more) = asked coders.headerSize side labels := by
  apply run.invariant (fun more last => last.Calm coders (labels ++ more) ∧
    ∀ side, asked coders.headerSize side (labels ++ more) = asked coders.headerSize side labels)
  · rw [List.append_nil]
    exact ⟨calm, fun _ => rfl⟩
  · rintro history state label next ⟨before, same⟩ ⟨⟨step, goesOn⟩, unrefused⟩
    rw [← List.append_assoc]
    refine ⟨(before.step leaves step unrefused).1, ?_⟩
    intro side
    rw [asked_concat, goes_on_asks goesOn, same]
    simp [postedMessages]

/-- Nothing fails, nobody disconnects and no message of the run is refused. Whenever the applications
stop asking, the connection comes to rest in every order of what is left to do, and then each end was
shown exactly what the other was asked to send. -/
theorem connection_comes_to_rest (leaves : ∀ side, LeavesCoder (callbacks side))
    {first last : Connection κ χ} {labels : List (Side × Endpoint.Label)}
    (near : first.near.Starts coders) (far : first.far.Starts coders)
    (nearCalm : first.near.Calm coders.headerSize []) (farCalm : first.far.Calm coders.headerSize [])
    (toFar : coders.sending first.near.coder = coders.receiving first.far.coder)
    (toNear : coders.sending first.far.coder = coders.receiving first.near.coder)
    (run : Run (Where (Step callbacks) (Undisturbed coders)) first labels last)
    (unrefused : last.Unrefused) :
    Ends (GoingOn coders callbacks) last ∧
      ∀ more rest, Run (GoingOn coders callbacks) last more rest → rest.AtRest coders callbacks →
        rest.far.arrived = (asked coders.headerSize .near labels).map coders.opened ∧
          rest.near.arrived = (asked coders.headerSize .far labels).map coders.opened := by
  have calm : last.Calm coders labels := by
    refine run.invariant
      (fun labels connection => connection.Unrefused → connection.Calm coders labels) ?_ ?_ unrefused
    · exact fun _ => ⟨flows_of_run leaves near far toFar toNear (.start _), nearCalm, farCalm⟩
    · intro history connection label next before step accepted
      exact ((before (accepted.before step.1)).step leaves step accepted).1
  constructor
  · apply ends_of_rank wellFounded_lt remaining fun connection =>
      ∃ labels, connection.Calm coders labels
    · rintro connection label next ⟨labels, before⟩ ⟨⟨step, goesOn⟩, accepted⟩
      have stepped := before.step leaves step accepted
      exact ⟨⟨_, stepped.1⟩, stepped.2 goesOn⟩
    · exact ⟨labels, calm⟩
  · intro more rest goesOn atRest
    obtain ⟨calmRest, same⟩ := calm.goes_on leaves goesOn
    rw [← same .near, ← same .far]
    exact ⟨rest_delivers calmRest.near calmRest.far calmRest.flows.toFar calmRest.flows.farRecorded
        atRest.near atRest.far,
      rest_delivers calmRest.far calmRest.near calmRest.flows.toNear calmRest.flows.nearRecorded
        atRest.far atRest.near⟩

theorem opened_calm (now : TimePoint) (marshaller : SgpMarshaller κ) (maxPendablePacketCount : Nat)
    (context : χ) :
    (Endpoint.opened now marshaller maxPendablePacketCount context).Calm coders.headerSize [] := by
  refine ⟨⟨rfl, rfl, ?_, fun _ => ⟨rfl, rfl⟩, nofun⟩, rfl, rfl, rfl⟩
  exact fun _ none => absurd none List.not_mem_nil

end Rest

section Concrete

instance (coders : DuplexCoders κ) (connection : Connection κ χ) (label : Side × Endpoint.Label) :
    Decidable (connection.Undisturbed coders label) :=
  match label with
  | (.near, label) => inferInstanceAs (Decidable (connection.near.Undisturbed coders label))
  | (.far, label) => inferInstanceAs (Decidable (connection.far.Undisturbed coders label))

theorem connection_comes_to_rest_exchanging :
    ∃ last, Run (Where (Step fun _ => acceptAll) (Undisturbed plainDuplex))
      plainConnection exchanging last ∧
      Ends (GoingOn plainDuplex fun _ => acceptAll) last ∧
      ∀ more rest, Run (GoingOn plainDuplex fun _ => acceptAll) last more rest →
        rest.AtRest plainDuplex (fun _ => acceptAll) →
          rest.far.arrived = [(21, []), (21, [])] ∧ rest.near.arrived = [(21, [])] := by
  have executes : (execute (guarded (advance fun _ => acceptAll) (Undisturbed plainDuplex)) plainConnection
      exchanging).map (fun last => (last.near.hasRefused, last.far.hasRefused)) = some (false, false) := by
    decide +kernel
  rcases Run.of_guarded (Step fun _ => acceptAll) (Undisturbed plainDuplex) (fun _ _ _ taken => taken)
    executes with ⟨last, run, accepted⟩
  simp only [Prod.mk.injEq] at accepted
  have leaves : ∀ side : Side, LeavesCoder (acceptAll : MarshallerCallback CsPacketCoder Unit) :=
    fun _ _ _ mblock context => ⟨mblock, context, .inl rfl⟩
  obtain ⟨near, far⟩ := plain_connection_starts
  have rests := connection_comes_to_rest leaves near far (opened_calm 0 _ 0 ()) (opened_calm 0 _ 0 ())
    rfl rfl run ⟨accepted.1, accepted.2⟩
  have askedNear : (asked plainDuplex.headerSize .near exchanging).map plainDuplex.opened =
      [(21, []), (21, [])] := by
    decide
  have askedFar : (asked plainDuplex.headerSize .far exchanging).map plainDuplex.opened = [(21, [])] := by
    decide
  rw [askedNear, askedFar] at rests
  exact ⟨last, run, rests⟩

end Concrete

end Connection

end Sne.Session
