import Sne.Session.Undisturbed

/-!
# A connection from end to end

Two endpoints and the bytes between them. Each end sends, writes, reads and disconnects
on its own, and what it reads is a prefix of what the other has written. The messages
that an end unmarshals are the first of those that the other has accepted, in their
order and once each, in both directions at the same time. An end that is no longer
connected, or whose read path has asked for a disconnect, did so for a reason that can
be found in the run.
-/

namespace Sne.Session

open Sne.Base Sne.Sgp Sne.Library.Runs Sne.Library.Framing

set_option autoImplicit false

namespace Endpoint

variable {κ χ : Type} [PlainHeaderCoder κ]

/-- An endpoint right after its session was opened: nothing is written or read yet. -/
structure Starts (coders : DuplexCoders κ) (endpoint : Endpoint κ χ) : Prop where
  fresh : endpoint.session.Fresh
  phase : endpoint.connection.Phase
  handed : endpoint.session.handed = []
  posted : PostSendable coders endpoint.session.posted
  mirrors : Mirrors coders.headerSize endpoint.session.marshaller endpoint.coder []
  unrequested : endpoint.connection.isDisconnectRequested = false
  unrefused : endpoint.hasRefused = false
  sent : endpoint.sent = []
  read : endpoint.read = []
  unmarshalled : endpoint.unmarshalled = []
  arrived : endpoint.arrived = []

/-- What the receiver has got of what the sender has accepted. -/
structure Delivered (coders : DuplexCoders κ) (sender receiver : Endpoint κ χ) : Prop where
  /-- The first messages of the sender, in order and with their bodies padded for the cipher. -/
  inOrder : receiver.isConnected = true → receiver.unmarshalled <+: sender.sent.map coders.opened
  /-- Once everything that was written has been read, none of the written messages is missing. -/
  whole : receiver.isConnected = true → receiver.connection.isDisconnectRequested = false →
    receiver.read = sender.written → receiver.unmarshalled =
      (sender.sent.map coders.opened).take
        (TcpSessionImpl.handedMessages sender.session.handed).length
  arrived : receiver.arrived.Sublist receiver.unmarshalled
  undropped : receiver.hasDropped = false → receiver.arrived = receiver.unmarshalled

/-- One direction with the packets that were accepted so far. -/
structure Flow (coders : DuplexCoders κ) (sender receiver : Endpoint κ χ) : Prop where
  packets : ∃ packets last, sender.Sends coders packets last ∧
    (receiver.isConnected = true → receiver.Receives coders packets last)
  read : receiver.read <+: sender.written

section Directions

variable {coders : DuplexCoders κ}

def opened (now : TimePoint) (marshaller : SgpMarshaller κ) (maxPendablePacketCount : Nat)
    (context : χ) :
    Endpoint κ χ :=
  { connection := .opened { session := .create now marshaller maxPendablePacketCount }, context }

theorem opened_starts (now : TimePoint) {marshaller : SgpMarshaller κ} (maxPendablePacketCount : Nat)
    (context : χ) (sameHeaderSize : marshaller.packetHeaderSize = coders.headerSize) :
    (opened now marshaller maxPendablePacketCount context).Starts coders := by
  constructor
  · exact ⟨rfl, rfl, rfl⟩
  · exact .reads rfl rfl rfl rfl
  · rfl
  · exact fun _ _ => nofun
  · exact ⟨sameHeaderSize, rfl, MemoryBlock.reset_valid _, MemoryBlock.reset_contents _, .inl rfl⟩
  · rfl
  · rfl
  · rfl
  · rfl
  · rfl
  · rfl

theorem Starts.flow {sender receiver : Endpoint κ χ} (sends : sender.Starts coders)
    (receives : receiver.Starts coders)
    (linked : coders.sending sender.coder = coders.receiving receiver.coder) :
    Flow coders sender receiver := by
  refine ⟨⟨[], coders.sending sender.coder, ?_, ?_⟩, ?_⟩
  · refine ⟨sends.sent, fun _ => nofun, ⟨[], ?_, fun _ => rfl⟩, sends.fresh.queueSettled, sends.posted,
      ⟨_, linked.symm⟩, fun _ => rfl⟩
    rw [sends.handed, sends.fresh.queue]
    rfl
  · intro _
    refine ⟨?_, receives.phase, fun _ => ⟨[], [], [], rfl, receives.unmarshalled, receives.read, nofun,
      receives.mirrors, ?_⟩⟩
    · rw [receives.unmarshalled]
      exact List.nil_prefix
    · rw [linked]
      exact .nil _
  · rw [receives.read]
    exact List.nil_prefix

theorem Flow.sender_step {callback : MarshallerCallback κ χ} (leaves : LeavesCoder callback)
    {sender receiver next : Endpoint κ χ} {label : Label} (flow : Flow coders sender receiver)
    (step : Step callback sender label next) (orderly : Orderly coders sender label) :
    Flow coders next receiver := by
  obtain ⟨packets, last, sends, receives⟩ := flow.packets
  have plain : CsPacketHeader.getHeaderSize ≤ coders.headerSize := by
    rw [← coders.same_headerSize sender.coder]
    exact PlainHeaderCoder.header_plain _
  obtain ⟨written, sendsNext⟩ := sends.step leaves plain step.happens.1 orderly
  refine ⟨?_, flow.read.trans written⟩
  rcases sendsNext with kept | ⟨packet, keys, decodes, extended⟩
  · exact ⟨packets, last, kept, receives⟩
  · refine ⟨packets ++ [packet], keys, extended, ?_⟩
    intro connected
    exact (receives connected).extend (flow.read.trans sends.written_prefix) decodes
      (extended.nonempty packet (List.mem_append_right _ (List.mem_singleton_self _)))

theorem Flow.receiver_step {callback : MarshallerCallback κ χ} (leaves : LeavesCoder callback)
    {sender receiver next : Endpoint κ χ} {label : Label} (flow : Flow coders sender receiver)
    (step : Step callback receiver label next) (read : next.read <+: sender.written) :
    Flow coders sender next := by
  obtain ⟨packets, last, sends, receives⟩ := flow.packets
  have plain : CsPacketHeader.getHeaderSize ≤ coders.headerSize := by
    rw [← coders.same_headerSize sender.coder]
    exact PlainHeaderCoder.header_plain _
  refine ⟨⟨packets, last, sends, ?_⟩, read⟩
  intro connected
  exact Receives.step leaves plain receives step (read.trans sends.written_prefix) connected

theorem Flow.delivered {sender receiver : Endpoint κ χ} (flow : Flow coders sender receiver)
    (recorded : receiver.Recorded) : Delivered coders sender receiver := by
  obtain ⟨packets, last, sends, receives⟩ := flow.packets
  refine ⟨?_, ?_, recorded.arrived, recorded.undropped⟩
  · intro connected
    rw [sends.sent, List.map_map]
    exact (receives connected).shown
  · intro connected unrequested read
    obtain ⟨used, left, unread, split, unmarshalled, bytes, short, _, _⟩ :=
      ((receives connected).follows unrequested).split
    obtain ⟨dropped, packed, _⟩ := sends.packed
    rw [List.append_assoc] at packed
    have front : TcpSessionImpl.handedMessages sender.session.handed <+:
        used.map MarshalledPacket.bytes ++ left.map MarshalledPacket.bytes := by
      rw [← List.map_append, ← split, ← packed]
      exact List.prefix_append _ _
    have allUsed : used.map MarshalledPacket.bytes =
        TcpSessionImpl.handedMessages sender.session.handed := by
      refine used_frames unread front ?_ ?_ ?_
      · rw [← bytes, read, written]
      · intro frame member
        obtain ⟨packet, isUsed, rfl⟩ := List.mem_map.mp member
        exact sends.nonempty packet (by rw [split]; exact List.mem_append_left _ isUsed)
      · intro frame first
        rw [List.head?_map] at first
        obtain ⟨packet, isFirst, rfl⟩ := Option.map_eq_some_iff.mp first
        exact short packet isFirst
    have count : (TcpSessionImpl.handedMessages sender.session.handed).length = used.length := by
      rw [← allUsed, List.length_map]
    rw [unmarshalled, sends.sent, List.map_map, count, split, List.map_append,
      List.take_left' (List.length_map _)]
    rfl

theorem Flow.all_handed {sender receiver : Endpoint κ χ} (flow : Flow coders sender receiver)
    (connected : sender.isConnected = true) (queue : sender.session.outputQueue = []) :
    (TcpSessionImpl.handedMessages sender.session.handed).length = sender.sent.length := by
  obtain ⟨packets, last, sends, _⟩ := flow.packets
  obtain ⟨dropped, packed, whole⟩ := sends.packed
  rw [whole connected, queue, List.map_nil, List.append_nil, List.append_nil] at packed
  rw [packed, sends.sent, List.length_map, List.length_map]

/-- Everything that was accepted has been written and read, and the callback was shown all of it. -/
structure Drained (sender receiver : Endpoint κ χ) : Prop where
  isConnected : sender.isConnected = true
  outputQueue : sender.session.outputQueue = []
  isDisconnectRequested : receiver.connection.isDisconnectRequested = false
  hasDropped : receiver.hasDropped = false
  read : receiver.read = sender.written

/-- Of the messages that were accepted, some are of interest. The callback was shown a part of these. -/
theorem Flow.selected {Entry Item : Type} {select : MessageType × List UInt8 → Option Entry}
    {items : List Item} {encode : Item → Entry} {sender receiver : Endpoint κ χ}
    (flow : Flow coders sender receiver) (recorded : receiver.Recorded)
    (connected : receiver.isConnected = true)
    (sent : (sender.sent.map coders.opened).filterMap select = items.map encode) :
    ∃ shown, receiver.arrived.filterMap select = shown.map encode ∧ shown.Sublist items ∧
      (receiver.hasDropped = false → shown <+: items) ∧ (Drained sender receiver → shown = items) := by
  have delivered := flow.delivered recorded
  have front : receiver.unmarshalled.filterMap select <+: (sender.sent.map coders.opened).filterMap select :=
    (delivered.inOrder connected).filterMap _
  rw [sent] at front
  obtain ⟨unmarshalled, isFront, isShown⟩ := List.prefix_map_iff.mp front
  by_cases undropped : receiver.hasDropped = false
  · refine ⟨unmarshalled, ?_, isFront.sublist, fun _ => isFront, ?_⟩
    · rw [delivered.undropped undropped]
      exact isShown
    · intro drained
      have all := delivered.whole connected drained.isDisconnectRequested drained.read
      rw [flow.all_handed drained.isConnected drained.outputQueue,
        List.take_of_length_le (by rw [List.length_map])] at all
      apply isFront.eq_of_length
      have same := congrArg List.length
        (isShown.symm.trans ((congrArg (List.filterMap select) all).trans sent))
      simpa only [List.length_map] using same
  · have few : (receiver.arrived.filterMap select).Sublist (receiver.unmarshalled.filterMap select) :=
      delivered.arrived.filterMap _
    rw [isShown] at few
    obtain ⟨shown, fewer, isPart⟩ := List.sublist_map_iff.mp few
    exact ⟨shown, isPart, fewer.trans isFront.sublist, fun none => absurd none undropped,
      fun drained => absurd drained.hasDropped undropped⟩

end Directions

end Endpoint

inductive Side where
  | near
  | far
deriving DecidableEq, Repr

structure Connection (κ χ : Type) where
  near : Endpoint κ χ
  far : Endpoint κ χ

namespace Connection

variable {κ χ : Type} [PlainHeaderCoder κ]

/-- TCP gives a reader what the other end has written, in order and without a gap. -/
def FromPeer (endpoint peer : Endpoint κ χ) : Endpoint.Label → Prop
  | .read _ chunk _ _ => endpoint.read ++ chunk <+: peer.written
  | _ => True

instance (endpoint peer : Endpoint κ χ) (label : Endpoint.Label) :
    Decidable (FromPeer endpoint peer label) :=
  match label with
  | .read _ _ _ _ => inferInstanceAs (Decidable (_ <+: _))
  | .session _ => .isTrue trivial
  | .readFailed _ _ => .isTrue trivial
  | .throttleTimerExpires _ => .isTrue trivial
  | .throttleTimerHandler _ => .isTrue trivial

def advance (callbacks : Side → MarshallerCallback κ χ) (connection : Connection κ χ) :
    Side × Endpoint.Label → Option (Connection κ χ)
  | (.near, label) =>
      if FromPeer connection.near connection.far label then
        (connection.near.advance (callbacks .near) label).map fun near => { connection with near }
      else
        none
  | (.far, label) =>
      if FromPeer connection.far connection.near label then
        (connection.far.advance (callbacks .far) label).map fun far => { connection with far }
      else
        none

def Step (callbacks : Side → MarshallerCallback κ χ) (connection : Connection κ χ)
    (label : Side × Endpoint.Label) (next : Connection κ χ) : Prop :=
  connection.advance callbacks label = some next

/-- The steps of one end are those of its endpoint, and the other end stays as it is. -/
theorem Step.of_near {callbacks : Side → MarshallerCallback κ χ} {connection next : Connection κ χ}
    {label : Endpoint.Label} (step : Step callbacks connection (.near, label) next) :
    FromPeer connection.near connection.far label ∧
      Endpoint.Step (callbacks .near) connection.near label next.near ∧ next.far = connection.far := by
  unfold Step advance at step
  dsimp only at step
  split at step
  · rename_i fromPeer
    obtain ⟨near, moves, rfl⟩ := Option.map_eq_some_iff.mp step
    exact ⟨fromPeer, moves, rfl⟩
  · cases step

theorem Step.of_far {callbacks : Side → MarshallerCallback κ χ} {connection next : Connection κ χ}
    {label : Endpoint.Label} (step : Step callbacks connection (.far, label) next) :
    FromPeer connection.far connection.near label ∧
      Endpoint.Step (callbacks .far) connection.far label next.far ∧ next.near = connection.near := by
  unfold Step advance at step
  dsimp only at step
  split at step
  · rename_i fromPeer
    obtain ⟨far, moves, rfl⟩ := Option.map_eq_some_iff.mp step
    exact ⟨fromPeer, moves, rfl⟩
  · cases step

def Orderly (coders : DuplexCoders κ) (connection : Connection κ χ) : Side × Endpoint.Label → Prop
  | (.near, label) => connection.near.Orderly coders label
  | (.far, label) => connection.far.Orderly coders label

def Occurs (kind : Endpoint.Label → Bool) (side : Side) (labels : List (Side × Endpoint.Label)) : Prop :=
  ∃ label, (side, label) ∈ labels ∧ kind label = true

def asked (headerSize : Nat) (side : Side) (labels : List (Side × Endpoint.Label)) :
    List (MessageType × List UInt8) :=
  labels.flatMap fun label => if label.1 = side then postedMessages headerSize label.2.asks else []

/-- Both directions, with why the read path of a side has asked for a disconnect. -/
structure Flows (coders : DuplexCoders κ) (labels : List (Side × Endpoint.Label))
    (connection : Connection κ χ) : Prop where
  toFar : Endpoint.Flow coders connection.near connection.far
  toNear : Endpoint.Flow coders connection.far connection.near
  nearRecorded : connection.near.Recorded
  farRecorded : connection.far.Recorded
  nearRequests : connection.near.isConnected = true →
    connection.near.connection.isDisconnectRequested = true →
    connection.near.hasRefused = true ∨ Occurs Endpoint.Label.isReadFailed .near labels
  farRequests : connection.far.isConnected = true →
    connection.far.connection.isDisconnectRequested = true →
    connection.far.hasRefused = true ∨ Occurs Endpoint.Label.isReadFailed .far labels

/-- An end that was never disturbed and that has accepted every message is calm. -/
def CalmUnless (coders : DuplexCoders κ) (side : Side) (labels : List (Side × Endpoint.Label))
    (endpoint : Endpoint κ χ) : Prop :=
  ¬Occurs Endpoint.Label.disturbs side labels → endpoint.hasRefused = false →
    endpoint.Calm coders.headerSize (asked coders.headerSize side labels)

section Runs

variable {coders : DuplexCoders κ} {callbacks : Side → MarshallerCallback κ χ}

omit [PlainHeaderCoder κ] in
theorem Occurs.later {kind : Endpoint.Label → Bool} {side : Side} {labels : List (Side × Endpoint.Label)}
    (occurs : Occurs kind side labels) (label : Side × Endpoint.Label) :
    Occurs kind side (labels ++ [label]) := by
  obtain ⟨earlier, member, isKind⟩ := occurs
  exact ⟨earlier, List.mem_append_left _ member, isKind⟩

omit [PlainHeaderCoder κ] in
theorem Occurs.now {kind : Endpoint.Label → Bool} (side : Side) (labels : List (Side × Endpoint.Label))
    {label : Endpoint.Label} (isKind : kind label = true) :
      Occurs kind side (labels ++ [(side, label)]) :=
  ⟨label, List.mem_append_right _ (List.mem_singleton_self _), isKind⟩

omit [PlainHeaderCoder κ] in
theorem asked_concat (headerSize : Nat) (side : Side) (labels : List (Side × Endpoint.Label))
    (label : Side × Endpoint.Label) : asked headerSize side (labels ++ [label]) =
      asked headerSize side labels ++
        if label.1 = side then postedMessages headerSize label.2.asks else [] := by
  simp only [asked, List.flatMap_append, List.flatMap_cons, List.flatMap_nil, List.append_nil]

omit [PlainHeaderCoder κ] in
/-- Once a message was not accepted, this is not forgotten. -/
theorem step_refused {callback : MarshallerCallback κ χ} [PacketCoder κ] {endpoint next : Endpoint κ χ}
    {label : Endpoint.Label} (step : Endpoint.Step callback endpoint label next)
    (accepted : next.hasRefused = false) : endpoint.hasRefused = false := by
  rw [step.records] at accepted
  cases label with
  | read index chunk calls isKarmaRemained => exact (Bool.or_eq_false_iff.mp accepted).1
  | _ => exact accepted

theorem step_read {callback : MarshallerCallback κ χ} {endpoint next peer : Endpoint κ χ}
    {label : Endpoint.Label} (step : Endpoint.Step callback endpoint label next)
    (fromPeer : FromPeer endpoint peer label) (read : endpoint.read <+: peer.written) :
    next.read <+: peer.written := by
  cases step.happens.1 with
  | session taken kept same =>
      rw [same]
      exact read
  | read outstanding reads marshaller requests same =>
      rw [same]
      exact fromPeer
  | other unasked reads marshaller requests same =>
      rw [same]
      exact read

/-- Why a step of one end asks for a disconnect. -/
theorem step_requests {callback : MarshallerCallback κ χ} (leaves : LeavesCoder callback)
    {endpoint next peer : Endpoint κ χ} {side : Side} {labels : List (Side × Endpoint.Label)}
    {label : Endpoint.Label} (flow : Endpoint.Flow coders peer endpoint)
    (requests : endpoint.isConnected = true → endpoint.connection.isDisconnectRequested = true →
      endpoint.hasRefused = true ∨ Occurs Endpoint.Label.isReadFailed side labels)
    (step : Endpoint.Step callback endpoint label next) (read : next.read <+: peer.written)
    (connected : next.isConnected = true)
    (requested : next.connection.isDisconnectRequested = true) :
    next.hasRefused = true ∨ Occurs Endpoint.Label.isReadFailed side (labels ++ [(side, label)]) := by
  obtain ⟨packets, last, sends, receives⟩ := flow.packets
  have plain : CsPacketHeader.getHeaderSize ≤ coders.headerSize := by
    rw [← coders.same_headerSize peer.coder]
    exact PlainHeaderCoder.header_plain _
  have wasConnected := (ReadingSession.step_phase (fun isOpen => (receives isOpen).phase) step.happens.2
    connected).1
  rcases (receives wasConnected).requests leaves plain step (read.trans sends.written_prefix) requested with
    already | refused | isReadFailed
  · rcases requests wasConnected already with refused | fails
    · left
      by_contra accepted
      exact Bool.false_ne_true ((step_refused step (Bool.eq_false_iff.mpr accepted)).symm.trans refused)
    · exact .inr (fails.later _)
  · exact .inl refused
  · exact .inr (.now side labels isReadFailed)

theorem Flows.step (leaves : ∀ side, LeavesCoder (callbacks side))
    {labels : List (Side × Endpoint.Label)} {connection next : Connection κ χ}
    {label : Side × Endpoint.Label} (flows : connection.Flows coders labels)
    (step : Step callbacks connection label next) (orderly : connection.Orderly coders label) :
    next.Flows coders (labels ++ [label]) := by
  obtain ⟨side, label⟩ := label
  cases side with
  | near =>
      obtain ⟨fromPeer, moves, same⟩ := step.of_near
      have read := step_read moves fromPeer flows.toNear.read
      constructor
      · rw [same]
        exact flows.toFar.sender_step (leaves .near) moves orderly
      · rw [same]
        exact flows.toNear.receiver_step (leaves .near) moves read
      · exact flows.nearRecorded.step moves
      · rw [same]
        exact flows.farRecorded
      · exact step_requests (leaves .near) flows.toNear flows.nearRequests moves read
      · rw [same]
        intro connected requested
        exact (flows.farRequests connected requested).imp_right fun fails => fails.later _
  | far =>
      obtain ⟨fromPeer, moves, same⟩ := step.of_far
      have read := step_read moves fromPeer flows.toFar.read
      constructor
      · rw [same]
        exact flows.toFar.receiver_step (leaves .far) moves read
      · rw [same]
        exact flows.toNear.sender_step (leaves .far) moves orderly
      · rw [same]
        exact flows.nearRecorded
      · exact flows.farRecorded.step moves
      · rw [same]
        intro connected requested
        exact (flows.nearRequests connected requested).imp_right fun fails => fails.later _
      · exact step_requests (leaves .far) flows.toFar flows.farRequests moves read

theorem starts_recorded {endpoint : Endpoint κ χ} (starts : endpoint.Starts coders) :
    endpoint.Recorded := by
  have same : endpoint.arrived = endpoint.unmarshalled := starts.arrived.trans starts.unmarshalled.symm
  exact ⟨by rw [same], fun _ => same⟩

/-- Both directions, after every run of a connection that has just been opened. -/
theorem flows_of_run (leaves : ∀ side, LeavesCoder (callbacks side))
    {first last : Connection κ χ} {labels : List (Side × Endpoint.Label)}
    (near : first.near.Starts coders) (far : first.far.Starts coders)
    (toFar : coders.sending first.near.coder = coders.receiving first.far.coder)
    (toNear : coders.sending first.far.coder = coders.receiving first.near.coder)
    (run : Run (Where (Step callbacks) (Orderly coders)) first labels last) :
    last.Flows coders labels := by
  apply run.invariant (fun labels connection => connection.Flows coders labels)
  · refine ⟨near.flow far toFar, far.flow near toNear, starts_recorded near, starts_recorded far, ?_, ?_⟩
    · intro _ requested
      exact absurd (near.unrequested.symm.trans requested) Bool.false_ne_true
    · intro _ requested
      exact absurd (far.unrequested.symm.trans requested) Bool.false_ne_true
  · intro history connection label next before step
    exact before.step leaves step.1 step.2

/-- Without a refusal everything that is read can be unmarshalled. -/
theorem unmarshals_read {callback : MarshallerCallback κ χ} (leaves : LeavesCoder callback)
    {endpoint peer : Endpoint κ χ} {chunk : List UInt8}
    (flow : Endpoint.Flow coders peer endpoint) (connected : endpoint.isConnected = true)
    (unrequested : endpoint.connection.isDisconnectRequested = false)
    (fromPeer : endpoint.read ++ chunk <+: peer.written)
    (accepted : (endpoint.unmarshal callback chunk).context.1.1.2 = false) :
    (endpoint.unmarshal callback chunk).succeeded = true := by
  obtain ⟨packets, last, sends, receives⟩ := flow.packets
  have plain : CsPacketHeader.getHeaderSize ≤ coders.headerSize := by
    rw [← coders.same_headerSize peer.coder]
    exact PlainHeaderCoder.header_plain _
  obtain ⟨_, refused, _⟩ := ((receives connected).follows unrequested).unmarshals leaves plain
    (fromPeer.trans sends.written_prefix)
  by_contra failed
  exact Bool.false_ne_true (accepted.symm.trans (refused (Bool.eq_false_iff.mpr failed)))

theorem step_calm {callback : MarshallerCallback κ χ} (leaves : LeavesCoder callback)
    {endpoint next peer : Endpoint κ χ} {label : Endpoint.Label}
    {asked : List (MessageType × List UInt8)} (calm : endpoint.Calm coders.headerSize asked)
    (toPeer : Endpoint.Flow coders endpoint peer) (fromPeer : Endpoint.Flow coders peer endpoint)
    (step : Endpoint.Step callback endpoint label next) (read : FromPeer endpoint peer label)
    (undisturbed : endpoint.Undisturbed coders label) (accepted : next.hasRefused = false) :
    next.Calm coders.headerSize (asked ++ postedMessages coders.headerSize label.asks) ∧
      (endpoint.GoesOn label → endpoint.Advances next) := by
  obtain ⟨packets, last, sends, _⟩ := toPeer.packets
  apply calm.step sends step undisturbed
  rintro index chunk calls isKarmaRemained rfl
  rw [step.records] at accepted
  exact unmarshals_read leaves fromPeer calm.session.connected calm.unrequested read
    (Bool.or_eq_false_iff.mp accepted).2

theorem CalmUnless.step {callback : MarshallerCallback κ χ} (leaves : LeavesCoder callback)
    {endpoint next peer : Endpoint κ χ} {side : Side} {labels : List (Side × Endpoint.Label)}
    {label : Endpoint.Label} (calm : CalmUnless coders side labels endpoint)
    (toPeer : Endpoint.Flow coders endpoint peer) (fromPeer : Endpoint.Flow coders peer endpoint)
    (step : Endpoint.Step callback endpoint label next) (read : FromPeer endpoint peer label)
    (orderly : endpoint.Orderly coders label) :
      CalmUnless coders side (labels ++ [(side, label)]) next := by
  intro undisturbed accepted
  have before := calm (fun occurs => undisturbed (occurs.later _)) (step_refused step accepted)
  have quiet : label.disturbs = false := by
    by_contra disturbs
    exact undisturbed (.now side labels (eq_true_of_ne_false disturbs))
  rw [asked_concat, if_pos rfl]
  exact (step_calm leaves before toPeer fromPeer step read ⟨orderly, quiet⟩ accepted).1

theorem CalmUnless.other {side : Side} {labels : List (Side × Endpoint.Label)}
    {endpoint : Endpoint κ χ} (calm : CalmUnless coders side labels endpoint)
    {label : Side × Endpoint.Label} (other : label.1 ≠ side) :
    CalmUnless coders side (labels ++ [label]) endpoint := by
  intro undisturbed accepted
  rw [asked_concat, if_neg other, List.append_nil]
  exact calm (fun occurs => undisturbed (occurs.later _)) accepted

theorem calm_of_run (leaves : ∀ side, LeavesCoder (callbacks side))
    {first last : Connection κ χ} {labels : List (Side × Endpoint.Label)}
    (near : first.near.Starts coders) (far : first.far.Starts coders)
    (toFar : coders.sending first.near.coder = coders.receiving first.far.coder)
    (toNear : coders.sending first.far.coder = coders.receiving first.near.coder)
    (run : Run (Where (Step callbacks) (Orderly coders)) first labels last) :
    (first.near.Calm coders.headerSize [] → CalmUnless coders .near labels last.near) ∧
      (first.far.Calm coders.headerSize [] → CalmUnless coders .far labels last.far) := by
  have flows := flows_of_run leaves near far toFar toNear (.start first)
  refine (run.invariant (fun labels connection => connection.Flows coders labels ∧
    (first.near.Calm coders.headerSize [] → CalmUnless coders .near labels connection.near) ∧
      (first.far.Calm coders.headerSize [] → CalmUnless coders .far labels connection.far)) ?_ ?_).2
  · exact ⟨flows, fun calm _ _ => calm, fun calm _ _ => calm⟩
  · rintro history connection ⟨side, label⟩ next ⟨before, nearCalm, farCalm⟩ ⟨step, orderly⟩
    refine ⟨before.step leaves step orderly, ?_⟩
    cases side with
    | near =>
        obtain ⟨fromPeer, moves, same⟩ := step.of_near
        refine ⟨?_, ?_⟩
        · intro calm
          exact (nearCalm calm).step (leaves .near) before.toFar before.toNear moves fromPeer orderly
        · intro calm
          rw [same]
          exact (farCalm calm).other nofun
    | far =>
        obtain ⟨fromPeer, moves, same⟩ := step.of_far
        refine ⟨?_, ?_⟩
        · intro calm
          rw [same]
          exact (nearCalm calm).other nofun
        · intro calm
          exact (farCalm calm).step (leaves .far) before.toNear before.toFar moves fromPeer orderly

/-- Why the read path of an end has asked for a disconnect, and why an end is not connected any more. -/
structure Blames (coders : DuplexCoders κ) (side : Side) (labels : List (Side × Endpoint.Label))
    (first last : Endpoint κ χ) : Prop where
  requests : last.isConnected = true → last.connection.isDisconnectRequested = true →
    last.hasRefused = true ∨ Occurs Endpoint.Label.isReadFailed side labels
  /-- Nothing was posted when the session was opened, and no wait was left of an earlier connection. -/
  closes : first.Calm coders.headerSize [] → last.isConnected = false →
    last.hasRefused = true ∨ Occurs Endpoint.Label.disturbs side labels

theorem CalmUnless.closes {side : Side} {labels : List (Side × Endpoint.Label)} {endpoint : Endpoint κ χ}
    (calm : CalmUnless coders side labels endpoint) (closed : endpoint.isConnected = false) :
    endpoint.hasRefused = true ∨ Occurs Endpoint.Label.disturbs side labels := by
  by_contra neither
  obtain ⟨accepted, undisturbed⟩ := not_or.mp neither
  have still := (calm undisturbed (Bool.eq_false_iff.mpr accepted)).session.connected
  exact Bool.false_ne_true (closed.symm.trans still)

/-- Whatever the two ends do, each of them is shown the messages that the other has accepted, in order
and once each. An end that is closed, or whose read path asks for a disconnect, was disturbed in the run
or has been called with a message that its callback did not accept. -/
theorem connection_delivers (leaves : ∀ side, LeavesCoder (callbacks side))
    {first last : Connection κ χ} {labels : List (Side × Endpoint.Label)}
    (near : first.near.Starts coders) (far : first.far.Starts coders)
    (toFar : coders.sending first.near.coder = coders.receiving first.far.coder)
    (toNear : coders.sending first.far.coder = coders.receiving first.near.coder)
    (run : Run (Where (Step callbacks) (Orderly coders)) first labels last) :
    last.near.Delivered coders last.far ∧ last.far.Delivered coders last.near ∧
      Blames coders .near labels first.near last.near ∧ Blames coders .far labels first.far last.far := by
  have flows := flows_of_run leaves near far toFar toNear run
  obtain ⟨nearCalm, farCalm⟩ := calm_of_run leaves near far toFar toNear run
  exact ⟨flows.toFar.delivered flows.farRecorded, flows.toNear.delivered flows.nearRecorded,
    ⟨flows.nearRequests, fun calm => (nearCalm calm).closes⟩,
    ⟨flows.farRequests, fun calm => (farCalm calm).closes⟩⟩

end Runs

section Concrete

open SendLedger

instance (coders : DuplexCoders κ) (connection : Connection κ χ) (label : Side × Endpoint.Label) :
    Decidable (connection.Orderly coders label) :=
  match label with
  | (.near, label) => inferInstanceAs (Decidable (connection.near.Orderly coders label))
  | (.far, label) => inferInstanceAs (Decidable (connection.far.Orderly coders label))

def plainConnection : Connection CsPacketCoder Unit :=
  { near := .opened 0 smallMarshaller 0 (), far := .opened 0 smallMarshaller 0 () }

theorem plain_connection_starts :
    plainConnection.near.Starts plainDuplex ∧ plainConnection.far.Starts plainDuplex :=
  ⟨Endpoint.opened_starts 0 0 () rfl, Endpoint.opened_starts 0 0 () rfl⟩

/-- The near end sends two messages and the far end one. The first chunk that is read ends inside the
header of the second message. -/
def exchanging : List (Side × Endpoint.Label) :=
  [(.near, .session (emptyMessage 0)), (.near, .session (emptyMessage 1)), (.near, .session (.handler 0)),
    (.far, .session (emptyMessage 2)), (.far, .session (.handler 0)), (.near, .session (.handler 0)),
    (.near, .session (.writeCompleted 0 .success)), (.far, .read 0 [0, 0, 21, 0] [] true),
    (.near, .read 0 [0, 0, 21] [] true), (.far, .read 0 [0, 21] [] true)]

theorem connection_delivers_both_ways :
    ∃ last, Run (Where (Step fun _ => acceptAll) (Orderly plainDuplex)) plainConnection exchanging last ∧
      last.far.unmarshalled = [(21, []), (21, [])] ∧ last.near.unmarshalled = [(21, [])] ∧
      last.near.Delivered plainDuplex last.far ∧ last.far.Delivered plainDuplex last.near := by
  have executes : (execute (guarded (advance fun _ => acceptAll) (Orderly plainDuplex)) plainConnection
      exchanging).map (fun last => (last.far.unmarshalled, last.near.unmarshalled)) =
        some ([(21, []), (21, [])], [(21, [])]) := by
    decide +kernel
  rcases Run.of_guarded (Step fun _ => acceptAll) (Orderly plainDuplex) (fun _ _ _ taken => taken)
      executes with
    ⟨last, run, facts⟩
  simp only [Prod.mk.injEq] at facts
  have leaves : ∀ side : Side, LeavesCoder (acceptAll : MarshallerCallback CsPacketCoder Unit) :=
    fun _ _ _ mblock context => ⟨mblock, context, .inl rfl⟩
  obtain ⟨near, far⟩ := plain_connection_starts
  have delivers := connection_delivers leaves near far rfl rfl run
  exact ⟨last, run, facts.1, facts.2, delivers.1, delivers.2.1⟩

end Concrete

end Connection

end Sne.Session
