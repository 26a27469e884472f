import Sne.Session.Endpoint

/-!
# One direction of a connection

What the sender has accepted are packets, in the order of their handlers: they were
handed to the socket, wait in the queue, or were dropped when the connection was closed.
The receiver has been shown the first of them, and what it has not used is less than
one packet. What either end does for the other direction makes no difference.
-/

namespace Sne.Session

open Sne.Base Sne.Sgp Sne.Library.Runs Sne.Library.Framing

set_option autoImplicit false

section Messages

variable {κ : Type} [PlainHeaderCoder κ] (coders : DuplexCoders κ)

/-- The block has room for the header, and its body is not too long for one packet. -/
def Sendable (mblock : BlockPointer) (messageType : MessageType) : Prop :=
  ∃ outgoing : Outgoing coders.headerSize,
    outgoing.mblock = mblock.mblock ∧ outgoing.messageType = messageType ∧ coders.Fits outgoing

theorem sendable_iff (mblock : BlockPointer) (messageType : MessageType) :
    Sendable coders mblock messageType ↔
      (mblock.mblock.rdPtr ≤ mblock.mblock.wrPtr ∧
        mblock.mblock.wrPtr ≤ mblock.mblock.buffer.length) ∧
      mblock.mblock.rdPtr = 0 ∧ coders.headerSize ≤ mblock.mblock.length ∧
      isValidMessage messageType = true ∧
      (padded coders.blockSize (mblock.bytes.drop coders.headerSize)).length ≤ 65535 := by
  constructor
  · rintro ⟨outgoing, sameBlock, sameType, fits⟩
    have size : (padded coders.blockSize (outgoing.mblock.contents.drop coders.headerSize)).length ≤
        65535 := fits
    rw [BlockPointer.bytes, ← sameBlock, ← sameType]
    exact ⟨⟨outgoing.valid.ordered, outgoing.valid.inside⟩, outgoing.atBase, outgoing.reserved,
      outgoing.typeValid, size⟩
  · rintro ⟨⟨ordered, inside⟩, atBase, reserved, typeValid, fits⟩
    exact ⟨{ mblock := mblock.mblock, valid := ⟨ordered, inside⟩, atBase, reserved, messageType,
             typeValid }, rfl, rfl, fits⟩

instance (mblock : BlockPointer) (messageType : MessageType) :
    Decidable (Sendable coders mblock messageType) :=
  decidable_of_iff _ (sendable_iff coders mblock messageType).symm

def PostSendable (handlers : List PostedHandler) : Prop :=
  ∀ mblock messageType, PostedHandler.sendMessage mblock messageType ∈ handlers →
    Sendable coders mblock messageType

def PostedHandler.isSendable : PostedHandler → Bool
  | .sendMessage mblock messageType => decide (Sendable coders mblock messageType)
  | _ => true

theorem post_sendable_iff (handlers : List PostedHandler) :
    (∀ handler ∈ handlers, handler.isSendable coders = true) ↔ PostSendable coders handlers := by
  constructor
  · intro each mblock messageType member
    exact of_decide_eq_true (each _ member)
  · intro sendable handler member
    cases handler with
    | sendMessage mblock messageType => exact decide_eq_true (sendable mblock messageType member)
    | disconnect => rfl
    | disconnectGracefully => rfl

instance (handlers : List PostedHandler) : Decidable (PostSendable coders handlers) :=
  decidable_of_iff _ (post_sendable_iff coders handlers)

end Messages

namespace Endpoint

variable {κ χ : Type} [PlainHeaderCoder κ]

/-- What the sender has accepted, as packets: they were handed to the socket, wait in the queue, or
were dropped with the connection. -/
structure Sends (coders : DuplexCoders κ) (packets : List MarshalledPacket) (last : coders.Keys)
    (sender : Endpoint κ χ) : Prop where
  sent : sender.sent = packets.map MarshalledPacket.message
  nonempty : ∀ packet ∈ packets, 0 < packet.bytes.length
  packed : ∃ dropped, TcpSessionImpl.handedMessages sender.session.handed ++
      sender.session.outputQueue.map BlockPointer.bytes ++ dropped =
        packets.map MarshalledPacket.bytes ∧ (sender.isConnected = true → dropped = [])
  settled : sender.session.QueueSettled
  sendable : PostSendable coders sender.session.posted
  reachable : ∃ receiver, coders.receiving receiver = last
  sending : sender.isConnected = true → coders.sending sender.coder = last

/-- The receiver has been shown the first packets, and as long as it reads it expects the others. -/
structure Follows (coders : DuplexCoders κ) (packets : List MarshalledPacket) (last : coders.Keys)
    (receiver : Endpoint κ χ) : Prop where
  split : ∃ used left unread, packets = used ++ left ∧
    receiver.unmarshalled = used.map (fun packet => coders.opened packet.message) ∧
    receiver.read = (used.map MarshalledPacket.bytes).flatten ++ unread ∧
    (∀ packet, left.head? = some packet → unread.length < packet.bytes.length) ∧
    Mirrors coders.headerSize receiver.session.marshaller receiver.coder unread ∧
    PacketsInFlight coders (coders.receiving receiver.coder) left last

structure Receives (coders : DuplexCoders κ) (packets : List MarshalledPacket) (last : coders.Keys)
    (receiver : Endpoint κ χ) : Prop where
  shown : receiver.unmarshalled <+: packets.map fun packet => coders.opened packet.message
  phase : receiver.connection.Phase
  follows : receiver.connection.isDisconnectRequested = false → receiver.Follows coders packets last

/-- The steps that an application makes: its messages fit into packets, and none of them finds the
output queue full. -/
def Orderly (coders : DuplexCoders κ) (endpoint : Endpoint κ χ) : Label → Prop
  | .session (.sendMessage mblock messageType) => Sendable coders mblock messageType
  | .session (.handler _) => endpoint.session.overflowsNext = false
  | .read _ _ calls _ => PostSendable coders calls
  | _ => True

instance (coders : DuplexCoders κ) (endpoint : Endpoint κ χ) (label : Label) :
    Decidable (Orderly coders endpoint label) :=
  match label with
  | .session (.sendMessage mblock messageType) =>
      inferInstanceAs (Decidable (Sendable coders mblock messageType))
  | .session (.handler _) => inferInstanceAs (Decidable (_ = false))
  | .read _ _ calls _ => inferInstanceAs (Decidable (PostSendable coders calls))
  | .session .disconnect => .isTrue trivial
  | .session .disconnectGracefully => .isTrue trivial
  | .session (.writeCompleted _ _) => .isTrue trivial
  | .session (.disconnectTimerExpires _) => .isTrue trivial
  | .session (.disconnectTimerHandler _) => .isTrue trivial
  | .readFailed _ _ => .isTrue trivial
  | .throttleTimerExpires _ => .isTrue trivial
  | .throttleTimerHandler _ => .isTrue trivial

section Sending

variable {coders : DuplexCoders κ} {packets : List MarshalledPacket} {last : coders.Keys}

theorem Sends.written_prefix {sender : Endpoint κ χ} (sends : sender.Sends coders packets last) :
    sender.written <+: (packets.map MarshalledPacket.bytes).flatten := by
  obtain ⟨dropped, packed, _⟩ := sends.packed
  rw [← packed, List.append_assoc, List.flatten_append]
  exact List.prefix_append _ _

theorem Sends.packed_next {sender next : Endpoint κ χ} (sends : sender.Sends coders packets last)
    {taken : List (List UInt8)} (takes : TcpSessionImpl.Takes sender.session next.session taken)
    (nothing : sender.isConnected = false → taken = []) :
    (∃ dropped, TcpSessionImpl.handedMessages next.session.handed ++
        next.session.outputQueue.map BlockPointer.bytes ++ dropped =
          packets.map MarshalledPacket.bytes ++ taken ∧ (next.isConnected = true → dropped = [])) ∧
      sender.written <+: next.written := by
  obtain ⟨dropped, packed, whole⟩ := sends.packed
  obtain ⟨writes, handed, moved⟩ := takes.handed
  have together : TcpSessionImpl.handedMessages next.session.handed ++
      next.session.outputQueue.map BlockPointer.bytes =
        TcpSessionImpl.handedMessages sender.session.handed ++
          (sender.session.outputQueue.map BlockPointer.bytes ++ taken) := by
    rw [← moved, handed, TcpSessionImpl.handedMessages, List.flatMap_append, List.append_assoc]
    rfl
  refine ⟨⟨dropped, ?_, ?_⟩, ?_⟩
  · rw [together, ← packed]
    cases connected : sender.isConnected with
    | true => simp [whole connected]
    | false => simp [nothing connected]
  · intro connected
    exact whole (takes.connected.symm.trans connected)
  · simp only [written, handed, TcpSessionImpl.handedMessages, List.flatMap_append,
      List.flatten_append]
    exact List.prefix_append _ _

theorem Sends.keeps {sender next : Endpoint κ χ} (sends : sender.Sends coders packets last)
    (takes : TcpSessionImpl.Takes sender.session next.session [])
    (settled : next.session.QueueSettled) (sent : next.sent = sender.sent)
    (sendable : PostSendable coders next.session.posted)
    (sending : next.isConnected = true →
      coders.sending next.coder = coders.sending sender.coder) :
    next.Sends coders packets last ∧ sender.written <+: next.written := by
  obtain ⟨packed, written⟩ := sends.packed_next takes (fun _ => rfl)
  rw [List.append_nil] at packed
  refine ⟨⟨sent.trans sends.sent, sends.nonempty, packed, settled, sendable, sends.reachable, ?_⟩,
    written⟩
  intro connected
  exact (sending connected).trans (sends.sending (takes.connected.symm.trans connected))

theorem Sends.accepts {sender next : Endpoint κ χ} (sends : sender.Sends coders packets last)
    (packet : MarshalledPacket) {keys : coders.Keys}
    (takes : TcpSessionImpl.Takes sender.session next.session [packet.bytes])
    (connected : sender.isConnected = true) (settled : next.session.QueueSettled)
    (sent : next.sent = sender.sent ++ [packet.message])
    (sendable : PostSendable coders next.session.posted)
    (decodes : Decodes coders last packet keys)
    (sending : next.isConnected = true → coders.sending next.coder = keys)
    (plain : CsPacketHeader.getHeaderSize ≤ coders.headerSize) :
    next.Sends coders (packets ++ [packet]) keys ∧ sender.written <+: next.written := by
  obtain ⟨packed, written⟩ := sends.packed_next takes
    (fun closed => absurd (closed.symm.trans connected) Bool.false_ne_true)
  obtain ⟨receiver, expects⟩ := sends.reachable
  obtain ⟨decoded, _, _, _, expectsNext⟩ := decodes.decodes receiver expects
  refine ⟨⟨?_, ?_, ?_, settled, sendable, ⟨_, expectsNext⟩, sending⟩, written⟩
  · rw [sent, sends.sent, List.map_append]
    rfl
  · intro other member
    rcases List.mem_append.mp member with earlier | same
    · exact sends.nonempty other earlier
    · rw [List.mem_singleton.mp same, decodes.size]
      unfold CsPacketHeader.getHeaderSize at plain
      omega
  · rw [List.map_append]
    exact packed

theorem Sends.closes {sender next : Endpoint κ χ} (sends : sender.Sends coders packets last)
    (closed : next.isConnected = false) (handed : next.session.handed = sender.session.handed)
    (queue : next.session.outputQueue = []) (settled : next.session.QueueSettled)
    (sent : next.sent = sender.sent) (sendable : PostSendable coders next.session.posted) :
    next.Sends coders packets last ∧ sender.written <+: next.written := by
  obtain ⟨dropped, packed, _⟩ := sends.packed
  have never : next.isConnected ≠ true := by
    rw [closed]
    exact Bool.false_ne_true
  refine ⟨⟨sent.trans sends.sent, sends.nonempty, ?_, settled, sendable, sends.reachable,
    fun connected => absurd connected never⟩, ?_⟩
  · refine ⟨sender.session.outputQueue.map BlockPointer.bytes ++ dropped, ?_,
      fun connected => absurd connected never⟩
    rw [handed, queue, List.map_nil, List.append_nil, ← List.append_assoc]
    exact packed
  · simp only [written, handed, List.prefix_rfl]

theorem unmarshal_sending {callback : MarshallerCallback κ χ} (leaves : LeavesCoder callback)
    (chunk : List UInt8) (endpoint : Endpoint κ χ) :
    coders.sending (endpoint.unmarshal callback chunk).marshaller.packetCoder =
      coders.sending endpoint.coder := by
  have alone : LeavesCoder (callbackOf callback endpoint.session.isDisconnectReserved) :=
    recorded_leaves (message_unmarshalled_leaves (recorded_leaves (marked_leaves leaves)) _)
  apply unmarshal_keeps (fun coder _ => coders.sending coder = coders.sending endpoint.coder)
  · intro mblock coder context same
    exact (coders.decode_sending mblock coder).trans same
  · intro messageType coder mblock context same
    obtain ⟨after, next, accepted | refused | ⟨e, failed⟩⟩ := alone messageType coder mblock context
    · rw [accepted]
      exact same
    · rw [refused]
      exact same
    · rw [failed]
      exact same
  · rfl

theorem Sends.reads {sender next : Endpoint κ χ} {calls : List PostedHandler}
    (sends : sender.Sends coders packets last)
    (reads : OnlyReads calls sender.session next.session) (sendable : PostSendable coders calls)
    (sent : next.sent = sender.sent)
    (sending : coders.sending next.coder = coders.sending sender.coder) :
    next.Sends coders packets last ∧ sender.written <+: next.written := by
  have idle : next.session.isWritePended = false → next.session.outputQueue = [] := by
    intro free
    rw [reads.outputQueue]
    exact sends.settled.idle (reads.isWritePended.symm.trans free)
  apply sends.keeps (.nothing reads.handed reads.outputQueue reads.isSocketOpen idle)
  · refine ⟨idle, ?_⟩
    intro closed
    rw [reads.outputQueue]
    exact sends.settled.closed (reads.isSocketOpen.symm.trans closed)
  · exact sent
  · intro mblock messageType member
    obtain ⟨added, posted, disconnects⟩ := reads.posted
    rw [posted, List.append_assoc, List.mem_append, List.mem_append] at member
    rcases member with earlier | called | last
    · exact sends.sendable mblock messageType earlier
    · exact sendable mblock messageType called
    · cases disconnects _ last
  · exact fun _ => sending

theorem Sends.posts {sender next : Endpoint κ χ} {label : TcpSessionImpl.Label}
    (sends : sender.Sends coders packets last)
    (taken : TcpSessionImpl.Step sender.session label next.session)
    (orderly : Orderly coders sender (.session label)) : PostSendable coders next.session.posted := by
  intro mblock messageType member
  rcases taken.posted_messages _ member with earlier | none | ⟨other, otherType, rfl, same⟩
  · exact sends.sendable mblock messageType earlier
  · cases none
  · cases same
    exact orderly

/-- A step of the session accepts the message that it marshals. -/
theorem Sends.session_step {sender next : Endpoint κ χ} {label : TcpSessionImpl.Label}
    (plain : CsPacketHeader.getHeaderSize ≤ coders.headerSize)
    (sends : sender.Sends coders packets last)
    (taken : TcpSessionImpl.Step sender.session label next.session)
    (sent : next.sent = sender.sent ++ sender.accepted label)
    (orderly : Orderly coders sender (.session label)) :
    sender.written <+: next.written ∧ (next.Sends coders packets last ∨
      ∃ packet keys, Decodes coders last packet keys ∧
        next.Sends coders (packets ++ [packet]) keys) := by
  have settled := taken.queueSettled sends.settled
  have sendable := sends.posts taken orderly
  have verdicts := TcpSessionImpl.verdicts_marshals sender.session label
  have after : next.isConnected = true →
      next.session.marshaller = sender.session.marshallerAfter label :=
    fun connected => taken.marshaller_after connected
  cases marshals : sender.session.marshalsNext label with
  | none =>
      simp only [accepted, marshals, List.append_nil] at sent
      simp only [marshals] at verdicts
      have kept : next.Sends coders packets last ∧ sender.written <+: next.written := by
        rcases taken.takes sends.settled with takes | ⟨closed, handed, queue, _⟩
        · rw [verdicts] at takes
          apply sends.keeps takes settled sent sendable
          intro connected
          have same := after connected
          simp only [TcpSessionImpl.marshallerAfter, marshals] at same
          rw [coder, same]
          rfl
        · exact sends.closes closed handed queue settled sent sendable
      exact ⟨kept.2, .inl kept.1⟩
  | some message =>
      obtain ⟨mblock, messageType⟩ := message
      obtain ⟨_, connected, now, rest, isHandler, posted⟩ := TcpSessionImpl.marshals_posted marshals
      subst isHandler
      have fits := sends.sendable mblock messageType (by rw [posted]; exact List.mem_cons_self ..)
      obtain ⟨outgoing, sameBlock, sameType, small⟩ := fits
      have sending := sends.sending connected
      obtain ⟨marshalled, coder, marshal, decodes⟩ := marshal_decodes sender.session.marshaller
        (by rw [show coders.sending sender.session.marshaller.packetCoder = last from sending]
            exact sends.reachable) outgoing small
      rw [sameBlock, sameType] at marshal
      have marshalsNow : Marshaller.marshal mblock.mblock messageType sender.session.marshaller =
          (true, marshalled, { sender.session.marshaller with packetCoder := coder }) := by
        change ((sender.session.marshaller.marshal mblock.mblock messageType).succeeded, _, _) = _
        rw [marshal]
      have accepts := TcpSessionImpl.marshals_accepts marshals (by rw [marshalsNow]) orderly
      have verdict : sender.session.verdict mblock messageType = some marshalled.contents := by
        rw [TcpSessionImpl.verdict, if_pos accepts, marshalsNow]
      simp only [marshals, verdict, Option.toList_some] at verdicts
      rw [show coders.sending sender.session.marshaller.packetCoder = last from sending] at decodes
      have message : sender.accepted (.handler now) = [outgoing.message] := by
        simp only [accepted, marshals, accepts, if_true]
        rw [Outgoing.message, SendBlock.body, sameBlock, sameType, coders.same_headerSize]
        rfl
      rw [message] at sent
      rcases taken.takes sends.settled with takes | ⟨_, _, _, none⟩
      · rw [verdicts] at takes
        have done := sends.accepts ⟨marshalled.contents, outgoing.message⟩ takes connected
          settled sent sendable decodes (by
            intro connectedNow
            have same := after connectedNow
            simp only [TcpSessionImpl.marshallerAfter, marshals, marshalsNow] at same
            rw [Endpoint.coder, same]) plain
        exact ⟨done.2, .inr ⟨_, _, decodes, done.1⟩⟩
      · rw [none] at verdicts
        cases verdicts

theorem Sends.step {callback : MarshallerCallback κ χ} (leaves : LeavesCoder callback)
    {sender next : Endpoint κ χ} {label : Label} (sends : sender.Sends coders packets last)
    (plain : CsPacketHeader.getHeaderSize ≤ coders.headerSize)
    (happens : Happens callback sender label next) (orderly : Orderly coders sender label) :
    sender.written <+: next.written ∧ (next.Sends coders packets last ∨
      ∃ packet keys, Decodes coders last packet keys ∧
        next.Sends coders (packets ++ [packet]) keys) := by
  cases happens with
  | session taken unrequested same => exact sends.session_step plain taken (by rw [same]) orderly
  | read outstanding reads marshaller succeeds same =>
      rename_i chunk calls isKarmaRemained
      have sending : coders.sending next.coder = coders.sending sender.coder := by
        rw [coder, marshaller]
        exact unmarshal_sending leaves chunk sender
      have kept := sends.reads reads orderly (by rw [same]; rfl) sending
      exact ⟨kept.2, .inl kept.1⟩
  | other unasked reads marshaller unrequested same =>
      have kept := sends.reads reads (fun _ _ none => absurd none List.not_mem_nil) (by rw [same])
        (by rw [coder, marshaller, coder])
      exact ⟨kept.2, .inl kept.1⟩

end Sending

section Receiving

variable {coders : DuplexCoders κ} {packets : List MarshalledPacket} {last : coders.Keys}

omit [PlainHeaderCoder κ] in
theorem mirrors_coder {headerSize : Nat} {marshaller : SgpMarshaller κ} {coder : κ}
    {unread : List UInt8} (mirrors : Mirrors headerSize marshaller coder unread) (next : κ) :
    Mirrors headerSize { marshaller with packetCoder := next } next unread :=
  { mirrors with sameCoder := rfl }

theorem Receives.extend {receiver : Endpoint κ χ} {packet : MarshalledPacket} {keys : coders.Keys}
    (receives : receiver.Receives coders packets last)
    (streamed : receiver.read <+: (packets.map MarshalledPacket.bytes).flatten)
    (decodes : Decodes coders last packet keys) (some : 0 < packet.bytes.length) :
    receiver.Receives coders (packets ++ [packet]) keys := by
  refine ⟨?_, receives.phase, ?_⟩
  · rw [List.map_append]
    exact receives.shown.trans (List.prefix_append _ _)
  · intro unrequested
    obtain ⟨used, left, unread, split, unmarshalled, read, short, mirrors, flight⟩ :=
      (receives.follows unrequested).split
    refine ⟨used, left ++ [packet], unread, ?_, unmarshalled, read, ?_, mirrors, flight.concat decodes⟩
    · rw [split, List.append_assoc]
    · intro first isFirst
      cases left with
      | nil =>
          -- every packet has been used, so that nothing is left unread
          cases isFirst
          rw [split, List.append_nil, read] at streamed
          have nothing : unread = [] := by
            have bound := streamed.length_le
            rw [List.length_append] at bound
            exact List.length_eq_zero_iff.mp (by omega)
          rw [nothing]
          exact some
      | cons other others =>
          cases isFirst
          exact short _ rfl

theorem Follows.session_step {receiver next : Endpoint κ χ} {label : TcpSessionImpl.Label}
    (follows : receiver.Follows coders packets last)
    (taken : TcpSessionImpl.Step receiver.session label next.session)
    (connected : next.isConnected = true) (read : next.read = receiver.read)
    (unmarshalled : next.unmarshalled = receiver.unmarshalled) :
    next.Follows coders packets last := by
  obtain ⟨used, left, unread, split, shown, bytes, short, mirrors, flight⟩ := follows.split
  have after := taken.marshaller_after connected
  have kept : Mirrors coders.headerSize next.session.marshaller next.coder unread ∧
      coders.receiving next.coder = coders.receiving receiver.coder := by
    unfold TcpSessionImpl.marshallerAfter at after
    split at after
    · rw [coder, after]
      exact ⟨mirrors, rfl⟩
    · rename_i mblock messageType marshals
      have marshalled : next.session.marshaller =
          (receiver.session.marshaller.marshal mblock.mblock messageType).marshaller := after
      have receiving : coders.receiving
          (receiver.session.marshaller.marshal mblock.mblock messageType).marshaller.packetCoder =
          coders.receiving receiver.session.marshaller.packetCoder := marshal_receiving ..
      obtain ⟨coderAfter, same, _⟩ := marshal_coder mblock.mblock messageType receiver.session.marshaller
      rw [coder, marshalled]
      refine ⟨?_, receiving⟩
      rw [same]
      exact mirrors_coder mirrors coderAfter
  refine ⟨used, left, unread, split, ?_, ?_, short, kept.1, ?_⟩
  · rw [unmarshalled, shown]
  · rw [read, bytes]
  · rw [kept.2]
    exact flight

theorem Follows.unmarshals {callback : MarshallerCallback κ χ} (leaves : LeavesCoder callback)
    {receiver : Endpoint κ χ} (plain : CsPacketHeader.getHeaderSize ≤ coders.headerSize)
    (follows : receiver.Follows coders packets last) {chunk : List UInt8}
    (streamed : receiver.read ++ chunk <+: (packets.map MarshalledPacket.bytes).flatten) :
    (receiver.unmarshal callback chunk).context.2 <+:
        packets.map (fun packet => coders.opened packet.message) ∧
      ((receiver.unmarshal callback chunk).succeeded = false →
        (receiver.unmarshal callback chunk).context.1.1.2 = true) ∧
      ((receiver.unmarshal callback chunk).succeeded = true →
        ∃ used left unread, packets = used ++ left ∧
          (receiver.unmarshal callback chunk).context.2 =
            used.map (fun packet => coders.opened packet.message) ∧
          receiver.read ++ chunk = (used.map MarshalledPacket.bytes).flatten ++ unread ∧
          (∀ packet, left.head? = some packet → unread.length < packet.bytes.length) ∧
          Mirrors coders.headerSize (receiver.unmarshal callback chunk).marshaller
            (receiver.unmarshal callback chunk).marshaller.packetCoder unread ∧
          PacketsInFlight coders
            (coders.receiving (receiver.unmarshal callback chunk).marshaller.packetCoder) left last) := by
  obtain ⟨used, left, unread, split, shown, bytes, short, mirrors, flight⟩ := follows.split
  have alone : LeavesCoder
      (messageUnmarshalled receiver.session.isDisconnectReserved (recorded (marked callback))) :=
    message_unmarshalled_leaves (recorded_leaves (marked_leaves leaves)) _
  have frames := packets_are_frames alone
    (message_unmarshalled_marks (recorded_marks (marked_refusal callback)) _) plain left last
    receiver.unmarshalled
  have expects : Expecting left last receiver.unmarshalled
      (receiver.coder, ((receiver.context, false), receiver.arrived), receiver.unmarshalled) left :=
    ⟨⟨[], rfl, (List.append_nil _).symm⟩, flight⟩
  have rest : unread ++ chunk <+: (left.map MarshalledPacket.bytes).flatten := by
    rw [bytes, List.append_assoc, split, List.map_append, List.flatten_append] at streamed
    exact (List.prefix_append_right_inj _).mp streamed
  obtain ⟨outcome, drains, uses⟩ := frames.drains expects rest
  have received := receive_mirrors plain mirrors chunk
  obtain ⟨other, otherDrains, shows⟩ := unmarshal_loop_shows plain
    (callbackOf callback receiver.session.isDisconnectReserved)
    ((receiver.session.marshaller.receive chunk).recvBlock.length + 1) 0
    (receiver.session.marshaller.receive chunk) receiver.coder
    (((receiver.context, false), receiver.arrived), receiver.unmarshalled) (unread ++ chunk) received
    (by rw [received.length]; omega)
  cases otherDrains.unique drains
  -- the messages that are shown now come behind those shown before
  have showsMore : ∀ more others, left = more ++ others →
      receiver.unmarshalled ++ more.map (fun packet => coders.opened packet.message) =
          (used ++ more).map (fun packet => coders.opened packet.message) ∧
        packets = used ++ more ++ others := by
    intro more others same
    refine ⟨?_, ?_⟩
    · rw [shown, List.map_append]
    · rw [split, same, List.append_assoc]
  cases uses with
  | more more divided available few expectsNext =>
      rename_i others state remaining
      obtain ⟨succeeded, context, mirrorsNow⟩ := shows
      obtain ⟨again, same, logged⟩ := expectsNext.shown
      have sameUsed : again = more := List.append_cancel_right (same.symm.trans divided)
      subst sameUsed
      obtain ⟨together, whole⟩ := showsMore again others divided
      have log : (receiver.unmarshal callback chunk).context.2 =
          (used ++ again).map (fun packet => coders.opened packet.message) := by
        rw [← together, ← logged]
        exact congrArg Prod.snd context
      refine ⟨?_, fun failed => absurd (failed.symm.trans succeeded) Bool.false_ne_true,
        fun _ => ⟨used ++ again, others, remaining, whole, log, ?_, few, ?_, ?_⟩⟩
      · rw [log, whole]
        exact (List.prefix_append _ _).map _
      · rw [bytes, List.append_assoc, available, List.map_append, List.flatten_append,
          List.append_assoc]
      · have sameCoder := mirrorsNow.sameCoder
        rw [← sameCoder] at mirrorsNow
        exact mirrorsNow
      · have sameCoder : (receiver.unmarshal callback chunk).marshaller.packetCoder = state.1 :=
          mirrorsNow.sameCoder
        rw [sameCoder]
        exact expectsNext.flight
  | failed more divided refused =>
      rename_i others state
      obtain ⟨failed, context, _⟩ := shows
      obtain ⟨⟨again, same, logged⟩, marked⟩ := refused
      obtain ⟨together, whole⟩ := showsMore again others same
      have log : (receiver.unmarshal callback chunk).context.2 =
          (used ++ again).map (fun packet => coders.opened packet.message) := by
        rw [← together, ← logged]
        exact congrArg Prod.snd context
      refine ⟨?_, ?_, ?_⟩
      · rw [log, whole]
        exact (List.prefix_append _ _).map _
      · intro _
        exact (congrArg (fun logs : Logs χ => logs.1.1.2) context).trans marked
      · intro succeeded
        exact absurd (failed.symm.trans succeeded) Bool.false_ne_true

theorem Receives.step {callback : MarshallerCallback κ χ} (leaves : LeavesCoder callback)
    {receiver next : Endpoint κ χ} {label : Label}
    (plain : CsPacketHeader.getHeaderSize ≤ coders.headerSize)
    (receives : receiver.isConnected = true → receiver.Receives coders packets last)
    (step : Step callback receiver label next)
    (streamed : next.read <+: (packets.map MarshalledPacket.bytes).flatten)
    (connected : next.isConnected = true) : next.Receives coders packets last := by
  obtain ⟨happens, moves⟩ := step.happens
  obtain ⟨wasConnected, phase⟩ := ReadingSession.step_phase (fun open' => (receives open').phase) moves
    connected
  have before := receives wasConnected
  cases happens with
  | session taken requested same =>
      have read : next.read = receiver.read := by rw [same]
      have unmarshalled : next.unmarshalled = receiver.unmarshalled := by rw [same]
      refine ⟨?_, phase, ?_⟩
      · rw [unmarshalled]
        exact before.shown
      · intro unrequested
        exact (before.follows (requested.symm.trans unrequested)).session_step taken connected read
          unmarshalled
  | read outstanding reads marshaller requested same =>
      rename_i index chunk calls isKarmaRemained
      have unrequested : receiver.connection.isDisconnectRequested = false := by
        cases before.phase with
        | reads _ _ _ unrequested => exact unrequested
        | throttled _ none => omega
        | failed none => omega
      have read : next.read = receiver.read ++ chunk := by
        rw [same]
        rfl
      have unmarshalled : next.unmarshalled = (receiver.unmarshal callback chunk).context.2 := by
        rw [same]
        rfl
      rw [read] at streamed
      obtain ⟨shown, _, follows⟩ := (before.follows unrequested).unmarshals leaves plain streamed
      refine ⟨?_, phase, ?_⟩
      · rw [unmarshalled]
        exact shown
      · intro still
        rw [still, eq_comm, Bool.or_eq_false_iff, Bool.not_eq_false'] at requested
        obtain ⟨used, left, unread, split, log, bytes, short, mirrors, flight⟩ := follows requested.2
        refine ⟨used, left, unread, split, ?_, ?_, short, ?_, ?_⟩
        · rw [unmarshalled, log]
        · rw [read, bytes]
        · rw [coder, marshaller]
          exact mirrors
        · rw [coder, marshaller]
          exact flight
  | other unasked reads marshaller requested same =>
      have read : next.read = receiver.read := by rw [same]
      have unmarshalled : next.unmarshalled = receiver.unmarshalled := by rw [same]
      refine ⟨?_, phase, ?_⟩
      · rw [unmarshalled]
        exact before.shown
      · intro unrequested
        have wasUnrequested : receiver.connection.isDisconnectRequested = false := by
          rcases requested with kept | ⟨_, now⟩
          · exact kept.symm.trans unrequested
          · exact absurd (unrequested.symm.trans now) Bool.false_ne_true
        obtain ⟨used, left, unread, split, shown, bytes, short, mirrors, flight⟩ :=
          (before.follows wasUnrequested).split
        refine ⟨used, left, unread, split, ?_, ?_, short, ?_, ?_⟩
        · rw [unmarshalled, shown]
        · rw [read, bytes]
        · rw [coder, marshaller]
          exact mirrors
        · rw [coder, marshaller]
          exact flight

/-- A disconnect is asked for when the callback did not accept a message, or when a read fails. -/
theorem Receives.requests {callback : MarshallerCallback κ χ} (leaves : LeavesCoder callback)
    {receiver next : Endpoint κ χ} {label : Label}
    (plain : CsPacketHeader.getHeaderSize ≤ coders.headerSize)
    (receives : receiver.Receives coders packets last) (step : Step callback receiver label next)
    (streamed : next.read <+: (packets.map MarshalledPacket.bytes).flatten)
    (requested : next.connection.isDisconnectRequested = true) :
    receiver.connection.isDisconnectRequested = true ∨ next.hasRefused = true ∨
      label.isReadFailed = true := by
  cases step.happens.1 with
  | session taken kept same => exact .inl (kept.symm.trans requested)
  | read outstanding reads marshaller requests same =>
      rename_i index chunk calls isKarmaRemained
      rw [requests, Bool.or_eq_true, Bool.not_eq_true'] at requested
      cases before : receiver.connection.isDisconnectRequested with
      | true => exact .inl rfl
      | false =>
          have read : next.read = receiver.read ++ chunk := by
            rw [same]
            rfl
          rw [read] at streamed
          obtain ⟨_, refused, _⟩ := (receives.follows before).unmarshals leaves plain streamed
          rcases requested with already | failed
          · exact absurd (before.symm.trans already) Bool.false_ne_true
          · refine .inr (.inl ?_)
            rw [same]
            exact (congrArg (receiver.hasRefused || ·) (refused failed)).trans (Bool.or_true _)
  | other unasked reads marshaller requests same =>
      rcases requests with kept | ⟨isReadFailed, _⟩
      · exact .inl (kept.symm.trans requested)
      · exact .inr (.inr isReadFailed)

end Receiving

section Records

/-- What the callback was called with are the messages that were unmarshalled, apart from those that
came while a disconnect was reserved. -/
structure Recorded (endpoint : Endpoint κ χ) : Prop where
  arrived : endpoint.arrived.Sublist endpoint.unmarshalled
  undropped : endpoint.hasDropped = false → endpoint.arrived = endpoint.unmarshalled

omit [PlainHeaderCoder κ] in
theorem callback_of_records (callback : MarshallerCallback κ χ)
    (isDisconnectReserved hasDropped : Bool) :
    CallKeeps (callbackOf callback isDisconnectReserved) fun _ context =>
      context.1.2.Sublist context.2 ∧
        ((hasDropped || isDisconnectReserved) = false → context.1.2 = context.2) := by
  rintro messageType coder mblock ⟨⟨⟨state, hasRefused⟩, arrived⟩, unmarshalled⟩ ⟨few, whole⟩
  cases isDisconnectReserved with
  | true =>
      refine ⟨few.trans (List.sublist_append_left _ _), ?_⟩
      intro none
      exact absurd ((Bool.or_true hasDropped).symm.trans none) Bool.noConfusion
  | false =>
      have both : (arrived ++ [(messageType, mblock.contents)]).Sublist
            (unmarshalled ++ [(messageType, mblock.contents)]) ∧
          ((hasDropped || false) = false → arrived ++ [(messageType, mblock.contents)] =
            unmarshalled ++ [(messageType, mblock.contents)]) := by
        refine ⟨few.append (List.Sublist.refl _), ?_⟩
        intro none
        rw [show arrived = unmarshalled from whole none]
      cases reply : callback messageType (coder, mblock, state) with
      | ok accepted after =>
          simp only [callbackOf, recorded, marked, messageUnmarshalled, Bool.false_eq_true, if_false, reply]
          exact both
      | error e after =>
          simp only [callbackOf, recorded, marked, messageUnmarshalled, Bool.false_eq_true, if_false, reply]
          exact both

theorem Recorded.step {callback : MarshallerCallback κ χ} {endpoint next : Endpoint κ χ} {label : Label}
    (before : endpoint.Recorded) (step : Step callback endpoint label next) : next.Recorded := by
  cases step.happens.1 with
  | session taken kept same =>
      rw [same]
      exact ⟨before.arrived, before.undropped⟩
  | read outstanding reads marshaller requests same =>
      rename_i index chunk calls isKarmaRemained
      have kept := unmarshal_keeps _ (fun _ _ _ => id)
        (callback_of_records callback endpoint.session.isDisconnectReserved endpoint.hasDropped)
        ((endpoint.session.marshaller.receive chunk).recvBlock.length + 1) 0
        (endpoint.session.marshaller.receive chunk)
        (((endpoint.context, false), endpoint.arrived), endpoint.unmarshalled)
        ⟨before.arrived, fun none => before.undropped (Bool.or_eq_false_iff.mp none).1⟩
      rw [same]
      exact ⟨kept.1, kept.2⟩
  | other unasked reads marshaller requests same =>
      rw [same]
      exact ⟨before.arrived, before.undropped⟩

/-- The fact holds of what the callback leaves and of the messages with the one that it was shown. -/
def KeepsArrived (callback : MarshallerCallback κ χ)
    (Kept : χ → List (MessageType × List UInt8) → Prop) : Prop :=
  ∀ messageType coder mblock context arrived, Kept context arrived →
    match callback messageType (coder, mblock, context) with
    | .ok _ (_, _, next) => Kept next (arrived ++ [(messageType, mblock.contents)])
    | .error _ (_, _, next) => Kept next (arrived ++ [(messageType, mblock.contents)])

omit [PlainHeaderCoder κ] in
theorem KeepsArrived.call {callback : MarshallerCallback κ χ}
    {Kept : χ → List (MessageType × List UInt8) → Prop} (each : KeepsArrived callback Kept)
    (isDisconnectReserved : Bool) :
    CallKeeps (callbackOf callback isDisconnectReserved) fun _ context =>
      Kept context.1.1.1 context.1.2 := by
  rintro messageType coder mblock ⟨⟨⟨state, hasRefused⟩, arrived⟩, unmarshalled⟩ kept
  cases isDisconnectReserved with
  | true => exact kept
  | false =>
      have shown := each messageType coder mblock state arrived kept
      cases reply : callback messageType (coder, mblock, state) with
      | ok accepted after =>
          rw [reply] at shown
          simp only [callbackOf, recorded, marked, messageUnmarshalled, Bool.false_eq_true, if_false, reply]
          exact shown
      | error e after =>
          rw [reply] at shown
          simp only [callbackOf, recorded, marked, messageUnmarshalled, Bool.false_eq_true, if_false, reply]
          exact shown

/-- What holds of the state of the callback and of all messages that have arrived. -/
theorem Step.keeps_arrived {callback : MarshallerCallback κ χ}
    {Kept : χ → List (MessageType × List UInt8) → Prop} (each : KeepsArrived callback Kept)
    {endpoint next : Endpoint κ χ} {label : Label} (step : Step callback endpoint label next)
    (kept : Kept endpoint.context endpoint.arrived) : Kept next.context next.arrived := by
  cases step.happens.1 with
  | session taken unrequested same =>
      rw [same]
      exact kept
  | read outstanding reads marshaller requests same =>
      rename_i index chunk calls isKarmaRemained
      rw [same]
      exact unmarshal_keeps _ (fun _ _ _ => id) (each.call endpoint.session.isDisconnectReserved)
        ((endpoint.session.marshaller.receive chunk).recvBlock.length + 1) 0
        (endpoint.session.marshaller.receive chunk)
        (((endpoint.context, false), endpoint.arrived), endpoint.unmarshalled) kept
  | other unasked reads marshaller requests same =>
      rw [same]
      exact kept

end Records

end Endpoint

end Sne.Session
