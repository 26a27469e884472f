import Sne.Library.Frames
import Sne.Sgp.MarshalSoundness

/-!
# Packets in flight

Between `marshal` on one side and `unmarshal` on the other there are packets that
nobody has decoded yet. Each of them is for a receiver that has the keys which the
packets before it leave. What a coder encodes for the other direction makes no
difference to it.
-/

namespace Sne.Sgp

open Sne.Base Sne.Security Sne.Library.Framing

set_option autoImplicit false

/-- Coders whose two directions are independent, with what each direction knows. -/
structure DuplexCoders (κ : Type) [PlainHeaderCoder κ] extends PairedCoders κ where
  Keys : Type
  sending : κ → Keys
  receiving : κ → Keys
  linked_keys : ∀ sender receiver, linked sender receiver ↔ sending sender = receiving receiver
  encode_receiving : ∀ mblock header (coder : κ),
    receiving (PacketCoder.encode mblock header coder).coder = receiving coder
  decode_sending : ∀ mblock (coder : κ),
    sending (PacketCoder.decode mblock coder).coder = sending coder

/-- The callback may refuse a message, but it leaves the coder alone. -/
def LeavesCoder {κ χ : Type} (callback : MarshallerCallback κ χ) : Prop :=
  ∀ messageType coder mblock context, ∃ after next,
    callback messageType (coder, mblock, context) = .ok true (coder, after, next) ∨
    callback messageType (coder, mblock, context) = .ok false (coder, after, next) ∨
    ∃ e, callback messageType (coder, mblock, context) = .error e (coder, after, next)

def MarksRefusal {κ χ : Type} (callback : MarshallerCallback κ χ) (Marked : χ → Prop) : Prop :=
  ∀ messageType state, match callback messageType state with
    | .ok accepted (_, _, context) => accepted = false → Marked context
    | .error _ (_, _, context) => Marked context

/-- The callback, with a mark that stays once it has not accepted a message. -/
def marked {κ χ : Type} (callback : MarshallerCallback κ χ) : MarshallerCallback κ (χ × Bool) :=
  fun messageType (coder, mblock, context, hasRefused) =>
    match callback messageType (coder, mblock, context) with
    | .ok accepted (coder, after, context) => .ok accepted (coder, after, context, hasRefused || !accepted)
    | .error e (coder, after, context) => .error e (coder, after, context, true)

theorem marked_refusal {κ χ : Type} (callback : MarshallerCallback κ χ) :
    MarksRefusal (marked callback) fun context => context.2 = true := by
  rintro messageType ⟨coder, mblock, context, hasRefused⟩
  unfold marked
  dsimp only
  cases callback messageType (coder, mblock, context) with
  | ok accepted after =>
      rintro rfl
      exact Bool.or_true hasRefused
  | error e after => rfl

theorem marked_leaves {κ χ : Type} {callback : MarshallerCallback κ χ} (leaves : LeavesCoder callback) :
    LeavesCoder (marked callback) := by
  rintro messageType coder mblock ⟨context, hasRefused⟩
  obtain ⟨after, next, accepted | refused | ⟨e, failed⟩⟩ := leaves messageType coder mblock context
  · exact ⟨after, (next, hasRefused || !true), .inl (by simp only [marked, accepted])⟩
  · exact ⟨after, (next, hasRefused || !false), .inr (.inl (by simp only [marked, refused]))⟩
  · exact ⟨after, (next, true), .inr (.inr ⟨e, by simp only [marked, failed]⟩)⟩

theorem recorded_marks {κ χ : Type} {callback : MarshallerCallback κ χ} {Marked : χ → Prop}
    (marks : MarksRefusal callback Marked) :
    MarksRefusal (recorded callback) fun context => Marked context.1 := by
  rintro messageType ⟨coder, mblock, context, log⟩
  have marksHere := marks messageType (coder, mblock, context)
  unfold recorded
  dsimp only
  cases reply : callback messageType (coder, mblock, context) with
  | ok accepted after =>
      rw [reply] at marksHere
      exact marksHere
  | error e after =>
      rw [reply] at marksHere
      exact marksHere

structure MarshalledPacket where
  bytes : List UInt8
  message : MessageType × List UInt8

section Flight

variable {κ : Type} [PlainHeaderCoder κ] (coders : DuplexCoders κ)

/-- The message as the receiver's callback sees it, with its body padded for the cipher. -/
def DuplexCoders.opened (message : MessageType × List UInt8) : MessageType × List UInt8 :=
  (message.1, padded coders.blockSize message.2)

structure Decodes (keys : coders.Keys) (packet : MarshalledPacket) (next : coders.Keys) : Prop where
  typeValid : isValidMessage packet.message.1 = true
  fits : (padded coders.blockSize packet.message.2).length ≤ 65535
  header : ∃ tail, packet.bytes = CsPacketHeader.write
    { bodySize := UInt16.ofNat (padded coders.blockSize packet.message.2).length
      messageType := packet.message.1 } ++ tail
  size : packet.bytes.length = coders.headerSize + (padded coders.blockSize packet.message.2).length
  decodes : ∀ receiver, coders.receiving receiver = keys →
    ∃ decoded, PacketCoder.decode (packetBlock packet.bytes) receiver = decoded ∧
      decoded.succeeded = true ∧
      (PacketCoder.advanceToBody decoded.coder decoded.mblock).contents =
        padded coders.blockSize packet.message.2 ∧
      coders.receiving decoded.coder = next

/-- The packets between a receiver that expects the first keys and a sender that has the last. -/
inductive PacketsInFlight : coders.Keys → List MarshalledPacket → coders.Keys → Prop where
  | nil (keys : coders.Keys) : PacketsInFlight keys [] keys
  | cons {keys next last : coders.Keys} {packet : MarshalledPacket} {packets : List MarshalledPacket} :
      Decodes coders keys packet next → PacketsInFlight next packets last →
      PacketsInFlight keys (packet :: packets) last

variable {coders}

theorem PacketsInFlight.concat {keys last next : coders.Keys} {packets : List MarshalledPacket}
    {packet : MarshalledPacket} (flight : PacketsInFlight coders keys packets last)
    (decodes : Decodes coders last packet next) :
    PacketsInFlight coders keys (packets ++ [packet]) next := by
  induction flight with
  | nil keys => exact .cons decodes (.nil next)
  | cons first _ induction => exact .cons first (induction decodes)

omit [PlainHeaderCoder κ] in
theorem marshal_coder [PacketCoder κ] (mblock : MemoryBlock) (messageType : MessageType)
    (marshaller : SgpMarshaller κ) :
    ∃ coder, (marshaller.marshal mblock messageType).marshaller =
        { marshaller with packetCoder := coder } ∧
      (coder = marshaller.packetCoder ∨ ∃ header,
        coder = (PacketCoder.encode mblock header marshaller.packetCoder).coder) := by
  simp only [SgpMarshaller.marshal]
  split
  · exact ⟨_, rfl, .inr ⟨_, rfl⟩⟩
  · exact ⟨marshaller.packetCoder, rfl, .inl rfl⟩

theorem marshal_receiving (mblock : MemoryBlock) (messageType : MessageType)
    (marshaller : SgpMarshaller κ) :
    coders.receiving (marshaller.marshal mblock messageType).marshaller.packetCoder =
      coders.receiving marshaller.packetCoder := by
  obtain ⟨coder, same, kept | ⟨header, encoded⟩⟩ := marshal_coder mblock messageType marshaller
  · rw [same, kept]
  · rw [same, encoded]
    exact coders.encode_receiving mblock header marshaller.packetCoder

/-- `marshal` adds a packet for a receiver that has taken the packets before it. -/
theorem marshal_decodes (sender : SgpMarshaller κ)
    (reachable : ∃ receiver, coders.receiving receiver = coders.sending sender.packetCoder)
    (outgoing : Outgoing coders.headerSize) (fits : coders.Fits outgoing) :
    ∃ mblock next, sender.marshal outgoing.mblock outgoing.messageType =
        { succeeded := true, mblock, marshaller := { sender with packetCoder := next } } ∧
      Decodes coders (coders.sending sender.packetCoder)
        { bytes := mblock.contents, message := outgoing.message } (coders.sending next) := by
  obtain ⟨receiver, expects⟩ := reachable
  obtain ⟨mblock, next, tail, _, marshals, contents, length, _⟩ :=
    coders.marshal_linked sender receiver outgoing ((coders.linked_keys _ _).mpr expects.symm)
  refine ⟨mblock, next, marshals, ?_⟩
  constructor
  · exact outgoing.typeValid
  · exact fits
  · exact ⟨tail, contents⟩
  · exact length
  · intro other otherExpects
    obtain ⟨again, after, _, decoded, sameMarshals, _, _, decodes, succeeded, body, linked⟩ :=
      coders.marshal_linked sender other outgoing ((coders.linked_keys _ _).mpr otherExpects.symm)
    rw [marshals] at sameMarshals
    cases sameMarshals
    exact ⟨decoded, decodes, succeeded, body, ((coders.linked_keys _ _).mp linked).symm⟩

section Consumer

variable {χ : Type} {callback : MarshallerCallback κ χ}

theorem decoded_step (leaves : LeavesCoder callback) {Marked : χ → Prop}
    (marks : MarksRefusal callback Marked)
    {keys next : coders.Keys} {packet : MarshalledPacket}
    (decodes : Decodes coders keys packet next) (receiver : κ)
    (expects : coders.receiving receiver = keys) (context : χ)
    (log : List (MessageType × List UInt8)) (more : List UInt8) :
    ∃ coder after, coders.receiving coder = next ∧
      (packetStep coders.headerSize (recorded callback) (receiver, context, log)
          (packet.bytes ++ more) =
            .take packet.bytes.length (coder, after, log ++ [coders.opened packet.message]) ∨
        packetStep coders.headerSize (recorded callback) (receiver, context, log)
          (packet.bytes ++ more) = .fail (coder, after, log ++ [coders.opened packet.message]) ∧
            Marked after) := by
  obtain ⟨tail, bytes⟩ := decodes.header
  obtain ⟨decoded, isDecoded, succeeded, body, expectsNext⟩ := decodes.decodes receiver expects
  have valid : CsPacketHeader.isValid
      { bodySize := UInt16.ofNat (padded coders.blockSize packet.message.2).length
        messageType := packet.message.1 } = true := by
    rw [CsPacketHeader.is_valid_eq]
    exact decodes.typeValid
  have whole := packet_step_whole coders.headerSize (recorded callback) (receiver, context, log)
    _ valid tail more (by
      rw [← bytes, decodes.size, UInt16.toNat_ofNat', Nat.mod_eq_of_lt]
      exact Nat.lt_succ_of_le decodes.fits)
  rw [← bytes] at whole
  obtain ⟨_, after, reply⟩ := leaves packet.message.1 decoded.coder
    (PacketCoder.advanceToBody decoded.coder decoded.mblock) context
  have refusal := marks packet.message.1
    (decoded.coder, PacketCoder.advanceToBody decoded.coder decoded.mblock, context)
  refine ⟨decoded.coder, after, expectsNext, ?_⟩
  rw [whole]
  simp only [deliver, isDecoded, succeeded, if_true, recorded, body]
  rcases reply with accepted | refused | ⟨e, failed⟩
  · rw [accepted]
    exact .inl rfl
  · rw [refused] at refusal ⊢
    exact .inr ⟨rfl, refusal rfl⟩
  · rw [failed] at refusal ⊢
    exact .inr ⟨rfl, refusal⟩

theorem partial_step {packet : MarshalledPacket} {keys next : coders.Keys}
    (plain : CsPacketHeader.getHeaderSize ≤ coders.headerSize)
    (decodes : Decodes coders keys packet next) (state : κ × χ) {available : List UInt8}
    (front : available <+: packet.bytes) (short : available.length < packet.bytes.length) :
    packetStep coders.headerSize callback state available = .wait := by
  obtain ⟨more, whole⟩ := front
  obtain ⟨tail, bytes⟩ := decodes.header
  by_cases headerArrived : available.length < coders.headerSize
  · simp only [packetStep, if_pos headerArrived]
  · have valid : CsPacketHeader.isValid
        { bodySize := UInt16.ofNat (padded coders.blockSize packet.message.2).length
          messageType := packet.message.1 } = true := by
      rw [CsPacketHeader.is_valid_eq]
      exact decodes.typeValid
    have found : CsPacketHeader.read available =
        { bodySize := UInt16.ofNat (padded coders.blockSize packet.message.2).length
          messageType := packet.message.1 } := by
      rw [← CsPacketHeader.read_append available more (by omega), whole, bytes]
      exact CsPacketHeader.read_write _ valid tail
    have bodySize : (UInt16.ofNat (padded coders.blockSize packet.message.2).length).toNat =
        (padded coders.blockSize packet.message.2).length := by
      rw [UInt16.toNat_ofNat', Nat.mod_eq_of_lt]
      exact Nat.lt_succ_of_le decodes.fits
    have size := decodes.size
    simp only [packetStep, if_neg headerArrived, found, bodySize]
    rw [if_pos (by omega)]

def Shown (coders : DuplexCoders κ) (packets : List MarshalledPacket)
    (log : List (MessageType × List UInt8)) (state : κ × χ × List (MessageType × List UInt8))
    (left : List MarshalledPacket) : Prop :=
  ∃ used, packets = used ++ left ∧
    state.2.2 = log ++ used.map fun packet => coders.opened packet.message

structure Expecting (packets : List MarshalledPacket) (last : coders.Keys)
    (log : List (MessageType × List UInt8)) (state : κ × χ × List (MessageType × List UInt8))
    (left : List MarshalledPacket) : Prop where
  shown : Shown coders packets log state left
  flight : PacketsInFlight coders (coders.receiving state.1) left last

theorem Shown.next {packets left : List MarshalledPacket} {packet : MarshalledPacket}
    {log : List (MessageType × List UInt8)} {state : κ × χ × List (MessageType × List UInt8)}
    (shown : Shown coders packets log state (packet :: left)) (coder : κ) (after : χ) :
    Shown coders packets log (coder, after, state.2.2 ++ [coders.opened packet.message]) left := by
  obtain ⟨used, split, logged⟩ := shown
  refine ⟨used ++ [packet], ?_, ?_⟩
  · rw [split, List.append_assoc, List.singleton_append]
  · rw [logged, List.map_append, List.append_assoc]
    rfl

theorem packets_are_frames (leaves : LeavesCoder callback) {Marked : χ → Prop}
    (marks : MarksRefusal callback Marked)
    (plain : CsPacketHeader.getHeaderSize ≤ coders.headerSize) (packets : List MarshalledPacket)
    (last : coders.Keys) (log : List (MessageType × List UInt8)) :
    Frames (packetConsumer coders.headerSize plain (recorded callback)) MarshalledPacket.bytes
      (Expecting packets last log)
      (fun state left => Shown coders packets log state left ∧ Marked state.2.1) := by
  constructor
  · intro state frames available expects short streamed
    change packetStep coders.headerSize (recorded callback) state available = .wait
    cases frames with
    | nil =>
        rw [List.map_nil, List.flatten_nil, List.prefix_nil] at streamed
        unfold CsPacketHeader.getHeaderSize at plain
        simp only [packetStep, streamed, List.length_nil]
        rw [if_pos (by omega)]
    | cons packet left =>
        have few := short packet rfl
        have front : available <+: packet.bytes :=
          List.prefix_of_prefix_length_le streamed (List.prefix_append _ _) (Nat.le_of_lt few)
        cases expects.flight with
        | cons decodes _ => exact partial_step plain decodes state front few
  · intro state packet left expects more
    cases expects.flight with
    | cons decodes flight =>
        obtain ⟨coder, after, expectsNext, verdict⟩ :=
          decoded_step leaves marks decodes state.1 rfl state.2.1 state.2.2 more
        rcases verdict with takes | ⟨fails, refused⟩
        · refine .inl ⟨_, takes, ?_⟩
          refine ⟨expects.shown.next coder after, ?_⟩
          rw [expectsNext]
          exact flight
        · exact .inr ⟨_, fails, expects.shown.next coder after, refused⟩

end Consumer

end Flight

def plainDuplex : DuplexCoders CsPacketCoder where
  toPairedCoders := plainPair
  Keys := Unit
  sending _ := ()
  receiving _ := ()
  linked_keys _ _ := ⟨fun _ => rfl, fun _ => trivial⟩
  encode_receiving _ _ _ := rfl
  decode_sending _ _ := rfl

section Secure

variable {suite : CipherSuite}

theorem secure_encode_decryptSource (mblock : MemoryBlock) (header : CsPacketHeader)
    (coder : SecurePacketCoder suite CsPacketCoder) :
    (coder.encode mblock header).coder.cipherKeyGenerator.decryptSource =
      coder.cipherKeyGenerator.decryptSource := by
  simp only [SecurePacketCoder.encode]
  split
  · rfl
  · split
    · exact CipherKeyGenerator.get_encrypt_decryptSource _
    · split <;> exact CipherKeyGenerator.get_encrypt_decryptSource _

theorem secure_decode_encryptSource (mblock : MemoryBlock)
    (coder : SecurePacketCoder suite CsPacketCoder) :
    (coder.decode mblock).coder.cipherKeyGenerator.encryptSource =
      coder.cipherKeyGenerator.encryptSource := by
  have component : PacketCoder.decode mblock coder.component =
      { succeeded := true, mblock, coder := coder.component } := rfl
  simp only [SecurePacketCoder.decode, component, if_true]
  split
  · exact CipherKeyGenerator.get_decrypt_encryptSource _
  · split <;> exact CipherKeyGenerator.get_decrypt_encryptSource _

/-- A direction of secure packets knows where its next keys come from. -/
def secureDuplex (lawful : suite.engine.Lawful) :
    DuplexCoders (SecurePacketCoder suite CsPacketCoder) where
  toPairedCoders := securePair lawful
  Keys := CipherKeyGenerator.KeySource suite.random
  sending coder := coder.cipherKeyGenerator.encryptSource
  receiving coder := coder.cipherKeyGenerator.decryptSource
  linked_keys _ _ := Iff.rfl
  encode_receiving := secure_encode_decryptSource
  decode_sending := secure_decode_encryptSource

end Secure

end Sne.Sgp
