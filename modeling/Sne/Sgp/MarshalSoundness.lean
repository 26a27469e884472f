import Mathlib.Data.List.Forall2
import Sne.Sgp.SecureRoundTrip

/-!
# What `marshal` promises

The body size of a header has 16 bits, and `marshal` does not check that the body,
padded for the cipher, fits: `getMaxPacketBodySize` is never asked. A sequence of
messages is delivered as it was sent exactly when every padded body is at most
65535 bytes long. The plain and the secure coder are two cases of one argument,
where the plain coder pads to blocks of one byte.
-/

namespace Sne.Sgp

open Sne.Base Sne.Security Sne.Library.Framing

set_option autoImplicit false

/-- What a sender and a receiver with a coder of this kind do for one packet. -/
structure PairedCoders (κ : Type) [PlainHeaderCoder κ] where
  headerSize : Nat
  blockSize : Nat
  block_positive : 0 < blockSize
  block_small : blockSize ≤ 65536
  same_headerSize : ∀ coder : κ, PacketCoder.getHeaderSize coder = headerSize
  linked : κ → κ → Prop
  marshal_linked : ∀ (sender : SgpMarshaller κ) (receiver : κ) (outgoing : Outgoing headerSize),
    linked sender.packetCoder receiver →
    ∃ mblock next tail decoded, sender.marshal outgoing.mblock outgoing.messageType =
        { succeeded := true, mblock, marshaller := { sender with packetCoder := next } } ∧
      mblock.contents = CsPacketHeader.write
        { bodySize := UInt16.ofNat (padded blockSize outgoing.body).length
          messageType := outgoing.messageType } ++ tail ∧
      mblock.contents.length = headerSize + (padded blockSize outgoing.body).length ∧
      PacketCoder.decode (packetBlock mblock.contents) receiver = decoded ∧
      decoded.succeeded = true ∧
      (PacketCoder.advanceToBody decoded.coder decoded.mblock).contents =
        padded blockSize outgoing.body ∧
      linked next decoded.coder
  decode_wrPtr : ∀ (mblock : MemoryBlock) (coder : κ),
    (PacketCoder.decode mblock coder).mblock.wrPtr = mblock.wrPtr

def AcceptsAll {κ χ : Type} (callback : MarshallerCallback κ χ) : Prop :=
  ∀ messageType coder mblock context, ∃ after next,
    callback messageType (coder, mblock, context) = .ok true (coder, after, next)

/-- The type as sent, and the body followed by fewer zeros than a block has bytes. -/
def Arrives {headerSize : Nat} (blockSize : Nat) (outgoing : Outgoing headerSize)
    (message : MessageType × List UInt8) : Prop :=
  message.1 = outgoing.messageType ∧
    ∃ zeros, zeros < blockSize ∧ message.2 = outgoing.body ++ List.replicate zeros 0

section Log

variable {κ χ : Type} [PacketCoder κ]

def outcomeContext {ι : Type} : Outcome (κ × χ) ι → χ
  | .more state _ => state.2
  | .failed state => state.2

theorem deliver_recorded {callback : MarshallerCallback κ χ} (accepts : AcceptsAll callback)
    (coder : κ) (context : χ) (log : List (MessageType × List UInt8)) (messageType : MessageType)
    (packet : List UInt8) (decoded : Decoded κ)
    (decodes : PacketCoder.decode (packetBlock packet) coder = decoded) :
    ∃ next, deliver (recorded callback) coder (context, log) messageType packet =
      if decoded.succeeded then
        .take packet.length (decoded.coder, next, log ++ [(messageType,
          (PacketCoder.advanceToBody decoded.coder decoded.mblock).contents)])
      else
        .fail (decoded.coder, context, log) := by
  obtain ⟨after, next, reply⟩ := accepts messageType decoded.coder
    (PacketCoder.advanceToBody decoded.coder decoded.mblock) context
  refine ⟨next, ?_⟩
  simp only [deliver, decodes, recorded, reply]

theorem drains_log {callback : MarshallerCallback κ χ} (accepts : AcceptsAll callback)
    {headerSize : Nat} (plain : CsPacketHeader.getHeaderSize ≤ headerSize)
    {state : κ × χ × List (MessageType × List UInt8)} {unread : List UInt8}
    {outcome : Outcome (κ × χ × List (MessageType × List UInt8)) UInt8}
    (drains : Drains (packetConsumer headerSize plain (recorded callback)) state unread outcome) :
    ∃ more, (outcomeContext outcome).2 = state.2.2 ++ more := by
  induction drains with
  | wait _ => exact ⟨[], by simp [outcomeContext]⟩
  | @fail state unread next fails =>
      change packetStep headerSize (recorded callback) state unread = .fail next at fails
      obtain ⟨_, step⟩ := packet_step_cases (by rw [fails]; simp)
      obtain ⟨after, verdict⟩ := deliver_recorded accepts state.1 state.2.1 state.2.2
        (CsPacketHeader.read unread).messageType
        (unread.take (headerSize + (CsPacketHeader.read unread).bodySize.toNat)) _ rfl
      rw [fails] at step
      rw [← step] at verdict
      split at verdict
      · cases verdict
      · cases verdict
        exact ⟨[], by simp [outcomeContext]⟩
  | @take state unread count next outcome takes _ induction =>
      change packetStep headerSize (recorded callback) state unread = .take count next at takes
      obtain ⟨_, step⟩ := packet_step_cases (by rw [takes]; simp)
      obtain ⟨after, verdict⟩ := deliver_recorded accepts state.1 state.2.1 state.2.2
        (CsPacketHeader.read unread).messageType
        (unread.take (headerSize + (CsPacketHeader.read unread).bodySize.toNat)) _ rfl
      rw [takes] at step
      rw [← step] at verdict
      obtain ⟨more, log⟩ := induction
      split at verdict
      · cases verdict
        exact ⟨_, by rw [log, List.append_assoc]⟩
      · cases verdict

end Log

section Paired

variable {κ χ : Type} [PlainHeaderCoder κ] (pair : PairedCoders κ)

def PairedCoders.Fits (outgoing : Outgoing pair.headerSize) : Prop :=
  (padded pair.blockSize outgoing.body).length ≤ 65535

/-- The packet of a body that fits is delivered with the padded body. -/
theorem fitting_step {callback : MarshallerCallback κ χ} (accepts : AcceptsAll callback)
    (sender : SgpMarshaller κ) (receiver : κ) (linked : pair.linked sender.packetCoder receiver)
    (outgoing : Outgoing pair.headerSize) (fits : pair.Fits outgoing) (context : χ)
    (log : List (MessageType × List UInt8)) :
    ∃ mblock next nextReceiver nextContext,
      sender.marshal outgoing.mblock outgoing.messageType =
        { succeeded := true, mblock, marshaller := { sender with packetCoder := next } } ∧
      (∀ rest, packetStep pair.headerSize (recorded callback) (receiver, context, log)
        (mblock.contents ++ rest) = .take mblock.contents.length (nextReceiver, nextContext,
          log ++ [(outgoing.messageType, padded pair.blockSize outgoing.body)])) ∧
      pair.linked next nextReceiver := by
  obtain ⟨mblock, next, tail, decoded, marshals, contents, length, decodes, succeeded, body, still⟩ :=
    pair.marshal_linked sender receiver outgoing linked
  obtain ⟨nextContext, verdict⟩ := deliver_recorded accepts receiver context log
    outgoing.messageType mblock.contents decoded decodes
  refine ⟨mblock, next, decoded.coder, nextContext, marshals, ?_, still⟩
  intro rest
  have valid : CsPacketHeader.isValid
      { bodySize := UInt16.ofNat (padded pair.blockSize outgoing.body).length
        messageType := outgoing.messageType } = true := by
    rw [CsPacketHeader.is_valid_eq]
    exact outgoing.typeValid
  have whole := packet_step_whole pair.headerSize (recorded callback) (receiver, context, log)
    _ valid tail rest (by
      rw [← contents, length, UInt16.toNat_ofNat', Nat.mod_eq_of_lt]
      exact Nat.lt_succ_of_le fits)
  rw [← contents] at whole
  rw [whole]
  simp only
  rw [verdict, succeeded, if_pos rfl, body]

/-- The body of a packet is never longer than the packet says. -/
theorem delivered_length (packet : List UInt8) (receiver : κ) (decoded : Decoded κ)
    (decodes : PacketCoder.decode (packetBlock packet) receiver = decoded) :
    (PacketCoder.advanceToBody decoded.coder decoded.mblock).contents.length ≤
      packet.length - pair.headerSize := by
  have wrPtr := pair.decode_wrPtr (packetBlock packet) receiver
  have start : (packetBlock packet).wrPtr = packet.length := rfl
  rw [decodes, start] at wrPtr
  simp only [PacketCoder.advanceToBody, MemoryBlock.setRdPtr, MemoryBlock.contents, wrPtr,
    pair.same_headerSize, List.length_drop, List.length_take]
  omega

/-- A body that does not fit is cut, if its packet is accepted at all. -/
theorem oversized_step {callback : MarshallerCallback κ χ} (accepts : AcceptsAll callback)
    (sender : SgpMarshaller κ) (receiver : κ) (linked : pair.linked sender.packetCoder receiver)
    (outgoing : Outgoing pair.headerSize) (oversized : ¬pair.Fits outgoing) (context : χ)
    (log : List (MessageType × List UInt8)) :
    ∃ mblock next, sender.marshal outgoing.mblock outgoing.messageType =
        { succeeded := true, mblock, marshaller := { sender with packetCoder := next } } ∧
      ∀ rest, (∃ state, packetStep pair.headerSize (recorded callback) (receiver, context, log)
          (mblock.contents ++ rest) = .fail (state, context, log)) ∨
        ∃ count state nextContext cut, cut.length < outgoing.body.length ∧
          packetStep pair.headerSize (recorded callback) (receiver, context, log)
            (mblock.contents ++ rest) =
              .take count (state, nextContext, log ++ [(outgoing.messageType, cut)]) := by
  obtain ⟨mblock, next, tail, _, marshals, contents, length, _, _, _, _⟩ :=
    pair.marshal_linked sender receiver outgoing linked
  refine ⟨mblock, next, marshals, ?_⟩
  intro rest
  have valid : CsPacketHeader.isValid
      { bodySize := UInt16.ofNat (padded pair.blockSize outgoing.body).length
        messageType := outgoing.messageType } = true := by
    rw [CsPacketHeader.is_valid_eq]
    exact outgoing.typeValid
  have found : CsPacketHeader.read (mblock.contents ++ rest) =
      { bodySize := UInt16.ofNat (padded pair.blockSize outgoing.body).length
        messageType := outgoing.messageType } := by
    rw [contents, List.append_assoc]
    exact CsPacketHeader.read_write _ valid _
  have size : (UInt16.ofNat (padded pair.blockSize outgoing.body).length).toNat =
      (padded pair.blockSize outgoing.body).length % 65536 := UInt16.toNat_ofNat'
  have small := fill_lt pair.block_positive outgoing.body.length
  have blockSmall := pair.block_small
  have paddedLength := padded_length pair.blockSize outgoing.body
  unfold PairedCoders.Fits at oversized
  have available : pair.headerSize + (padded pair.blockSize outgoing.body).length % 65536 ≤
      (mblock.contents ++ rest).length := by
    rw [List.length_append, length]
    omega
  have step : packetStep pair.headerSize (recorded callback) (receiver, context, log)
      (mblock.contents ++ rest) = deliver (recorded callback) receiver (context, log)
        outgoing.messageType ((mblock.contents ++ rest).take
          (pair.headerSize + (padded pair.blockSize outgoing.body).length % 65536)) := by
    simp only [packetStep, found, size]
    rw [if_neg (by omega), if_neg (by omega)]
  obtain ⟨nextContext, verdict⟩ := deliver_recorded accepts receiver context log
    outgoing.messageType _ _ rfl
  rw [step, verdict]
  split
  · right
    refine ⟨_, _, nextContext, _, ?_, rfl⟩
    have bound := delivered_length pair ((mblock.contents ++ rest).take
      (pair.headerSize + (padded pair.blockSize outgoing.body).length % 65536)) receiver _ rfl
    rw [List.length_take_of_le available] at bound
    omega
  · left
    exact ⟨_, rfl⟩

theorem marshal_messages_cons {sender : SgpMarshaller κ} {outgoing : Outgoing pair.headerSize}
    {rest : List (Outgoing pair.headerSize)} {mblock : MemoryBlock} {next : κ}
    (marshals : sender.marshal outgoing.mblock outgoing.messageType =
      { succeeded := true, mblock, marshaller := { sender with packetCoder := next } }) :
    (sender.marshalMessages (outgoing :: rest)).succeeded =
        (SgpMarshaller.marshalMessages rest { sender with packetCoder := next }).succeeded ∧
      (sender.marshalMessages (outgoing :: rest)).bytes = mblock.contents ++
        (SgpMarshaller.marshalMessages rest { sender with packetCoder := next }).bytes := by
  simp only [SgpMarshaller.marshalMessages, marshals, Bool.true_and, and_self]

theorem fitting_messages_drain {callback : MarshallerCallback κ χ} (accepts : AcceptsAll callback)
    (plain : CsPacketHeader.getHeaderSize ≤ pair.headerSize)
    (messages : List (Outgoing pair.headerSize)) (fits : ∀ outgoing ∈ messages, pair.Fits outgoing)
    (sender : SgpMarshaller κ) (receiver : κ) (linked : pair.linked sender.packetCoder receiver)
    (context : χ) (log : List (MessageType × List UInt8)) :
    ∃ last lastContext got, Drains (packetConsumer pair.headerSize plain (recorded callback))
        (receiver, context, log) (sender.marshalMessages messages).bytes
        (.more (last, lastContext, log ++ got) []) ∧
      List.Forall₂ (Arrives pair.blockSize) messages got := by
  induction messages generalizing sender receiver context log with
  | nil =>
      refine ⟨receiver, context, [], ?_, .nil⟩
      rw [List.append_nil]
      refine .wait ?_
      unfold CsPacketHeader.getHeaderSize at plain
      simp only [packetConsumer, packetStep, SgpMarshaller.marshalMessages, List.length_nil]
      rw [if_pos (by omega)]
  | cons outgoing rest induction =>
      obtain ⟨mblock, next, nextReceiver, nextContext, marshals, step, stillLinked⟩ :=
        fitting_step pair accepts sender receiver linked outgoing
          (fits outgoing (List.mem_cons_self ..)) context log
      obtain ⟨last, lastContext, got, drains, arrive⟩ := induction
        (fun other member => fits other (List.mem_cons_of_mem _ member))
        { sender with packetCoder := next } nextReceiver stillLinked nextContext
        (log ++ [(outgoing.messageType, padded pair.blockSize outgoing.body)])
      refine ⟨last, lastContext,
        (outgoing.messageType, padded pair.blockSize outgoing.body) :: got, ?_, .cons ?_ arrive⟩
      · rw [(marshal_messages_cons pair marshals).2]
        refine .take (step _) ?_
        rw [List.drop_left]
        rw [List.append_assoc, List.singleton_append] at drains
        exact drains
      · exact ⟨rfl, fill pair.blockSize outgoing.body.length,
          fill_lt pair.block_positive _, rfl⟩

theorem arriving_messages_fit {callback : MarshallerCallback κ χ} (accepts : AcceptsAll callback)
    (plain : CsPacketHeader.getHeaderSize ≤ pair.headerSize)
    (messages : List (Outgoing pair.headerSize)) (sender : SgpMarshaller κ) (receiver : κ)
    (linked : pair.linked sender.packetCoder receiver) (context : χ)
    (log got : List (MessageType × List UInt8))
    (outcome : Outcome (κ × χ × List (MessageType × List UInt8)) UInt8)
    (drains : Drains (packetConsumer pair.headerSize plain (recorded callback))
      (receiver, context, log) (sender.marshalMessages messages).bytes outcome)
    (logged : (outcomeContext outcome).2 = log ++ got)
    (arrive : List.Forall₂ (Arrives pair.blockSize) messages got) :
    ∀ outgoing ∈ messages, pair.Fits outgoing := by
  induction messages generalizing sender receiver context log got with
  | nil =>
      intro outgoing member
      cases member
  | cons outgoing rest induction =>
      cases arrive with
      | @cons _ message _ others arrives arrive =>
          have first : pair.Fits outgoing := by
            by_contra oversized
            obtain ⟨mblock, next, marshals, step⟩ :=
              oversized_step pair accepts sender receiver linked outgoing oversized context log
            rw [(marshal_messages_cons pair marshals).2] at drains
            rcases step (SgpMarshaller.marshalMessages rest
              { sender with packetCoder := next }).bytes with
              ⟨state, fails⟩ | ⟨count, state, nextContext, cut, shorter, takes⟩
            · cases drains.unique (.fail fails)
              have none := congrArg List.length logged
              simp [outcomeContext] at none
            · obtain ⟨more, extended⟩ := drains_log accepts plain (drains.after_take takes)
              rw [logged] at extended
              simp only [List.append_assoc, List.append_cancel_left_eq, List.singleton_append,
                List.cons.injEq] at extended
              obtain ⟨_, zeros, _, body⟩ := arrives
              have lengths := congrArg List.length body
              rw [extended.1, List.length_append] at lengths
              simp only at lengths
              omega
          intro other member
          rcases List.mem_cons.mp member with same | later
          · rw [same]
            exact first
          · obtain ⟨mblock, next, nextReceiver, nextContext, marshals, step, stillLinked⟩ :=
              fitting_step pair accepts sender receiver linked outgoing first context log
            rw [(marshal_messages_cons pair marshals).2] at drains
            have after := drains.after_take (step _)
            rw [List.drop_left] at after
            obtain ⟨more, extended⟩ := drains_log accepts plain after
            have tail := extended
            rw [logged] at tail
            simp only [List.append_assoc, List.append_cancel_left_eq, List.singleton_append,
              List.cons.injEq] at tail
            rw [← tail.2] at extended
            exact induction { sender with packetCoder := next } nextReceiver stillLinked nextContext
              _ others after extended arrive other later

theorem marshal_messages_succeed (messages : List (Outgoing pair.headerSize))
    (sender : SgpMarshaller κ) (receiver : κ) (linked : pair.linked sender.packetCoder receiver) :
    (sender.marshalMessages messages).succeeded = true := by
  induction messages generalizing sender receiver with
  | nil => rfl
  | cons outgoing rest induction =>
      obtain ⟨mblock, next, _, decoded, marshals, _, _, _, _, _, stillLinked⟩ :=
        pair.marshal_linked sender receiver outgoing linked
      rw [(marshal_messages_cons pair marshals).1]
      exact induction { sender with packetCoder := next } decoded.coder stillLinked

/-- `marshal` never refuses, and the messages arrive if and only if they fit. -/
theorem paired_delivery_iff {callback : MarshallerCallback κ χ} (accepts : AcceptsAll callback)
    (messages : List (Outgoing pair.headerSize)) (sender : SgpMarshaller κ) (receiver : κ)
    (linked : pair.linked sender.packetCoder receiver) (context : χ)
    (recvBlock msgBlock : MemoryBlock) (chunks : List (List UInt8))
    (same : chunks.flatten = (sender.marshalMessages messages).bytes) :
    (sender.marshalMessages messages).succeeded = true ∧
      (List.Forall₂ (Arrives pair.blockSize) messages
          ((SgpMarshaller.create receiver recvBlock msgBlock).receiveChunks (recorded callback)
            chunks (context, [])).context.2 ↔
        ∀ outgoing ∈ messages, pair.Fits outgoing) := by
  have plain := PlainHeaderCoder.header_plain receiver
  obtain ⟨outcome, drains, shows⟩ :=
    create_receives (recorded callback) chunks receiver (context, []) recvBlock msgBlock
  have logged : ((SgpMarshaller.create receiver recvBlock msgBlock).receiveChunks
      (recorded callback) chunks (context, [])).context = outcomeContext outcome := by
    cases outcome with
    | more state rest => exact shows.2.1
    | failed state => exact shows.2.1
  simp only [pair.same_headerSize] at plain drains
  rw [same] at drains
  refine ⟨marshal_messages_succeed pair messages sender receiver linked, ?_⟩
  rw [logged]
  constructor
  · intro arrive
    exact arriving_messages_fit pair accepts plain messages sender receiver linked context [] _
      outcome drains (List.nil_append _).symm arrive
  · intro fits
    obtain ⟨last, lastContext, got, fitting, arrive⟩ := fitting_messages_drain pair accepts plain
      messages fits sender receiver linked context []
    cases drains.unique fitting
    exact arrive

end Paired

theorem padded_one (body : List UInt8) : padded 1 body = body := by
  rw [padded, fill, Nat.mod_one, List.replicate_zero, List.append_nil]

def plainPair : PairedCoders CsPacketCoder where
  headerSize := CsPacketHeader.getHeaderSize
  blockSize := 1
  block_positive := by omega
  block_small := by omega
  same_headerSize _ := rfl
  linked _ _ := True
  marshal_linked sender receiver outgoing _ := by
    obtain ⟨mblock, marshals, contents⟩ := marshal_plain sender outgoing
    refine ⟨mblock, sender.packetCoder, outgoing.body, _, marshals, ?_, ?_, rfl, rfl, ?_, trivial⟩
    · rw [contents, padded_one]
      rfl
    · rw [contents, List.length_append, CsPacketHeader.write_length, padded_one]
    · rw [padded_one]
      change (PacketCoder.advanceToBody receiver (packetBlock mblock.contents)).contents = _
      rw [packet_body, contents]
      exact List.drop_left' (CsPacketHeader.write_length _)
  decode_wrPtr _ _ := rfl

section Secure

variable {suite : CipherSuite}

theorem secure_decode_wrPtr (mblock : MemoryBlock) (coder : SecurePacketCoder suite CsPacketCoder) :
    (coder.decode mblock).mblock.wrPtr = mblock.wrPtr := by
  have component : PacketCoder.decode mblock coder.component =
      { succeeded := true, mblock, coder := coder.component } := rfl
  simp only [SecurePacketCoder.decode, component, if_true]
  split
  · rfl
  · split
    · rfl
    · rfl

def securePair (lawful : suite.engine.Lawful) :
    PairedCoders (SecurePacketCoder suite CsPacketCoder) where
  headerSize := secureHeaderSize
  blockSize := suite.engine.blockSize
  block_positive := lawful.block_positive
  block_small := by
    rcases lawful.sizes with eight | sixteen <;> omega
  same_headerSize _ := rfl
  linked := InStep
  marshal_linked sender receiver outgoing inStep := by
    obtain ⟨mblock, cipher, encodes, contents⟩ := encode_secures lawful sender.packetCoder
      outgoing.toSendBlock { bodySize := PacketCoder.getBodySize sender.packetCoder outgoing.mblock
                             messageType := outgoing.messageType } outgoing.typeValid
    have sameKey : receiver.cipherKeyGenerator.decryptSource.key =
        sender.packetCoder.cipherKeyGenerator.encryptSource.key := by
      rw [inStep]
    obtain ⟨decryptCipher, decodes⟩ := decode_restores lawful receiver outgoing.messageType
      outgoing.body _ sameKey
    rw [← contents] at decodes
    have packetValid : PacketCoder.isValidPacket sender.packetCoder outgoing.mblock = true :=
      decide_eq_true outgoing.reserved
    refine ⟨mblock, { sender.packetCoder with
      cipherKeyGenerator := sender.packetCoder.cipherKeyGenerator.getEncryptCipherKey.2, cipher },
      _, _, ?_, contents, ?_, decodes, rfl, ?_, ?_⟩
    · have encoded : PacketCoder.encode outgoing.mblock
          { bodySize := PacketCoder.getBodySize sender.packetCoder outgoing.mblock
            messageType := outgoing.messageType } sender.packetCoder = _ := encodes
      simp only [SgpMarshaller.marshal, packetValid, if_true, encoded]
    · rw [contents, secure_packet_length lawful]
    · exact plain_packet_body _ _ _ _
    · exact inStep.advance _ _
  decode_wrPtr := secure_decode_wrPtr

end Secure

theorem arrives_one {headerSize : Nat} (outgoing : Outgoing headerSize)
    (message : MessageType × List UInt8) : Arrives 1 outgoing message ↔ message = outgoing.message := by
  constructor
  · rintro ⟨sameType, zeros, few, body⟩
    rw [Nat.lt_one_iff.mp few, List.replicate_zero, List.append_nil] at body
    exact Prod.ext sameType body
  · rintro rfl
    exact ⟨rfl, 0, by omega, by simp [Outgoing.message]⟩

theorem all_arrive_one {headerSize : Nat} (messages : List (Outgoing headerSize))
    (log : List (MessageType × List UInt8)) :
    List.Forall₂ (Arrives 1) messages log ↔ log = messages.map Outgoing.message := by
  induction messages generalizing log with
  | nil => exact List.forall₂_nil_left_iff
  | cons outgoing rest induction =>
      cases log with
      | nil =>
          constructor
          · intro arrive
            cases arrive
          · intro same
            cases same
      | cons message others =>
          rw [List.forall₂_cons, arrives_one, induction, List.map_cons, List.cons.injEq]

theorem plain_delivery_iff {χ : Type} {callback : MarshallerCallback CsPacketCoder χ}
    (accepts : AcceptsAll callback) (messages : List (Outgoing CsPacketHeader.getHeaderSize))
    (sender : SgpMarshaller CsPacketCoder) (receiver : CsPacketCoder) (context : χ)
    (recvBlock msgBlock : MemoryBlock) (chunks : List (List UInt8))
    (same : chunks.flatten = (sender.marshalMessages messages).bytes) :
    (sender.marshalMessages messages).succeeded = true ∧
      (((SgpMarshaller.create receiver recvBlock msgBlock).receiveChunks (recorded callback)
          chunks (context, [])).context.2 = messages.map Outgoing.message ↔
        ∀ outgoing ∈ messages, outgoing.body.length ≤ 65535) := by
  obtain ⟨succeeded, iff⟩ := paired_delivery_iff plainPair accepts messages sender receiver trivial
    context recvBlock msgBlock chunks same
  refine ⟨succeeded, ?_⟩
  rw [← all_arrive_one]
  refine iff.trans ?_
  simp only [PairedCoders.Fits, plainPair, padded_one]
  exact Iff.rfl

/-- With either coder, what `marshal` accepts is delivered as it was sent exactly when
every body, padded for the cipher, has a length of at most 16 bits. -/
theorem marshal_sound_iff_bodies_fit {χ : Type} (context : χ) (recvBlock msgBlock : MemoryBlock) :
    (∀ (callback : MarshallerCallback CsPacketCoder χ), AcceptsAll callback →
      ∀ (messages : List (Outgoing CsPacketHeader.getHeaderSize)) (sender : SgpMarshaller CsPacketCoder)
        (receiver : CsPacketCoder) (chunks : List (List UInt8)),
      chunks.flatten = (sender.marshalMessages messages).bytes →
      (((sender.marshalMessages messages).succeeded = true →
          ((SgpMarshaller.create receiver recvBlock msgBlock).receiveChunks (recorded callback)
            chunks (context, [])).context.2 = messages.map Outgoing.message) ↔
        ∀ outgoing ∈ messages, outgoing.body.length ≤ 65535)) ∧
    ∀ (suite : CipherSuite), suite.engine.Lawful →
      ∀ (callback : MarshallerCallback (SecurePacketCoder suite CsPacketCoder) χ), AcceptsAll callback →
      ∀ (messages : List (Outgoing secureHeaderSize))
        (sender : SgpMarshaller (SecurePacketCoder suite CsPacketCoder))
        (receiver : SecurePacketCoder suite CsPacketCoder), InStep sender.packetCoder receiver →
      ∀ (chunks : List (List UInt8)), chunks.flatten = (sender.marshalMessages messages).bytes →
      (((sender.marshalMessages messages).succeeded = true →
          List.Forall₂ (Arrives suite.engine.blockSize) messages
            ((SgpMarshaller.create receiver recvBlock msgBlock).receiveChunks (recorded callback)
              chunks (context, [])).context.2) ↔
        ∀ outgoing ∈ messages, (padded suite.engine.blockSize outgoing.body).length ≤ 65535) := by
  constructor
  · intro callback accepts messages sender receiver chunks same
    obtain ⟨succeeded, iff⟩ := plain_delivery_iff accepts messages sender receiver context recvBlock
      msgBlock chunks same
    rw [← iff]
    exact ⟨fun delivered => delivered succeeded, fun delivered _ => delivered⟩
  · intro suite lawful callback accepts messages sender receiver inStep chunks same
    obtain ⟨succeeded, iff⟩ := paired_delivery_iff (securePair lawful) accepts messages sender
      receiver inStep context recvBlock msgBlock chunks same
    refine Iff.trans ?_ iff
    exact ⟨fun delivered => delivered succeeded, fun delivered _ => delivered⟩

theorem accept_all_keeps {κ : Type} : AcceptsAll (acceptAll : MarshallerCallback κ Unit) :=
  fun _ _ mblock context => ⟨mblock, context, rfl⟩

def SgpMarshaller.outgoing {κ : Type} [PacketCoder κ] (marshaller : SgpMarshaller κ)
    (acquired : MemoryBlock)
    (roomy : PacketCoder.getHeaderSize marshaller.packetCoder ≤ acquired.capacity)
    (messageType : MessageType) (typeValid : isValidMessage messageType = true) (body : List UInt8) :
    Outgoing (PacketCoder.getHeaderSize marshaller.packetCoder) :=
  { toSendBlock := marshaller.sendBlock acquired roomy body, messageType, typeValid }

def plainSender : SgpMarshaller CsPacketCoder :=
  .create CsPacketCoder.mk (MemoryBlock.create 8) (MemoryBlock.create 8)

def plainMessage (body : List UInt8) : Outgoing CsPacketHeader.getHeaderSize :=
  plainSender.outgoing (MemoryBlock.create 8) (by decide) csmtRpc (by decide) body

theorem plain_message_body (body : List UInt8) : (plainMessage body).body = body :=
  plainSender.send_block_body (MemoryBlock.create 8) (by decide) body

def secureSender : SgpMarshaller (SecurePacketCoder teaSuite CsPacketCoder) :=
  .create (.create {} 1000 false) (MemoryBlock.create 16) (MemoryBlock.create 16)

def secureMessage (body : List UInt8) : Outgoing secureHeaderSize :=
  secureSender.outgoing (MemoryBlock.create 16) (by decide) csmtRpc (by decide) body

theorem secure_message_body (body : List UInt8) : (secureMessage body).body = body :=
  secureSender.send_block_body (MemoryBlock.create 16) (by decide) body

theorem marshal_sound_short_message :
    let plain := [plainMessage [1, 2, 3]]
    let secure := [secureMessage [1, 2, 3]]
    ((plainSender.marshalMessages plain).succeeded = true →
      ((SgpMarshaller.create plainSender.packetCoder (.create 8) (.create 8)).receiveChunks
        (recorded acceptAll) [(plainSender.marshalMessages plain).bytes] ((), [])).context.2 =
          plain.map Outgoing.message) ∧
    ((secureSender.marshalMessages secure).succeeded = true →
      List.Forall₂ (Arrives teaSuite.engine.blockSize) secure
        ((SgpMarshaller.create secureSender.packetCoder (.create 8) (.create 8)).receiveChunks
          (recorded acceptAll) [(secureSender.marshalMessages secure).bytes] ((), [])).context.2) := by
  intro plain secure
  have sound := marshal_sound_iff_bodies_fit () (.create 8) (.create 8)
  constructor
  · apply (sound.1 acceptAll accept_all_keeps plain plainSender plainSender.packetCoder
      [(plainSender.marshalMessages plain).bytes] (List.append_nil _)).mpr
    intro outgoing member
    rw [List.mem_singleton.mp member, plain_message_body]
    decide
  · apply (sound.2 teaSuite tea_suite_lawful acceptAll accept_all_keeps secure secureSender
      secureSender.packetCoder (CipherKeyGenerator.create_sources false)
      [(secureSender.marshalMessages secure).bytes] (List.append_nil _)).mpr
    intro outgoing member
    rw [List.mem_singleton.mp member, secure_message_body]
    decide

theorem oversized_not_delivered (sender : SgpMarshaller CsPacketCoder) (acquired : MemoryBlock)
    (roomy : PacketCoder.getHeaderSize sender.packetCoder ≤ acquired.capacity)
    (messageType : MessageType) (typeValid : isValidMessage messageType = true) (body : List UInt8)
    (oversized : 65535 < body.length) (recvBlock msgBlock : MemoryBlock) :
    (sender.marshalMessages [sender.outgoing acquired roomy messageType typeValid body]).succeeded =
        true ∧
      ((SgpMarshaller.create sender.packetCoder recvBlock msgBlock).receiveChunks (recorded acceptAll)
        [(sender.marshalMessages [sender.outgoing acquired roomy messageType typeValid body]).bytes]
        ((), [])).context.2 ≠ [(messageType, body)] := by
  have sameBody : (sender.outgoing acquired roomy messageType typeValid body).body = body :=
    sender.send_block_body acquired roomy body
  obtain ⟨succeeded, iff⟩ := plain_delivery_iff accept_all_keeps
    [sender.outgoing acquired roomy messageType typeValid body] sender sender.packetCoder () recvBlock
    msgBlock [(sender.marshalMessages [sender.outgoing acquired roomy messageType typeValid body]).bytes]
    (by simp)
  refine ⟨succeeded, fun delivered => ?_⟩
  have message : [sender.outgoing acquired roomy messageType typeValid body].map Outgoing.message =
      [(messageType, body)] := by
    rw [List.map_cons, List.map_nil, Outgoing.message, sameBody]
    rfl
  rw [message] at iff
  have fits := iff.mp delivered _ (List.mem_cons_self ..)
  rw [sameBody] at fits
  omega

/-- A body of 65536 bytes is accepted by `marshal` and announced with the size 0. -/
theorem body_of_65536_bytes_not_delivered :
    let body := List.replicate 65536 (0 : UInt8)
    (plainSender.marshalMessages [plainMessage body]).succeeded = true ∧
      ((SgpMarshaller.create plainSender.packetCoder (.create 8) (.create 8)).receiveChunks
        (recorded acceptAll) [(plainSender.marshalMessages [plainMessage body]).bytes]
        ((), [])).context.2 ≠ [(csmtRpc, body)] := by
  intro body
  have oversized : 65535 < body.length := by
    rw [List.length_replicate]
    omega
  clear_value body
  exact oversized_not_delivered plainSender (.create 8) (by decide) csmtRpc (by decide) body oversized
    (.create 8) (.create 8)

end Sne.Sgp
