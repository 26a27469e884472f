import Sne.Library.Framing
import Sne.Sgp.SgpMarshaller

/-!
# Framing of packets

What `unmarshal` does is an incremental consumer of the received bytes: its
verdict depends on the unread bytes, the coder and the callback only. The receive
block, its compaction and the header that is kept between two calls are an
implementation of it. The messages delivered and a failure are therefore the same
for every way in which the bytes are cut into chunks.
-/

namespace Sne.Sgp

open Sne.Base Sne.Core Sne.Library.Framing

set_option autoImplicit false

def packetBlock (packet : List UInt8) : MemoryBlock :=
  { buffer := packet, rdPtr := 0, wrPtr := packet.length }

section Consumer

variable {κ χ : Type} [PacketCoder κ]

theorem packet_body (coder : κ) (packet : List UInt8) :
    (PacketCoder.advanceToBody coder (packetBlock packet)).contents =
      packet.drop (PacketCoder.getHeaderSize coder) := by
  simp [PacketCoder.advanceToBody, MemoryBlock.setRdPtr, packetBlock, MemoryBlock.contents]

/-- A complete packet is decoded and handed to the callback. -/
def deliver (callback : MarshallerCallback κ χ) (coder : κ) (context : χ) (messageType : MessageType)
    (packet : List UInt8) : Verdict (κ × χ) :=
  let decoded := PacketCoder.decode (packetBlock packet) coder
  if decoded.succeeded then
    match callback messageType
      (decoded.coder, PacketCoder.advanceToBody decoded.coder decoded.mblock, context) with
    | .ok true (coder, _, context) => .take packet.length (coder, context)
    | .ok false (coder, _, context) => .fail (coder, context)
    | .error _ (coder, _, context) => .fail (coder, context)
  else
    .fail (decoded.coder, context)

def packetStep (headerSize : Nat) (callback : MarshallerCallback κ χ) (state : κ × χ)
    (unread : List UInt8) : Verdict (κ × χ) :=
  if unread.length < headerSize then
    .wait
  else
    let header := CsPacketHeader.read unread
    let messageSize := headerSize + header.bodySize.toNat
    if unread.length < messageSize then
      .wait
    else
      deliver callback state.1 state.2 header.messageType (unread.take messageSize)

theorem deliver_take_count {callback : MarshallerCallback κ χ} {coder : κ} {context : χ}
    {messageType : MessageType} {packet : List UInt8} {count : Nat} {next : κ × χ}
    (takes : deliver callback coder context messageType packet = .take count next) :
    count = packet.length := by
  simp only [deliver] at takes
  split at takes
  · split at takes
    · cases takes
      rfl
    · cases takes
    · cases takes
  · cases takes

theorem packet_step_cases {headerSize : Nat} {callback : MarshallerCallback κ χ} {state : κ × χ}
    {unread : List UInt8} (decided : packetStep headerSize callback state unread ≠ .wait) :
    headerSize + (CsPacketHeader.read unread).bodySize.toNat ≤ unread.length ∧
      packetStep headerSize callback state unread =
        deliver callback state.1 state.2 (CsPacketHeader.read unread).messageType
          (unread.take (headerSize + (CsPacketHeader.read unread).bodySize.toNat)) := by
  by_cases short : unread.length < headerSize
  · exact absurd (if_pos short) decided
  · by_cases partly : unread.length < headerSize + (CsPacketHeader.read unread).bodySize.toNat
    · refine absurd ?_ decided
      simp only [packetStep, if_neg short, if_pos partly]
    · refine ⟨by omega, ?_⟩
      simp only [packetStep, if_neg short, if_neg partly]

theorem packet_step_append {headerSize : Nat} (plain : CsPacketHeader.getHeaderSize ≤ headerSize)
    {callback : MarshallerCallback κ χ} {state : κ × χ} {unread : List UInt8}
    (decided : packetStep headerSize callback state unread ≠ .wait) (more : List UInt8) :
    packetStep headerSize callback state (unread ++ more) =
      packetStep headerSize callback state unread := by
  obtain ⟨whole, step⟩ := packet_step_cases decided
  have sameHeader : CsPacketHeader.read (unread ++ more) = CsPacketHeader.read unread :=
    CsPacketHeader.read_append unread more (by omega)
  have long : ¬(unread ++ more).length < headerSize := by
    rw [List.length_append]
    omega
  have complete : ¬(unread ++ more).length <
      headerSize + (CsPacketHeader.read unread).bodySize.toNat := by
    rw [List.length_append]
    omega
  rw [step]
  simp only [packetStep, if_neg long, sameHeader, if_neg complete]
  rw [List.take_append_of_le_length whole]

def packetConsumer (headerSize : Nat) (plain : CsPacketHeader.getHeaderSize ≤ headerSize)
    (callback : MarshallerCallback κ χ) : Consumer (κ × χ) UInt8 where
  step := packetStep headerSize callback
  take_bounds := by
    intro state items count next takes
    obtain ⟨whole, step⟩ := packet_step_cases (by rw [takes]; simp)
    rw [step] at takes
    rw [deliver_take_count takes, List.length_take, Nat.min_eq_left whole]
    unfold CsPacketHeader.getHeaderSize at plain
    omega
  take_stable := by
    intro state items count next takes more
    rw [packet_step_append plain (by rw [takes]; simp), takes]
  fail_stable := by
    intro state items next fails more
    rw [packet_step_append plain (by rw [fails]; simp), fails]

end Consumer

section Refinement

variable {κ χ : Type}

/-- The marshaller has the bytes `unread` left. A header that it keeps is the
header of these bytes. -/
structure Mirrors (headerSize : Nat) (marshaller : SgpMarshaller κ) (coder : κ)
    (unread : List UInt8) : Prop where
  sameHeaderSize : marshaller.packetHeaderSize = headerSize
  sameCoder : marshaller.packetCoder = coder
  valid : marshaller.recvBlock.Valid
  contents : marshaller.recvBlock.contents = unread
  kept : marshaller.headerForReceive = .empty ∨
    headerSize ≤ unread.length ∧ marshaller.headerForReceive = CsPacketHeader.read unread

def Shows (headerSize : Nat) (result : Unmarshalled κ χ) : Outcome (κ × χ) UInt8 → Prop
  | .more state rest => result.succeeded = true ∧ result.context = state.2 ∧
      Mirrors headerSize result.marshaller state.1 rest
  | .failed state => result.succeeded = false ∧ result.context = state.2 ∧
      result.marshaller.packetCoder = state.1

theorem Mirrors.length {headerSize : Nat} {marshaller : SgpMarshaller κ} {coder : κ}
    {unread : List UInt8} (mirrors : Mirrors headerSize marshaller coder unread) :
    marshaller.recvBlock.length = unread.length := by
  rw [← MemoryBlock.contents_length mirrors.valid, mirrors.contents]

theorem Mirrors.front {headerSize : Nat} {marshaller : SgpMarshaller κ} {coder : κ}
    {unread : List UInt8} (mirrors : Mirrors headerSize marshaller coder unread) {count : Nat}
    (enough : count ≤ unread.length) :
    (marshaller.recvBlock.buffer.drop marshaller.recvBlock.rdPtr).take count =
      unread.take count := by
  rw [← mirrors.contents, MemoryBlock.contents_eq_take_drop, List.take_take,
    Nat.min_eq_left (by rw [mirrors.length]; exact enough)]

def consumed (messageSize : Nat) (recvBlock : MemoryBlock) : MemoryBlock :=
  (recvBlock.advanceRdPtr messageSize).crunch

theorem consumed_mirrors {headerSize : Nat} {marshaller : SgpMarshaller κ} {coder : κ}
    {unread : List UInt8} (mirrors : Mirrors headerSize marshaller coder unread) {count : Nat}
    (enough : count ≤ unread.length) (next : κ) (msgBlock : MemoryBlock) :
    Mirrors headerSize { marshaller with
      recvBlock := consumed count marshaller.recvBlock
      msgBlock
      packetCoder := next
      headerForReceive := .empty } next (unread.drop count) := by
  have moved := MemoryBlock.advance_rd_valid (n := count) mirrors.valid
    (by rw [mirrors.length]; exact enough)
  constructor
  · exact mirrors.sameHeaderSize
  · rfl
  · exact MemoryBlock.crunch_valid moved
  · simp only [consumed]
    rw [MemoryBlock.crunch_contents moved, MemoryBlock.advance_rd_contents, mirrors.contents]
  · exact Or.inl rfl

theorem receive_mirrors {headerSize : Nat} (plain : CsPacketHeader.getHeaderSize ≤ headerSize)
    {marshaller : SgpMarshaller κ} {coder : κ} {unread : List UInt8}
    (mirrors : Mirrors headerSize marshaller coder unread) (chunk : List UInt8) :
    Mirrors headerSize (marshaller.receive chunk) coder (unread ++ chunk) := by
  have reserved := MemoryBlock.reserve_valid mirrors.valid (marshaller.recvBlock.capacity / 3)
  constructor
  · exact mirrors.sameHeaderSize
  · exact mirrors.sameCoder
  · exact MemoryBlock.copy_from_valid reserved chunk
  · simp only [SgpMarshaller.receive]
    rw [MemoryBlock.copy_from_contents reserved, MemoryBlock.reserve_contents mirrors.valid,
      mirrors.contents]
  · rcases mirrors.kept with fresh | ⟨arrived, kept⟩
    · exact Or.inl fresh
    · refine Or.inr ⟨by rw [List.length_append]; omega, ?_⟩
      rw [CsPacketHeader.read_append unread chunk (by omega)]
      exact kept

variable [PlainHeaderCoder κ]

theorem parse_header_reads {headerSize : Nat} (plain : CsPacketHeader.getHeaderSize ≤ headerSize)
    {marshaller : SgpMarshaller κ} {coder : κ} {unread : List UInt8}
    (mirrors : Mirrors headerSize marshaller coder unread) (arrived : headerSize ≤ unread.length) :
    marshaller.parseHeader =
      (true, { marshaller with headerForReceive := CsPacketHeader.read unread }) := by
  rcases mirrors.kept with fresh | ⟨_, kept⟩
  · have notValid : marshaller.headerForReceive.isValid = false := by
      rw [fresh]
      exact CsPacketHeader.empty_not_valid
    have length := mirrors.length
    have reads := PlainHeaderCoder.readHeader_reads marshaller.headerForReceive
      marshaller.recvBlock marshaller.packetCoder (by omega)
    have sameHeader : CsPacketHeader.read
        (marshaller.recvBlock.buffer.drop marshaller.recvBlock.rdPtr) =
          CsPacketHeader.read unread := by
      rw [← mirrors.contents, MemoryBlock.contents_eq_take_drop]
      exact (CsPacketHeader.read_take _ _ (by omega)).symm
    simp only [SgpMarshaller.parseHeader, notValid, Bool.false_eq_true, if_false, reads, sameHeader]
  · have isValid : marshaller.headerForReceive.isValid = true := by
      rw [kept]
      exact CsPacketHeader.read_valid unread
    simp only [SgpMarshaller.parseHeader, isValid, if_true, ← kept]

/-- The message block is overwritten whole, so that nothing of an earlier message
is left in it. -/
theorem packet_block_copied (msgBlock : MemoryBlock) (packet : List UInt8) :
    (msgBlock.reset.size packet.length).copyFrom packet = packetBlock packet := by
  have capacity : (msgBlock.reset.size packet.length).buffer.length = packet.length := by
    simp only [MemoryBlock.size, List.length_append, List.length_take, List.length_replicate]
    omega
  have room : ¬(msgBlock.reset.size packet.length).space < packet.length := by
    rw [MemoryBlock.space, MemoryBlock.capacity, capacity]
    simp [MemoryBlock.size, MemoryBlock.reset]
  have reserved : (msgBlock.reset.size packet.length).reserve packet.length =
      msgBlock.reset.size packet.length := by
    rw [MemoryBlock.reserve, if_neg room]
  have atBase : (msgBlock.reset.size packet.length).wrPtr = 0 := rfl
  have none : (msgBlock.reset.size packet.length).buffer.drop packet.length = [] :=
    List.drop_of_length_le (Nat.le_of_eq capacity)
  simp only [MemoryBlock.copyFrom, reserved, MemoryBlock.store, MemoryBlock.advanceWrPtr, atBase,
    List.take_zero, List.nil_append, Nat.zero_add, none, List.append_nil, packetBlock]
  rfl

theorem parse_message_takes {headerSize : Nat} {marshaller : SgpMarshaller κ} {coder : κ}
    {unread : List UInt8} (mirrors : Mirrors headerSize marshaller coder unread)
    (header : marshaller.headerForReceive = CsPacketHeader.read unread)
    (whole : headerSize + (CsPacketHeader.read unread).bodySize.toNat ≤ unread.length)
    (decoded : Decoded κ)
    (decodes : PacketCoder.decode (packetBlock
      (unread.take (headerSize + (CsPacketHeader.read unread).bodySize.toNat))) coder = decoded) :
    marshaller.parseMessage = (decoded.succeeded, { marshaller with
      recvBlock := consumed (headerSize + (CsPacketHeader.read unread).bodySize.toNat)
        marshaller.recvBlock
      msgBlock := if decoded.succeeded then PacketCoder.advanceToBody decoded.coder decoded.mblock
        else decoded.mblock
      packetCoder := decoded.coder }) := by
  have packet := mirrors.front whole
  have size : (unread.take (headerSize + (CsPacketHeader.read unread).bodySize.toNat)).length =
      headerSize + (CsPacketHeader.read unread).bodySize.toNat := List.length_take_of_le whole
  have copied := packet_block_copied marshaller.msgBlock
    (unread.take (headerSize + (CsPacketHeader.read unread).bodySize.toNat))
  rw [size] at copied
  have messageValid : isValidMessage (CsPacketHeader.read unread).messageType = true := by
    rw [← CsPacketHeader.is_valid_eq]
    exact CsPacketHeader.read_valid unread
  simp only [SgpMarshaller.parseMessage, header, mirrors.sameHeaderSize, packet, copied,
    mirrors.sameCoder, decodes, messageValid]
  cases decoded.succeeded with
  | true => rfl
  | false => rfl

theorem unmarshal_round_waits {headerSize : Nat}
    (plain : CsPacketHeader.getHeaderSize ≤ headerSize) (callback : MarshallerCallback κ χ)
    (fuel received : Nat) {marshaller : SgpMarshaller κ} {coder : κ} (context : χ)
    {unread : List UInt8} (mirrors : Mirrors headerSize marshaller coder unread)
    (short : headerSize ≤ unread.length →
      unread.length < headerSize + (CsPacketHeader.read unread).bodySize.toNat) :
    Drains (packetConsumer headerSize plain callback) (coder, context) unread
        (.more (coder, context) unread) ∧
      Shows headerSize (marshaller.unmarshalLoop callback (fuel + 1) received context)
        (.more (coder, context) unread) := by
  have length := mirrors.length
  have sameHeaderSize := mirrors.sameHeaderSize
  by_cases arrived : headerSize ≤ unread.length
  · have body := short arrived
    have headerArrived : marshaller.isPacketHeaderArrived = true := by
      simp only [SgpMarshaller.isPacketHeaderArrived, decide_eq_true_eq]
      omega
    have parsed := parse_header_reads plain mirrors arrived
    have messageWaits : SgpMarshaller.isMessageArrived
        { marshaller with headerForReceive := CsPacketHeader.read unread } = false := by
      simp only [SgpMarshaller.isMessageArrived, decide_eq_false_iff_not]
      omega
    constructor
    · apply Drains.wait
      simp only [packetConsumer, packetStep, if_neg (Nat.not_lt.mpr arrived), if_pos body]
    · simp only [SgpMarshaller.unmarshalLoop, headerArrived, parsed, messageWaits]
      exact ⟨rfl, rfl, sameHeaderSize, mirrors.sameCoder, mirrors.valid, mirrors.contents,
        Or.inr ⟨arrived, rfl⟩⟩
  · have headerWaits : marshaller.isPacketHeaderArrived = false := by
      simp only [SgpMarshaller.isPacketHeaderArrived, decide_eq_false_iff_not]
      omega
    constructor
    · apply Drains.wait
      simp only [packetConsumer, packetStep, if_pos (Nat.lt_of_not_le arrived)]
    · simp only [SgpMarshaller.unmarshalLoop, headerWaits]
      exact ⟨rfl, rfl, mirrors⟩

theorem unmarshal_round_delivers {headerSize : Nat}
    (plain : CsPacketHeader.getHeaderSize ≤ headerSize) (callback : MarshallerCallback κ χ)
    (fuel received : Nat) {marshaller : SgpMarshaller κ} {coder : κ} (context : χ)
    {unread : List UInt8} (mirrors : Mirrors headerSize marshaller coder unread)
    (arrived : headerSize ≤ unread.length)
    (whole : headerSize + (CsPacketHeader.read unread).bodySize.toNat ≤ unread.length) :
    (∃ state, packetStep headerSize callback (coder, context) unread = .fail state ∧
      Shows headerSize (marshaller.unmarshalLoop callback (fuel + 1) received context)
        (.failed state)) ∨
    (∃ next msgBlock nextContext,
      packetStep headerSize callback (coder, context) unread =
        .take (headerSize + (CsPacketHeader.read unread).bodySize.toNat) (next, nextContext) ∧
      marshaller.unmarshalLoop callback (fuel + 1) received context =
        SgpMarshaller.unmarshalLoop callback fuel (received + 1)
          { marshaller with
            recvBlock := consumed (headerSize + (CsPacketHeader.read unread).bodySize.toNat)
              marshaller.recvBlock
            msgBlock
            packetCoder := next
            headerForReceive := .empty } nextContext) := by
  have length := mirrors.length
  have sameHeaderSize := mirrors.sameHeaderSize
  have headerArrived : marshaller.isPacketHeaderArrived = true := by
    simp only [SgpMarshaller.isPacketHeaderArrived, decide_eq_true_eq]
    omega
  have parsed := parse_header_reads plain mirrors arrived
  have kept : Mirrors headerSize
      { marshaller with headerForReceive := CsPacketHeader.read unread } coder unread :=
    ⟨sameHeaderSize, mirrors.sameCoder, mirrors.valid, mirrors.contents, Or.inr ⟨arrived, rfl⟩⟩
  have messageArrived : SgpMarshaller.isMessageArrived
      { marshaller with headerForReceive := CsPacketHeader.read unread } = true := by
    simp only [SgpMarshaller.isMessageArrived, decide_eq_true_eq]
    omega
  have step : packetStep headerSize callback (coder, context) unread =
      deliver callback coder context (CsPacketHeader.read unread).messageType
        (unread.take (headerSize + (CsPacketHeader.read unread).bodySize.toNat)) := by
    simp only [packetStep, if_neg (Nat.not_lt.mpr arrived), if_neg (Nat.not_lt.mpr whole)]
  have size : (unread.take (headerSize + (CsPacketHeader.read unread).bodySize.toNat)).length =
      headerSize + (CsPacketHeader.read unread).bodySize.toNat := List.length_take_of_le whole
  cases decodes : PacketCoder.decode (packetBlock (unread.take
      (headerSize + (CsPacketHeader.read unread).bodySize.toNat))) coder with
  | mk succeeded mblock decodedCoder =>
      have taken := parse_message_takes kept rfl whole _ decodes
      rw [step]
      cases succeeded with
      | false =>
          refine .inl ⟨(decodedCoder, context), ?_, ?_⟩
          · simp only [deliver, decodes, Bool.false_eq_true, if_false]
          · simp only [SgpMarshaller.unmarshalLoop, headerArrived, parsed, messageArrived, taken]
            exact ⟨rfl, rfl, rfl⟩
      | true =>
          cases reply : callback (CsPacketHeader.read unread).messageType
            (decodedCoder, PacketCoder.advanceToBody decodedCoder mblock, context) with
          | ok accepted after =>
              cases accepted with
              | true =>
                  refine .inr ⟨after.1, after.2.1, after.2.2, ?_, ?_⟩
                  · simp only [deliver, decodes, if_true, reply, size]
                  · simp only [SgpMarshaller.unmarshalLoop, headerArrived, parsed, messageArrived,
                      taken, Bool.not_true, Bool.false_eq_true, if_false, if_true, reply]
              | false =>
                  refine .inl ⟨(after.1, after.2.2), ?_, ?_⟩
                  · simp only [deliver, decodes, if_true, reply]
                  · simp only [SgpMarshaller.unmarshalLoop, headerArrived, parsed, messageArrived,
                      taken, Bool.not_true, Bool.false_eq_true, if_false, if_true, reply]
                    exact ⟨rfl, rfl, rfl⟩
          | error _ after =>
              refine .inl ⟨(after.1, after.2.2), ?_, ?_⟩
              · simp only [deliver, decodes, if_true, reply]
              · simp only [SgpMarshaller.unmarshalLoop, headerArrived, parsed, messageArrived,
                  taken, Bool.not_true, Bool.false_eq_true, if_false, if_true, reply]
                exact ⟨rfl, rfl, rfl⟩

theorem unmarshal_loop_shows {headerSize : Nat}
    (plain : CsPacketHeader.getHeaderSize ≤ headerSize) (callback : MarshallerCallback κ χ)
    (fuel received : Nat) (marshaller : SgpMarshaller κ) (coder : κ) (context : χ)
    (unread : List UInt8) (mirrors : Mirrors headerSize marshaller coder unread)
    (enough : unread.length < fuel) :
    ∃ outcome, Drains (packetConsumer headerSize plain callback) (coder, context) unread outcome ∧
      Shows headerSize (marshaller.unmarshalLoop callback fuel received context) outcome := by
  induction fuel generalizing received marshaller coder context unread with
  | zero => omega
  | succ fuel induction =>
      by_cases arrived : headerSize ≤ unread.length
      · by_cases whole : headerSize + (CsPacketHeader.read unread).bodySize.toNat ≤ unread.length
        · rcases unmarshal_round_delivers plain callback fuel received context mirrors arrived whole
            with ⟨state, fails, shows⟩ | ⟨next, msgBlock, nextContext, takes, goesOn⟩
          · exact ⟨.failed state, .fail fails, shows⟩
          · have shorter : (unread.drop
                (headerSize + (CsPacketHeader.read unread).bodySize.toNat)).length < fuel := by
              unfold CsPacketHeader.getHeaderSize at plain
              rw [List.length_drop]
              omega
            obtain ⟨outcome, drains, shows⟩ := induction (received + 1) _ next nextContext _
              (consumed_mirrors mirrors whole next msgBlock) shorter
            refine ⟨outcome, .take takes drains, ?_⟩
            rw [goesOn]
            exact shows
        · exact ⟨_, unmarshal_round_waits plain callback fuel received context mirrors
            (fun _ => Nat.lt_of_not_le whole)⟩
      · exact ⟨_, unmarshal_round_waits plain callback fuel received context mirrors
          (fun present => absurd present arrived)⟩

theorem receive_chunks_shows {headerSize : Nat}
    (plain : CsPacketHeader.getHeaderSize ≤ headerSize) (callback : MarshallerCallback κ χ)
    (chunks : List (List UInt8)) (marshaller : SgpMarshaller κ) (coder : κ) (context : χ)
    (unread : List UInt8) (mirrors : Mirrors headerSize marshaller coder unread) :
    ∃ outcome, Feeds (packetConsumer headerSize plain callback) (.more (coder, context) unread)
        chunks outcome ∧
      Shows headerSize (marshaller.receiveChunks callback chunks context) outcome := by
  induction chunks generalizing marshaller coder context unread with
  | nil => exact ⟨_, .done, rfl, rfl, mirrors⟩
  | cons chunk chunks induction =>
      have received := receive_mirrors plain mirrors chunk
      obtain ⟨middle, drains, shows⟩ := unmarshal_loop_shows plain callback
        ((marshaller.receive chunk).recvBlock.length + 1) 0 (marshaller.receive chunk) coder context
        (unread ++ chunk) received (by rw [received.length]; omega)
      cases middle with
      | more state rest =>
          obtain ⟨succeeded, sameContext, stillMirrors⟩ := shows
          obtain ⟨outcome, feeds, later⟩ := induction _ state.1 state.2 rest stillMirrors
          refine ⟨outcome, .chunk drains feeds, ?_⟩
          simp only [SgpMarshaller.receiveChunks, SgpMarshaller.unmarshal, succeeded, if_true,
            sameContext]
          exact later
      | failed state =>
          obtain ⟨failed, sameContext, sameCoder⟩ := shows
          refine ⟨.failed state, .chunk drains .stopped, ?_⟩
          simp only [SgpMarshaller.receiveChunks, SgpMarshaller.unmarshal, failed,
            Bool.false_eq_true, if_false]
          exact ⟨failed, sameContext, sameCoder⟩

theorem create_mirrors (coder : κ) (recvBlock msgBlock : MemoryBlock) :
    Mirrors (PacketCoder.getHeaderSize coder) (SgpMarshaller.create coder recvBlock msgBlock) coder
      [] :=
  ⟨rfl, rfl, MemoryBlock.reset_valid recvBlock, MemoryBlock.reset_contents recvBlock, Or.inl rfl⟩

theorem create_receives (callback : MarshallerCallback κ χ) (chunks : List (List UInt8)) (coder : κ)
    (context : χ) (recvBlock msgBlock : MemoryBlock) :
    ∃ outcome, Drains (packetConsumer (PacketCoder.getHeaderSize coder)
        (PlainHeaderCoder.header_plain coder) callback) (coder, context) chunks.flatten outcome ∧
      Shows (PacketCoder.getHeaderSize coder)
        ((SgpMarshaller.create coder recvBlock msgBlock).receiveChunks callback chunks context)
        outcome := by
  have plain := PlainHeaderCoder.header_plain coder
  obtain ⟨outcome, feeds, shows⟩ := receive_chunks_shows plain callback chunks _ coder context []
    (create_mirrors coder recvBlock msgBlock)
  have waits : (packetConsumer (PacketCoder.getHeaderSize coder) plain callback).step
      (coder, context) [] = .wait := by
    simp only [packetConsumer, packetStep, List.length_nil]
    unfold CsPacketHeader.getHeaderSize at plain
    rw [if_pos (by omega)]
  exact ⟨outcome, by simpa using feeds.drains waits, shows⟩

/-- The messages delivered and a failure depend on the received bytes only, for
any coder and any callback. -/
theorem receive_chunks_independent (callback : MarshallerCallback κ χ)
    (left right : List (List UInt8)) (same : left.flatten = right.flatten) (coder : κ) (context : χ)
    (recvBlock msgBlock : MemoryBlock) :
    ∀ first second, first = (SgpMarshaller.create coder recvBlock msgBlock).receiveChunks
        (recorded callback) left (context, []) →
      second = (SgpMarshaller.create coder recvBlock msgBlock).receiveChunks
        (recorded callback) right (context, []) →
      first.succeeded = second.succeeded ∧ first.context = second.context ∧
        first.marshaller.packetCoder = second.marshaller.packetCoder := by
  rintro first second rfl rfl
  obtain ⟨outcome, leftDrains, leftShows⟩ := create_receives (recorded callback) left coder
    (context, []) recvBlock msgBlock
  obtain ⟨other, rightDrains, rightShows⟩ := create_receives (recorded callback) right coder
    (context, []) recvBlock msgBlock
  rw [same] at leftDrains
  cases leftDrains.unique rightDrains
  cases outcome with
  | more state rest =>
      obtain ⟨leftOk, leftContext, leftMirrors⟩ := leftShows
      obtain ⟨rightOk, rightContext, rightMirrors⟩ := rightShows
      rw [leftOk, rightOk, leftContext, rightContext, leftMirrors.sameCoder, rightMirrors.sameCoder]
      exact ⟨rfl, rfl, rfl⟩
  | failed state =>
      obtain ⟨leftFailed, leftContext, leftCoder⟩ := leftShows
      obtain ⟨rightFailed, rightContext, rightCoder⟩ := rightShows
      rw [leftFailed, rightFailed, leftContext, rightContext, leftCoder, rightCoder]
      exact ⟨rfl, rfl, rfl⟩

end Refinement

theorem packet_step_whole {κ χ : Type} [PacketCoder κ] (headerSize : Nat)
    (callback : MarshallerCallback κ χ) (state : κ × χ) (header : CsPacketHeader)
    (valid : header.isValid = true)
    (tail rest : List UInt8)
    (size : (header.write ++ tail).length = headerSize + header.bodySize.toNat) :
    packetStep headerSize callback state (header.write ++ tail ++ rest) =
      deliver callback state.1 state.2 header.messageType (header.write ++ tail) := by
  have found : CsPacketHeader.read (header.write ++ tail ++ rest) = header := by
    rw [List.append_assoc]
    exact CsPacketHeader.read_write header valid (tail ++ rest)
  have long : ¬(header.write ++ tail ++ rest).length < headerSize := by
    rw [List.length_append]
    omega
  have whole : ¬(header.write ++ tail ++ rest).length < headerSize + header.bodySize.toNat := by
    rw [List.length_append]
    omega
  simp only [packetStep, if_neg long, found, if_neg whole]
  rw [← size, List.take_left']
  rfl

section Plain

variable {χ : Type}

def plainHeader (outgoing : Outgoing CsPacketHeader.getHeaderSize) : CsPacketHeader :=
  { bodySize := UInt16.ofNat outgoing.body.length, messageType := outgoing.messageType }

theorem plain_header_valid (outgoing : Outgoing CsPacketHeader.getHeaderSize) :
    (plainHeader outgoing).isValid = true := by
  rw [CsPacketHeader.is_valid_eq]
  exact outgoing.typeValid

theorem marshal_plain (marshaller : SgpMarshaller CsPacketCoder)
    (outgoing : Outgoing CsPacketHeader.getHeaderSize) :
    ∃ mblock, marshaller.marshal outgoing.mblock outgoing.messageType =
        { succeeded := true, mblock, marshaller } ∧
      mblock.contents = (plainHeader outgoing).write ++ outgoing.body := by
  have length := outgoing.toSendBlock.length_eq
  have packetValid : PacketCoder.isValidPacket marshaller.packetCoder outgoing.mblock = true :=
    decide_eq_true outgoing.reserved
  have bodySize : PacketCoder.getBodySize marshaller.packetCoder outgoing.mblock =
      UInt16.ofNat outgoing.body.length := by
    change UInt16.ofNat (outgoing.mblock.length - CsPacketHeader.getHeaderSize) = _
    rw [length, Nat.add_sub_cancel_left]
  refine ⟨outgoing.mblock.store 0 (plainHeader outgoing).write, ?_,
    (outgoing.toSendBlock.store_contents _ (CsPacketHeader.write_length _)).2⟩
  have headerValid := plain_header_valid outgoing
  have encodes : PacketCoder.encode outgoing.mblock (plainHeader outgoing) marshaller.packetCoder =
      { succeeded := true, mblock := outgoing.mblock.store 0 (plainHeader outgoing).write,
        header := plainHeader outgoing, coder := marshaller.packetCoder } := by
    change PacketCoder.encodeImpl _ _ _ _ = _
    simp only [PacketCoder.encodeImpl, headerValid, Bool.true_and, decide_eq_true_eq, ge_iff_le,
      outgoing.reserved, if_true]
  simp only [SgpMarshaller.marshal, packetValid, if_true, bodySize]
  rw [plainHeader] at encodes
  rw [encodes]
  rfl

theorem plain_step (callback : MarshallerCallback CsPacketCoder χ) (accepts : Accepts callback)
    (outgoing : Outgoing CsPacketHeader.getHeaderSize) (small : outgoing.body.length ≤ 65535)
    (coder : CsPacketCoder) (context : χ) (log : List (MessageType × List UInt8))
    (rest : List UInt8) :
    ∃ next nextContext, packetStep CsPacketHeader.getHeaderSize (recorded callback)
        (coder, context, log) ((plainHeader outgoing).write ++ outgoing.body ++ rest) =
      .take ((plainHeader outgoing).write ++ outgoing.body).length
        (next, nextContext, log ++ [outgoing.message]) := by
  have bodySize : (plainHeader outgoing).bodySize.toNat = outgoing.body.length := by
    simp only [plainHeader, UInt16.toNat_ofNat']
    omega
  have whole := packet_step_whole CsPacketHeader.getHeaderSize (recorded callback)
    (coder, context, log) (plainHeader outgoing) (plain_header_valid outgoing) outgoing.body rest
    (by rw [List.length_append, CsPacketHeader.write_length, bodySize])
  have body : (PacketCoder.advanceToBody coder
      (packetBlock ((plainHeader outgoing).write ++ outgoing.body))).contents = outgoing.body := by
    rw [packet_body]
    exact List.drop_left' (CsPacketHeader.write_length _)
  obtain ⟨⟨next, mblock, nextContext⟩, reply⟩ := accepts outgoing.messageType
    (coder, PacketCoder.advanceToBody coder
      (packetBlock ((plainHeader outgoing).write ++ outgoing.body)), context)
  refine ⟨next, nextContext, ?_⟩
  rw [whole]
  have decodes : PacketCoder.decode
      (packetBlock ((plainHeader outgoing).write ++ outgoing.body)) coder =
        { succeeded := true, mblock := packetBlock ((plainHeader outgoing).write ++ outgoing.body),
          coder } := rfl
  have sameType : (plainHeader outgoing).messageType = outgoing.messageType := rfl
  simp only [deliver, decodes, if_true, recorded, sameType, reply, body]
  rfl

theorem plain_messages_drain (callback : MarshallerCallback CsPacketCoder χ)
    (accepts : Accepts callback) (messages : List (Outgoing CsPacketHeader.getHeaderSize))
    (small : ∀ outgoing ∈ messages, outgoing.body.length ≤ 65535)
    (sender : SgpMarshaller CsPacketCoder) (coder : CsPacketCoder) (context : χ)
    (log : List (MessageType × List UInt8)) :
    (sender.marshalMessages messages).succeeded = true ∧
      ∃ last lastContext, Drains (packetConsumer CsPacketHeader.getHeaderSize (Nat.le_refl _)
        (recorded callback)) (coder, context, log) (sender.marshalMessages messages).bytes
        (.more (last, lastContext, log ++ messages.map Outgoing.message) []) := by
  induction messages generalizing sender coder context log with
  | nil =>
      refine ⟨rfl, coder, context, ?_⟩
      rw [List.map_nil, List.append_nil]
      exact .wait rfl
  | cons outgoing rest induction =>
      obtain ⟨mblock, marshals, contents⟩ := marshal_plain sender outgoing
      obtain ⟨next, nextContext, step⟩ := plain_step callback accepts outgoing
        (small outgoing (List.mem_cons_self ..)) coder context log (sender.marshalMessages rest).bytes
      obtain ⟨restSucceeded, last, lastContext, drains⟩ := induction
        (fun other member => small other (List.mem_cons_of_mem _ member)) sender next nextContext
        (log ++ [outgoing.message])
      have bytes : (sender.marshalMessages (outgoing :: rest)).bytes =
          (plainHeader outgoing).write ++ outgoing.body ++ (sender.marshalMessages rest).bytes := by
        simp only [SgpMarshaller.marshalMessages, marshals, contents]
      refine ⟨by simp only [SgpMarshaller.marshalMessages, marshals, restSucceeded, Bool.and_self],
        last, lastContext, ?_⟩
      rw [bytes]
      refine .take step ?_
      rw [List.drop_left]
      rw [List.append_assoc, List.singleton_append] at drains
      exact drains

/-- Messages that are marshalled with the plain coder arrive whole, in order and
once each, however their bytes are cut; and for any coder, callback and bytes, the
messages delivered and a failure do not depend on the cuts. -/
theorem framing_independent_of_chunks :
    (∀ (callback : MarshallerCallback CsPacketCoder χ), Accepts callback →
      ∀ (messages : List (Outgoing CsPacketHeader.getHeaderSize)),
      (∀ outgoing ∈ messages, outgoing.body.length ≤ 65535) →
      ∀ (sender : SgpMarshaller CsPacketCoder) (coder : CsPacketCoder) (context : χ)
        (recvBlock msgBlock : MemoryBlock) (chunks : List (List UInt8)),
      chunks.flatten = (sender.marshalMessages messages).bytes →
      (sender.marshalMessages messages).succeeded = true ∧
      ∃ received, received = (SgpMarshaller.create coder recvBlock msgBlock).receiveChunks
          (recorded callback) chunks (context, []) ∧
        received.succeeded = true ∧
        received.context.2 = messages.map Outgoing.message ∧
        received.marshaller.recvBlock.length = 0 ∧
        received.marshaller.headerForReceive = .empty) ∧
    ∀ {κ : Type} [PlainHeaderCoder κ] (callback : MarshallerCallback κ χ)
      (left right : List (List UInt8)), left.flatten = right.flatten →
      ∀ (coder : κ) (context : χ) (recvBlock msgBlock : MemoryBlock) (first second : _),
      first = (SgpMarshaller.create coder recvBlock msgBlock).receiveChunks
        (recorded callback) left (context, []) →
      second = (SgpMarshaller.create coder recvBlock msgBlock).receiveChunks
        (recorded callback) right (context, []) →
      first.succeeded = second.succeeded ∧ first.context.2 = second.context.2 := by
  constructor
  · intro callback accepts messages small sender coder context recvBlock msgBlock chunks same
    obtain ⟨succeeded, last, lastContext, drains⟩ :=
      plain_messages_drain callback accepts messages small sender coder context []
    obtain ⟨outcome, receives, shows⟩ := create_receives (recorded callback) chunks coder
      (context, []) recvBlock msgBlock
    rw [same] at receives
    cases drains.unique receives
    obtain ⟨received, sameContext, mirrors⟩ := shows
    refine ⟨succeeded, _, rfl, received, ?_, ?_, ?_⟩
    · rw [sameContext, List.nil_append]
    · rw [mirrors.length]
      rfl
    · rcases mirrors.kept with fresh | ⟨arrived, _⟩
      · exact fresh
      · cases arrived
  · intro κ _ callback left right same coder context recvBlock msgBlock first second isFirst isSecond
    obtain ⟨sameSuccess, sameContext, _⟩ := receive_chunks_independent callback left right same coder
      context recvBlock msgBlock first second isFirst isSecond
    exact ⟨sameSuccess, by rw [sameContext]⟩

end Plain

theorem framing_of_two_messages :
    let sender := SgpMarshaller.create CsPacketCoder.mk (MemoryBlock.create 8) (MemoryBlock.create 8)
    let messages : List (Outgoing CsPacketHeader.getHeaderSize) := [
      { toSendBlock := sender.sendBlock (MemoryBlock.create 8) (by decide) [7, 8]
        messageType := csmtRpc
        typeValid := by decide },
      { toSendBlock := sender.sendBlock (MemoryBlock.create 4) (by decide) []
        messageType := csmtSystemHeartbeat
        typeValid := by decide }]
    let chunks : List (List UInt8) := [[2], [0, 21, 7, 8, 0], [0, 0]]
    chunks.flatten = (sender.marshalMessages messages).bytes ∧
    messages.map Outgoing.message = [(csmtRpc, [7, 8]), (csmtSystemHeartbeat, [])] ∧
    (∃ received, received = sender.receiveChunks (recorded acceptAll) chunks ((), []) ∧
      received.succeeded = true ∧
      received.context.2 = messages.map Outgoing.message ∧
      received.marshaller.recvBlock.length = 0 ∧
      received.marshaller.headerForReceive = .empty) ∧
    (sender.receiveChunks (recorded acceptAll) chunks ((), [])).context.2 =
      (sender.receiveChunks (recorded acceptAll) [chunks.flatten] ((), [])).context.2 := by
  intro sender messages chunks
  have small : ∀ outgoing ∈ messages, outgoing.body.length ≤ 65535 := by
    decide
  have bytes : chunks.flatten = (sender.marshalMessages messages).bytes := by
    decide
  obtain ⟨_, received, isReceived, succeeded, delivered, empty, fresh⟩ :=
    framing_independent_of_chunks.1 acceptAll accept_all_accepts messages small sender
      CsPacketCoder.mk () (MemoryBlock.create 8) (MemoryBlock.create 8) chunks bytes
  obtain ⟨_, together⟩ := framing_independent_of_chunks.2 acceptAll chunks [chunks.flatten]
    (by simp) CsPacketCoder.mk () (MemoryBlock.create 8) (MemoryBlock.create 8)
    (sender.receiveChunks (recorded acceptAll) chunks ((), []))
    (sender.receiveChunks (recorded acceptAll) [chunks.flatten] ((), [])) rfl rfl
  have bodies : messages.map Outgoing.message = [(csmtRpc, [7, 8]), (csmtSystemHeartbeat, [])] := by
    decide
  exact ⟨bytes, bodies, ⟨received, isReceived, succeeded, delivered, empty, fresh⟩, together⟩

end Sne.Sgp
