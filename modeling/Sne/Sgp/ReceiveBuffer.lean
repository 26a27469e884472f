import Sne.Library.Runs
import Sne.Sgp.SgpMarshaller

/-!
# The receive buffer

`readMessage` makes room for a third of the capacity and reads behind what is unread,
and `parseMessage` moves the unread bytes to the base once the read position is past
three tenths. Neither looks at the other, but together they bound the block: what is
unread when `unmarshal` has finished is less than one packet, so a block of three times
a packet is never too small.
-/

namespace Sne.Sgp

open Sne.Base Sne.Core Sne.Library.Runs

set_option autoImplicit false

/-- A packet that is still incomplete is shorter. -/
def packetLimit (headerSize : Nat) : Nat := headerSize + 65535

namespace ReceiveBuffer

/-- The read position is where `crunch` leaves it. -/
def Settled (block : MemoryBlock) : Prop :=
  block.rdPtr = 0 ∨ block.rdPtr < (block.capacity * 3) / 10

theorem crunch_capacity {block : MemoryBlock} (valid : block.Valid) :
    block.crunch.capacity = block.capacity := by
  rcases MemoryBlock.crunch_cases valid with same | moved
  · rw [same]
  · have fits : block.contents.length ≤ block.buffer.length := by
      rw [MemoryBlock.contents, List.length_drop, List.length_take]
      omega
    rw [moved]
    simp only [MemoryBlock.capacity, MemoryBlock.store, List.take_zero, List.nil_append,
      List.length_append, List.length_drop, Nat.zero_add]
    omega

theorem crunch_settled {block : MemoryBlock} (valid : block.Valid) : Settled block.crunch := by
  have ordered := valid.ordered
  by_cases moves : block.rdPtr ≥ (block.capacity * 3) / 10
  · left
    simp only [MemoryBlock.crunch, if_pos moves, if_neg (Nat.not_lt.mpr ordered)]
  · right
    have same : block.crunch = block := by simp only [MemoryBlock.crunch, if_neg moves]
    rw [same]
    omega

theorem crunch_length {block : MemoryBlock} (valid : block.Valid) :
    block.crunch.length = block.length := by
  rw [← MemoryBlock.contents_length (MemoryBlock.crunch_valid valid), MemoryBlock.crunch_contents valid,
    MemoryBlock.contents_length valid]

structure Compact (capacity : Nat) (block : MemoryBlock) : Prop where
  valid : block.Valid
  settled : Settled block
  capacity : block.capacity = capacity

/-- A packet is taken from the block. -/
theorem Compact.take {capacity : Nat} {block : MemoryBlock} (compact : Compact capacity block)
    {messageSize : Nat} (enough : messageSize ≤ block.length) :
    Compact capacity (block.advanceRdPtr messageSize).crunch ∧
      (block.advanceRdPtr messageSize).crunch.length = block.length - messageSize := by
  have advanced := MemoryBlock.advance_rd_valid compact.valid enough
  refine ⟨⟨MemoryBlock.crunch_valid advanced, crunch_settled advanced, ?_⟩, ?_⟩
  · rw [crunch_capacity advanced]
    exact compact.capacity
  · rw [crunch_length advanced]
    simp only [MemoryBlock.length, MemoryBlock.advanceRdPtr]
    omega

theorem capacity_of_reserve (block : MemoryBlock) (neededSize : Nat) :
    (block.reserve neededSize).capacity = block.capacity + (neededSize - block.space) := by
  unfold MemoryBlock.reserve
  split
  · have grows : block.buffer.length ≤ block.capacity + (neededSize - block.space) :=
      Nat.le_add_right _ _
    have grown : (block.size (block.capacity + (neededSize - block.space))).buffer.length =
        block.capacity + (neededSize - block.space) := by
      rw [MemoryBlock.size_buffer_of_le grows, List.length_append, List.length_replicate]
      exact Nat.add_sub_cancel' grows
    exact grown
  · omega

/-- A block with less than `limit` bytes unread grows to three times as much at most. -/
theorem reserve_capacity {block : MemoryBlock} {limit : Nat} (valid : block.Valid)
    (settled : Settled block)
    (unread : block.length < limit) :
    (block.reserve (block.capacity / 3)).capacity ≤ max block.capacity (3 * limit) := by
  have ordered := valid.ordered
  have inside : block.wrPtr ≤ block.capacity := valid.inside
  rw [capacity_of_reserve]
  unfold MemoryBlock.length at unread
  unfold MemoryBlock.space
  cases settled with
  | inl base => omega
  | inr early => omega

theorem Settled.reserve {block : MemoryBlock} (settled : Settled block) (neededSize : Nat) :
    Settled (block.reserve neededSize) := by
  unfold Settled at settled ⊢
  rw [MemoryBlock.reserve_rdPtr, capacity_of_reserve]
  omega

theorem store_capacity {block : MemoryBlock} {offset : Nat} {bytes : List UInt8}
    (fits : offset + bytes.length ≤ block.capacity) :
    (block.store offset bytes).capacity = block.capacity := by
  unfold MemoryBlock.capacity at fits ⊢
  simp only [MemoryBlock.store, List.length_append, List.length_take, List.length_drop]
  omega

end ReceiveBuffer

namespace SgpMarshaller

open ReceiveBuffer

variable {κ χ : Type} [PacketCoder κ]

theorem parse_header_block (marshaller : SgpMarshaller κ) :
    marshaller.parseHeader.2.recvBlock = marshaller.recvBlock ∧
      marshaller.parseHeader.2.packetHeaderSize = marshaller.packetHeaderSize := by
  unfold parseHeader
  split <;> exact ⟨rfl, rfl⟩

theorem parse_message_block (marshaller : SgpMarshaller κ) :
    marshaller.parseMessage.2.recvBlock = (marshaller.recvBlock.advanceRdPtr
      (marshaller.packetHeaderSize + marshaller.headerForReceive.bodySize.toNat)).crunch ∧
      marshaller.parseMessage.2.packetHeaderSize = marshaller.packetHeaderSize := by
  unfold parseMessage
  dsimp only
  split <;> exact ⟨rfl, rfl⟩

/-- What a round of the loop does to the block, unless it fails: it stops short of a whole packet, or
takes one and goes on. -/
theorem unmarshal_round_cases (callback : MarshallerCallback κ χ) (fuel receivedMessageCount : Nat)
    (marshaller : SgpMarshaller κ) (context : χ)
    (succeeds :
      (unmarshalLoop callback (fuel + 1) receivedMessageCount marshaller context).succeeded = true) :
    (∃ stopped, (unmarshalLoop callback (fuel + 1) receivedMessageCount marshaller context).marshaller =
        stopped ∧ stopped.recvBlock = marshaller.recvBlock ∧
        stopped.packetHeaderSize = marshaller.packetHeaderSize ∧
        marshaller.recvBlock.length < packetLimit marshaller.packetHeaderSize) ∨
      ∃ messageSize next nextContext,
        unmarshalLoop callback (fuel + 1) receivedMessageCount marshaller context =
          unmarshalLoop callback fuel (receivedMessageCount + 1) next nextContext ∧
        marshaller.packetHeaderSize ≤ messageSize ∧ messageSize ≤ marshaller.recvBlock.length ∧
        next.recvBlock = (marshaller.recvBlock.advanceRdPtr messageSize).crunch ∧
        next.packetHeaderSize = marshaller.packetHeaderSize := by
  generalize result : unmarshalLoop callback (fuel + 1) receivedMessageCount marshaller context =
      unmarshalled
    at succeeds ⊢
  unfold unmarshalLoop at result
  split at result
  · rename_i missing
    subst result
    left
    have short : marshaller.recvBlock.length < marshaller.packetHeaderSize := by
      simpa [isPacketHeaderArrived] using missing
    exact ⟨_, rfl, rfl, rfl, Nat.lt_of_lt_of_le short (Nat.le_add_right _ _)⟩
  · rcases parse_header_block marshaller with ⟨sameBlock, sameSize⟩
    generalize marshaller.parseHeader = parsed at sameBlock sameSize result
    rcases parsed with ⟨headerParsed, parsed⟩
    dsimp only at sameBlock sameSize result
    split at result
    · subst result
      cases succeeds
    · split at result
      · rename_i missing
        subst result
        left
        have short : parsed.recvBlock.length <
            parsed.packetHeaderSize + parsed.headerForReceive.bodySize.toNat := by
          simpa [isMessageArrived] using missing
        have body := parsed.headerForReceive.bodySize.toNat_lt
        refine ⟨_, rfl, sameBlock, sameSize, ?_⟩
        rw [← sameBlock, ← sameSize, packetLimit]
        omega
      · rename_i whole
        right
        have fits : parsed.packetHeaderSize + parsed.headerForReceive.bodySize.toNat ≤
            parsed.recvBlock.length := by
          simpa [isMessageArrived] using whole
        rcases parse_message_block parsed with ⟨taken, stillSame⟩
        rw [sameBlock, sameSize] at fits taken
        generalize parsed.parseMessage = message at taken stillSame result
        rcases message with ⟨messageParsed, message⟩
        dsimp only at taken stillSame result
        split at result
        · subst result
          cases succeeds
        · split at result
          · exact ⟨_, _, _, result.symm, Nat.le_add_right _ _, fits, taken, stillSame.trans sameSize⟩
          · subst result
            cases succeeds
          · subst result
            cases succeeds

structure Drained (headerSize capacity : Nat) (marshaller : SgpMarshaller κ) : Prop where
  sameSize : marshaller.packetHeaderSize = headerSize
  compact : Compact capacity marshaller.recvBlock
  unread : marshaller.recvBlock.length < packetLimit headerSize

theorem unmarshal_loop_drains (callback : MarshallerCallback κ χ) {headerSize capacity : Nat}
    (positive : 0 < headerSize) (fuel receivedMessageCount : Nat) (marshaller : SgpMarshaller κ)
    (context : χ) (sameSize : marshaller.packetHeaderSize = headerSize)
    (compact : Compact capacity marshaller.recvBlock) (enough : marshaller.recvBlock.length < fuel)
    (succeeds : (unmarshalLoop callback fuel receivedMessageCount marshaller context).succeeded = true) :
    Drained headerSize capacity
      (unmarshalLoop callback fuel receivedMessageCount marshaller context).marshaller := by
  -- a round that goes on has taken at least a header from the block
  induction fuel generalizing receivedMessageCount marshaller context with
  | zero => exact absurd enough (Nat.not_lt_zero _)
  | succ fuel induction =>
      rcases unmarshal_round_cases callback fuel receivedMessageCount marshaller context succeeds with
        ⟨stopped, result, sameBlock, stillSame, short⟩ |
        ⟨messageSize, next, nextContext, result, header, fits, taken, stillSame⟩
      · rw [result]
        rw [sameSize] at stillSame short
        rw [← sameBlock] at compact short
        exact ⟨stillSame, compact, short⟩
      · rw [result] at succeeds ⊢
        rcases compact.take fits with ⟨rest, fewer⟩
        rw [← taken] at rest fewer
        apply induction _ _ _ (stillSame.trans sameSize) rest _ succeeds
        omega

/-- `TcpSessionImpl::readMessage`, up to the read that it posts. -/
def readMessage (marshaller : SgpMarshaller κ) : SgpMarshaller κ :=
  { marshaller with recvBlock := marshaller.recvBlock.reserve (marshaller.recvBlock.capacity / 3) }

/-- A read has stored its bytes, and `messageBlockReceived` moves the write position. -/
def bytesStored (chunk : List UInt8) (marshaller : SgpMarshaller κ) : SgpMarshaller κ :=
  { marshaller with
    recvBlock := (marshaller.recvBlock.store marshaller.recvBlock.wrPtr chunk).advanceWrPtr chunk.length }

end SgpMarshaller

/-- What was done last with the receive block. -/
inductive ReadPhase where
  | unmarshalled
  | posted
  | stored
  deriving DecidableEq, Repr

structure Receiver (κ χ : Type) where
  marshaller : SgpMarshaller κ
  context : χ
  phase : ReadPhase := .unmarshalled

namespace Receiver

open ReceiveBuffer

variable {κ χ : Type}

inductive Label (κ : Type) where
  | readMessage
  | bytesStored (chunk : List UInt8)
  | unmarshal
  | coderChanged (packetCoder : κ)

/-- A read stores at least a byte and at most what it offered. The session reads on only when `unmarshal`
has succeeded. What is sent in between changes the coder. -/
def advance [PacketCoder κ] (callback : MarshallerCallback κ χ) (receiver : Receiver κ χ) :
    Label κ → Option (Receiver κ χ)
  | .readMessage =>
      if receiver.phase = .unmarshalled then
        some { receiver with marshaller := receiver.marshaller.readMessage, phase := .posted }
      else
        none
  | .bytesStored chunk =>
      if receiver.phase = .posted ∧ 1 ≤ chunk.length ∧
          chunk.length ≤ receiver.marshaller.recvBlock.space then
        some { receiver with marshaller := receiver.marshaller.bytesStored chunk, phase := .stored }
      else
        none
  | .unmarshal =>
      let unmarshalled := receiver.marshaller.unmarshal callback receiver.context
      if receiver.phase = .stored ∧ unmarshalled.succeeded = true then
        some { marshaller := unmarshalled.marshaller, context := unmarshalled.context
               phase := .unmarshalled }
      else
        none
  | .coderChanged packetCoder =>
      some { receiver with marshaller := { receiver.marshaller with packetCoder } }

def Step [PacketCoder κ] (callback : MarshallerCallback κ χ) (receiver : Receiver κ χ) (label : Label κ)
    (next : Receiver κ χ) : Prop :=
  receiver.advance callback label = some next

def opened [PacketCoder κ] (packetCoder : κ) (recvBlock msgBlock : MemoryBlock) (context : χ) :
    Receiver κ χ :=
  { marshaller := .create packetCoder recvBlock msgBlock, context }

/-- The positions of the block are in order, a posted read offers room, less than a packet is unread
after `unmarshal`, and the block does not grow beyond three packets. -/
structure WithinBounds (headerSize initialCapacity : Nat) (receiver : Receiver κ χ) : Prop where
  ordered : receiver.marshaller.recvBlock.rdPtr ≤ receiver.marshaller.recvBlock.wrPtr
  inside : receiver.marshaller.recvBlock.wrPtr ≤ receiver.marshaller.recvBlock.capacity
  unread : receiver.phase = .unmarshalled →
    receiver.marshaller.recvBlock.length < headerSize + 65535
  offers : receiver.phase = .posted → 1 ≤ receiver.marshaller.recvBlock.space
  capacity : receiver.marshaller.recvBlock.capacity ≤ max initialCapacity (3 * (headerSize + 65535))

structure Bounded (headerSize initialCapacity : Nat) (receiver : Receiver κ χ) : Prop where
  sameSize : receiver.marshaller.packetHeaderSize = headerSize
  compact : Compact receiver.marshaller.recvBlock.capacity receiver.marshaller.recvBlock
  large : 3 ≤ receiver.marshaller.recvBlock.capacity
  within : WithinBounds headerSize initialCapacity receiver

theorem read_message_bounded {headerSize initialCapacity : Nat} {receiver : Receiver κ χ}
    (bounded : receiver.Bounded headerSize initialCapacity) (phase : receiver.phase = .unmarshalled) :
    { receiver with marshaller := receiver.marshaller.readMessage, phase := .posted }.Bounded
      headerSize initialCapacity := by
  have compact := bounded.compact
  have large := bounded.large
  have reserved := MemoryBlock.reserve_valid compact.valid (receiver.marshaller.recvBlock.capacity / 3)
  have room := MemoryBlock.reserve_space compact.valid (receiver.marshaller.recvBlock.capacity / 3)
  have grown := reserve_capacity compact.valid compact.settled (bounded.within.unread phase)
  have before := bounded.within.capacity
  constructor
  · exact bounded.sameSize
  · exact ⟨reserved, compact.settled.reserve _, rfl⟩
  · exact Nat.le_trans large (by rw [SgpMarshaller.readMessage, capacity_of_reserve]; omega)
  · exact
      { ordered := reserved.ordered
        inside := reserved.inside
        unread := fun unmarshalled => by cases unmarshalled
        offers := fun _ => Nat.le_trans (by omega) room
        capacity := Nat.le_trans grown (by omega) }

theorem bytes_stored_bounded {headerSize initialCapacity : Nat} {receiver : Receiver κ χ}
    {chunk : List UInt8} (bounded : receiver.Bounded headerSize initialCapacity)
    (room : chunk.length ≤ receiver.marshaller.recvBlock.space) :
    { receiver with marshaller := receiver.marshaller.bytesStored chunk, phase := .stored }.Bounded
      headerSize initialCapacity := by
  have ordered := bounded.within.ordered
  have inside := bounded.within.inside
  unfold MemoryBlock.space at room
  have fits : receiver.marshaller.recvBlock.wrPtr + chunk.length ≤
      receiver.marshaller.recvBlock.capacity := by omega
  have same : (receiver.marshaller.bytesStored chunk).recvBlock.capacity =
      receiver.marshaller.recvBlock.capacity := store_capacity fits
  have stillOrdered : (receiver.marshaller.bytesStored chunk).recvBlock.rdPtr ≤
      (receiver.marshaller.bytesStored chunk).recvBlock.wrPtr :=
    Nat.le_trans ordered (Nat.le_add_right _ _)
  have stillInside : (receiver.marshaller.bytesStored chunk).recvBlock.wrPtr ≤
      (receiver.marshaller.bytesStored chunk).recvBlock.capacity := by
    rw [same]
    exact fits
  constructor
  · exact bounded.sameSize
  · refine ⟨⟨stillOrdered, stillInside⟩, ?_, rfl⟩
    unfold Settled
    rw [same]
    exact bounded.compact.settled
  · rw [same]
    exact bounded.large
  · exact
      { ordered := stillOrdered
        inside := stillInside
        unread := fun unmarshalled => by cases unmarshalled
        offers := fun posted => by cases posted
        capacity := by
          rw [same]
          exact bounded.within.capacity }

section Runs

variable [PacketCoder κ] {callback : MarshallerCallback κ χ}

theorem unmarshal_bounded {headerSize initialCapacity : Nat} {receiver : Receiver κ χ}
    (positive : 0 < headerSize) (bounded : receiver.Bounded headerSize initialCapacity)
    (succeeds : (receiver.marshaller.unmarshal callback receiver.context).succeeded = true) :
    Receiver.Bounded headerSize initialCapacity
      { marshaller := (receiver.marshaller.unmarshal callback receiver.context).marshaller
        context := (receiver.marshaller.unmarshal callback receiver.context).context
        phase := .unmarshalled } := by
  have drained := SgpMarshaller.unmarshal_loop_drains callback positive
    (receiver.marshaller.recvBlock.length + 1) 0 receiver.marshaller receiver.context bounded.sameSize
    bounded.compact (Nat.lt_succ_self _) succeeds
  have same := drained.compact.capacity
  constructor
  · exact drained.sameSize
  · exact ⟨drained.compact.valid, drained.compact.settled, rfl⟩
  · exact Nat.le_trans bounded.large (Nat.le_of_eq same.symm)
  · exact
      { ordered := drained.compact.valid.ordered
        inside := drained.compact.valid.inside
        unread := fun _ => drained.unread
        offers := fun posted => by cases posted
        capacity := Nat.le_trans (Nat.le_of_eq same) bounded.within.capacity }

theorem Step.bounded {headerSize initialCapacity : Nat} {receiver next : Receiver κ χ} {label : Label κ}
    (positive : 0 < headerSize) (step : Step callback receiver label next)
    (bounded : receiver.Bounded headerSize initialCapacity) :
    next.Bounded headerSize initialCapacity := by
  unfold Step at step
  cases label with
  | readMessage =>
      simp only [advance] at step
      split at step
      · rename_i unmarshalled
        cases step
        exact read_message_bounded bounded unmarshalled
      · cases step
  | bytesStored chunk =>
      simp only [advance] at step
      split at step
      · rename_i posted
        cases step
        exact bytes_stored_bounded bounded posted.2.2
      · cases step
  | unmarshal =>
      simp only [advance] at step
      split at step
      · rename_i stored
        cases step
        exact unmarshal_bounded positive bounded stored.2
      · cases step
  | coderChanged packetCoder =>
      cases step
      exact ⟨bounded.sameSize, bounded.compact, bounded.large, { bounded.within with }⟩

theorem opened_bounded (packetCoder : κ) (recvBlock msgBlock : MemoryBlock) (context : χ)
    (large : 3 ≤ recvBlock.capacity) :
    (opened packetCoder recvBlock msgBlock context).Bounded (PacketCoder.getHeaderSize packetCoder)
      recvBlock.capacity := by
  constructor
  · rfl
  · exact ⟨MemoryBlock.reset_valid recvBlock, Or.inl rfl, rfl⟩
  · exact large
  · exact
      { ordered := Nat.le_refl 0
        inside := Nat.zero_le _
        unread := fun _ => Nat.lt_of_lt_of_le (by decide : 0 < 65535) (Nat.le_add_left _ _)
        offers := fun posted => by cases posted
        capacity := Nat.le_max_left _ _ }

end Runs

/-- The receive block stays within its bounds for as long as the connection lives. -/
theorem receive_buffer_within_bounds [PlainHeaderCoder κ] {callback : MarshallerCallback κ χ}
    {packetCoder : κ} {recvBlock msgBlock : MemoryBlock} {context : χ} {labels : List (Label κ)}
    {last : Receiver κ χ} (large : 3 ≤ recvBlock.capacity)
    (run : Run (Step callback) (opened packetCoder recvBlock msgBlock context) labels last) :
    last.WithinBounds (PacketCoder.getHeaderSize packetCoder) recvBlock.capacity := by
  have positive : 0 < PacketCoder.getHeaderSize packetCoder :=
    Nat.lt_of_lt_of_le (by decide) (PlainHeaderCoder.header_plain packetCoder)
  have bounded : last.Bounded (PacketCoder.getHeaderSize packetCoder) recvBlock.capacity := by
    apply run.invariant (fun _ receiver =>
      receiver.Bounded (PacketCoder.getHeaderSize packetCoder) recvBlock.capacity)
    · exact opened_bounded packetCoder recvBlock msgBlock context large
    · intro history receiver label next bounded step
      exact Step.bounded positive step bounded
  exact bounded.within

section Concrete

def twoReads : List (Label CsPacketCoder) :=
  [.readMessage, .bytesStored [3, 0, 5, 1, 2], .unmarshal, .readMessage, .bytesStored [3], .unmarshal]

theorem receive_buffer_within_bounds_grown :
    ∃ last, Run (Step acceptAll) (opened CsPacketCoder.mk (.create 5) (.create 5) ()) twoReads last ∧
      5 < last.marshaller.recvBlock.capacity ∧ last.WithinBounds CsPacketHeader.getHeaderSize 5 := by
  have executes : (execute (advance acceptAll) (opened CsPacketCoder.mk (.create 5) (.create 5) ())
      twoReads).map (fun last => decide (5 < last.marshaller.recvBlock.capacity)) = some true := by
    decide +kernel
  rcases Run.of_observed (Step acceptAll) (fun _ _ _ taken => taken) executes with ⟨last, run, grown⟩
  exact ⟨last, run, of_decide_eq_true grown, receive_buffer_within_bounds (by decide) run⟩

end Concrete

end Receiver

end Sne.Sgp
