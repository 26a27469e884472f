import Sne.Core.BitPacking
import Sne.Core.ByteStream

/-!
# Byte-sized data on both streams

The bit stream assembles a value by shifts, the byte stream copies it from memory.
For data of whole bytes both write the same bytes, so that two sides with different
streams understand each other.
-/

namespace Sne.Core

open Sne.Library.Exec Sne.Library.Bits Sne.Library.Codec Sne.Library.Endian

set_option autoImplicit false

inductive EnumSize where
  | one
  | two
  | four
  | eight
  deriving DecidableEq, Repr

def EnumSize.bytes : EnumSize → Nat
  | one => 1
  | two => 2
  | four => 4
  | eight => 8

/-- A value that takes whole bytes. A raw buffer has a length that fits its size, and a
string a maximal length that fits the 16 bits of its size field. -/
inductive ByteItem where
  | uint64 (value : UInt64)
  | uint32 (value : UInt32)
  | uint16 (value : UInt16)
  | uint8 (value : UInt8)
  | int64 (value : Int64)
  | int32 (value : Int32)
  | int16 (value : Int16)
  | int8 (value : Int8)
  | float32 (pattern : UInt32)
  | enum (size : EnumSize) (value : UInt64)
  | buffer (bytes : List UInt8) (short : bytes.length ≤ ushrtMax)
  | string (value : List UInt8) (maxLength : Nat) (short : maxLength ≤ ushrtMax)

namespace ByteItem

def write {σ : Type} [OStream σ] : ByteItem → StreamM σ Unit
  | uint64 value => OStream.writeUInt64 value 64
  | uint32 value => OStream.writeUInt32 value 32
  | uint16 value => OStream.writeUInt16 value 16
  | uint8 value => OStream.writeUInt8 value 8
  | int64 value => OStream.writeInt64 value 64
  | int32 value => OStream.writeInt32 value 32
  | int16 value => OStream.writeInt16 value 16
  | int8 value => OStream.writeInt8 value 8
  | float32 pattern => OStream.writeFloat32 pattern 32
  | enum size value => OStream.writeEnum value (8 * size.bytes)
  | buffer bytes _ => OStream.writeBuffer bytes (UInt16.ofNat bytes.length)
  | string value maxLength _ => OStream.writeString value maxLength 16

def bytes : ByteItem → List UInt8
  | uint64 value => littleEndian 8 value.toNat
  | uint32 value => littleEndian 4 value.toNat
  | uint16 value => littleEndian 2 value.toNat
  | uint8 value => [value]
  | int64 value => littleEndian 8 value.toUInt64.toNat
  | int32 value => littleEndian 4 value.toUInt32.toNat
  | int16 value => littleEndian 2 value.toUInt16.toNat
  | int8 value => [value.toUInt8]
  | float32 pattern => littleEndian 4 pattern.toNat
  | enum size value => littleEndian size.bytes value.toNat
  | buffer bytes _ => bytes
  | string value maxLength _ =>
      littleEndian 2 (min value.length maxLength) ++ value.take (min value.length maxLength)

end ByteItem

theorem little_endian_bits (count value : Nat) :
    bytesBits (littleEndian count value) = lowBits (8 * count) value := by
  induction count generalizing value with
  | zero => rfl
  | succ count induction =>
      have first : byteBits (UInt8.ofNat value) = lowBits 8 value := by
        rw [byteBits, UInt8.toNat_ofNat', low_bits_mod]
      rw [littleEndian, bytes_bits_cons, first, induction, Nat.mul_succ, Nat.add_comm,
        low_bits_add]
      rfl

theorem sign_extend_own_bits {n : Nat} (value : BitVec n) (narrow : n ≤ 32) :
    lowBits n (value.signExtend 32).toNat = lowBits n value.toNat := by
  apply low_bits_congr
  intro index inside
  change (value.signExtend 32).getLsbD index = value.getLsbD index
  rw [BitVec.getLsbD_signExtend]
  simp [inside, show index < 32 by omega]

section Fifo

variable {β : Type} [FifoBuffer β]

namespace OBitStream

theorem writes_whole {n : Nat} (wide : 8 ≤ n) (value : BitVec n) {bitCount : Nat}
    (valid : isEnoughBits n bitCount = true) {bytes : List UInt8}
    (same : lowBits bitCount value.toNat = bytesBits bytes) :
    Writes HoldsBytes (writeBitsImpl value bitCount : StreamM (OBitStream β) Unit) bytes := by
  intro stream before held
  have holds := (holds_bytes_iff stream before).mp held
  rcases write_bits_appends wide value bitCount valid stream _ holds with ⟨after, runs, afterHolds, _⟩
  refine ⟨after, runs, ?_⟩
  rw [holds_bytes_iff, bytes_bits_append, ← same]
  exact afterHolds

theorem writes_buffer (buffer : List UInt8) (length : UInt16) (enough : length.toNat ≤ buffer.length) :
    Writes HoldsBytes (writeBuffer buffer length : StreamM (OBitStream β) Unit)
      (buffer.take length.toNat) := by
  intro stream before held
  have holds := (holds_bytes_iff stream before).mp held
  rcases write_buffer_first buffer length enough stream _ holds with ⟨after, runs, afterHolds⟩
  have none : padding (bytesBits before).length = 0 := by
    rw [bytes_bits_length, padding]
    omega
  rw [none, List.replicate_zero, List.nil_append, ← bytes_bits_append] at afterHolds
  exact ⟨after, runs, (holds_bytes_iff after _).mpr afterHolds⟩

end OBitStream

theorem bit_stream_writes (item : ByteItem) :
    Writes OBitStream.HoldsBytes (item.write : StreamM (OBitStream β) Unit) item.bytes := by
  cases item with
  | uint64 value =>
      exact OBitStream.writes_whole (by decide) value.toBitVec (by decide) (little_endian_bits 8 _).symm
  | uint32 value =>
      exact OBitStream.writes_whole (by decide) value.toBitVec (by decide) (little_endian_bits 4 _).symm
  | uint16 value =>
      have same : lowBits 16 (value.toBitVec.setWidth 32).toNat =
          bytesBits (littleEndian 2 value.toNat) := by
        rw [little_endian_bits]
        simp
      exact OBitStream.writes_whole (by decide) (value.toBitVec.setWidth 32) (by decide) same
  | uint8 value =>
      have same : lowBits 8 (value.toBitVec.setWidth 32).toNat = bytesBits [value] := by
        simp [byteBits]
      exact OBitStream.writes_whole (by decide) (value.toBitVec.setWidth 32) (by decide) same
  | int64 value =>
      exact OBitStream.writes_whole (by decide) value.toBitVec (by decide) (little_endian_bits 8 _).symm
  | int32 value =>
      exact OBitStream.writes_whole (by decide) value.toBitVec (by decide) (little_endian_bits 4 _).symm
  | int16 value =>
      have same : lowBits 16 (value.toBitVec.signExtend 32).toNat =
          bytesBits (littleEndian 2 value.toUInt16.toNat) := by
        rw [little_endian_bits, sign_extend_own_bits _ (by decide)]
        rfl
      exact OBitStream.writes_whole (by decide) (value.toBitVec.signExtend 32) (by decide) same
  | int8 value =>
      have same : lowBits 8 (value.toBitVec.signExtend 32).toNat = bytesBits [value.toUInt8] := by
        rw [sign_extend_own_bits _ (by decide), bytes_bits_cons, bytes_bits_nil, List.append_nil]
        rfl
      exact OBitStream.writes_whole (by decide) (value.toBitVec.signExtend 32) (by decide) same
  | float32 pattern =>
      exact OBitStream.writes_whole (by decide) pattern.toBitVec (by decide)
        (little_endian_bits 4 _).symm
  | enum size value =>
      have valid : isEnoughBits 64 (8 * size.bytes) = true := by
        cases size <;> decide
      exact OBitStream.writes_whole (by decide) value.toBitVec valid (little_endian_bits size.bytes _).symm
  | buffer bytes short =>
      have length : (UInt16.ofNat bytes.length).toNat = bytes.length := by
        unfold ushrtMax at short
        rw [UInt16.toNat_ofNat']
        omega
      have writes := OBitStream.writes_buffer (β := β) bytes (UInt16.ofNat bytes.length)
        (Nat.le_of_eq length)
      rw [length, List.take_length] at writes
      exact writes
  | string value maxLength short =>
      unfold ushrtMax at short
      have strLen : (UInt32.ofNat (min value.length maxLength)).toNat = min value.length maxLength := by
        rw [UInt32.toNat_ofNat']
        omega
      have length : (UInt32.ofNat (min value.length maxLength)).toUInt16.toNat =
          min value.length maxLength := by
        rw [UInt32.toNat_toUInt16, strLen]
        omega
      have size : lowBits 16 (UInt32.ofNat (min value.length maxLength)).toBitVec.toNat =
          bytesBits (littleEndian 2 (min value.length maxLength)) := by
        rw [little_endian_bits, UInt32.toNat_toBitVec, strLen]
      have writes := OBitStream.writes_buffer (β := β) value
        (UInt32.ofNat (min value.length maxLength)).toUInt16 (by omega)
      rw [length] at writes
      exact (OBitStream.writes_whole (by decide) _ (by decide) size).bind writes

theorem byte_stream_writes (item : ByteItem) :
    Writes OByteStream.Holds (item.write : StreamM (OByteStream β) Unit) item.bytes := by
  cases item with
  | uint64 value => exact OByteStream.writes_numeric 8 value.toNat
  | uint32 value => exact OByteStream.writes_numeric 4 value.toNat
  | uint16 value => exact OByteStream.writes_numeric 2 value.toNat
  | uint8 value => exact OByteStream.writes_byte value
  | int64 value => exact OByteStream.writes_numeric 8 value.toUInt64.toNat
  | int32 value => exact OByteStream.writes_numeric 4 value.toUInt32.toNat
  | int16 value => exact OByteStream.writes_numeric 2 value.toUInt16.toNat
  | int8 value => exact OByteStream.writes_byte value.toUInt8
  | float32 pattern => exact OByteStream.writes_numeric 4 pattern.toNat
  | enum size value =>
      have taken : (littleEndian 8 value.toNat).take (toBytes (8 * size.bytes)) =
          littleEndian size.bytes value.toNat := by
        cases size with
        | one => exact little_endian_take 1 7 value.toNat
        | two => exact little_endian_take 2 6 value.toNat
        | four => exact little_endian_take 4 4 value.toNat
        | eight => exact little_endian_take 8 0 value.toNat
      change Writes OByteStream.Holds (OByteStream.writeBytes _) (littleEndian size.bytes value.toNat)
      rw [taken]
      exact OByteStream.writes_bytes _
  | buffer bytes short =>
      have length : (UInt16.ofNat bytes.length).toNat = bytes.length := by
        unfold ushrtMax at short
        rw [UInt16.toNat_ofNat']
        omega
      change Writes OByteStream.Holds (OByteStream.writeBytes (bytes.take _)) bytes
      rw [length, List.take_length]
      exact OByteStream.writes_bytes bytes
  | string value maxLength short =>
      have strLen : (UInt16.ofNat (min value.length maxLength)).toNat = min value.length maxLength := by
        unfold ushrtMax at short
        rw [UInt16.toNat_ofNat']
        omega
      change Writes OByteStream.Holds (do
        OByteStream.writeNumeric 2 (UInt16.ofNat (min value.length maxLength)).toNat
        OByteStream.writeBytes (value.take (UInt16.ofNat (min value.length maxLength)).toNat)) _
      rw [strLen]
      exact (OByteStream.writes_numeric 2 _).bind (OByteStream.writes_bytes _)

variable {γ : Type} [FifoBuffer γ]

/-- From an empty buffer, both streams write the bytes of the items one after another. -/
theorem streams_write_same_bytes (items : List ByteItem) (bitBuffer : β) (byteBuffer : γ)
    (bitEmpty : FifoBuffer.contents bitBuffer = []) (byteEmpty : FifoBuffer.contents byteBuffer = [])
    (bitMode byteMode : Bool) :
    ∃ (bitAfter : OBitStream β) (byteAfter : OByteStream γ),
      Runs (writeEach ByteItem.write items) (OBitStream.create bitBuffer bitMode) () bitAfter ∧
      Runs (writeEach ByteItem.write items) (OByteStream.mk byteBuffer byteMode) () byteAfter ∧
      FifoBuffer.contents bitAfter.streamBuffer = FifoBuffer.contents byteAfter.streamBuffer := by
  have bits : Writes OBitStream.HoldsBytes (writeEach ByteItem.write items : StreamM (OBitStream β) Unit)
      (items.flatMap ByteItem.bytes) := writes_each fun item _ => bit_stream_writes item
  have bytes : Writes OByteStream.Holds (writeEach ByteItem.write items : StreamM (OByteStream γ) Unit)
      (items.flatMap ByteItem.bytes) := writes_each fun item _ => byte_stream_writes item
  rcases bits (OBitStream.create bitBuffer bitMode) [] ⟨bitEmpty, rfl⟩ with ⟨bitAfter, bitRuns, bitHolds⟩
  rcases bytes ⟨byteBuffer, byteMode⟩ [] byteEmpty with ⟨byteAfter, byteRuns, byteHolds⟩
  refine ⟨bitAfter, byteAfter, bitRuns, byteRuns, ?_⟩
  rw [bitHolds.1]
  exact byteHolds.symm

end Fifo

theorem streams_write_same_bytes_mixed :
    ∃ (bitAfter : OBitStream ByteQueue) (byteAfter : OByteStream ByteQueue),
      Runs (writeEach ByteItem.write [.int16 (-2), .string [] 4 (by decide),
          .string [104, 105, 106] 2 (by decide), .enum .four 0x1FFFFFFFF, .buffer [9] (by decide)])
        (OBitStream.create (ByteQueue.mk []) true) () bitAfter ∧
      FifoBuffer.contents bitAfter.streamBuffer = FifoBuffer.contents byteAfter.streamBuffer := by
  rcases streams_write_same_bytes (β := ByteQueue) (γ := ByteQueue) _ (ByteQueue.mk []) (ByteQueue.mk [])
    rfl rfl true true with ⟨bitAfter, byteAfter, bitRuns, _, same⟩
  exact ⟨bitAfter, byteAfter, bitRuns, same⟩

end Sne.Core
