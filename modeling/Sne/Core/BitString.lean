import Sne.Core.BitPacking
import Sne.Library.Codec

/-!
# The bit string that a stream packs

What a sequence of writes is to put into the buffer, as a list of bits: each value
contributes its low bits, least significant first, and zeros fill the last byte before
a raw buffer, at an alignment and at the end.
-/

namespace Sne.Core

open Sne.Library.Exec Sne.Library.Bits Sne.Library.Codec

set_option autoImplicit false

/-- The `write` functions of the stream end in one of these. A raw buffer has a length
that fits its size. -/
inductive BitWrite where
  | bits32 (value : UInt32) (bitCount : Nat)
  | bits64 (value : UInt64) (bitCount : Nat)
  | buffer (bytes : List UInt8) (short : bytes.length ≤ ushrtMax)
  | align

namespace BitWrite

def bits (offset : Nat) : BitWrite → List Bool
  | bits32 value bitCount => lowBits bitCount value.toNat
  | bits64 value bitCount => lowBits bitCount value.toNat
  | buffer bytes _ => List.replicate (OBitStream.padding offset) false ++ bytesBits bytes
  | align => List.replicate (OBitStream.padding offset) false

def allBits : Nat → List BitWrite → List Bool
  | _, [] => []
  | offset, write :: rest =>
      write.bits offset ++ allBits (offset + (write.bits offset).length) rest

def perform {β : Type} [StreamBuffer β] : BitWrite → StreamM (OBitStream β) Unit
  | bits32 value bitCount => OBitStream.writeUInt32 value bitCount
  | bits64 value bitCount => OBitStream.writeUInt64 value bitCount
  | buffer bytes _ => OBitStream.writeBuffer bytes (UInt16.ofNat bytes.length)
  | align => OBitStream.align

def HasValidWidth : BitWrite → Prop
  | bits32 _ bitCount => isEnoughBits 32 bitCount = true
  | bits64 _ bitCount => isEnoughBits 64 bitCount = true
  | buffer _ _ => True
  | align => True

theorem buffer_length {bytes : List UInt8} (short : bytes.length ≤ ushrtMax) :
    bytes.length = (UInt16.ofNat bytes.length).toNat := by
  unfold ushrtMax at short
  rw [UInt16.toNat_ofNat']
  omega

end BitWrite

namespace OBitStream

section Buffer

variable {β : Type} [StreamBuffer β]

def getTotalBitCount (stream : OBitStream β) : Nat := (stream.totalBitCount % 2 ^ 64).toNat

def getTotalSize (stream : OBitStream β) : Nat := StreamBuffer.size stream.streamBuffer

def getHoldingBitCount (stream : OBitStream β) : Nat := stream.holdingBitCount

theorem write_bits_throws {n : Nat} (value : BitVec n) (bitCount : Nat)
    (invalid : isEnoughBits n bitCount = false) (stream : OBitStream β) :
    Throws (writeBitsImpl value bitCount) stream (.streaming "invalid bitCount") stream :=
  (throws_require invalid _ _).bind

theorem write_bits_valid {n : Nat} {value : BitVec n} {bitCount : Nat} {stream after : OBitStream β}
    (runs : Runs (writeBitsImpl value bitCount) stream () after) : isEnoughBits n bitCount = true := by
  cases valid : isEnoughBits n bitCount with
  | true => rfl
  | false =>
      have throws := write_bits_throws value bitCount valid stream
      unfold Runs at runs
      unfold Throws at throws
      rw [runs] at throws
      cases throws

end Buffer

variable {β : Type} [FifoBuffer β]

def Packs (stream : OBitStream β) (bits : List Bool) : Prop := Holds stream bits ∧ Counts stream bits

theorem bits_packed {n : Nat} (wide : 8 ≤ n) {value : BitVec n} {bitCount : Nat} {bits : List Bool}
    {stream after : OBitStream β} (packs : stream.Packs bits)
    (runs : Runs (writeBitsImpl value bitCount) stream () after) :
    after.Packs (bits ++ lowBits bitCount value.toNat) := by
  rcases write_bits_counts wide value bitCount (write_bits_valid runs) stream bits packs.1 with
    ⟨found, written, holds, _, total⟩
  rcases written.unique runs with ⟨_, rfl⟩
  have sum := packs.2.append (lowBits bitCount value.toNat)
  rw [low_bits_length] at sum
  exact ⟨holds, total.trans sum⟩

theorem write_runs (write : BitWrite) {bits : List Bool} {stream : OBitStream β}
    (packs : stream.Packs bits) (valid : write.HasValidWidth) :
    ∃ after, Runs write.perform stream () after := by
  cases write with
  | bits32 value bitCount =>
      obtain ⟨after, runs, _⟩ :=
        write_bits_counts (by decide) value.toBitVec bitCount valid stream bits packs.1
      exact ⟨after, runs⟩
  | bits64 value bitCount =>
      obtain ⟨after, runs, _⟩ :=
        write_bits_counts (by decide) value.toBitVec bitCount valid stream bits packs.1
      exact ⟨after, runs⟩
  | buffer bytes short =>
      obtain ⟨after, runs, _⟩ :=
        write_buffer_counts bytes _ (BitWrite.buffer_length short) stream bits packs.1
      exact ⟨after, runs⟩
  | align =>
      obtain ⟨after, runs, _⟩ := align_appends stream bits packs.1
      exact ⟨after, runs⟩

theorem write_packed (write : BitWrite) {bits : List Bool} {stream after : OBitStream β}
    (packs : stream.Packs bits) (runs : Runs write.perform stream () after) :
    after.Packs (bits ++ write.bits bits.length) := by
  cases write with
  | bits32 value bitCount => exact bits_packed (by decide) packs runs
  | bits64 value bitCount => exact bits_packed (by decide) packs runs
  | buffer bytes short =>
      rcases write_buffer_counts bytes _ (BitWrite.buffer_length short) stream bits packs.1 with
        ⟨found, written, holds, _, counts⟩
      rcases written.unique runs with ⟨_, rfl⟩
      exact ⟨holds, counts packs.2⟩
  | align =>
      rcases align_appends stream bits packs.1 with ⟨found, aligned, holds, _, _, counts⟩
      rcases aligned.unique runs with ⟨_, rfl⟩
      exact ⟨holds, counts packs.2⟩

theorem writes_packed (writes : List BitWrite) {bits : List Bool} {stream after : OBitStream β}
    (packs : stream.Packs bits) (runs : Runs (writeEach BitWrite.perform writes) stream () after) :
    after.Packs (bits ++ BitWrite.allBits bits.length writes) := by
  induction writes generalizing stream bits with
  | nil =>
      rcases runs.unique (runs_pure _ _) with ⟨_, rfl⟩
      rw [BitWrite.allBits, List.append_nil]
      exact packs
  | cons write rest induction =>
      rcases runs.of_bind with ⟨_, middle, first, others⟩
      have packed := induction (write_packed write packs first) others
      rw [List.append_assoc, List.length_append] at packed
      exact packed

/-- A sequence of writes returns when all of its widths are valid, and only then. -/
theorem writes_run_iff (writes : List BitWrite) {bits : List Bool} {stream : OBitStream β}
    (packs : stream.Packs bits) : (∃ after, Runs (writeEach BitWrite.perform writes) stream () after) ↔
      ∀ write ∈ writes, write.HasValidWidth := by
  induction writes generalizing stream bits with
  | nil => exact ⟨fun _ => nofun, fun _ => ⟨stream, runs_pure _ _⟩⟩
  | cons write rest induction =>
      rw [List.forall_mem_cons]
      constructor
      · rintro ⟨after, runs⟩
        rcases runs.of_bind with ⟨_, middle, first, others⟩
        refine ⟨?_, (induction (write_packed write packs first)).mp ⟨after, others⟩⟩
        cases write with
        | bits32 value bitCount => exact write_bits_valid first
        | bits64 value bitCount => exact write_bits_valid first
        | buffer bytes short => trivial
        | align => trivial
      · rintro ⟨valid, others⟩
        obtain ⟨middle, first⟩ := write_runs write packs valid
        obtain ⟨after, runs⟩ := (induction (write_packed write packs first)).mpr others
        exact ⟨after, first.bind runs⟩

/-- A sequence of writes into an empty buffer that returns. -/
theorem bit_string_packed (writes : List BitWrite) (buffer : β) (fresh : FifoBuffer.contents buffer = [])
    (mode : Bool) {after : OBitStream β}
    (runs : Runs (writeEach BitWrite.perform writes) (create buffer mode) () after)
    (short : (BitWrite.allBits 0 writes).length < 2 ^ 31) :
    bytesBits (FifoBuffer.contents after.streamBuffer) = BitWrite.allBits 0 writes ++
        List.replicate (padding (BitWrite.allBits 0 writes).length) false ∧
      after.getTotalBitCount = (BitWrite.allBits 0 writes).length ∧
      after.getTotalSize = ((BitWrite.allBits 0 writes).length + 7) / 8 ∧
      after.getHoldingBitCount = (BitWrite.allBits 0 writes).length % 8 := by
  have packed := writes_packed writes ⟨create_holds buffer mode fresh, rfl⟩ runs
  rw [List.nil_append, List.length_nil] at packed
  rcases packed with ⟨holds, counts⟩
  have size := congrArg List.length holds.packed
  rw [bytes_bits_length, List.length_append, List.length_replicate, padding] at size
  refine ⟨holds.packed, ?_, ?_, holds.holding⟩
  · rw [getTotalBitCount, counts]
    have exact : ((BitWrite.allBits 0 writes).length : Int).bmod (2 ^ 32) =
        (BitWrite.allBits 0 writes).length := by
      apply Int.bmod_eq_of_le <;> omega
    rw [exact]
    omega
  · rw [getTotalSize, FifoBuffer.size_contents]
    omega

end OBitStream

theorem bit_string_packed_mixed :
    ∃ after : OBitStream ByteQueue,
      bytesBits after.streamBuffer.items =
        [true, false, true, false, false, false, false, false] ++
          ([true, true, true, true, true, true, true, true] ++
            [false, false, true, false, false, false, false, false, false, true, false, false, false,
              false, false, false]) ∧
      after.getTotalBitCount = 26 ∧ after.getTotalSize = 4 ∧ after.getHoldingBitCount = 2 := by
  have runs : Runs (writeEach BitWrite.perform
      [.bits32 0xfd 3, .buffer [0xff] (by decide), .bits64 0x204 10])
      (OBitStream.create (ByteQueue.mk []) true) () ⟨ByteQueue.mk [5, 0xff, 4, 2], true, 2, 26⟩ := rfl
  have packed := OBitStream.bit_string_packed _ (ByteQueue.mk []) rfl true runs (by decide)
  exact ⟨_, packed⟩

end Sne.Core
