import Sne.Core.BitPacking
import Sne.Core.BitUnpacking

/-!
# Bit stream round trip

A field is a typed value with the width, or the length, it is written with. The
writer and the reader of a field are the calls that a `serialize` method makes
for it. A sequence of fields of any mix of types, written to an empty buffer, is
read back from that buffer, and both sides stay in step at every bit offset.
-/

namespace Sne.Core

open Sne.Library.Exec Sne.Library.Bits

set_option autoImplicit false

inductive FieldType where
  | uint8 (width : Nat)
  | uint16 (width : Nat)
  | uint32 (width : Nat)
  | uint64
  | int8 (width : Nat)
  | int16 (width : Nat)
  | int32 (width : Nat)
  | int64
  | bool (width : Nat)
  | float32
  | buffer (length : UInt16)
  | align
  deriving DecidableEq, Repr

namespace FieldType

abbrev Value : FieldType → Type
  | uint8 _ => UInt8
  | uint16 _ => UInt16
  | uint32 _ => UInt32
  | uint64 => UInt64
  | int8 _ => Int8
  | int16 _ => Int16
  | int32 _ => Int32
  | int64 => Int64
  | bool _ => Bool
  | float32 => UInt32
  | buffer _ => List UInt8
  | align => Unit

/-- A width the streams accept for the types up to 32 bits. -/
def WidthValid (width : Nat) : Prop := 0 < width ∧ width ≤ 32

def HoldsUnsigned (width value : Nat) : Prop := WidthValid width ∧ value < 2 ^ width

/-- The two's complement range of the width contains the value. -/
def HoldsSigned (width : Nat) (value : Int) : Prop :=
  WidthValid width ∧ -2 ^ (width - 1) ≤ value ∧ value < 2 ^ (width - 1)

def Valid : (type : FieldType) → type.Value → Prop
  | uint8 width, value => HoldsUnsigned width value.toNat
  | uint16 width, value => HoldsUnsigned width value.toNat
  | uint32 width, value => HoldsUnsigned width value.toNat
  | uint64, _ => True
  | int8 width, value => HoldsSigned width value.toInt
  | int16 width, value => HoldsSigned width value.toInt
  | int32 width, value => HoldsSigned width value.toInt
  | int64, _ => True
  | bool width, _ => WidthValid width
  | float32, _ => True
  | buffer length, value => value.length = length.toNat
  | align, _ => True

instance (width : Nat) : Decidable (WidthValid width) :=
  inferInstanceAs (Decidable (0 < width ∧ width ≤ 32))

instance (width value : Nat) : Decidable (HoldsUnsigned width value) :=
  inferInstanceAs (Decidable (WidthValid width ∧ value < 2 ^ width))

instance (width : Nat) (value : Int) : Decidable (HoldsSigned width value) :=
  inferInstanceAs (Decidable (WidthValid width ∧ -2 ^ (width - 1) ≤ value ∧ value < 2 ^ (width - 1)))

instance : (type : FieldType) → (value : type.Value) → Decidable (type.Valid value)
  | uint8 width, value => inferInstanceAs (Decidable (HoldsUnsigned width value.toNat))
  | uint16 width, value => inferInstanceAs (Decidable (HoldsUnsigned width value.toNat))
  | uint32 width, value => inferInstanceAs (Decidable (HoldsUnsigned width value.toNat))
  | uint64, _ => inferInstanceAs (Decidable True)
  | int8 width, value => inferInstanceAs (Decidable (HoldsSigned width value.toInt))
  | int16 width, value => inferInstanceAs (Decidable (HoldsSigned width value.toInt))
  | int32 width, value => inferInstanceAs (Decidable (HoldsSigned width value.toInt))
  | int64, _ => inferInstanceAs (Decidable True)
  | bool width, _ => inferInstanceAs (Decidable (WidthValid width))
  | float32, _ => inferInstanceAs (Decidable True)
  | buffer length, value => inferInstanceAs (Decidable (value.length = length.toNat))
  | align, _ => inferInstanceAs (Decidable True)

def write {σ : Type} [OStream σ] : (type : FieldType) → type.Value → StreamM σ Unit
  | uint8 width, value => OStream.writeUInt8 value width
  | uint16 width, value => OStream.writeUInt16 value width
  | uint32 width, value => OStream.writeUInt32 value width
  | uint64, value => OStream.writeUInt64 value 64
  | int8 width, value => OStream.writeInt8 value width
  | int16 width, value => OStream.writeInt16 value width
  | int32 width, value => OStream.writeInt32 value width
  | int64, value => OStream.writeInt64 value 64
  | bool width, value => OStream.writeBool value width
  | float32, value => OStream.writeFloat32 value 32
  | buffer length, value => OStream.writeBuffer value length
  | align, _ => OStream.align

def read {σ : Type} [IStream σ] : (type : FieldType) → StreamM σ type.Value
  | uint8 width => IStream.readUInt8 width
  | uint16 width => IStream.readUInt16 width
  | uint32 width => IStream.readUInt32 width
  | uint64 => IStream.readUInt64 64
  | int8 width => IStream.readInt8 width
  | int16 width => IStream.readInt16 width
  | int32 width => IStream.readInt32 width
  | int64 => IStream.readInt64 64
  | bool width => IStream.readBool width
  | float32 => IStream.readFloat32 32
  | buffer length => IStream.readBuffer length
  | align => IStream.align

/-- What the writer appends when `offset` bits have been written. -/
def bits (offset : Nat) : (type : FieldType) → type.Value → List Bool
  | uint8 width, value => lowBits width value.toNat
  | uint16 width, value => lowBits width value.toNat
  | uint32 width, value => lowBits width value.toNat
  | uint64, value => lowBits 64 value.toNat
  | int8 width, value => lowBits width (value.toBitVec.signExtend 32).toNat
  | int16 width, value => lowBits width (value.toBitVec.signExtend 32).toNat
  | int32 width, value => lowBits width (value.toBitVec.signExtend 32).toNat
  | int64, value => lowBits 64 value.toBitVec.toNat
  | bool width, value => lowBits width value.toNat
  | float32, value => lowBits 32 value.toNat
  | buffer _, value => List.replicate (OBitStream.padding offset) false ++ bytesBits value
  | align, _ => List.replicate (OBitStream.padding offset) false

end FieldType

structure Field where
  type : FieldType
  value : type.Value
  valid : type.Valid value

abbrev FieldValue := (type : FieldType) × type.Value

def Field.toValue (field : Field) : FieldValue := ⟨field.type, field.value⟩

def writeFields {σ : Type} [OStream σ] : List Field → StreamM σ Unit
  | [] => pure ()
  | field :: rest => do
      field.type.write field.value
      writeFields rest

def readFields {σ : Type} [IStream σ] : List FieldType → StreamM σ (List FieldValue)
  | [] => pure []
  | type :: rest => do
      let value ← type.read
      let values ← readFields rest
      pure (⟨type, value⟩ :: values)

section Fifo

variable {β : Type} [FifoBuffer β]

theorem write_field_appends (type : FieldType) (value : type.Value) (valid : type.Valid value)
    (stream : OBitStream β) (written : List Bool) (holds : stream.Holds written) :
    ∃ after, Runs (type.write value) stream () after ∧
      after.Holds (written ++ type.bits written.length value) := by
  have narrow : ∀ (number : BitVec 32) (value width : Nat), number.toNat = value →
      FieldType.WidthValid width →
      ∃ after, Runs (OBitStream.writeBitsImpl number width) stream () after ∧
        after.Holds (written ++ lowBits width value) := by
    intro number value width same widthValid
    obtain ⟨after, runs, afterHolds, _⟩ := OBitStream.write_bits_appends (by omega) number width
      ((is_enough_bits_iff 32 width).mpr widthValid) stream written holds
    exact ⟨after, runs, same ▸ afterHolds⟩
  have full : ∀ number : BitVec 64,
      ∃ after, Runs (OBitStream.writeBitsImpl number 64) stream () after ∧
        after.Holds (written ++ lowBits 64 number.toNat) := by
    intro number
    obtain ⟨after, runs, afterHolds, _⟩ := OBitStream.write_bits_appends (by omega) number 64
      (by decide) stream written holds
    exact ⟨after, runs, afterHolds⟩
  cases type with
  | uint8 width => exact narrow (value.toBitVec.setWidth 32) value.toNat width (by simp) valid.1
  | uint16 width => exact narrow (value.toBitVec.setWidth 32) value.toNat width (by simp) valid.1
  | uint32 width => exact narrow value.toBitVec value.toNat width rfl valid.1
  | uint64 => exact full value.toBitVec
  | int8 width => exact narrow (value.toBitVec.signExtend 32) _ width rfl valid.1
  | int16 width => exact narrow (value.toBitVec.signExtend 32) _ width rfl valid.1
  | int32 width => exact narrow value.toBitVec _ width (by simp) valid.1
  | int64 => exact full value.toBitVec
  | bool width =>
      have same : ((BitVec.ofBool value).setWidth 32).toNat = value.toNat := by
        cases value <;> rfl
      exact narrow ((BitVec.ofBool value).setWidth 32) value.toNat width same valid
  | float32 => exact narrow value.toBitVec value.toNat 32 rfl ⟨by omega, by omega⟩
  | buffer length =>
      obtain ⟨after, runs, afterHolds, _⟩ :=
        OBitStream.write_buffer_appends value length valid stream written holds
      exact ⟨after, runs, afterHolds⟩
  | align =>
      obtain ⟨after, runs, afterHolds, _, _⟩ := OBitStream.align_appends stream written holds
      exact ⟨after, runs, afterHolds⟩

theorem read_narrow_takes (number width : Nat) (widthValid : FieldType.WidthValid width)
    (stream : IBitStream β) (rest : List Bool)
    (remains : stream.Remains (lowBits width number ++ rest)) :
    ∃ value after, Runs (IBitStream.readBitsImpl 32 width) stream value after ∧
      after.Remains rest ∧ value.toNat = number % 2 ^ width := by
  obtain ⟨value, after, runs, afterRemains, same, _⟩ :=
    IBitStream.read_bits_takes (n := 32) (by omega) (lowBits width number) rest
      (by simpa using (is_enough_bits_iff 32 width).mpr widthValid)
      (by simpa using IBitStream.read_mask_narrow width widthValid.2) stream remains
  rw [low_bits_length] at runs
  exact ⟨value, after, runs, afterRemains, by rw [same, of_bits_low_bits]⟩

theorem read_full_takes (number : Nat) (bound : number < 2 ^ 64) (stream : IBitStream β)
    (rest : List Bool) (remains : stream.Remains (lowBits 64 number ++ rest)) :
    ∃ value after, Runs (IBitStream.readBitsImpl 64 64) stream value after ∧
      after.Remains rest ∧ value.toNat = number := by
  obtain ⟨value, after, runs, afterRemains, same, _⟩ :=
    IBitStream.read_bits_takes (n := 64) (by omega) (lowBits 64 number) rest
      (by simp [isEnoughBits]) (by simpa using IBitStream.read_mask_full 64) stream remains
  rw [low_bits_length] at runs
  exact ⟨value, after, runs, afterRemains, by rw [same, of_bits_low_bits, Nat.mod_eq_of_lt bound]⟩

end Fifo

/-- A value in the two's complement range of a width is the sign extension of its low bits. -/
theorem sign_extend_low_bits {size : Nat} (value : BitVec size) (width : Nat) (some : 0 < width)
    (low : -2 ^ (width - 1) ≤ value.toInt) (high : value.toInt < 2 ^ (width - 1))
    (narrow : width ≤ size) : (value.setWidth width).signExtend size = value := by
  have power : ((2 ^ width : Nat) : Int) = 2 * 2 ^ (width - 1) := by
    rw [← pow_succ', show width - 1 + 1 = width by omega]
    simp
  apply BitVec.toInt_inj.mp
  rw [BitVec.toInt_signExtend_of_le narrow, ← BitVec.signExtend_eq_setWidth_of_le value narrow,
    BitVec.toInt_signExtend_eq_toInt_bmod_of_le value narrow]
  apply Int.bmod_eq_of_le_mul_two
  · omega
  · omega

theorem sign_bits_repeat {size : Nat} (value : BitVec size) (width : Nat) (some : 0 < width)
    (low : -2 ^ (width - 1) ≤ value.toInt) (high : value.toInt < 2 ^ (width - 1))
    (narrow : width ≤ size) (index : Nat) (inside : index < size) :
    value.getLsbD index =
      if index < width then value.getLsbD index else value.getLsbD (width - 1) := by
  have extended := sign_extend_low_bits value width some low high narrow
  have bit := congrArg (fun number => BitVec.getLsbD number index) extended
  simp only [BitVec.getLsbD_signExtend, BitVec.msb_eq_getLsbD_last, BitVec.getLsbD_setWidth] at bit
  rw [← bit]
  by_cases kept : index < width
  · simp [kept, inside]
  · simp [kept, inside, show width - 1 < width by omega]

/-- The sign extension of the readers: the bits over the width are filled with the sign. -/
theorem sign_restored {n size : Nat} (value : BitVec size) (fits : size ≤ n) (width : Nat)
    (some : 0 < width) (narrow : width < size) (low : -2 ^ (width - 1) ≤ value.toInt)
    (high : value.toInt < 2 ^ (width - 1)) (numeric mask : BitVec n)
    (maskBit : ∀ index, mask.getLsbD index = decide (index < width))
    (numericBit : ∀ index < size, numeric.getLsbD index =
      (decide (index < width) && value.getLsbD index)) :
    (if width < size ∧ (numeric &&& mask) >>> (width - 1) ≠ 0 then numeric ||| ~~~mask
      else numeric).setWidth size = value := by
  have valueBit : ∀ index < size, value.getLsbD index =
      if index < width then value.getLsbD index else value.getLsbD (width - 1) :=
    sign_bits_repeat value width some low high (by omega)
  have sign : (numeric &&& mask) >>> (width - 1) ≠ 0 ↔ value.getLsbD (width - 1) = true := by
    have shiftedBit : ∀ index, ((numeric &&& mask) >>> (width - 1)).getLsbD index =
        (decide (index = 0) && value.getLsbD (width - 1)) := by
      intro index
      rw [BitVec.getLsbD_ushiftRight, BitVec.getLsbD_and, maskBit]
      by_cases first : index = 0
      · subst first
        rw [Nat.add_zero, numericBit (width - 1) (by omega)]
        simp [show width - 1 < width by omega]
      · simp [first, show ¬width - 1 + index < width by omega]
    constructor
    · intro nonzero
      by_contra positive
      apply nonzero
      apply BitVec.eq_of_getLsbD_eq
      intro index _
      rw [shiftedBit, Bool.eq_false_iff.mpr positive]
      simp
    · intro negative zero
      have bit := shiftedBit 0
      rw [zero, negative] at bit
      simp at bit
  apply BitVec.eq_of_getLsbD_eq
  intro index inside
  rw [BitVec.getLsbD_setWidth, valueBit index inside]
  by_cases negative : value.getLsbD (width - 1) = true
  · rw [if_pos ⟨narrow, sign.mpr negative⟩, BitVec.getLsbD_or, BitVec.getLsbD_not, maskBit,
      numericBit index inside]
    by_cases kept : index < width <;> simp [kept, inside, negative, show index < n by omega]
  · rw [if_neg (fun both => negative (sign.mp both.2)), numericBit index inside]
    by_cases kept : index < width <;> simp [kept, inside, negative]

theorem signed_numeric_value {size : Nat} (value : BitVec size) (fits : size ≤ 32) (width : Nat)
    (holds : FieldType.HoldsSigned width value.toInt) (numeric : BitVec 32)
    (same : numeric.toNat = (value.signExtend 32).toNat % 2 ^ width) :
    (if width < size ∧ (numeric &&& IBitStream.intMask width) >>> (width - 1) ≠ 0
      then numeric ||| ~~~IBitStream.intMask width else numeric).setWidth size = value := by
  rcases holds with ⟨⟨some, _⟩, low, high⟩
  have numericBit : ∀ index < size, numeric.getLsbD index =
      (decide (index < width) && value.getLsbD index) := by
    intro index inside
    rw [BitVec.getLsbD, same, Nat.testBit_mod_two_pow, ← BitVec.getLsbD,
      BitVec.getLsbD_signExtend]
    simp [inside, show index < 32 by omega]
  by_cases narrow : width < size
  · exact sign_restored value fits width some narrow low high numeric _
      (IBitStream.int_mask_bits width (by omega)) numericBit
  · rw [if_neg (fun both => narrow both.1)]
    apply BitVec.eq_of_getLsbD_eq
    intro index inside
    rw [BitVec.getLsbD_setWidth, numericBit index inside]
    simp [inside, show index < width by omega]

section Reading

variable {β : Type} [FifoBuffer β]

/-- The reader is at the same offset in its byte as the writer was. -/
theorem remaining_position (stream : IBitStream β) (bits : List Bool) (offset : Nat)
    (remains : stream.Remains bits) (whole : (offset + bits.length) % 8 = 0) :
    (8 - stream.bitReadCount) % 8 = OBitStream.padding offset := by
  have total := remains.total
  have position := remains.position
  unfold OBitStream.padding
  omega

def RemainsAt (offset : Nat) (rest : List Bool) (stream : IBitStream β) : Prop :=
  stream.Remains rest ∧ (offset + rest.length) % 8 = 0

theorem RemainsAt.after {offset : Nat} {field rest : List Bool} {stream after : IBitStream β}
    (remains : RemainsAt offset (field ++ rest) stream) (afterRemains : after.Remains rest) :
    RemainsAt (offset + field.length) rest after := by
  refine ⟨afterRemains, ?_⟩
  rw [Nat.add_assoc, ← List.length_append]
  exact remains.2

theorem read_signed_takes {size : Nat} (value : BitVec size) (fits : size ≤ 32) (width : Nat)
    (holds : FieldType.HoldsSigned width value.toInt) (stream : IBitStream β) (rest : List Bool)
    (remains : stream.Remains (lowBits width (value.signExtend 32).toNat ++ rest)) :
    ∃ number after, Runs (IBitStream.readSignedNumeric size width) stream number after ∧
      after.Remains rest ∧ number.setWidth size = value := by
  obtain ⟨numeric, after, runs, afterRemains, same⟩ :=
    read_narrow_takes _ width holds.1 stream rest remains
  exact ⟨_, after, runs.bind (runs_pure _ _), afterRemains,
    signed_numeric_value value fits width holds numeric same⟩

theorem read_field_takes (type : FieldType) (value : type.Value) (valid : type.Valid value)
    (stream : IBitStream β) (offset : Nat) (rest : List Bool)
    (whole : (offset + (type.bits offset value ++ rest).length) % 8 = 0)
    (remains : stream.Remains (type.bits offset value ++ rest)) :
    ∃ after, Runs type.read stream value after ∧ after.Remains rest := by
  have place := remaining_position stream _ offset remains whole
  cases type with
  | uint8 width =>
      obtain ⟨number, after, runs, afterRemains, same⟩ :=
        read_narrow_takes value.toNat width valid.1 stream rest remains
      rw [Nat.mod_eq_of_lt valid.2] at same
      have back : UInt8.ofBitVec (number.setWidth 8) = value := by
        apply UInt8.toNat_inj.mp
        simp [same]
      exact ⟨after, runs.returning back, afterRemains⟩
  | uint16 width =>
      obtain ⟨number, after, runs, afterRemains, same⟩ :=
        read_narrow_takes value.toNat width valid.1 stream rest remains
      rw [Nat.mod_eq_of_lt valid.2] at same
      have back : UInt16.ofBitVec (number.setWidth 16) = value := by
        apply UInt16.toNat_inj.mp
        simp [same]
      exact ⟨after, runs.returning back, afterRemains⟩
  | uint32 width =>
      obtain ⟨number, after, runs, afterRemains, same⟩ :=
        read_narrow_takes value.toNat width valid.1 stream rest remains
      rw [Nat.mod_eq_of_lt valid.2] at same
      have back : UInt32.ofBitVec number = value := by
        apply UInt32.toNat_inj.mp
        simp [same]
      exact ⟨after, runs.returning back, afterRemains⟩
  | uint64 =>
      obtain ⟨number, after, runs, afterRemains, same⟩ :=
        read_full_takes value.toNat value.toNat_lt stream rest remains
      have back : UInt64.ofBitVec number = value := by
        apply UInt64.toNat_inj.mp
        simp [same]
      exact ⟨after, runs.returning back, afterRemains⟩
  | int8 width =>
      obtain ⟨number, after, runs, afterRemains, same⟩ :=
        read_signed_takes value.toBitVec (by omega) width valid stream rest remains
      exact ⟨after, runs.returning (congrArg Int8.ofBitVec same), afterRemains⟩
  | int16 width =>
      obtain ⟨number, after, runs, afterRemains, same⟩ :=
        read_signed_takes value.toBitVec (by omega) width valid stream rest remains
      exact ⟨after, runs.returning (congrArg Int16.ofBitVec same), afterRemains⟩
  | int32 width =>
      obtain ⟨number, after, runs, afterRemains, same⟩ :=
        read_signed_takes value.toBitVec (by omega) width valid stream rest remains
      rw [BitVec.setWidth_eq] at same
      exact ⟨after, runs.returning (congrArg Int32.ofBitVec same), afterRemains⟩
  | int64 =>
      obtain ⟨number, after, runs, afterRemains, same⟩ :=
        read_full_takes value.toBitVec.toNat value.toBitVec.isLt stream rest remains
      have back : Int64.ofBitVec number = value := congrArg Int64.ofBitVec (BitVec.eq_of_toNat_eq same)
      exact ⟨after, runs.returning back, afterRemains⟩
  | bool width =>
      obtain ⟨number, after, runs, afterRemains, same⟩ :=
        read_narrow_takes value.toNat width valid stream rest remains
      have power : 2 ^ 1 ≤ 2 ^ width := Nat.pow_le_pow_right (by omega) valid.1
      have small : value.toNat < 2 ^ width := Nat.lt_of_lt_of_le value.toNat_lt power
      rw [Nat.mod_eq_of_lt small] at same
      have back : decide (number ≠ 0) = value := by
        cases value with
        | false =>
            have zero : number = 0 := BitVec.eq_of_toNat_eq same
            simp [zero]
        | true =>
            have one : number = 1 := BitVec.eq_of_toNat_eq same
            simp [one]
      exact ⟨after, runs.returning back, afterRemains⟩
  | float32 =>
      obtain ⟨number, after, runs, afterRemains, same⟩ :=
        read_narrow_takes value.toNat 32 ⟨by omega, by omega⟩ stream rest remains
      rw [Nat.mod_eq_of_lt value.toNat_lt] at same
      have back : UInt32.ofBitVec number = value := by
        apply UInt32.toNat_inj.mp
        simp [same]
      exact ⟨after, runs.returning back, afterRemains⟩
  | buffer length =>
      rw [FieldType.bits, List.append_assoc] at remains
      obtain ⟨after, runs, afterRemains, _⟩ := IBitStream.read_buffer_takes stream _ value rest length
        valid remains (by rw [List.length_replicate, place])
      exact ⟨after, runs, afterRemains⟩
  | align =>
      obtain ⟨after, runs, afterRemains, _, _⟩ := IBitStream.align_skips stream _ rest remains
        (by rw [FieldType.bits, List.length_replicate, place])
      exact ⟨after, runs, afterRemains⟩

end Reading

def fieldsBits : Nat → List Field → List Bool
  | _, [] => []
  | offset, field :: rest =>
      field.type.bits offset field.value ++
        fieldsBits (offset + (field.type.bits offset field.value).length) rest

section RoundTrip

variable {β : Type} [FifoBuffer β]

theorem write_fields_appends (fields : List Field) (stream : OBitStream β) (written : List Bool)
    (holds : stream.Holds written) :
    ∃ after, Runs (writeFields fields) stream () after ∧
      after.Holds (written ++ fieldsBits written.length fields) := by
  induction fields generalizing stream written with
  | nil => exact ⟨stream, runs_pure _ _, by simpa [fieldsBits] using holds⟩
  | cons field rest induction =>
      obtain ⟨middle, firstRuns, middleHolds⟩ := 
        write_field_appends field.type field.value field.valid stream written holds
      obtain ⟨after, restRuns, afterHolds⟩ := induction middle _ middleHolds
      refine ⟨after, firstRuns.bind restRuns, ?_⟩
      rw [List.length_append, List.append_assoc] at afterHolds
      exact afterHolds

theorem read_fields_takes (fields : List Field) (stream : IBitStream β) (offset : Nat)
    (rest : List Bool) (whole : (offset + (fieldsBits offset fields ++ rest).length) % 8 = 0)
    (remains : stream.Remains (fieldsBits offset fields ++ rest)) :
    ∃ after, Runs (readFields (fields.map Field.type)) stream (fields.map Field.toValue) after ∧
      after.Remains rest := by
  induction fields generalizing stream offset with
  | nil => exact ⟨stream, runs_pure _ _, by simpa [fieldsBits] using remains⟩
  | cons field others induction =>
      rw [fieldsBits, List.append_assoc] at remains whole
      obtain ⟨middle, firstRuns, middleRemains⟩ :=
        read_field_takes field.type field.value field.valid stream offset _ whole remains
      rw [List.length_append, ← Nat.add_assoc] at whole
      obtain ⟨after, restRuns, afterRemains⟩ := induction middle _ whole middleRemains
      exact ⟨after, firstRuns.bind (restRuns.bind (runs_pure _ _)), afterRemains⟩

/-- The reader sees the written values on the buffer the writer left, before and
after the writer's final `align`, and its own final `align` empties the buffer. -/
theorem bit_stream_round_trip (fields : List Field) (buffer : β)
    (fresh : StreamBuffer.empty buffer = true) (writerUtf8 readerUtf8 : Bool) :
    ∃ written aligned, Runs (writeFields fields) (OBitStream.create buffer writerUtf8) () written ∧
      Runs OBitStream.align written () aligned ∧
      (∃ after, Runs (readFields (fields.map Field.type))
        (IBitStream.create written.streamBuffer readerUtf8) (fields.map Field.toValue) after) ∧
      ∃ after finished, Runs (readFields (fields.map Field.type))
          (IBitStream.create aligned.streamBuffer readerUtf8) (fields.map Field.toValue) after ∧
        Runs IBitStream.align after () finished ∧
        StreamBuffer.empty finished.streamBuffer = true := by
  have none : FifoBuffer.contents buffer = [] := by
    rw [FifoBuffer.empty_contents] at fresh
    exact List.isEmpty_iff.mp fresh
  obtain ⟨written, writeRuns, holds⟩ := write_fields_appends fields
    (OBitStream.create buffer writerUtf8) [] (OBitStream.create_holds buffer writerUtf8 none)
  rw [List.nil_append, List.length_nil] at holds
  obtain ⟨aligned, alignRuns, _, sameContents, _⟩ := OBitStream.align_appends written _ holds
  have whole : (0 + (fieldsBits 0 fields ++
      List.replicate (OBitStream.padding (fieldsBits 0 fields).length) false).length) % 8 = 0 := by
    rw [List.length_append, List.length_replicate]
    unfold OBitStream.padding
    omega
  have reading : ∀ final : β,
      FifoBuffer.contents final = FifoBuffer.contents written.streamBuffer →
      ∃ after : IBitStream β, Runs (readFields (fields.map Field.type))
        (IBitStream.create final readerUtf8) (fields.map Field.toValue) after ∧
        after.Remains (List.replicate (OBitStream.padding (fieldsBits 0 fields).length) false) := by
    intro final same
    have remains := IBitStream.create_remains final readerUtf8
    rw [same, holds.packed] at remains
    exact read_fields_takes fields _ 0 _ whole remains
  obtain ⟨early, earlyRuns, _⟩ := reading written.streamBuffer rfl
  obtain ⟨after, readRuns, remains⟩ := reading aligned.streamBuffer sameContents
  have place : (List.replicate (OBitStream.padding (fieldsBits 0 fields).length) false).length =
      (8 - after.bitReadCount) % 8 := by
    have total := remains.total
    have position := remains.position
    rw [List.length_replicate] at total ⊢
    unfold OBitStream.padding at total ⊢
    omega
  obtain ⟨finished, finishRuns, finishRemains, boundary, _⟩ :=
    IBitStream.align_skips after _ [] (by simpa using remains) place
  refine ⟨written, aligned, writeRuns, alignRuns, ⟨early, earlyRuns⟩, after, finished, readRuns,
    finishRuns, ?_⟩
  have total := finishRemains.total
  rw [boundary, List.length_nil] at total
  rw [FifoBuffer.empty_contents, List.isEmpty_iff]
  exact List.length_eq_zero_iff.mp (by omega)

end RoundTrip

theorem bit_stream_round_trip_mixed :
    let fields : List Field := [
      ⟨.uint8 5, 21, by decide⟩, ⟨.int16 9, -200, by decide⟩, ⟨.align, (), trivial⟩,
      ⟨.buffer 3, [1, 2, 3], by decide⟩, ⟨.bool 1, true, by decide⟩,
      ⟨.uint64, 9223372036854775808, trivial⟩]
    ∃ written aligned, Runs (writeFields fields) (OBitStream.create (ByteQueue.mk []) true) () written ∧
      Runs OBitStream.align written () aligned ∧
      (∃ after, Runs (readFields (fields.map Field.type))
        (IBitStream.create written.streamBuffer true) (fields.map Field.toValue) after) ∧
      ∃ after finished, Runs (readFields (fields.map Field.type))
          (IBitStream.create aligned.streamBuffer true) (fields.map Field.toValue) after ∧
        Runs IBitStream.align after () finished ∧
        StreamBuffer.empty finished.streamBuffer = true :=
  bit_stream_round_trip _ (ByteQueue.mk []) rfl true true

end Sne.Core
