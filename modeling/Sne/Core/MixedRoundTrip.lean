import Sne.Library.Sequence
import Sne.Core.BitRoundTrip

/-!
# Integers and strings in one bit stream

The writer of a `std::string` aligns the stream behind the size field in every
case. The reader aligns it only when the size it read is not 0. Behind an empty
string whose size field does not end on a byte boundary the reader is therefore
some zero bits late, and it stays late. What it reads from there is the written
bit string moved by the lag, in which only zeros stay in their place.
-/

namespace Sne.Core

open Sne.Library.Exec Sne.Library.Bits Sne.Library.Sequence

set_option autoImplicit false

namespace FieldType

/-- The integer types that may be written with any width up to 32. -/
def IsInteger : FieldType → Prop
  | uint8 _ | uint16 _ | uint32 _ | int8 _ | int16 _ | int32 _ => True
  | _ => False

instance : (type : FieldType) → Decidable type.IsInteger
  | uint8 _ | uint16 _ | uint32 _ | int8 _ | int16 _ | int32 _ => inferInstanceAs (Decidable True)
  | uint64 | int64 | bool _ | float32 | buffer _ | align => inferInstanceAs (Decidable False)

def width : FieldType → Nat
  | uint8 width | uint16 width | uint32 width | int8 width | int16 width | int32 width => width
  | _ => 0

/-- The bits of an integer that are written and that its type can hold. -/
def significant : FieldType → Nat
  | uint8 width | int8 width => min width 8
  | uint16 width | int16 width => min width 16
  | uint32 width | int32 width => min width 32
  | _ => 0

def pattern : (type : FieldType) → type.Value → Nat
  | uint8 _, value => value.toNat
  | uint16 _, value => value.toNat
  | uint32 _, value => value.toNat
  | int8 _, value => value.toBitVec.toNat
  | int16 _, value => value.toBitVec.toNat
  | int32 _, value => value.toBitVec.toNat
  | _, _ => 0

theorem significant_le_width (type : FieldType) : type.significant ≤ type.width := by
  cases type with
  | uint8 width | int8 width | uint16 width | int16 width | uint32 width | int32 width =>
      exact Nat.min_le_left _ _
  | uint64 | int64 | bool _ | float32 | buffer _ | align => exact Nat.le_refl _

theorem integer_width_valid {type : FieldType} (integer : type.IsInteger) {value : type.Value}
    (valid : type.Valid value) : WidthValid type.width := by
  cases type with
  | uint8 width | int8 width | uint16 width | int16 width | uint32 width | int32 width =>
      exact valid.1
  | uint64 | int64 | bool _ | float32 | buffer _ | align => exact integer.elim

theorem integer_bits_length {type : FieldType} (integer : type.IsInteger) (offset : Nat)
    (value : type.Value) : (type.bits offset value).length = type.width := by
  cases type with
  | uint8 width | int8 width | uint16 width | int16 width | uint32 width | int32 width =>
      exact low_bits_length _ _
  | uint64 | int64 | bool _ | float32 | buffer _ | align => exact integer.elim

theorem integer_bits_getD {type : FieldType} (integer : type.IsInteger) (offset : Nat)
    (value : type.Value) (index : Nat) (inside : index < type.significant) :
    (type.bits offset value).getD index false = (type.pattern value).testBit index := by
  have unsigned : ∀ width number : Nat, index < width →
      (lowBits width number).getD index false = number.testBit index := by
    intro width number bound
    rw [List.getD_eq_getElem _ _ (by simpa using bound), low_bits_getElem]
  have signed : ∀ (size : Nat) (number : BitVec size) (width : Nat), index < min width size →
      index < 32 →
      (lowBits width (number.signExtend 32).toNat).getD index false = number.toNat.testBit index := by
    intro size number width bound low
    rw [unsigned width _ (by omega), ← BitVec.getLsbD, ← BitVec.getLsbD, BitVec.getLsbD_signExtend]
    simp [low, show index < size by omega]
  cases type with
  | uint8 width | uint16 width | uint32 width =>
      exact unsigned width _ (Nat.lt_of_lt_of_le inside (Nat.min_le_left _ _))
  | int8 width | int16 width | int32 width =>
      refine signed _ _ width inside ?_
      simp only [significant] at inside
      omega
  | uint64 | int64 | bool _ | float32 | buffer _ | align => exact integer.elim

theorem zero_bits {type : FieldType} (integer : type.IsInteger) (offset : Nat) (value : type.Value)
    (zero : type.pattern value = 0) : type.bits offset value = List.replicate type.width false := by
  have unsigned : ∀ width number : Nat, number = 0 →
      lowBits width number = List.replicate width false := by
    intro width number none
    subst none
    simpa using low_bits_of_lt 0 width 0 (by simp)
  have signed : ∀ (size : Nat) (number : BitVec size), number.toNat = 0 →
      (number.signExtend 32).toNat = 0 := by
    intro size number none
    have absent : number = BitVec.ofNat size 0 := BitVec.eq_of_toNat_eq (by simpa using none)
    have extended : (BitVec.ofNat size 0).signExtend 32 = 0#32 := by
      apply BitVec.eq_of_getLsbD_eq
      intro index _
      simp [BitVec.getLsbD_signExtend]
    rw [absent, extended]
    rfl
  cases type with
  | uint8 width | uint16 width | uint32 width => exact unsigned width _ zero
  | int8 width | int16 width | int32 width => exact unsigned width _ (signed _ _ zero)
  | uint64 | int64 | bool _ | float32 | buffer _ | align => exact integer.elim

/-- A value that its width can represent is 0 when its significant bits are. -/
theorem pattern_zero {type : FieldType} (integer : type.IsInteger) (value : type.Value)
    (valid : type.Valid value)
    (clear : ∀ index < type.significant, (type.pattern value).testBit index = false) :
    type.pattern value = 0 := by
  have unsigned : ∀ width size number : Nat, number < 2 ^ width → number < 2 ^ size →
      (∀ index < min width size, number.testBit index = false) → number = 0 := by
    intro width size number narrow bound none
    apply Nat.eq_of_testBit_eq
    intro index
    rw [Nat.zero_testBit]
    by_cases inside : index < min width size
    · exact none index inside
    · apply Nat.testBit_lt_two_pow
      rcases Nat.lt_or_ge index width with below | above
      · exact Nat.lt_of_lt_of_le bound (Nat.pow_le_pow_right (by omega) (by omega))
      · exact Nat.lt_of_lt_of_le narrow (Nat.pow_le_pow_right (by omega) above)
  have signed : ∀ (width size : Nat) (number : BitVec size), HoldsSigned width number.toInt →
      (∀ index < min width size, number.toNat.testBit index = false) → number.toNat = 0 := by
    intro width size number holds none
    rcases holds with ⟨⟨some, _⟩, low, high⟩
    have absent : number = BitVec.ofNat size 0 := by
      apply BitVec.eq_of_getLsbD_eq
      intro index inside
      rw [BitVec.getLsbD_zero]
      by_cases kept : index < width
      · exact none index (by omega)
      · rw [sign_bits_repeat number width some low high (by omega) index inside, if_neg kept]
        exact none (width - 1) (by omega)
    rw [absent, BitVec.toNat_zero]
  cases type with
  | uint8 width => exact unsigned width 8 _ valid.2 value.toNat_lt clear
  | uint16 width => exact unsigned width 16 _ valid.2 value.toNat_lt clear
  | uint32 width => exact unsigned width 32 _ valid.2 value.toNat_lt clear
  | int8 width | int16 width | int32 width => exact signed width _ _ valid clear
  | uint64 | int64 | bool _ | float32 | buffer _ | align => exact integer.elim

end FieldType

section Fifo

variable {β : Type} [FifoBuffer β]

theorem read_field_bits (field rest : List Bool) (widthValid : FieldType.WidthValid field.length)
    (stream : IBitStream β) (remains : stream.Remains (field ++ rest)) :
    ∃ value after, Runs (IBitStream.readBitsImpl 32 field.length) stream value after ∧
      after.Remains rest ∧ value.toNat = ofBits field := by
  rcases IBitStream.read_bits_takes (n := 32) (by omega) field rest
    ((is_enough_bits_iff 32 field.length).mpr widthValid)
    (IBitStream.read_mask_narrow field.length widthValid.2) stream remains with
    ⟨value, after, runs, afterRemains, same, _⟩
  exact ⟨value, after, runs, afterRemains, same⟩

/-- The reader of an integer copies the significant bits, whatever they are. -/
theorem read_integer_bits {type : FieldType} (integer : type.IsInteger)
    (widthValid : FieldType.WidthValid type.width) (field rest : List Bool)
    (length : field.length = type.width) (stream : IBitStream β)
    (remains : stream.Remains (field ++ rest)) :
    ∃ value after, Runs type.read stream value after ∧ after.Remains rest ∧
      ∀ index < type.significant, (type.pattern value).testBit index = field.getD index false := by
  rw [← length] at widthValid
  rcases read_field_bits field rest widthValid stream remains with
    ⟨number, after, runs, afterRemains, same⟩
  have numberBit : ∀ index, number.toNat.testBit index = field.getD index false := by
    intro index
    rw [same, of_bits_testBit]
  have unsigned : ∀ size index, index < size →
      (number.setWidth size).toNat.testBit index = field.getD index false := by
    intro size index inside
    rw [BitVec.toNat_setWidth, Nat.testBit_mod_two_pow, numberBit]
    simp [inside]
  -- the sign extension changes no bit below the width
  have signed : ∀ size ≤ 32, ∃ numeric, Runs (IBitStream.readSignedNumeric size field.length) stream
      numeric after ∧ ∀ index < min field.length size,
        (numeric.setWidth size).toNat.testBit index = field.getD index false := by
    intro size bound
    refine ⟨_, runs.bind (runs_pure _ _), ?_⟩
    intro index inside
    have maskBit : field.length < size →
        (~~~IBitStream.intMask field.length).getLsbD index = false := by
      intro narrow
      rw [BitVec.getLsbD_not, IBitStream.int_mask_bits field.length (by omega)]
      simp [show index < field.length by omega]
    rw [BitVec.toNat_setWidth, Nat.testBit_mod_two_pow, ← numberBit]
    split
    · rename_i both
      rw [← BitVec.getLsbD, BitVec.getLsbD_or, maskBit both.1]
      simp [show index < size by omega, BitVec.getLsbD]
    · simp [show index < size by omega]
  cases type with
  | uint8 width =>
      subst length
      exact ⟨_, after, runs.bind (runs_pure _ _), afterRemains,
        fun index inside => unsigned 8 index (Nat.lt_of_lt_of_le inside (Nat.min_le_right _ _))⟩
  | uint16 width =>
      subst length
      exact ⟨_, after, runs.bind (runs_pure _ _), afterRemains,
        fun index inside => unsigned 16 index (Nat.lt_of_lt_of_le inside (Nat.min_le_right _ _))⟩
  | uint32 width =>
      subst length
      exact ⟨_, after, runs.bind (runs_pure _ _), afterRemains, fun index _ => numberBit index⟩
  | int8 width =>
      subst length
      rcases signed 8 (by omega) with ⟨numeric, numericRuns, numericBit⟩
      exact ⟨_, after, numericRuns.bind (runs_pure _ _), afterRemains, numericBit⟩
  | int16 width =>
      subst length
      rcases signed 16 (by omega) with ⟨numeric, numericRuns, numericBit⟩
      exact ⟨_, after, numericRuns.bind (runs_pure _ _), afterRemains, numericBit⟩
  | int32 width =>
      subst length
      rcases signed 32 (by omega) with ⟨numeric, numericRuns, numericBit⟩
      rw [BitVec.setWidth_eq] at numericBit
      exact ⟨_, after, numericRuns.bind (runs_pure _ _), afterRemains, numericBit⟩
  | uint64 | int64 | bool _ | float32 | buffer _ | align => exact integer.elim

theorem read_size_bits (field rest : List Bool) (widthValid : FieldType.WidthValid field.length)
    (stream : IBitStream β) (remains : stream.Remains (field ++ rest)) :
    ∃ size after, Runs (IBitStream.readUInt32 field.length) stream size after ∧
      after.Remains rest ∧ size.toNat = ofBits field := by
  rcases read_field_bits field rest widthValid stream remains with
    ⟨number, after, runs, afterRemains, same⟩
  exact ⟨_, after, runs.bind (runs_pure _ _), afterRemains, same⟩

end Fifo

inductive MixedType where
  | integer (type : FieldType)
  | string (maxLength sizeBits : Nat)
  deriving DecidableEq, Repr

namespace MixedType

abbrev Value : MixedType → Type
  | integer type => type.Value
  | string _ _ => List UInt8

/-- The size field is one of the two that the RPC string types use, and holds every
length up to `maxLength`. -/
def SizeValid (maxLength sizeBits : Nat) : Prop :=
  (sizeBits = 8 ∨ sizeBits = 16) ∧ maxLength ≤ ushrtMax ∧ maxLength ≤ maxNumber sizeBits

instance (maxLength sizeBits : Nat) : Decidable (SizeValid maxLength sizeBits) :=
  inferInstanceAs (Decidable
    ((sizeBits = 8 ∨ sizeBits = 16) ∧ maxLength ≤ ushrtMax ∧ maxLength ≤ maxNumber sizeBits))

def Valid : (type : MixedType) → type.Value → Prop
  | integer type, value => type.IsInteger ∧ type.Valid value
  | string maxLength sizeBits, value => SizeValid maxLength sizeBits ∧ value.length ≤ maxLength

instance : (type : MixedType) → (value : type.Value) → Decidable (type.Valid value)
  | integer type, value => inferInstanceAs (Decidable (type.IsInteger ∧ type.Valid value))
  | string maxLength sizeBits, value =>
      inferInstanceAs (Decidable (SizeValid maxLength sizeBits ∧ value.length ≤ maxLength))

def write {σ : Type} [OStream σ] : (type : MixedType) → type.Value → StreamM σ Unit
  | integer type, value => type.write value
  | string maxLength sizeBits, value => OStream.writeString value maxLength sizeBits

def read {σ : Type} [IStream σ] : (type : MixedType) → StreamM σ type.Value
  | integer type => type.read
  | string maxLength sizeBits => IStream.readString maxLength sizeBits

def bits (offset : Nat) : (type : MixedType) → type.Value → List Bool
  | integer type, value => type.bits offset value
  | string _ sizeBits, value => lowBits sizeBits value.length ++
      (List.replicate (OBitStream.padding (offset + sizeBits)) false ++ bytesBits value)

/-- The value is written with zero bits only. -/
def Blank : (type : MixedType) → type.Value → Prop
  | integer type, value => type.pattern value = 0
  | string _ _, value => value = []

instance : (type : MixedType) → (value : type.Value) → Decidable (type.Blank value)
  | integer type, value => inferInstanceAs (Decidable (type.pattern value = 0))
  | string _ _, value => inferInstanceAs (Decidable (value = []))

/-- An empty string whose size field does not end on a byte boundary. -/
def Late (offset : Nat) : (type : MixedType) → type.Value → Prop
  | integer _, _ => False
  | string _ sizeBits, value => value = [] ∧ (offset + sizeBits) % 8 ≠ 0

instance (offset : Nat) : (type : MixedType) → (value : type.Value) →
    Decidable (type.Late offset value)
  | integer _, _ => inferInstanceAs (Decidable False)
  | string _ sizeBits, value =>
      inferInstanceAs (Decidable (value = [] ∧ (offset + sizeBits) % 8 ≠ 0))

/-- A longer size would be noticed: the string does not fill a `maxLength` that is
smaller than what the size field can hold. -/
def Roomy : (type : MixedType) → type.Value → Prop
  | integer _, _ => True
  | string maxLength sizeBits, value => value.length < maxLength ∨ maxLength = maxNumber sizeBits

instance : (type : MixedType) → (value : type.Value) → Decidable (type.Roomy value)
  | integer _, _ => inferInstanceAs (Decidable True)
  | string maxLength sizeBits, value =>
      inferInstanceAs (Decidable (value.length < maxLength ∨ maxLength = maxNumber sizeBits))

end MixedType

structure MixedField where
  type : MixedType
  value : type.Value
  valid : type.Valid value

def MixedField.toValue (field : MixedField) : Typed MixedType.Value := ⟨field.type, field.value⟩

def mixedBits (offset : Nat) (item : Typed MixedType.Value) : List Bool :=
  item.1.bits offset item.2

/-- Once an empty string has left the reader late, every later field is blank. -/
def KeepsStep : Nat → List (Typed MixedType.Value) → Prop
  | _, [] => True
  | offset, item :: rest =>
      if item.1.Late offset item.2 then ∀ other ∈ rest, other.1.Blank other.2
      else KeepsStep (offset + (mixedBits offset item).length) rest

instance decidableKeepsStep : (offset : Nat) → (items : List (Typed MixedType.Value)) →
    Decidable (KeepsStep offset items)
  | _, [] => inferInstanceAs (Decidable True)
  | offset, item :: rest =>
      have := decidableKeepsStep (offset + (mixedBits offset item).length) rest
      inferInstanceAs (Decidable (if item.1.Late offset item.2 then
        ∀ other ∈ rest, other.1.Blank other.2
        else KeepsStep (offset + (mixedBits offset item).length) rest))

def writeMixed {σ : Type} [OStream σ] (items : List (Typed MixedType.Value)) : StreamM σ Unit :=
  writeAll MixedType.write items

def readMixed {σ : Type} [IStream σ] (types : List MixedType) :
    StreamM σ (List (Typed MixedType.Value)) :=
  readAll MixedType.read types

theorem MixedType.SizeValid.width {maxLength sizeBits : Nat}
    (valid : MixedType.SizeValid maxLength sizeBits) : FieldType.WidthValid sizeBits := by
  rcases valid.1 with rfl | rfl
  · exact ⟨by omega, by omega⟩
  · exact ⟨by omega, by omega⟩

section Writing

variable {β : Type} [FifoBuffer β]

theorem write_mixed_appends (type : MixedType) (value : type.Value) (valid : type.Valid value)
    (stream : OBitStream β) (written : List Bool) (holds : stream.Holds written) :
    ∃ after, Runs (type.write value) stream () after ∧
      after.Holds (written ++ type.bits written.length value) := by
  cases type with
  | integer type => exact write_field_appends type value valid.2 stream written holds
  | string maxLength sizeBits =>
      rcases valid with ⟨size, short⟩
      have bound : maxLength ≤ 65535 := size.2.1
      have whole : min value.length maxLength = value.length := Nat.min_eq_left short
      have number : (UInt32.ofNat value.length).toNat = value.length := by
        rw [UInt32.toNat_ofNat']
        omega
      have narrow : value.length = (UInt32.ofNat value.length).toUInt16.toNat := by
        rw [UInt32.toNat_toUInt16, number]
        omega
      rcases OBitStream.write_bits_appends (n := 32) (by omega) (UInt32.ofNat value.length).toBitVec
        sizeBits ((is_enough_bits_iff 32 sizeBits).mpr size.width) stream written holds with
        ⟨middle, sizeRuns, middleHolds, _⟩
      rw [UInt32.toNat_toBitVec, number] at middleHolds
      rcases OBitStream.write_buffer_appends value _ narrow middle _ middleHolds with
        ⟨after, bufferRuns, afterHolds, _⟩
      refine ⟨after, ?_, ?_⟩
      · change Runs (OBitStream.writeString value maxLength sizeBits) stream () after
        unfold OBitStream.writeString
        rw [whole]
        exact sizeRuns.bind bufferRuns
      · rw [List.append_assoc, List.length_append, low_bits_length] at afterHolds
        exact afterHolds

end Writing

section Reading

variable {β : Type} [FifoBuffer β]

theorem read_empty_string (maxLength sizeBits : Nat) (valid : MixedType.SizeValid maxLength sizeBits)
    (rest : List Bool) (stream : IBitStream β)
    (remains : stream.Remains (lowBits sizeBits 0 ++ rest)) :
    ∃ after, Runs (IBitStream.readString maxLength sizeBits) stream [] after ∧
      after.Remains rest := by
  rcases read_size_bits (lowBits sizeBits 0) rest (by rw [low_bits_length]; exact valid.width)
    stream remains with ⟨size, after, sizeRuns, afterRemains, same⟩
  rw [low_bits_length] at sizeRuns
  rw [of_bits_low_bits, Nat.zero_mod] at same
  refine ⟨after, sizeRuns.bind ?_, afterRemains⟩
  rw [if_neg (by rw [gt_iff_lt, UInt32.lt_iff_toNat_lt, same]; simp)]
  exact runs_pure _ _

theorem read_full_string (maxLength sizeBits : Nat) (value : List UInt8)
    (valid : (MixedType.string maxLength sizeBits).Valid value) (some : value ≠ [])
    (offset : Nat) (rest : List Bool) (stream : IBitStream β)
    (whole : (offset + ((MixedType.string maxLength sizeBits).bits offset value ++ rest).length) % 8 = 0)
    (remains : stream.Remains ((MixedType.string maxLength sizeBits).bits offset value ++ rest)) :
    ∃ after, Runs (IBitStream.readString maxLength sizeBits) stream value after ∧
      after.Remains rest := by
  rcases valid with ⟨size, short⟩
  have bound : maxLength ≤ 65535 := size.2.1
  have power : value.length < 2 ^ sizeBits := by
    have limit : maxLength ≤ 2 ^ sizeBits - 1 := size.2.2
    have positive : 0 < 2 ^ sizeBits := Nat.two_pow_pos _
    omega
  have count : 0 < value.length := List.length_pos_iff.mpr some
  rw [MixedType.bits, List.append_assoc, List.append_assoc] at remains
  rw [MixedType.bits, List.append_assoc, List.append_assoc, List.length_append, low_bits_length,
    ← Nat.add_assoc] at whole
  rcases read_size_bits (lowBits sizeBits value.length) _ (by rw [low_bits_length]; exact size.width)
    stream remains with ⟨strLen, middle, sizeRuns, middleRemains, same⟩
  rw [low_bits_length] at sizeRuns
  rw [of_bits_low_bits, Nat.mod_eq_of_lt power] at same
  have narrow : value.length = strLen.toUInt16.toNat := by
    rw [UInt32.toNat_toUInt16, same]
    omega
  have place := remaining_position middle _ _ middleRemains whole
  rcases IBitStream.read_buffer_takes middle _ value rest strLen.toUInt16 narrow middleRemains
    (by rw [List.length_replicate, place]) with ⟨after, bufferRuns, afterRemains, _⟩
  refine ⟨after, sizeRuns.bind ?_, afterRemains⟩
  rw [if_pos (by rw [gt_iff_lt, UInt32.lt_iff_toNat_lt, same]; exact count)]
  apply bufferRuns.returning
  rw [same, zero_padded_exact, List.take_of_length_le short]

theorem read_string_length {maxLength sizeBits : Nat} (field rest : List Bool)
    (length : field.length = sizeBits) (widthValid : FieldType.WidthValid sizeBits)
    (value : List UInt8) (stream after : IBitStream β) (remains : stream.Remains (field ++ rest))
    (runs : Runs (IBitStream.readString maxLength sizeBits) stream value after) :
    value.length = min (ofBits field) maxLength := by
  subst length
  rcases read_size_bits field rest widthValid stream remains with
    ⟨strLen, middle, sizeRuns, _, same⟩
  rcases runs.of_bind with ⟨strLen', middle', sizeRuns', following⟩
  rcases sizeRuns.unique sizeRuns' with ⟨rfl, rfl⟩
  by_cases some : strLen > 0
  · rw [if_pos some] at following
    rcases following.of_bind with ⟨bytes, last, _, returned⟩
    rcases returned.unique (runs_pure _ _) with ⟨rfl, _⟩
    rw [List.length_take, zeroPadded, List.length_append, List.length_take, List.length_replicate,
      same]
    omega
  · rw [if_neg some] at following
    rcases following.unique (runs_pure _ _) with ⟨rfl, _⟩
    have none : strLen.toNat = 0 := by
      rw [gt_iff_lt, UInt32.lt_iff_toNat_lt] at some
      simpa using some
    rw [← same, none]
    simp

theorem late_field_getD (lag : Nat) (bits more : List Bool) (index : Nat)
    (inside : index < bits.length) :
    ((List.replicate lag false ++ (bits ++ more)).take bits.length).getD index false =
      if index < lag then false else bits.getD (index - lag) false := by
  rw [List.getD_eq_getElem?_getD, List.getElem?_take_of_lt inside, ← List.getD_eq_getElem?_getD]
  by_cases early : index < lag
  · rw [if_pos early, List.getD_append _ _ _ _ (by simpa using early)]
    exact List.getD_replicate _ early
  · rw [if_neg early, List.getD_append_right _ _ _ _ (by simpa using early), List.length_replicate,
      List.getD_append _ _ _ _ (by omega)]

theorem late_field_length (lag : Nat) (bits more : List Bool) :
    ((List.replicate lag false ++ (bits ++ more)).take bits.length).length = bits.length := by
  rw [List.length_take, List.length_append, List.length_append]
  omega

/-- Bits that equal themselves moved by some places, with zeros moved in, are zeros. -/
theorem clear_of_late (bit : Nat → Bool) (lag count : Nat) (some : 0 < lag)
    (late : ∀ index < count, bit index = if index < lag then false else bit (index - lag)) :
    ∀ index < count, bit index = false := by
  intro index
  induction index using Nat.strong_induction_on with
  | h index induction =>
      intro inside
      rw [late index inside]
      by_cases early : index < lag
      · rw [if_pos early]
      · rw [if_neg early]
        exact induction (index - lag) (by omega) (by omega)

theorem late_size_zero (lag sizeBits size : Nat) (some : 0 < lag) (small : size < 2 ^ sizeBits)
    (more : List Bool) (same : ofBits ((List.replicate lag false ++
      (lowBits sizeBits size ++ more)).take sizeBits) = size) : size = 0 := by
  have clear : ∀ index < sizeBits, size.testBit index = false := by
    apply clear_of_late _ lag _ some
    intro index inside
    have bit := late_field_getD lag (lowBits sizeBits size) more index (by simpa using inside)
    rw [low_bits_length, low_bits_getD sizeBits _ _ small, ← of_bits_testBit, same] at bit
    exact bit
  apply Nat.eq_of_testBit_eq
  intro index
  rw [Nat.zero_testBit]
  by_cases inside : index < sizeBits
  · exact clear index inside
  · exact Nat.testBit_lt_two_pow
      (Nat.lt_of_lt_of_le small (Nat.pow_le_pow_right (by omega) (by omega)))

/-- A late reader still reads a blank field, and stays late. -/
theorem late_blank_read (type : MixedType) (value : type.Value) (valid : type.Valid value)
    (blank : type.Blank value) (offset lag : Nat) (rest : List Bool) (stream : IBitStream β)
    (remains : stream.Remains (List.replicate lag false ++ (type.bits offset value ++ rest))) :
    ∃ more after, Runs type.read stream value after ∧
      after.Remains (List.replicate (lag + more) false ++ rest) := by
  have swap : ∀ count : Nat, ∀ tail : List Bool, List.replicate lag false ++
      (List.replicate count false ++ tail) =
      List.replicate count false ++ (List.replicate lag false ++ tail) := by
    intro count tail
    rw [← List.append_assoc, ← List.append_assoc, List.replicate_append_replicate,
      List.replicate_append_replicate, Nat.add_comm]
  cases type with
  | integer type =>
      have zeros := fun place => FieldType.zero_bits valid.1 place value blank
      rw [MixedType.bits, zeros offset, swap] at remains
      rw [← zeros (7 * (List.replicate type.width false ++
        (List.replicate lag false ++ rest)).length)] at remains
      rcases read_field_takes type value valid.2 stream _ _ (by rw [zeros]; omega) remains with
        ⟨after, runs, afterRemains⟩
      exact ⟨0, after, runs, afterRemains⟩
  | string maxLength sizeBits =>
      subst blank
      have zeros : lowBits sizeBits 0 = List.replicate sizeBits false := by
        simpa using low_bits_of_lt 0 sizeBits 0 (by simp)
      rw [MixedType.bits, List.length_nil, zeros, bytes_bits_nil, List.append_nil, List.append_assoc,
        swap, ← zeros] at remains
      rcases read_empty_string maxLength sizeBits valid.1 _ stream remains with
        ⟨after, runs, afterRemains⟩
      refine ⟨OBitStream.padding (offset + sizeBits), after, runs, ?_⟩
      rw [← List.append_assoc, List.replicate_append_replicate] at afterRemains
      exact afterRemains

/-- A late reader that returns the value that was sent has read a blank field. -/
theorem late_read_blank (type : MixedType) (value : type.Value) (valid : type.Valid value)
    (roomy : type.Roomy value) (offset lag : Nat) (some : 0 < lag) (rest : List Bool)
    (stream after : IBitStream β)
    (remains : stream.Remains (List.replicate lag false ++ (type.bits offset value ++ rest)))
    (runs : Runs type.read stream value after) : type.Blank value := by
  cases type with
  | integer type =>
      have length := FieldType.integer_bits_length valid.1 offset value
      have narrow := type.significant_le_width
      rw [MixedType.bits,
        ← List.take_append_drop (type.bits offset value).length (_ ++ _)] at remains
      rcases read_integer_bits valid.1 (FieldType.integer_width_valid valid.1 valid.2) _ _
        ((late_field_length lag _ rest).trans length) stream remains with
        ⟨back, middle, readRuns, _, copied⟩
      rcases readRuns.unique runs with ⟨rfl, _⟩
      apply FieldType.pattern_zero valid.1 back valid.2
      apply clear_of_late _ lag _ some
      intro index inside
      rw [copied index inside, late_field_getD lag _ rest index (by omega)]
      split
      · rfl
      · exact FieldType.integer_bits_getD valid.1 offset back _ (by omega)
  | string maxLength sizeBits =>
      have limit : maxLength ≤ 2 ^ sizeBits - 1 := valid.1.2.2
      have positive : 0 < 2 ^ sizeBits := Nat.two_pow_pos _
      have short : value.length ≤ maxLength := valid.2
      rw [MixedType.bits, List.append_assoc] at remains
      generalize List.replicate (OBitStream.padding (offset + sizeBits)) false ++ bytesBits value ++
        rest = more at remains
      rw [← List.take_append_drop (lowBits sizeBits value.length).length (_ ++ _)] at remains
      have fieldLength := late_field_length lag (lowBits sizeBits value.length) more
      have sizes := read_string_length _ _ (fieldLength.trans (low_bits_length _ _)) valid.1.width
        value stream after remains runs
      have bound := of_bits_lt ((List.replicate lag false ++
        (lowBits sizeBits value.length ++ more)).take (lowBits sizeBits value.length).length)
      rw [fieldLength, low_bits_length] at bound
      rw [low_bits_length] at sizes
      apply List.eq_nil_of_length_eq_zero
      apply late_size_zero lag sizeBits value.length some (by omega) more
      rcases roomy with less | full
      · omega
      · have most : maxLength = 2 ^ sizeBits - 1 := full
        omega

/-- Outside the one case in which it becomes late, the reader stays where the writer was. -/
theorem read_in_step (type : MixedType) (value : type.Value) (valid : type.Valid value)
    (offset : Nat) (inTime : ¬type.Late offset value) (rest : List Bool) (stream : IBitStream β)
    (remains : RemainsAt offset (type.bits offset value ++ rest) stream) :
    ∃ after, Runs type.read stream value after ∧
      RemainsAt (offset + (type.bits offset value).length) rest after := by
  suffices ∃ after, Runs type.read stream value after ∧ after.Remains rest by
    rcases this with ⟨after, runs, afterRemains⟩
    exact ⟨after, runs, remains.after afterRemains⟩
  cases type with
  | integer type => exact read_field_takes type value valid.2 stream offset rest remains.2 remains.1
  | string maxLength sizeBits =>
      by_cases empty : value = []
      · subst empty
        have none : OBitStream.padding (offset + sizeBits) = 0 := by
          have boundary : (offset + sizeBits) % 8 = 0 := by
            by_contra apart
            exact inTime ⟨rfl, apart⟩
          rw [OBitStream.padding, boundary]
        have bits := remains.1
        rw [MixedType.bits, none, List.length_nil, List.replicate_zero, bytes_bits_nil,
          List.append_nil, List.append_nil] at bits
        exact read_empty_string maxLength sizeBits valid.1 rest stream bits
      · exact read_full_string maxLength sizeBits value valid empty offset rest stream remains.2
          remains.1

theorem read_becomes_late (type : MixedType) (value : type.Value) (valid : type.Valid value)
    (offset : Nat) (late : type.Late offset value) (rest : List Bool) (stream : IBitStream β)
    (remains : stream.Remains (type.bits offset value ++ rest)) :
    ∃ lag after, 0 < lag ∧ Runs type.read stream value after ∧
      after.Remains (List.replicate lag false ++ rest) := by
  cases type with
  | integer type => exact late.elim
  | string maxLength sizeBits =>
      rcases late with ⟨rfl, apart⟩
      rw [MixedType.bits, List.length_nil, bytes_bits_nil, List.append_nil, List.append_assoc]
        at remains
      rcases read_empty_string maxLength sizeBits valid.1 _ stream remains with
        ⟨after, runs, afterRemains⟩
      exact ⟨_, after, by unfold OBitStream.padding; omega, runs, afterRemains⟩

section Sequences

variable (items : List (Typed MixedType.Value)) (valid : ∀ item ∈ items, item.1.Valid item.2)
include valid

theorem late_reader_reads_blank (blank : ∀ item ∈ items, item.1.Blank item.2) (offset lag : Nat)
    (rest : List Bool) (stream : IBitStream β)
    (remains : stream.Remains
      (List.replicate lag false ++ (encodeAll mixedBits offset items ++ rest))) :
    ∃ after, Runs (readMixed (items.map Sigma.fst)) stream items after := by
  induction items generalizing offset lag stream with
  | nil => exact ⟨stream, runs_pure _ _⟩
  | cons item others induction =>
      rw [List.forall_mem_cons] at valid blank
      rw [encodeAll, List.append_assoc] at remains
      rcases late_blank_read item.1 item.2 valid.1 blank.1 offset lag _ stream remains with
        ⟨more, middle, first, middleRemains⟩
      rcases induction valid.2 blank.2 _ _ middle middleRemains with ⟨after, following⟩
      exact ⟨after, first.bind (following.bind (runs_pure _ _))⟩

theorem late_reader_read_blank (roomy : ∀ item ∈ items, item.1.Roomy item.2) (offset lag : Nat)
    (some : 0 < lag) (rest : List Bool) (stream after : IBitStream β)
    (remains : stream.Remains
      (List.replicate lag false ++ (encodeAll mixedBits offset items ++ rest)))
    (runs : Runs (readMixed (items.map Sigma.fst)) stream items after) :
    ∀ item ∈ items, item.1.Blank item.2 := by
  induction items generalizing offset lag stream with
  | nil => simp
  | cons item others induction =>
      rw [List.forall_mem_cons] at valid roomy ⊢
      rw [encodeAll, List.append_assoc] at remains
      rcases read_all_cons runs with ⟨middle, first, following⟩
      have blank := late_read_blank item.1 item.2 valid.1 roomy.1 offset lag some _ stream middle
        remains first
      rcases late_blank_read item.1 item.2 valid.1 blank offset lag _ stream remains with
        ⟨more, middle', first', middleRemains⟩
      rcases first.unique first' with ⟨_, rfl⟩
      exact ⟨blank, induction valid.2 roomy.2 _ _ (by omega) middle middleRemains following⟩

theorem reader_reads (offset : Nat) (keeps : KeepsStep offset items) (rest : List Bool)
    (stream : IBitStream β)
    (remains : RemainsAt offset (encodeAll mixedBits offset items ++ rest) stream) :
    ∃ after, Runs (readMixed (items.map Sigma.fst)) stream items after := by
  induction items generalizing offset stream with
  | nil => exact ⟨stream, runs_pure _ _⟩
  | cons item others induction =>
      rw [List.forall_mem_cons] at valid
      rw [encodeAll, List.append_assoc] at remains
      rw [KeepsStep] at keeps
      by_cases late : item.1.Late offset item.2
      · rw [if_pos late] at keeps
        rcases read_becomes_late item.1 item.2 valid.1 offset late _ stream remains.1 with
          ⟨lag, middle, _, first, middleRemains⟩
        rcases late_reader_reads_blank others valid.2 keeps _ lag rest middle middleRemains with
          ⟨after, following⟩
        exact ⟨after, first.bind (following.bind (runs_pure _ _))⟩
      · rw [if_neg late] at keeps
        rcases read_in_step item.1 item.2 valid.1 offset late _ stream remains with
          ⟨middle, first, middleRemains⟩
        rcases induction valid.2 _ keeps middle middleRemains with ⟨after, following⟩
        exact ⟨after, first.bind (following.bind (runs_pure _ _))⟩

theorem reader_kept_step (roomy : ∀ item ∈ items, item.1.Roomy item.2) (offset : Nat)
    (rest : List Bool) (stream after : IBitStream β)
    (remains : RemainsAt offset (encodeAll mixedBits offset items ++ rest) stream)
    (runs : Runs (readMixed (items.map Sigma.fst)) stream items after) :
    KeepsStep offset items := by
  induction items generalizing offset stream with
  | nil => trivial
  | cons item others induction =>
      rw [List.forall_mem_cons] at valid roomy
      rw [encodeAll, List.append_assoc] at remains
      rcases read_all_cons runs with ⟨middle, first, following⟩
      rw [KeepsStep]
      by_cases late : item.1.Late offset item.2
      · rw [if_pos late]
        rcases read_becomes_late item.1 item.2 valid.1 offset late _ stream remains.1 with
          ⟨lag, middle', some, first', middleRemains⟩
        rcases first.unique first' with ⟨_, rfl⟩
        exact late_reader_read_blank others valid.2 roomy.2 _ lag some rest middle after
          middleRemains following
      · rw [if_neg late]
        rcases read_in_step item.1 item.2 valid.1 offset late _ stream remains with
          ⟨middle', first', middleRemains⟩
        rcases first.unique first' with ⟨_, rfl⟩
        exact induction valid.2 roomy.2 _ middle middleRemains following

end Sequences

/-- The sequence is read back when the reader stays in step with the writer. Where no
string fills a `maxLength` below the maximum of its size field, it is read back only then;
otherwise a misread size may be cut to the right length. -/
theorem mixed_fields_round_trip (fields : List MixedField) (buffer : β)
    (fresh : StreamBuffer.empty buffer = true) (writerUtf8 readerUtf8 : Bool) :
    ∃ written,
      Runs (writeMixed (fields.map MixedField.toValue)) (OBitStream.create buffer writerUtf8) ()
        written ∧
      (KeepsStep 0 (fields.map MixedField.toValue) →
        ∃ after, Runs (readMixed (fields.map MixedField.type))
          (IBitStream.create written.streamBuffer readerUtf8) (fields.map MixedField.toValue) after) ∧
      ((∀ field ∈ fields, field.type.Roomy field.value) →
        (∃ after, Runs (readMixed (fields.map MixedField.type))
          (IBitStream.create written.streamBuffer readerUtf8) (fields.map MixedField.toValue) after) →
        KeepsStep 0 (fields.map MixedField.toValue)) := by
  have none : FifoBuffer.contents buffer = [] := by
    rw [FifoBuffer.empty_contents] at fresh
    exact List.isEmpty_iff.mp fresh
  have valid : ∀ item ∈ fields.map MixedField.toValue, item.1.Valid item.2 := by
    intro item member
    rcases List.mem_map.mp member with ⟨field, _, rfl⟩
    exact field.valid
  have types : fields.map MixedField.type = (fields.map MixedField.toValue).map Sigma.fst := by
    rw [List.map_map]
    rfl
  rcases write_all_appends mixedBits OBitStream.Holds (fields.map MixedField.toValue)
    (fun item member => write_mixed_appends item.1 item.2 (valid item member))
    (OBitStream.create buffer writerUtf8) [] (OBitStream.create_holds buffer writerUtf8 none) with
    ⟨written, writeRuns, holds⟩
  rw [List.nil_append, List.length_nil] at holds
  have remains : RemainsAt 0 _ (IBitStream.create written.streamBuffer readerUtf8) :=
    ⟨IBitStream.create_remains written.streamBuffer readerUtf8, by simp⟩
  rw [holds.packed] at remains
  rw [types]
  refine ⟨written, writeRuns, ?_, ?_⟩
  · intro keeps
    exact reader_reads _ valid 0 keeps _ _ remains
  · rintro roomy ⟨after, readRuns⟩
    exact reader_kept_step _ valid (List.forall_mem_map.mpr roomy) 0 _ _ after remains readRuns

end Reading

theorem mixed_fields_round_trip_in_step :
    let fields : List MixedField := [
      ⟨.integer (.uint8 3), 5, by decide⟩, ⟨.string 255 8, [104, 105], by decide⟩,
      ⟨.string 65535 16, [], by decide⟩, ⟨.integer (.int16 9), -200, by decide⟩]
    ∃ written after,
      Runs (writeMixed (fields.map MixedField.toValue)) (OBitStream.create (ByteQueue.mk []) true) ()
        written ∧
      Runs (readMixed (fields.map MixedField.type))
        (IBitStream.create written.streamBuffer true) (fields.map MixedField.toValue) after := by
  intro fields
  rcases mixed_fields_round_trip fields (ByteQueue.mk []) rfl true true with
    ⟨written, writeRuns, reads, _⟩
  rcases reads (by decide) with ⟨after, readRuns⟩
  exact ⟨written, after, writeRuns, readRuns⟩

/-- The size of the empty string ends at bit 11. The writer goes on at bit 16, the reader
at bit 11, and the 1 that follows is read as 0. -/
theorem field_after_empty_string_is_lost :
    let fields : List MixedField := [
      ⟨.integer (.uint8 3), 5, by decide⟩, ⟨.string 255 8, [], by decide⟩,
      ⟨.integer (.uint8 5), 1, by decide⟩]
    let values : List (Typed MixedType.Value) :=
      [⟨.integer (.uint8 3), (5 : UInt8)⟩, ⟨.string 255 8, []⟩, ⟨.integer (.uint8 5), (0 : UInt8)⟩]
    Runs (writeMixed (fields.map MixedField.toValue)) (OBitStream.create (ByteQueue.mk []) true) ()
        ⟨ByteQueue.mk [5, 0, 1], true, 5, 21⟩ ∧
      Runs (readMixed (fields.map MixedField.type))
        (IBitStream.create (ByteQueue.mk [5, 0, 1]) true) values ⟨ByteQueue.mk [1], true, 0⟩ ∧
      values ≠ fields.map MixedField.toValue := by
  refine ⟨rfl, rfl, ?_⟩
  intro same
  have last := (List.cons.inj (List.cons.inj (List.cons.inj same).2).2).1
  have values : (0 : UInt8) = 1 := eq_of_heq (Sigma.mk.inj last).2
  exact absurd values (by decide)

end Sne.Core
