import Sne.Library.Sequence
import Sne.Core.BitRoundTrip

/-!
# 64-bit carriers

A `uint64_t` or an `int64_t` may be written with any width up to 64, and an
enumeration rides in a `uint64_t` with the width of its underlying type. The
writer masks with a constant of the carrier's type. The reader masks with an
`int`, so below 64 bits it keeps only `width % 32` bits of the field, although it
always takes the whole field from the stream.
-/

namespace Sne.Core

open Sne.Library.Exec Sne.Library.Bits Sne.Library.Sequence

set_option autoImplicit false

/-- The underlying type of an enumeration. -/
structure EnumType where
  bytes : Nat
  isSigned : Bool
  valid : bytes ∈ [1, 2, 4, 8]
  deriving DecidableEq, Repr

namespace EnumType

def bitSize (type : EnumType) : Nat := type.bytes * charBit

theorem bit_size_valid (type : EnumType) : 0 < type.bitSize ∧ type.bitSize ≤ 64 := by
  have valid := type.valid
  simp only [List.mem_cons, List.not_mem_nil, or_false] at valid
  unfold bitSize charBit
  omega

/-- `static_cast<uint64_t>(value)`. -/
def toCarrier (type : EnumType) (value : BitVec type.bitSize) : UInt64 :=
  UInt64.ofBitVec (if type.isSigned then value.signExtend 64 else value.setWidth 64)

/-- `static_cast<T>(aValue)`. -/
def ofCarrier (type : EnumType) (carrier : UInt64) : BitVec type.bitSize :=
  carrier.toBitVec.setWidth type.bitSize

end EnumType

inductive CarrierType where
  | field (type : FieldType)
  | uint64 (width : Nat)
  | int64 (width : Nat)
  | enum (type : EnumType)
  deriving DecidableEq, Repr

namespace CarrierType

abbrev Value : CarrierType → Type
  | field type => type.Value
  | uint64 _ => UInt64
  | int64 _ => Int64
  | enum type => BitVec type.bitSize

def WidthValid (width : Nat) : Prop := 0 < width ∧ width ≤ 64

instance (width : Nat) : Decidable (WidthValid width) :=
  inferInstanceAs (Decidable (0 < width ∧ width ≤ 64))

def Valid : (type : CarrierType) → type.Value → Prop
  | field type, value => type.Valid value
  | uint64 width, value => WidthValid width ∧ value.toNat < 2 ^ width
  | int64 width, value =>
      WidthValid width ∧ -2 ^ (width - 1) ≤ value.toInt ∧ value.toInt < 2 ^ (width - 1)
  | enum _, _ => True

instance : (type : CarrierType) → (value : type.Value) → Decidable (type.Valid value)
  | field type, value => inferInstanceAs (Decidable (type.Valid value))
  | uint64 width, value => inferInstanceAs (Decidable (WidthValid width ∧ value.toNat < 2 ^ width))
  | int64 width, value => inferInstanceAs (Decidable
      (WidthValid width ∧ -2 ^ (width - 1) ≤ value.toInt ∧ value.toInt < 2 ^ (width - 1)))
  | enum _, _ => inferInstanceAs (Decidable True)

def write {σ : Type} [OStream σ] : (type : CarrierType) → type.Value → StreamM σ Unit
  | field type, value => type.write value
  | uint64 width, value => OStream.writeUInt64 value width
  | int64 width, value => OStream.writeInt64 value width
  | enum type, value => OStream.writeEnum (type.toCarrier value) type.bitSize

def read {σ : Type} [IStream σ] : (type : CarrierType) → StreamM σ type.Value
  | field type => type.read
  | uint64 width => IStream.readUInt64 width
  | int64 width => IStream.readInt64 width
  | enum type => do
      let aValue ← IStream.readEnum type.bitSize
      pure (type.ofCarrier aValue)

def bits (offset : Nat) : (type : CarrierType) → type.Value → List Bool
  | field type, value => type.bits offset value
  | uint64 width, value => lowBits width value.toNat
  | int64 width, value => lowBits width value.toBitVec.toNat
  | enum type, value => lowBits type.bitSize (type.toCarrier value).toNat

/-- The reader's mask keeps every bit of the value that is set. -/
def Survives : (type : CarrierType) → type.Value → Prop
  | field _, _ => True
  | uint64 width, value => width = 64 ∨ value.toNat < 2 ^ (width % 32)
  | int64 width, value =>
      width = 64 ∨ width < 32 ∨ (0 ≤ value.toInt ∧ value.toInt < 2 ^ (width % 32))
  | enum type, value => type.bytes ≠ 4 ∨ value = 0

instance : (type : CarrierType) → (value : type.Value) → Decidable (type.Survives value)
  | field _, _ => inferInstanceAs (Decidable True)
  | uint64 width, value => inferInstanceAs (Decidable (width = 64 ∨ value.toNat < 2 ^ (width % 32)))
  | int64 width, value => inferInstanceAs (Decidable
      (width = 64 ∨ width < 32 ∨ (0 ≤ value.toInt ∧ value.toInt < 2 ^ (width % 32))))
  | enum type, value => inferInstanceAs (Decidable (type.bytes ≠ 4 ∨ value = 0))

end CarrierType

structure CarrierField where
  type : CarrierType
  value : type.Value
  valid : type.Valid value

def CarrierField.toValue (field : CarrierField) : Typed CarrierType.Value := ⟨field.type, field.value⟩

def CarrierField.Survives (field : CarrierField) : Prop := field.type.Survives field.value

instance (field : CarrierField) : Decidable field.Survives :=
  inferInstanceAs (Decidable (field.type.Survives field.value))

def carrierBits (offset : Nat) (item : Typed CarrierType.Value) : List Bool :=
  item.1.bits offset item.2

def writeCarriers {σ : Type} [OStream σ] (fields : List CarrierField) : StreamM σ Unit :=
  writeAll CarrierType.write (fields.map CarrierField.toValue)

def readCarriers {σ : Type} [IStream σ] (types : List CarrierType) :
    StreamM σ (List (Typed CarrierType.Value)) :=
  readAll CarrierType.read types

def keptBits (width : Nat) : Nat := if width < 64 then width % 32 else width

theorem kept_bits_le (width : Nat) : keptBits width ≤ width := by
  unfold keptBits
  split
  · exact Nat.mod_le _ _
  · exact Nat.le_refl _

theorem read_mask_wide (width : Nat) (bound : width ≤ 64) (index : Nat) (inside : index < 64) :
    (IBitStream.readMask 64 width).getLsbD index = decide (index < keptBits width) := by
  unfold keptBits
  by_cases narrow : width < 64
  · rw [IBitStream.readMask, if_pos narrow, if_pos narrow, IBitStream.int_mask_extended]
  · rw [if_neg narrow, show width = 64 by omega]
    exact IBitStream.read_mask_full 64 index inside

section Fifo

variable {β : Type} [FifoBuffer β]

theorem write_carrier_appends (type : CarrierType) (value : type.Value) (valid : type.Valid value)
    (stream : OBitStream β) (written : List Bool) (holds : stream.Holds written) :
    ∃ after, Runs (type.write value) stream () after ∧
      after.Holds (written ++ type.bits written.length value) := by
  have carried : ∀ (number : BitVec 64) (width : Nat), CarrierType.WidthValid width →
      ∃ after, Runs (OBitStream.writeBitsImpl number width) stream () after ∧
        after.Holds (written ++ lowBits width number.toNat) := by
    intro number width widthValid
    rcases OBitStream.write_bits_appends (by omega) number width
      ((is_enough_bits_iff 64 width).mpr widthValid) stream written holds with
      ⟨after, runs, afterHolds, _⟩
    exact ⟨after, runs, afterHolds⟩
  cases type with
  | field type => exact write_field_appends type value valid stream written holds
  | uint64 width => exact carried value.toBitVec width valid.1
  | int64 width => exact carried value.toBitVec width valid.1
  | enum type => exact carried (type.toCarrier value).toBitVec type.bitSize type.bit_size_valid

theorem read_wide_keeps (number width : Nat) (widthValid : CarrierType.WidthValid width)
    (stream : IBitStream β) (rest : List Bool)
    (remains : stream.Remains (lowBits width number ++ rest)) :
    ∃ value after, Runs (IBitStream.readBitsImpl 64 width) stream value after ∧
      after.Remains rest ∧ value.toNat = number % 2 ^ keptBits width := by
  have kept := kept_bits_le width
  have length : (lowBits width number).length = width := low_bits_length width number
  have valid : isEnoughBits 64 (lowBits width number).length = true := by
    rw [length]
    exact (is_enough_bits_iff 64 width).mpr widthValid
  have mask : ∀ index < 64, (IBitStream.readMask 64 (lowBits width number).length).getLsbD index =
      decide (index < keptBits width) := by
    rw [length]
    exact read_mask_wide width widthValid.2
  rcases IBitStream.read_bits_keeps (n := 64) (by omega) (lowBits width number) rest
    (kept.trans (Nat.le_of_eq length.symm)) valid mask stream remains with
    ⟨value, after, runs, afterRemains, same, _⟩
  have first : (lowBits width number).take (keptBits width) = lowBits (keptBits width) number := by
    have split := low_bits_add (keptBits width) (width - keptBits width) number
    rw [show keptBits width + (width - keptBits width) = width by omega] at split
    rw [split, List.take_append_of_le_length (by simp), List.take_of_length_le (by simp)]
  rw [low_bits_length] at runs
  exact ⟨value, after, runs, afterRemains, by rw [same, first, of_bits_low_bits]⟩

end Fifo

theorem uint64_survives_iff (value : UInt64) (width : Nat) (widthValid : CarrierType.WidthValid width)
    (number : BitVec 64) (kept : number.toNat = value.toNat % 2 ^ keptBits width) :
    UInt64.ofBitVec number = value ↔ (CarrierType.uint64 width).Survives value := by
  have same : UInt64.ofBitVec number = value ↔ value.toNat < 2 ^ keptBits width := by
    rw [← UInt64.toNat_inj, UInt64.toNat_ofBitVec, kept, Nat.mod_eq_iff_lt (by positivity)]
  rw [same]
  unfold keptBits CarrierType.Survives
  by_cases full : width = 64
  · subst full
    simpa using value.toNat_lt
  · rw [if_pos (by have := widthValid.2; omega)]
    simp [full]

/-- Above 31 bits the sign is looked for at a place that the mask has cleared. -/
theorem int64_unsigned (width : Nat) (wide : 32 ≤ width) (number : BitVec 64) :
    (number &&& (IBitStream.intMask width).signExtend 64) >>> (width - 1) = 0 := by
  apply BitVec.eq_of_getLsbD_eq
  intro index _
  rw [BitVec.getLsbD_ushiftRight, BitVec.getLsbD_and, IBitStream.int_mask_extended]
  have outside : ¬width - 1 + index < width % 32 := by
    have small : width % 32 < 32 := Nat.mod_lt _ (by omega)
    omega
  simp [outside]

theorem toNat_lt_iff_toInt (value : BitVec 64) (width : Nat) (narrow : width < 32) :
    value.toNat < 2 ^ width ↔ 0 ≤ value.toInt ∧ value.toInt < 2 ^ width := by
  have power : 2 ^ width ≤ 2 ^ 31 := Nat.pow_le_pow_right (by omega) (by omega)
  have cast : ((2 ^ width : Nat) : Int) = 2 ^ width := by norm_cast
  have bound := value.isLt
  rw [← cast, BitVec.toInt_eq_toNat_cond]
  split
  · omega
  · omega

theorem int64_survives_iff (value : Int64) (width : Nat)
    (valid : (CarrierType.int64 width).Valid value) (number : BitVec 64)
    (kept : number.toNat = value.toBitVec.toNat % 2 ^ keptBits width) :
    Int64.ofBitVec (if width < 64 ∧
        (number &&& (IBitStream.intMask width).signExtend 64) >>> (width - 1) ≠ 0
      then number ||| ~~~((IBitStream.intMask width).signExtend 64) else number) = value ↔
      (CarrierType.int64 width).Survives value := by
  rcases valid with ⟨⟨some, bound⟩, low, high⟩
  by_cases short : width < 32
  · have bits : ∀ index < 64, number.getLsbD index =
        (decide (index < width) && value.toBitVec.getLsbD index) := by
      intro index _
      rw [BitVec.getLsbD, kept, keptBits, if_pos (by omega), Nat.mod_eq_of_lt short,
        Nat.testBit_mod_two_pow]
      rfl
    have mask : ∀ index, ((IBitStream.intMask width).signExtend 64).getLsbD index =
        decide (index < width) := by
      intro index
      rw [IBitStream.int_mask_extended, Nat.mod_eq_of_lt short]
    have restored := sign_restored value.toBitVec (Nat.le_refl 64) width some (by omega) low high
      number _ mask bits
    rw [BitVec.setWidth_eq] at restored
    rw [restored]
    simp [CarrierType.Survives, short]
  · rw [if_neg (fun both => both.2 (int64_unsigned width (by omega) number))]
    have same : Int64.ofBitVec number = value ↔ value.toBitVec.toNat < 2 ^ keptBits width := by
      rw [← Int64.toBitVec_inj, Int64.toBitVec_ofBitVec, ← BitVec.toNat_inj, kept,
        Nat.mod_eq_iff_lt (by positivity)]
    rw [same]
    unfold keptBits
    by_cases full : width = 64
    · subst full
      simpa [CarrierType.Survives] using value.toBitVec.isLt
    · have unsigned := toNat_lt_iff_toInt value.toBitVec (width % 32) (by omega)
      rw [if_pos (by omega), unsigned]
      simp [CarrierType.Survives, full, short]

theorem EnumType.carrier_mod (type : EnumType) (value : BitVec type.bitSize) :
    (type.toCarrier value).toNat % 2 ^ type.bitSize = value.toNat := by
  have bound := type.bit_size_valid.2
  have back : (type.toCarrier value).toBitVec.setWidth type.bitSize = value := by
    unfold EnumType.toCarrier
    rw [UInt64.toBitVec_ofBitVec]
    split
    · apply BitVec.eq_of_getLsbD_eq
      intro index inside
      rw [BitVec.getLsbD_setWidth, BitVec.getLsbD_signExtend]
      simp [inside, show index < 64 by omega]
    · rw [BitVec.setWidth_setWidth_of_le value bound, BitVec.setWidth_eq]
  rw [← UInt64.toNat_toBitVec, ← BitVec.toNat_setWidth, back]

theorem enum_survives_iff (type : EnumType) (value : BitVec type.bitSize) (number : BitVec 64)
    (kept : number.toNat = (type.toCarrier value).toNat % 2 ^ keptBits type.bitSize) :
    type.ofCarrier (UInt64.ofBitVec number) = value ↔ (CarrierType.enum type).Survives value := by
  unfold EnumType.ofCarrier
  rw [UInt64.toBitVec_ofBitVec, ← BitVec.toNat_inj, BitVec.toNat_setWidth, kept]
  have sizes := type.valid
  simp only [List.mem_cons, List.not_mem_nil, or_false] at sizes
  by_cases int : type.bytes = 4
  · have none : keptBits type.bitSize = 0 := by
      rw [EnumType.bitSize, int]
      rfl
    rw [none, Nat.pow_zero, Nat.mod_one, Nat.zero_mod]
    simp only [CarrierType.Survives, int, ne_eq, not_true_eq_false, false_or]
    rw [← BitVec.toNat_inj, eq_comm]
    simp
  · have all : keptBits type.bitSize = type.bitSize := by
      rcases sizes with size | size | size | size
      · rw [EnumType.bitSize, size]
        rfl
      · rw [EnumType.bitSize, size]
        rfl
      · exact absurd size int
      · rw [EnumType.bitSize, size]
        rfl
    rw [all, Nat.mod_mod, EnumType.carrier_mod]
    simp [CarrierType.Survives, int]

section RoundTrip

variable {β : Type} [FifoBuffer β]

theorem read_carrier_takes (type : CarrierType) (value : type.Value) (valid : type.Valid value)
    (offset : Nat) (rest : List Bool) (stream : IBitStream β)
    (remains : RemainsAt offset (type.bits offset value ++ rest) stream) :
    ∃ back after, Runs type.read stream back after ∧
      RemainsAt (offset + (type.bits offset value).length) rest after ∧
      ((⟨type, back⟩ : Typed CarrierType.Value) = ⟨type, value⟩ ↔ type.Survives value) := by
  suffices ∃ back after, Runs type.read stream back after ∧ after.Remains rest ∧
      (back = value ↔ type.Survives value) by
    rcases this with ⟨back, after, runs, afterRemains, survives⟩
    exact ⟨back, after, runs, remains.after afterRemains, by rw [← survives]; simp⟩
  cases type with
  | field type =>
      rcases read_field_takes type value valid stream offset rest remains.2 remains.1 with
        ⟨after, runs, afterRemains⟩
      exact ⟨value, after, runs, afterRemains, by simp [CarrierType.Survives]⟩
  | uint64 width =>
      rcases read_wide_keeps value.toNat width valid.1 stream rest remains.1 with
        ⟨number, after, runs, afterRemains, kept⟩
      exact ⟨_, after, runs.bind (runs_pure _ _), afterRemains,
        uint64_survives_iff value width valid.1 number kept⟩
  | int64 width =>
      rcases read_wide_keeps value.toBitVec.toNat width valid.1 stream rest remains.1 with
        ⟨number, after, runs, afterRemains, kept⟩
      exact ⟨_, after, runs.bind (runs_pure _ _), afterRemains,
        int64_survives_iff value width valid number kept⟩
  | enum type =>
      rcases read_wide_keeps (type.toCarrier value).toNat type.bitSize type.bit_size_valid stream
        rest remains.1 with ⟨number, after, runs, afterRemains, kept⟩
      have carrier : Runs (IBitStream.readEnum type.bitSize) stream (UInt64.ofBitVec number) after :=
        runs.bind (runs_pure _ _)
      exact ⟨_, after, carrier.bind (runs_pure _ _), afterRemains,
        enum_survives_iff type value number kept⟩

/-- The writer and the reader stay in step whatever the mask drops, so each field
comes back as it was sent exactly when the mask keeps it. -/
theorem carriers_round_trip (fields : List CarrierField) (buffer : β)
    (fresh : StreamBuffer.empty buffer = true) (writerUtf8 readerUtf8 : Bool) :
    ∃ written values after,
      Runs (writeCarriers fields) (OBitStream.create buffer writerUtf8) () written ∧
      Runs (readCarriers (fields.map CarrierField.type))
        (IBitStream.create written.streamBuffer readerUtf8) values after ∧
      List.Forall₂ (fun field value => value = field.toValue ↔ field.Survives) fields values ∧
      (values = fields.map CarrierField.toValue ↔ ∀ field ∈ fields, field.Survives) := by
  have none : FifoBuffer.contents buffer = [] := by
    rw [FifoBuffer.empty_contents] at fresh
    exact List.isEmpty_iff.mp fresh
  have valid : ∀ item ∈ fields.map CarrierField.toValue, item.1.Valid item.2 := by
    intro item member
    rcases List.mem_map.mp member with ⟨field, _, rfl⟩
    exact field.valid
  rcases write_all_appends carrierBits OBitStream.Holds (fields.map CarrierField.toValue)
    (fun item member => write_carrier_appends item.1 item.2 (valid item member))
    (OBitStream.create buffer writerUtf8) [] (OBitStream.create_holds buffer writerUtf8 none) with
    ⟨written, writeRuns, holds⟩
  rw [List.nil_append, List.length_nil] at holds
  have remains : RemainsAt 0 _ (IBitStream.create written.streamBuffer readerUtf8) :=
    ⟨IBitStream.create_remains written.streamBuffer readerUtf8, by simp⟩
  rw [holds.packed] at remains
  rcases read_all_takes carrierBits RemainsAt
    (fun item value => value = item ↔ item.1.Survives item.2) (fields.map CarrierField.toValue)
    (fun item member => read_carrier_takes item.1 item.2 (valid item member)) 0 _ _ remains with
    ⟨values, after, readRuns, _, each⟩
  have all := all_read_iff each
  rw [List.forall₂_map_left_iff] at each
  rw [List.map_map] at readRuns
  refine ⟨written, values, after, writeRuns, readRuns, each, ?_⟩
  rw [all, List.forall_mem_map]
  exact Iff.rfl

end RoundTrip

theorem carriers_round_trip_kept :
    let fields : List CarrierField := [
      ⟨.field (.uint8 3), 5, by decide⟩, ⟨.uint64 40, 200, by decide⟩, ⟨.int64 17, -3, by decide⟩,
      ⟨.enum ⟨2, true, by decide⟩, 65535, trivial⟩, ⟨.field (.int32 32), -1, by decide⟩]
    ∃ written values after,
      Runs (writeCarriers fields) (OBitStream.create (ByteQueue.mk []) true) () written ∧
      Runs (readCarriers (fields.map CarrierField.type))
        (IBitStream.create written.streamBuffer true) values after ∧
      List.Forall₂ (fun field value => value = field.toValue ↔ field.Survives) fields values ∧
      (values = fields.map CarrierField.toValue ↔ ∀ field ∈ fields, field.Survives) :=
  carriers_round_trip _ (ByteQueue.mk []) rfl true true

/-- A plain `enum` without negative values has the underlying type `unsigned int`, and
its value 1 comes back as 0. -/
theorem enum_not_restored :
    let field : CarrierField := ⟨.enum ⟨4, false, by decide⟩, 1, trivial⟩
    Runs (writeCarriers [field]) (OBitStream.create (ByteQueue.mk []) true) ()
        ⟨ByteQueue.mk [1, 0, 0, 0], true, 0, 32⟩ ∧
      Runs (readCarriers [field.type]) (IBitStream.create (ByteQueue.mk [1, 0, 0, 0]) true)
        [⟨field.type, (0 : BitVec 32)⟩] ⟨ByteQueue.mk [], true, 0⟩ ∧
      ([⟨field.type, (0 : BitVec 32)⟩] : List (Typed CarrierType.Value)) ≠ [field.toValue] := by
  refine ⟨rfl, rfl, ?_⟩
  intro same
  have values : (0 : BitVec 32) = 1 := eq_of_heq (Sigma.mk.inj (List.cons.inj same).1).2
  exact absurd values (by decide)

end Sne.Core
