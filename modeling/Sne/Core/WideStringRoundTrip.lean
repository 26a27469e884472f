import Sne.Core.BitRoundTrip
import Sne.Core.Utf8RoundTrip

/-!
# Wide strings on the bit streams

The writer cuts the octets of a wide string, not its characters, at `maxLength`, and
in raw mode it narrows four times the number of characters to 16 bits. The reader
narrows in the same way, so that what follows is read where it was written, and fills
up with zeros. From a byte boundary on, the two sides stay in step in every case.
-/

namespace Sne.Core

open Sne.Library.Exec Sne.Library.Bits

set_option autoImplicit false

def wideSizeBits : Nat := 16

/-- The octets of all characters fit, or the characters that are cut off are zeros. -/
def WideStringKept (utf8 : Bool) (maxLength : Nat) (text : List WChar) : Prop :=
  if utf8 then (toUtf8 text).length ≤ maxLength
  else ∀ wc ∈ text.drop (text.length % 16384), wc = 0

instance (utf8 : Bool) (maxLength : Nat) (text : List WChar) :
    Decidable (WideStringKept utf8 maxLength text) :=
  inferInstanceAs (Decidable (if utf8 then (toUtf8 text).length ≤ maxLength
    else ∀ wc ∈ text.drop (text.length % 16384), wc = 0))

theorem wchar_bytes_cons (wc : WChar) (rest : List WChar) :
    wcharBytes (wc :: rest) = wcharBytes [wc] ++ wcharBytes rest := by
  simp [wcharBytes]

@[simp] theorem wchar_bytes_length (text : List WChar) : (wcharBytes text).length = 4 * text.length := by
  induction text with
  | nil => rfl
  | cons wc rest induction =>
      have one : (wcharBytes [wc]).length = 4 := rfl
      rw [wchar_bytes_cons, List.length_append, induction, one, List.length_cons]
      omega

theorem bytes_wchar_wchar_bytes (wc : WChar) : bytesWChar (wcharBytes [wc]) = wc := by
  apply BitVec.eq_of_getLsbD_eq
  intro index inside
  simp only [bytesWChar, wcharBytes, List.flatMap_cons, List.flatMap_nil, List.append_nil,
    List.range, List.range.loop, List.map_cons, List.map_nil, List.foldl_cons, List.foldl_nil,
    List.getD_cons_zero, List.getD_cons_succ, BitVec.getLsbD_or, BitVec.getLsbD_shiftLeft,
    BitVec.getLsbD_setWidth, BitVec.ushiftRight_eq, BitVec.getLsbD_ushiftRight, inside]
  -- the byte that holds the bit
  by_cases first : index < 8
  · simp [first, inside, show index < 16 by omega, show index < 24 by omega]
  by_cases second : index < 16
  · simp [first, second, show index < 24 by omega, show index - 8 < 8 by omega,
      show index - 8 < 32 by omega, show 8 + (index - 8) = index by omega]
  by_cases third : index < 24
  · simp [first, second, third, show ¬index - 8 < 8 by omega, show index - 16 < 8 by omega,
      show index - 16 < 32 by omega, show 16 + (index - 16) = index by omega]
  · simp [first, second, third, show ¬index - 8 < 8 by omega, show ¬index - 16 < 8 by omega,
      show index - 24 < 8 by omega, show index - 24 < 32 by omega,
      show 24 + (index - 24) = index by omega]

theorem bytes_wchars_nil (count : Nat) : bytesWChars count [] = List.replicate count 0 := by
  induction count with
  | zero => rfl
  | succ count induction =>
      have zero : bytesWChar [] = 0 := by decide
      rw [bytesWChars, List.take_nil, List.drop_nil, induction, zero, List.replicate_succ]

theorem bytes_wchars_take (text : List WChar) (count : Nat) :
    bytesWChars text.length ((wcharBytes text).take (4 * count)) =
      text.take count ++ List.replicate (text.length - count) 0 := by
  induction text generalizing count with
  | nil => simp [bytesWChars]
  | cons wc rest induction =>
      cases count with
      | zero => rw [Nat.mul_zero, List.take_zero, bytes_wchars_nil, List.take_zero, List.nil_append,
          Nat.sub_zero]
      | succ count =>
          have one : (wcharBytes [wc]).length = 4 := rfl
          have bytes : (wcharBytes (wc :: rest)).take (4 * (count + 1)) =
              wcharBytes [wc] ++ (wcharBytes rest).take (4 * count) := by
            rw [wchar_bytes_cons, List.take_append, List.take_of_length_le (by omega), one]
            congr 2
          rw [List.length_cons, bytesWChars, bytes, List.take_left' one, List.drop_left' one,
            bytes_wchar_wchar_bytes, induction, List.take_succ_cons, List.cons_append,
            Nat.add_sub_add_right]

theorem wide_string_filled_iff (text : List WChar) (count : Nat) :
    text.take count ++ List.replicate (text.length - count) 0 = text ↔
      ∀ wc ∈ text.drop count, wc = 0 := by
  have length : (text.drop count).length = text.length - count := List.length_drop
  constructor
  · intro same wc member
    have parts := same.trans (List.take_append_drop count text).symm
    have zeros := List.append_cancel_left parts
    rw [← zeros] at member
    exact List.eq_of_mem_replicate member
  · intro zeros
    have all : text.drop count = List.replicate (text.length - count) 0 := by
      rw [← length]
      exact List.eq_replicate_of_mem zeros
    rw [← all]
    exact List.take_append_drop count text

section Fifo

variable {β : Type} [FifoBuffer β]

def wideSize (utf8 : Bool) (maxLength : Nat) (text : List WChar) : Nat :=
  if utf8 then min (toUtf8 text).length maxLength else text.length

def wideBytes (utf8 : Bool) (maxLength : Nat) (text : List WChar) : List UInt8 :=
  if utf8 then (toUtf8 text).take (min (toUtf8 text).length maxLength)
  else (wcharBytes text).take (4 * (text.length % 16384))

/-- From a byte boundary on, the writer appends the size and the bytes. -/
theorem write_wstring_appends (utf8 : Bool) (maxLength : Nat) (bound : maxLength ≤ ushrtMax)
    (text : List WChar) (short : text.length ≤ maxLength) (stream : OBitStream β)
    (mode : stream.shouldUseUtf8ForString = utf8) (before : List UInt8)
    (holds : stream.Holds (bytesBits before)) :
    ∃ after, Runs (OBitStream.writeWString text maxLength wideSizeBits) stream () after ∧
      after.Holds (bytesBits before ++ (lowBits wideSizeBits (wideSize utf8 maxLength text) ++
        bytesBits (wideBytes utf8 maxLength text))) := by
  have limit : maxLength ≤ 65535 := bound
  have write : ∀ (size : Nat) (bytes : List UInt8) (length : UInt16), size ≤ 65535 →
      length.toNat ≤ bytes.length →
      ∃ after, Runs (do
          OBitStream.writeUInt32 (UInt32.ofNat size) wideSizeBits
          OBitStream.writeBuffer bytes length) stream () after ∧
        after.Holds (bytesBits before ++ (lowBits wideSizeBits size ++
          bytesBits (bytes.take length.toNat))) := by
    intro size bytes length small enough
    have number : (UInt32.ofNat size).toBitVec.toNat = size := by
      rw [UInt32.toNat_toBitVec, UInt32.toNat_ofNat']
      omega
    rcases OBitStream.write_bits_appends (n := 32) (by omega) (UInt32.ofNat size).toBitVec
      wideSizeBits (by decide) stream _ holds with ⟨middle, sizeRuns, middleHolds, _⟩
    rw [number] at middleHolds
    rcases OBitStream.write_buffer_first bytes length enough middle _ middleHolds with
      ⟨after, bufferRuns, afterHolds⟩
    have none : OBitStream.padding (bytesBits before ++ lowBits wideSizeBits size).length = 0 := by
      rw [List.length_append, bytes_bits_length, low_bits_length]
      unfold OBitStream.padding wideSizeBits
      omega
    rw [none, List.replicate_zero, List.nil_append, List.append_assoc] at afterHolds
    exact ⟨after, sizeRuns.bind bufferRuns, afterHolds⟩
  cases utf8 with
  | true =>
      have cut : text.take maxLength = text := List.take_of_length_le short
      have length : (UInt32.ofNat (min (toUtf8 text).length maxLength)).toUInt16.toNat =
          min (toUtf8 text).length maxLength := by
        rw [UInt32.toNat_toUInt16, UInt32.toNat_ofNat']
        omega
      rcases write (min (toUtf8 text).length maxLength) (toUtf8 text)
        (UInt32.ofNat (min (toUtf8 text).length maxLength)).toUInt16 (by omega)
        (by rw [length]; exact Nat.min_le_left _ _) with ⟨after, runs, afterHolds⟩
      rw [length] at afterHolds
      refine ⟨after, (runs_get stream).bind ?_, afterHolds⟩
      rw [if_pos mode, cut]
      exact runs
  | false =>
      have whole : min text.length maxLength = text.length := Nat.min_eq_left short
      have length : ((UInt32.ofNat text.length).toUInt16 * 4).toNat = 4 * (text.length % 16384) := by
        rw [UInt16.toNat_mul, UInt32.toNat_toUInt16, UInt32.toNat_ofNat']
        change text.length % 2 ^ 32 % 2 ^ 16 * 4 % 2 ^ 16 = 4 * (text.length % 16384)
        omega
      rcases write text.length (wcharBytes text) ((UInt32.ofNat text.length).toUInt16 * 4) (by omega)
        (by rw [length, wchar_bytes_length]; omega) with ⟨after, runs, afterHolds⟩
      rw [length] at afterHolds
      refine ⟨after, (runs_get stream).bind ?_, afterHolds⟩
      rw [if_neg (by rw [mode]; exact Bool.false_ne_true), whole]
      exact runs

structure ReadsSize (utf8 : Bool) (maxLength : Nat) (text : List WChar) (rest : List Bool)
    (stream : IBitStream β) (strLen : UInt32) (middle : IBitStream β) : Prop where
  runs : Runs (IBitStream.readUInt32 wideSizeBits) stream strLen middle
  size : strLen.toNat = wideSize utf8 maxLength text
  mode : middle.shouldUseUtf8ForString = utf8
  remains : middle.Remains (bytesBits (wideBytes utf8 maxLength text) ++ rest)
  boundary : middle.bitReadCount = 0

theorem read_wide_size (utf8 : Bool) (maxLength : Nat) (bound : maxLength ≤ ushrtMax)
    (text : List WChar) (short : text.length ≤ maxLength) (stream : IBitStream β)
    (mode : stream.shouldUseUtf8ForString = utf8) (rest : List Bool) (whole : rest.length % 8 = 0)
    (remains : stream.Remains (lowBits wideSizeBits (wideSize utf8 maxLength text) ++
      (bytesBits (wideBytes utf8 maxLength text) ++ rest))) :
    ∃ strLen middle, ReadsSize utf8 maxLength text rest stream strLen middle := by
  have limit : maxLength ≤ 65535 := bound
  have small : wideSize utf8 maxLength text < 2 ^ 16 := by
    unfold wideSize
    split
    · omega
    · omega
  rcases IBitStream.read_bits_takes (n := 32) (by omega)
    (lowBits wideSizeBits (wideSize utf8 maxLength text)) _ (by rw [low_bits_length]; decide)
    (by rw [low_bits_length]; exact IBitStream.read_mask_narrow _ (by decide)) stream remains with
    ⟨number, middle, sizeRuns, middleRemains, same, sameMode⟩
  rw [low_bits_length] at sizeRuns
  rw [of_bits_low_bits, wideSizeBits, Nat.mod_eq_of_lt small] at same
  refine ⟨UInt32.ofBitVec number, middle, sizeRuns.bind (runs_pure _ _), same, sameMode.trans mode,
    middleRemains, ?_⟩
  have total := middleRemains.total
  have position := middleRemains.position
  rw [List.length_append, bytes_bits_length] at total
  omega

theorem ReadsSize.positive {utf8 : Bool} {maxLength : Nat} {text : List WChar} {rest : List Bool}
    {stream middle : IBitStream β} {strLen : UInt32}
    (reads : ReadsSize utf8 maxLength text rest stream strLen middle) :
    strLen > 0 ↔ 0 < wideSize utf8 maxLength text := by
  rw [gt_iff_lt, UInt32.lt_iff_toNat_lt, reads.size]
  exact Iff.rfl

theorem ReadsSize.take {utf8 : Bool} {maxLength : Nat} {text : List WChar} {rest : List Bool}
    {stream middle : IBitStream β} {strLen : UInt32}
    (reads : ReadsSize utf8 maxLength text rest stream strLen middle) {length : UInt16}
    (exact : (wideBytes utf8 maxLength text).length = length.toNat) :
    ∃ after, Runs (IBitStream.readBuffer length) middle (wideBytes utf8 maxLength text) after ∧
      after.Remains rest := by
  rcases IBitStream.read_buffer_takes middle [] _ rest length exact reads.remains
    (by rw [reads.boundary]; rfl) with ⟨after, runs, afterRemains, _⟩
  exact ⟨after, runs, afterRemains⟩

theorem ReadsSize.readUtf8 {maxLength : Nat} (bound : maxLength ≤ ushrtMax) {text : List WChar}
    (short : text.length ≤ maxLength) (valid : ∀ wc ∈ text, wc.Valid) {rest : List Bool}
    {stream middle : IBitStream β} {strLen : UInt32}
    (reads : ReadsSize true maxLength text rest stream strLen middle) :
    ∃ value after, Runs (IBitStream.readWString maxLength wideSizeBits) stream value after ∧
      after.Remains rest ∧ (value = text ↔ WideStringKept true maxLength text) := by
  have limit : maxLength ≤ 65535 := bound
  have restored := wide_string_restored_iff valid short (min (toUtf8 text).length maxLength)
  have kept : (toUtf8 text).length ≤ min (toUtf8 text).length maxLength ↔
      WideStringKept true maxLength text := by
    rw [WideStringKept, if_pos rfl]
    omega
  have length : (wideBytes true maxLength text).length = strLen.toUInt16.toNat := by
    rw [UInt32.toNat_toUInt16, reads.size, wideBytes, wideSize, if_pos rfl, if_pos rfl,
      List.length_take]
    omega
  by_cases some : strLen > 0
  · rcases reads.take length with ⟨after, runs, afterRemains⟩
    refine ⟨_, after, reads.runs.bind ((runs_get middle).bind ?_), afterRemains, restored.trans kept⟩
    rw [if_pos some, if_pos reads.mode]
    apply runs.returning
    have exact : strLen.toNat = (wideBytes true maxLength text).length := by
      rw [reads.size, wideBytes, wideSize, if_pos rfl, if_pos rfl, List.length_take]
      omega
    rw [exact, zero_padded_exact]
    rfl
  · have none : min (toUtf8 text).length maxLength = 0 := by
      rw [reads.positive] at some
      exact Nat.eq_zero_of_not_pos some
    have remains := reads.remains
    rw [wideBytes, if_pos rfl, none, List.take_zero, bytes_bits_nil, List.nil_append] at remains
    rw [none, List.take_zero] at restored
    rw [none] at kept
    refine ⟨[], middle, reads.runs.bind ((runs_get middle).bind ?_), remains, ?_⟩
    · rw [if_neg some]
      exact runs_pure _ _
    · rw [← kept, ← restored]
      simp [fromUtf8, Utf8.decodeAll]

theorem ReadsSize.readRaw {maxLength : Nat} (bound : maxLength ≤ ushrtMax) {text : List WChar}
    (short : text.length ≤ maxLength) {rest : List Bool} {stream middle : IBitStream β}
    {strLen : UInt32} (reads : ReadsSize false maxLength text rest stream strLen middle) :
    ∃ value after, Runs (IBitStream.readWString maxLength wideSizeBits) stream value after ∧
      after.Remains rest ∧ (value = text ↔ WideStringKept false maxLength text) := by
  have limit : maxLength ≤ 65535 := bound
  have filled := wide_string_filled_iff text (text.length % 16384)
  have length : (wideBytes false maxLength text).length = (strLen.toUInt16 * 4).toNat := by
    rw [UInt16.toNat_mul, UInt32.toNat_toUInt16, reads.size]
    change ((wcharBytes text).take _).length = text.length % 2 ^ 16 * 4 % 2 ^ 16
    rw [List.length_take, wchar_bytes_length]
    omega
  have value : (bytesWChars strLen.toNat (wideBytes false maxLength text)).take maxLength =
      text.take (text.length % 16384) ++
        List.replicate (text.length - text.length % 16384) 0 := by
    rw [reads.size]
    change (bytesWChars text.length ((wcharBytes text).take _)).take maxLength = _
    rw [bytes_wchars_take, List.take_of_length_le]
    rw [List.length_append, List.length_take, List.length_replicate]
    omega
  by_cases some : strLen > 0
  · rcases reads.take length with ⟨after, runs, afterRemains⟩
    refine ⟨_, after, reads.runs.bind ((runs_get middle).bind ?_), afterRemains, filled⟩
    rw [if_pos some, if_neg (by rw [reads.mode]; exact Bool.false_ne_true)]
    exact runs.returning value
  · have none : text = [] := by
      rw [reads.positive] at some
      exact List.eq_nil_of_length_eq_zero (Nat.eq_zero_of_not_pos some)
    have remains := reads.remains
    subst none
    refine ⟨[], middle, reads.runs.bind ((runs_get middle).bind ?_), remains, filled⟩
    rw [if_neg some]
    exact runs_pure _ _

/-- The reader makes a string of the bytes that were written, and stays in step. -/
theorem read_wstring_takes (utf8 : Bool) (maxLength : Nat) (bound : maxLength ≤ ushrtMax)
    (text : List WChar) (short : text.length ≤ maxLength) (valid : ∀ wc ∈ text, wc.Valid)
    (stream : IBitStream β) (mode : stream.shouldUseUtf8ForString = utf8) (rest : List Bool)
    (whole : rest.length % 8 = 0)
    (remains : stream.Remains (lowBits wideSizeBits (wideSize utf8 maxLength text) ++
      (bytesBits (wideBytes utf8 maxLength text) ++ rest))) :
    ∃ value after, Runs (IBitStream.readWString maxLength wideSizeBits) stream value after ∧
      after.Remains rest ∧ (value = text ↔ WideStringKept utf8 maxLength text) := by
  rcases read_wide_size utf8 maxLength bound text short stream mode rest whole remains with
    ⟨strLen, middle, reads⟩
  cases utf8 with
  | true => exact reads.readUtf8 bound short valid
  | false => exact reads.readRaw bound short

def writeWideString {σ : Type} [OStream σ] (text : List WChar) (maxLength : Nat)
    (fields : List Field) : StreamM σ Unit := do
  OStream.writeWString text maxLength wideSizeBits
  writeFields fields

def readWideString {σ : Type} [IStream σ] (maxLength : Nat) (types : List FieldType) :
    StreamM σ (List WChar × List FieldValue) := do
  let text ← IStream.readWString maxLength wideSizeBits
  let values ← readFields types
  pure (text, values)

/-- The fields behind the string are always read back; the string is exactly when no
character of it was cut off. -/
theorem wide_string_kept_iff (utf8 : Bool) (maxLength : Nat) (bound : maxLength ≤ 65535)
    (text : List WChar) (short : text.length ≤ maxLength) (valid : ∀ wc ∈ text, wc.Valid)
    (fields : List Field) (writer : OBitStream β) (writerMode : writer.shouldUseUtf8ForString = utf8)
    (before : List UInt8) (aligned : writer.HoldsBytes before) :
    ∃ written, Runs (writeWideString text maxLength fields) writer () written ∧
      ∀ reader : IBitStream β, reader.shouldUseUtf8ForString = utf8 →
        reader.RemainsBytes ((FifoBuffer.contents written.streamBuffer).drop before.length) →
        ∃ value after, Runs (readWideString maxLength (fields.map Field.type)) reader
            (value, fields.map Field.toValue) after ∧
          (value = text ↔ WideStringKept utf8 maxLength text) := by
  rcases write_wstring_appends utf8 maxLength bound text short writer writerMode before
    ((OBitStream.holds_bytes_iff writer before).mp aligned) with ⟨middle, textRuns, middleHolds⟩
  rcases write_fields_appends fields middle _ middleHolds with ⟨written, fieldRuns, holds⟩
  refine ⟨written, textRuns.bind fieldRuns, ?_⟩
  intro reader readerMode position
  have remains := (IBitStream.remains_bytes_iff reader _).mp position
  rw [bytes_bits_drop, holds.packed, List.append_assoc, List.append_assoc,
    List.drop_left' (bytes_bits_length before), List.append_assoc] at remains
  -- the string takes whole bytes, so that the fields start on a byte boundary
  generalize start : (bytesBits before ++ (lowBits wideSizeBits (wideSize utf8 maxLength text) ++
    bytesBits (wideBytes utf8 maxLength text))).length = offset at remains
  have boundary : offset % 8 = 0 := by
    rw [← start, List.length_append, List.length_append, bytes_bits_length, low_bits_length,
      bytes_bits_length, wideSizeBits]
    omega
  have whole : (fieldsBits offset fields ++ List.replicate (OBitStream.padding
      ((bytesBits before ++ (lowBits wideSizeBits (wideSize utf8 maxLength text) ++
        bytesBits (wideBytes utf8 maxLength text))) ++ fieldsBits offset fields).length)
      false).length % 8 = 0 := by
    rw [List.length_append, List.length_append, List.length_replicate, start]
    unfold OBitStream.padding
    omega
  rcases read_wstring_takes utf8 maxLength bound text short valid reader readerMode _ whole remains
    with ⟨value, after, textReads, afterRemains, kept⟩
  rcases read_fields_takes fields after offset _ (by omega) afterRemains with
    ⟨last, fieldReads, _⟩
  exact ⟨value, last, textReads.bind (fieldReads.bind (runs_pure _ _)), kept⟩

end Fifo

theorem wide_string_kept_short :
    ∃ written after, Runs (writeWideString [0xac00, 0x61] 4 [⟨.uint8 3, 5, by decide⟩])
        (OBitStream.create (ByteQueue.mk []) true) () written ∧
      Runs (readWideString 4 [.uint8 3]) (IBitStream.create written.streamBuffer true)
        ([0xac00, 0x61], [⟨.uint8 3, (5 : UInt8)⟩]) after := by
  rcases wide_string_kept_iff true 4 (by decide) [0xac00, 0x61] (by decide)
    (by simp [WChar.Valid]) [⟨.uint8 3, 5, by decide⟩] (OBitStream.create (ByteQueue.mk []) true) rfl
    [] ⟨rfl, rfl⟩ with ⟨written, writeRuns, reads⟩
  rcases reads (IBitStream.create written.streamBuffer true) rfl ⟨rfl, rfl⟩ with
    ⟨value, after, readRuns, kept⟩
  have same := kept.mpr (by decide)
  subst same
  exact ⟨written, after, writeRuns, readRuns⟩

/-- One character of three octets with a `maxLength` of two: the octets are cut. -/
theorem wide_character_is_cut :
    Runs (OBitStream.writeWString [0xac00] 2 16) (OBitStream.create (ByteQueue.mk []) true) ()
        ⟨ByteQueue.mk [2, 0, 0xea, 0xb0], true, 0, 32⟩ ∧
      Runs (IBitStream.readWString 2 16)
        (IBitStream.create (ByteQueue.mk [2, 0, 0xea, 0xb0]) true) [] ⟨ByteQueue.mk [], true, 0⟩ ∧
      ([] : List WChar) ≠ [0xac00] :=
  ⟨rfl, rfl, by decide⟩

end Sne.Core
