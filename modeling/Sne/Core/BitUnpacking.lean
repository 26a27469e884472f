import Sne.Library.Bits
import Sne.Core.IBitStream
import Mathlib.Tactic.Linarith

/-!
# What the input bit stream reads

`Remains stream bits` says that the unread part of the stream is exactly `bits`.
The bits of the front byte that have been read are not part of it, so the
position in that byte follows from the length of `bits`.
-/

namespace Sne.Core.IBitStream

open Sne.Library.Exec Sne.Library.Bits

set_option autoImplicit false

section Fifo

variable {β : Type} [FifoBuffer β]

/-- The loop gathers the bits of the following bytes behind those already seen. -/
theorem read_left_bits_gathers {n : Nat} (fuel leftBitCount : Nat) (seen : List Bool)
    (result : BitVec n) (enough : leftBitCount ≤ fuel)
    (gathered : ∀ index < n, result.getLsbD index = seen.getD index false)
    (buffer : β) (item : UInt8) (rest : List UInt8)
    (contents : FifoBuffer.contents buffer = item :: rest) (need : toBytes leftBitCount ≤ rest.length) :
    ∃ raw after, Runs (readLeftBits fuel leftBitCount seen.length result) buffer raw after ∧
      FifoBuffer.contents after = (item :: rest).drop (toBytes leftBitCount) ∧
      ∀ index < n, raw.getLsbD index =
        (seen ++ bytesBits (rest.take (toBytes leftBitCount))).getD index false := by
  induction fuel generalizing leftBitCount seen result buffer item rest with
  | zero =>
      have none : leftBitCount = 0 := by omega
      subst none
      refine ⟨result, buffer, runs_pure _ _, ?_, ?_⟩
      · simpa [toBytes, charBit] using contents
      · intro index bound
        simpa [toBytes, charBit] using gathered index bound
  | succ fuel induction =>
      by_cases more : leftBitCount > 0
      · have bytes : toBytes leftBitCount = toBytes (leftBitCount - charBit) + 1 := by
          unfold toBytes charBit
          omega
        obtain ⟨next, others, split⟩ : ∃ next others, rest = next :: others := by
          cases rest with
          | nil => simp at need; omega
          | cons next others => exact ⟨next, others, rfl⟩
        subst split
        have popped : FifoBuffer.contents (StreamBuffer.pop buffer) = next :: others := by
          rw [FifoBuffer.pop_contents, contents]
          rfl
        have front : StreamBuffer.front (StreamBuffer.pop buffer) = next :=
          FifoBuffer.front_contents _ _ _ popped
        have nextGathered : ∀ index < n,
            (result ||| (frontBits n (StreamBuffer.pop buffer) <<< seen.length)).getLsbD index =
              (seen ++ byteBits next).getD index false := by
          intro index bound
          rw [BitVec.getLsbD_or, gathered index bound, BitVec.getLsbD_shiftLeft]
          by_cases old : index < seen.length
          · rw [List.getD_append _ _ _ _ old]
            simp [old]
          · have outside : seen.getD index false = false := by
              simp [List.getD_eq_getElem?_getD, List.getElem?_eq_none (show seen.length ≤ index by omega)]
            rw [List.getD_append_right _ _ _ _ (by omega), outside, frontBits, front]
            rw [byte_bits_getD, BitVec.getLsbD_setWidth]
            have position : index - seen.length < n := by omega
            simp [old, bound, position, BitVec.getLsbD, ← UInt8.toNat_toBitVec]
        obtain ⟨raw, after, runs, afterContents, afterBits⟩ := induction (leftBitCount - charBit)
          (seen ++ byteBits next)
          (result ||| (frontBits n (StreamBuffer.pop buffer) <<< seen.length))
          (by unfold charBit; omega) nextGathered (StreamBuffer.pop buffer) next others popped
          (by simp at need; omega)
        refine ⟨raw, after, ?_, ?_, ?_⟩
        · unfold readLeftBits
          rw [if_pos more]
          refine (runs_modify _ _).bind ((runs_get _).bind ?_)
          simpa [charBit] using runs
        · rw [afterContents, bytes]
          rfl
        · intro index bound
          rw [afterBits index bound, bytes]
          simp
      · have none : leftBitCount = 0 := by omega
        subst none
        refine ⟨result, buffer, ?_, ?_, ?_⟩
        · unfold readLeftBits
          rw [if_neg more]
          exact runs_pure _ _
        · simpa [toBytes, charBit] using contents
        · intro index bound
          simpa [toBytes, charBit] using gathered index bound

/-- The unread bits of the stream are `bits`. -/
structure Remains (stream : IBitStream β) (bits : List Bool) : Prop where
  unread : (bytesBits (FifoBuffer.contents stream.streamBuffer)).drop stream.bitReadCount = bits
  position : stream.bitReadCount < 8
  total : bits.length + stream.bitReadCount =
    8 * (FifoBuffer.contents stream.streamBuffer).length

theorem create_remains (buffer : β) (utf8 : Bool) :
    Remains (create buffer utf8) (bytesBits (FifoBuffer.contents buffer)) := by
  constructor
  · simp [create]
  · simp [create]
  · simp [create]

/-- Dropping whole bytes and moving the position forward skips a bit string. -/
theorem Remains.skip {stream : IBitStream β} {field rest : List Bool}
    (remains : Remains stream (field ++ rest)) (after : IBitStream β)
    (contents : FifoBuffer.contents after.streamBuffer =
      (FifoBuffer.contents stream.streamBuffer).drop ((stream.bitReadCount + field.length) / 8))
    (position : after.bitReadCount = (stream.bitReadCount + field.length) % 8) :
    Remains after rest := by
  have total := remains.total
  rw [List.length_append] at total
  constructor
  · have place : 8 * ((stream.bitReadCount + field.length) / 8) +
        (stream.bitReadCount + field.length) % 8 = stream.bitReadCount + field.length :=
      Nat.div_add_mod _ _
    rw [contents, position, bytes_bits_drop, List.drop_drop, place, ← List.drop_drop,
      remains.unread]
    simp
  · rw [position]
    omega
  · rw [contents, position, List.length_drop]
    omega

theorem front_bits_shifted {n : Nat} (wide : 8 ≤ n) (buffer : β) (item : UInt8) (used index : Nat)
    (front : StreamBuffer.front buffer = item) :
    (frontBits n buffer >>> used).getLsbD index = ((byteBits item).drop used).getD index false := by
  have dropped : ((byteBits item).drop used).getD index false =
      (byteBits item).getD (used + index) false := by
    simp [List.getD_eq_getElem?_getD]
  rw [dropped, byte_bits_getD, BitVec.getLsbD_ushiftRight, frontBits, front,
    BitVec.getLsbD_setWidth, BitVec.getLsbD, UInt8.toNat_toBitVec]
  by_cases inside : used + index < n
  · simp [inside]
  · have small : item.toNat < 2 ^ (used + index) :=
      Nat.lt_of_lt_of_le item.toNat_lt (Nat.pow_le_pow_right (by omega) (by omega))
    simp [inside, Nat.testBit_lt_two_pow small]

theorem masked_bits {n kept : Nat} {raw mask : BitVec n} {field : List Bool}
    (short : kept ≤ field.length)
    (fits : field.length ≤ n)
    (rawBits : ∀ index < field.length, raw.getLsbD index = field.getD index false)
    (keeps : ∀ index < n, mask.getLsbD index = decide (index < kept)) :
    (raw &&& mask).toNat = ofBits (field.take kept) := by
  apply Nat.eq_of_testBit_eq
  intro index
  rw [of_bits_testBit, ← BitVec.getLsbD, BitVec.getLsbD_and]
  by_cases inside : index < kept
  · rw [keeps index (by omega), rawBits index (by omega), List.getD_eq_getElem?_getD,
      List.getD_eq_getElem?_getD, List.getElem?_take_of_lt inside]
    simp [inside]
  · have cleared : mask.getLsbD index = false := by
      by_cases low : index < n
      · rw [keeps index low]
        simpa using inside
      · exact BitVec.getLsbD_of_ge _ _ (by omega)
    rw [cleared, List.getD_eq_getElem?_getD, List.getElem?_eq_none (by simp; omega)]
    simp

/-- The bits that the loop gathered begin with the field. -/
theorem gathered_field {stream : IBitStream β} {field rest : List Bool} {item : UInt8}
    {others : List UInt8}
    (remains : Remains stream (field ++ rest))
    (split : FifoBuffer.contents stream.streamBuffer = item :: others)
    (enough : toBytes (field.length - (charBit - stream.bitReadCount)) ≤ others.length)
    (index : Nat) (bound : index < field.length) :
    ((byteBits item).drop stream.bitReadCount ++ bytesBits
      (others.take (toBytes (field.length - (charBit - stream.bitReadCount))))).getD index false =
        field.getD index false := by
  have position := remains.position
  have unread := remains.unread
  rw [split, bytes_bits_cons, List.drop_append_of_le_length (by simp; omega),
    ← List.take_append_drop (toBytes (field.length - (charBit - stream.bitReadCount))) others,
    bytes_bits_append, ← List.append_assoc] at unread
  have bits := congrArg (fun list => list.getD index false) unread
  have reach : index < ((byteBits item).drop stream.bitReadCount ++ bytesBits
      (others.take (toBytes (field.length - (charBit - stream.bitReadCount))))).length := by
    rw [List.length_append, List.length_drop, byte_bits_length, bytes_bits_length, List.length_take]
    unfold toBytes charBit at *
    omega
  simpa only [List.getD_append _ _ _ _ reach, List.getD_append _ _ _ _ bound] using bits

/-- The last statements: a byte of which all bits are read is popped. -/
theorem advance_runs {n : Nat} (stream : IBitStream β) (bitReadCount : Nat) (value : BitVec n) :
    ∃ after, Runs (do
        modify fun stream => { stream with bitReadCount }
        guarded (decide (bitReadCount = 0)) (onBuffer (modify StreamBuffer.pop))
        pure value) stream value after ∧
      after.bitReadCount = bitReadCount ∧
      FifoBuffer.contents after.streamBuffer =
        (FifoBuffer.contents stream.streamBuffer).drop (if bitReadCount = 0 then 1 else 0) ∧
      after.shouldUseUtf8ForString = stream.shouldUseUtf8ForString := by
  by_cases boundary : bitReadCount = 0
  · refine ⟨_, (runs_modify _ _).bind ((Runs.guarded (by simpa using boundary)
      (runs_modify _ _).focus).bind (runs_pure _ _)), rfl, ?_, rfl⟩
    rw [if_pos boundary, FifoBuffer.pop_contents, List.drop_one]
  · refine ⟨_, (runs_modify _ _).bind ((runs_guarded_skip (by simpa using boundary) _ _).bind
      (runs_pure _ _)), rfl, ?_, rfl⟩
    rw [if_neg boundary, List.drop_zero]

/-- Every reader of a field of at most `n` bits goes through this one. The whole field
is taken from the stream, and the mask keeps its first `kept` bits. -/
theorem read_bits_keeps {n : Nat} (wide : 8 ≤ n) (field rest : List Bool) {kept : Nat}
    (short : kept ≤ field.length) (valid : isEnoughBits n field.length = true)
    (mask : ∀ index < n, (readMask n field.length).getLsbD index = decide (index < kept))
    (stream : IBitStream β) (remains : Remains stream (field ++ rest)) :
    ∃ value after, Runs (readBitsImpl n field.length) stream value after ∧
      Remains after rest ∧ value.toNat = ofBits (field.take kept) ∧
      after.shouldUseUtf8ForString = stream.shouldUseUtf8ForString := by
  have range := (is_enough_bits_iff n field.length).mp valid
  have total := remains.total
  have position := remains.position
  rw [List.length_append] at total
  obtain ⟨item, others, split⟩ :
      ∃ item others, FifoBuffer.contents stream.streamBuffer = item :: others := by
    cases found : FifoBuffer.contents stream.streamBuffer with
    | nil =>
        rw [found, List.length_nil] at total
        omega
    | cons item others => exact ⟨item, others, rfl⟩
  rw [split, List.length_cons] at total
  have front := FifoBuffer.front_contents _ _ _ split
  have seenLength : ((byteBits item).drop stream.bitReadCount).length =
      charBit - stream.bitReadCount := by
    simp [charBit]
  have enough : toBytes (field.length - (charBit - stream.bitReadCount)) ≤ others.length := by
    unfold toBytes charBit
    omega
  obtain ⟨raw, looped, loopRuns, loopContents, loopBits⟩ := read_left_bits_gathers
    (field.length - (charBit - stream.bitReadCount))
    (field.length - (charBit - stream.bitReadCount))
    ((byteBits item).drop stream.bitReadCount)
    (frontBits n stream.streamBuffer >>> stream.bitReadCount) (Nat.le_refl _)
    (fun index _ => front_bits_shifted wide _ item _ index front)
    stream.streamBuffer item others split enough
  rw [seenLength] at loopRuns
  have loop : Runs (onBuffer (readLeftBits (field.length - (charBit - stream.bitReadCount))
      (field.length - (charBit - stream.bitReadCount)) (charBit - stream.bitReadCount)
      (frontBits n stream.streamBuffer >>> stream.bitReadCount))) stream raw
      { stream with streamBuffer := looped } := loopRuns.focus
  have sizeEnough : (!decide (StreamBuffer.size stream.streamBuffer <
      toBytes (field.length - (charBit - stream.bitReadCount)) + 1)) = true := by
    rw [FifoBuffer.size_contents, split, List.length_cons]
    simp
    omega
  have rawBits : ∀ index < field.length, raw.getLsbD index = field.getD index false := by
    intro index bound
    rw [loopBits index (by omega)]
    exact gathered_field remains split enough index bound
  have value : (raw &&& readMask n field.length).toNat = ofBits (field.take kept) :=
    masked_bits short (by omega) rawBits mask
  have newPosition : (stream.bitReadCount + field.length) &&& (charBit - 1) =
      (stream.bitReadCount + field.length) % 8 := by
    rw [show charBit - 1 = 2 ^ 3 - 1 from rfl, Nat.and_two_pow_sub_one_eq_mod]
  obtain ⟨after, advances, advanced, afterContents, sameMode⟩ := advance_runs
    { stream with streamBuffer := looped } ((stream.bitReadCount + field.length) &&& (charBit - 1))
    (raw &&& readMask n field.length)
  refine ⟨_, after, (runs_require valid _ _).bind ((runs_get _).bind
    ((runs_require sizeEnough _ _).bind (loop.bind advances))), ?_, value, sameMode⟩
  rw [newPosition] at advanced afterContents
  apply remains.skip after ?_ advanced
  rw [afterContents, loopContents, split, List.drop_drop]
  congr 1
  unfold toBytes charBit
  split_ifs <;> omega

/-- A mask of the width of the field keeps all of it. -/
theorem read_bits_takes {n : Nat} (wide : 8 ≤ n) (field rest : List Bool)
    (valid : isEnoughBits n field.length = true)
    (mask : ∀ index < n, (readMask n field.length).getLsbD index = decide (index < field.length))
    (stream : IBitStream β) (remains : Remains stream (field ++ rest)) :
    ∃ value after, Runs (readBitsImpl n field.length) stream value after ∧
      Remains after rest ∧ value.toNat = ofBits field ∧
      after.shouldUseUtf8ForString = stream.shouldUseUtf8ForString := by
  have kept := read_bits_keeps wide field rest (Nat.le_refl _) valid mask stream remains
  rw [List.take_length] at kept
  exact kept

theorem align_skips (stream : IBitStream β) (fill rest : List Bool)
    (remains : Remains stream (fill ++ rest)) (exact : fill.length = (8 - stream.bitReadCount) % 8) :
    ∃ after, Runs align stream () after ∧ Remains after rest ∧ after.bitReadCount = 0 ∧
      after.shouldUseUtf8ForString = stream.shouldUseUtf8ForString := by
  have position := remains.position
  by_cases boundary : stream.bitReadCount = 0
  · refine ⟨{ stream with bitReadCount := 0 }, (runs_get _).bind
      ((runs_guarded_skip (by simpa using boundary) _ _).bind (runs_modify _ _)), ?_, rfl, rfl⟩
    apply remains.skip
    · rw [exact, boundary]
      simp
    · rw [exact, boundary]
  · refine ⟨_, (runs_get _).bind ((Runs.guarded (by simp; omega) (runs_modify _ _).focus).bind
      (runs_modify _ _)), ?_, rfl, rfl⟩
    apply remains.skip
    · have one : (stream.bitReadCount + fill.length) / 8 = 1 := by omega
      rw [FifoBuffer.pop_contents, one, List.drop_one]
    · simp only
      omega

theorem read_buffer_takes (stream : IBitStream β) (fill : List Bool) (bytes : List UInt8)
    (rest : List Bool) (length : UInt16) (sameLength : bytes.length = length.toNat)
    (remains : Remains stream (fill ++ (bytesBits bytes ++ rest)))
    (exact : fill.length = (8 - stream.bitReadCount) % 8) :
    ∃ after, Runs (readBuffer length) stream bytes after ∧ Remains after rest ∧
      after.shouldUseUtf8ForString = stream.shouldUseUtf8ForString := by
  obtain ⟨aligned, alignRuns, alignRemains, boundary, sameMode⟩ :=
    align_skips stream fill _ remains exact
  have unread := alignRemains.unread
  rw [boundary, List.drop_zero] at unread
  have total := alignRemains.total
  rw [boundary, List.length_append, bytes_bits_length] at total
  have reach : length.toNat ≤ (FifoBuffer.contents aligned.streamBuffer).length := by omega
  have found : (FifoBuffer.contents aligned.streamBuffer).take length.toNat = bytes := by
    apply bytes_bits_injective
    have split := congrArg bytesBits
      (List.take_append_drop length.toNat (FifoBuffer.contents aligned.streamBuffer))
    rw [bytes_bits_append, unread] at split
    have lengths : (bytesBits ((FifoBuffer.contents aligned.streamBuffer).take
        length.toNat)).length = (bytesBits bytes).length := by
      rw [bytes_bits_length, bytes_bits_length, List.length_take]
      omega
    exact (List.append_inj split lengths).1
  obtain ⟨copied, copyRuns, copyContents⟩ :=
    FifoBuffer.copyTo_runs length.toNat aligned.streamBuffer reach
  rw [found] at copyRuns
  refine ⟨_, alignRuns.bind copyRuns.focus, ?_, sameMode⟩
  apply alignRemains.skip
  · rw [copyContents, boundary, bytes_bits_length]
    congr 1
    omega
  · simp only [boundary, bytes_bits_length]
    omega

/-- The stream stands on the byte boundary before these bytes. -/
def RemainsBytes (stream : IBitStream β) (bytes : List UInt8) : Prop :=
  FifoBuffer.contents stream.streamBuffer = bytes ∧ stream.bitReadCount = 0

theorem remains_bytes_iff (stream : IBitStream β) (bytes : List UInt8) :
    stream.RemainsBytes bytes ↔ stream.Remains (bytesBits bytes) := by
  constructor
  · rintro ⟨rfl, boundary⟩
    constructor
    · rw [boundary, List.drop_zero]
    · omega
    · rw [boundary, bytes_bits_length, Nat.add_zero]
  · intro remains
    have total := remains.total
    have position := remains.position
    have unread := remains.unread
    rw [bytes_bits_length] at total
    have boundary : stream.bitReadCount = 0 := by omega
    rw [boundary, List.drop_zero] at unread
    exact ⟨bytes_bits_injective unread, boundary⟩

end Fifo

theorem int_mask_bits (bitCount : Nat) (narrow : bitCount < 32) (index : Nat) :
    (intMask bitCount).getLsbD index = decide (index < bitCount) := by
  have value : (intMask bitCount).toNat = 2 ^ bitCount - 1 := by
    have positive : 0 < 2 ^ bitCount := Nat.two_pow_pos _
    have power : 2 ^ bitCount < 2 ^ 32 := Nat.pow_lt_pow_right (by omega) narrow
    rw [intMask, Nat.mod_eq_of_lt narrow, BitVec.toNat_sub, BitVec.toNat_shiftLeft,
      BitVec.toNat_ofNat, Nat.one_mod_two_pow (by omega), Nat.one_shiftLeft, Nat.mod_eq_of_lt power,
      show 2 ^ 32 - 1 + 2 ^ bitCount = (2 ^ bitCount - 1) + 2 ^ 32 by omega, Nat.add_mod_right]
    exact Nat.mod_eq_of_lt (by omega)
  rw [BitVec.getLsbD, value, Nat.testBit_two_pow_sub_one]

/-- The `int` mask meets a 64-bit value: the shift count was taken modulo 32, and the
extended sign bit is 0. -/
theorem int_mask_extended (bitCount index : Nat) :
    ((intMask bitCount).signExtend 64).getLsbD index = decide (index < bitCount % 32) := by
  have small : bitCount % 32 < 32 := Nat.mod_lt _ (by omega)
  have same : intMask bitCount = intMask (bitCount % 32) := by
    unfold intMask
    rw [Nat.mod_mod]
  rw [same, BitVec.getLsbD_signExtend, int_mask_bits _ small, BitVec.msb_eq_getLsbD_last,
    int_mask_bits _ small]
  by_cases low : index < 32
  · simp [low, show index < 64 by omega]
  · simp [low, show ¬31 < bitCount % 32 by omega, show ¬index < bitCount % 32 by omega]

theorem read_mask_full (n index : Nat) (inside : index < n) :
    (readMask n n).getLsbD index = decide (index < n) := by
  have ones : ∀ place, (~~~0#32).getLsbD place = decide (place < 32) := by
    intro place
    rw [BitVec.getLsbD_not, BitVec.getLsbD_zero]
    simp
  unfold readMask
  rw [if_neg (by omega), BitVec.getLsbD_signExtend, ones, BitVec.msb_eq_getLsbD_last, ones]
  by_cases low : index < 32 <;> simp [inside, low]

theorem read_mask_narrow (bitCount : Nat) (bound : bitCount ≤ 32) (index : Nat) (inside : index < 32) :
    (readMask 32 bitCount).getLsbD index = decide (index < bitCount) := by
  by_cases narrow : bitCount < 32
  · unfold readMask
    rw [if_pos narrow, BitVec.getLsbD_signExtend, int_mask_bits bitCount narrow]
    simp [inside]
  · rw [show bitCount = 32 by omega]
    exact read_mask_full 32 index inside

end Sne.Core.IBitStream
