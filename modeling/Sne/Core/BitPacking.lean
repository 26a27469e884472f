import Sne.Library.Bits
import Sne.Core.OBitStream
import Mathlib.Tactic.Linarith

/-!
# What the output bit stream writes

`Holds stream bits` says that the buffer of `stream` is exactly `bits`, packed
least significant bit first and filled up with zero bits to a whole byte, and
that `holdingBitCount` is the position in the last byte. Each writer appends a
known bit string to it.
-/

namespace Sne.Core.OBitStream

open Sne.Library.Exec Sne.Library.Bits

set_option autoImplicit false

def padding (position : Nat) : Nat := (8 - position % 8) % 8

theorem to_item_bits {n : Nat} (value : BitVec n) : byteBits (toItem value) = lowBits 8 value.toNat := by
  have small : (toItem value).toNat = value.toNat % 2 ^ 8 := by
    simp [toItem]
  rw [byteBits, small, low_bits_mod]

theorem reset_unused_bits_toNat {n : Nat} (value : BitVec n) (bitCount : Nat) (bound : bitCount ≤ n) :
    (resetUnusedBits value bitCount).toNat = value.toNat % 2 ^ bitCount := by
  unfold resetUnusedBits
  split
  · rename_i narrow
    have mask : ((1#n <<< bitCount) - 1#n).toNat = 2 ^ bitCount - 1 := by
      have power : 2 ^ bitCount < 2 ^ n := Nat.pow_lt_pow_right (by omega) narrow
      have positive : 0 < 2 ^ bitCount := Nat.two_pow_pos _
      have one : (1#n).toNat = 1 := by simp; omega
      rw [BitVec.toNat_sub, BitVec.toNat_shiftLeft, one, Nat.one_shiftLeft, Nat.mod_eq_of_lt power]
      rw [show 2 ^ n - 1 + 2 ^ bitCount = (2 ^ bitCount - 1) + 2 ^ n by omega, Nat.add_mod_right]
      exact Nat.mod_eq_of_lt (by omega)
    rw [BitVec.toNat_and, mask, Nat.and_two_pow_sub_one_eq_mod]
  · have same : bitCount = n := by omega
    rw [same, Nat.mod_eq_of_lt value.isLt]

theorem or_to_item_bits {n : Nat} (wide : 8 ≤ n) (last : UInt8) (value : BitVec n) (used : List Bool)
    (short : used.length ≤ 8)
    (lastBits : byteBits last = used ++ List.replicate (8 - used.length) false) :
    byteBits (last ||| toItem (value <<< used.length)) =
      used ++ lowBits (8 - used.length) value.toNat := by
  have lastBit : ∀ index, index < 8 → last.toNat.testBit index = used.getD index false := by
    intro index bound
    have bit : (byteBits last).getD index false = last.toNat.testBit index := by
      rw [List.getD_eq_getElem _ _ (by simpa using bound)]
      simp [byteBits, low_bits_getElem]
    rw [← bit, lastBits]
    by_cases inside : index < used.length
    · rw [List.getD_append _ _ _ _ inside]
    · rw [List.getD_append_right _ _ _ _ (by omega)]
      have outside : used[index]? = none := List.getElem?_eq_none (by omega)
      rw [List.getD_replicate _ (by omega)]
      simp [List.getD_eq_getElem?_getD, outside]
  apply List.ext_getElem
  · simp
    omega
  · intro index leftBound rightBound
    have bound : index < 8 := by simpa using leftBound
    have item : (toItem (value <<< used.length)).toNat = ((value <<< used.length).toNat) % 2 ^ 8 := by
      simp [toItem]
    have shifted : (value <<< used.length).toNat.testBit index =
        (decide (used.length ≤ index) && value.toNat.testBit (index - used.length)) := by
      rw [BitVec.toNat_shiftLeft, Nat.testBit_mod_two_pow, Nat.testBit_shiftLeft]
      simp [show index < n by omega]
    simp only [byteBits, low_bits_getElem, UInt8.toNat_or, Nat.testBit_or, item,
      Nat.testBit_mod_two_pow, bound, decide_true, Bool.true_and, shifted]
    rw [lastBit index bound]
    by_cases inside : index < used.length
    · rw [List.getElem_append_left inside, List.getD_eq_getElem _ _ inside]
      simp [show ¬used.length ≤ index by omega]
    · rw [List.getElem_append_right (by omega), low_bits_getElem]
      simp [List.getD_eq_getElem?_getD, show used.length ≤ index by omega]

section Fifo

variable {β : Type} [FifoBuffer β]

/-- The loop pushes the remaining bits, filled up to whole bytes. -/
theorem write_left_bits_appends {n : Nat} (fuel leftBitCount : Nat) (theValue : BitVec n)
    (enough : leftBitCount ≤ fuel) (some : 0 < leftBitCount)
    (small : theValue.toNat < 2 ^ leftBitCount) (buffer : β) :
    ∃ after items, Runs (writeLeftBits fuel leftBitCount theValue) buffer () after ∧
      FifoBuffer.contents after = FifoBuffer.contents buffer ++ items ∧
      bytesBits items =
        lowBits leftBitCount theValue.toNat ++ List.replicate (padding leftBitCount) false := by
  induction fuel generalizing leftBitCount theValue buffer with
  | zero => omega
  | succ fuel induction =>
      obtain ⟨pushed, pushRuns, pushContents⟩ := FifoBuffer.push_runs (toItem theValue) buffer
      by_cases more : leftBitCount > 8
      · have shifted : (theValue >>> charBit).toNat = theValue.toNat / 2 ^ 8 := by
          simp [charBit, Nat.shiftRight_eq_div_pow]
        have smaller : (theValue >>> charBit).toNat < 2 ^ (leftBitCount - charBit) := by
          rw [shifted]
          apply Nat.div_lt_of_lt_mul
          rw [← pow_add, show 8 + (leftBitCount - charBit) = leftBitCount by unfold charBit; omega]
          exact small
        obtain ⟨after, items, runs, contents, bits⟩ := induction (leftBitCount - charBit)
          (theValue >>> charBit) (by unfold charBit; omega) (by unfold charBit; omega) smaller pushed
        refine ⟨after, toItem theValue :: items,
          pushRuns.bind (runs.guarded (by simpa [charBit] using more)), ?_, ?_⟩
        · rw [contents, pushContents]
          simp
        · have split := low_bits_add 8 (leftBitCount - 8) theValue.toNat
          rw [show 8 + (leftBitCount - 8) = leftBitCount by omega] at split
          have samePadding : padding (leftBitCount - charBit) = padding leftBitCount := by
            unfold padding charBit
            omega
          rw [bytes_bits_cons, to_item_bits, bits, shifted, samePadding, split]
          simp [charBit]
      · refine ⟨pushed, [toItem theValue],
          pushRuns.bind (runs_guarded_skip (by simpa [charBit] using more) _ _), pushContents, ?_⟩
        have fill := low_bits_of_lt leftBitCount (8 - leftBitCount) theValue.toNat small
        rw [show leftBitCount + (8 - leftBitCount) = 8 by omega] at fill
        have last : padding leftBitCount = 8 - leftBitCount := by
          unfold padding
          omega
        rw [bytes_bits_cons, to_item_bits, fill, last]
        simp

/-- The buffer is `bits`, filled up with zeros to a whole number of bytes. -/
structure Holds (stream : OBitStream β) (bits : List Bool) : Prop where
  packed : bytesBits (FifoBuffer.contents stream.streamBuffer) =
    bits ++ List.replicate (padding bits.length) false
  holding : stream.holdingBitCount = bits.length % 8

/-- The total is the number of the bits, as far as an `int` counts. -/
def Counts (stream : OBitStream β) (bits : List Bool) : Prop :=
  stream.totalBitCount = (bits.length : Int).bmod (2 ^ 32)

omit [FifoBuffer β] in
theorem Counts.append {stream : OBitStream β} {bits : List Bool} (counts : stream.Counts bits)
    (more : List Bool) :
    (stream.totalBitCount + more.length).bmod (2 ^ 32) = ((bits ++ more).length : Int).bmod (2 ^ 32) := by
  rw [counts, Int.bmod_add_bmod, List.length_append, Int.natCast_add]

theorem create_holds (buffer : β) (utf8 : Bool) (fresh : FifoBuffer.contents buffer = []) :
    Holds (create buffer utf8) [] := by
  constructor
  · simp [create, fresh, padding]
  · simp [create]

/-- The first byte of a field: a new one on a byte boundary, else the last one. -/
theorem write_first_bits_appends {n : Nat} (wide : 8 ≤ n) (theValue : BitVec n)
    (stream : OBitStream β) (bits : List Bool) (holds : Holds stream bits) :
    ∃ after, Runs (writeFirstBits theValue) stream () { stream with streamBuffer := after } ∧
      bytesBits (FifoBuffer.contents after) =
        bits ++ lowBits (8 - bits.length % 8) theValue.toNat := by
  by_cases boundary : bits.length % 8 = 0
  · obtain ⟨pushed, pushRuns, pushContents⟩ :=
      FifoBuffer.push_runs (toItem theValue) stream.streamBuffer
    refine ⟨pushed, (runs_get _).bind ?_, ?_⟩
    · rw [if_neg (by rw [holds.holding, boundary]; omega)]
      exact pushRuns.focus
    · have packed := holds.packed
      rw [show padding bits.length = 0 by unfold padding; omega] at packed
      rw [pushContents, bytes_bits_append, packed, boundary]
      simp [to_item_bits]
  · have total := congrArg List.length holds.packed
    simp only [bytes_bits_length, List.length_append, List.length_replicate] at total
    have nonempty : FifoBuffer.contents stream.streamBuffer ≠ [] := by
      intro absent
      rw [absent] at total
      simp at total
      omega
    obtain ⟨init, last, split⟩ := List.eq_nil_or_concat'
      (FifoBuffer.contents stream.streamBuffer) |>.resolve_left nonempty
    have packed := holds.packed
    rw [split] at total packed
    simp only [List.length_append, List.length_cons, List.length_nil] at total
    have initLength : 8 * init.length = bits.length - bits.length % 8 := by
      unfold padding at total
      omega
    let used := bits.drop (8 * init.length)
    have usedLength : used.length = bits.length % 8 := by
      simp only [used, List.length_drop]
      omega
    have whole : bits = bytesBits init ++ used := by
      have front := congrArg (List.take (8 * init.length)) packed
      rw [bytes_bits_append, List.take_append_of_le_length (by simp),
        List.take_append_of_le_length (by omega), List.take_of_length_le (by simp)] at front
      rw [front]
      exact (List.take_append_drop _ _).symm
    have lastBits : byteBits last = used ++ List.replicate (8 - used.length) false := by
      rw [whole, bytes_bits_append, List.append_assoc] at packed
      have tail := List.append_cancel_left packed
      rw [bytes_bits_cons, bytes_bits_nil, List.append_nil] at tail
      rw [tail]
      congr 2
      simp only [padding, List.length_append, bytes_bits_length]
      omega
    have item : StreamBuffer.back stream.streamBuffer = last :=
      FifoBuffer.back_contents _ _ _ split
    refine ⟨StreamBuffer.setBack (last ||| toItem (theValue <<< stream.holdingBitCount))
      stream.streamBuffer, (runs_get _).bind ?_, ?_⟩
    · rw [if_pos (by rw [holds.holding]; omega)]
      refine (runs_require ?_ _ _).bind ?_
      · rw [FifoBuffer.empty_contents, split]
        simp
      · rw [item]
        exact runs_set _ _
    · rw [FifoBuffer.setBack_contents _ _ _ _ split, bytes_bits_append, bytes_bits_cons,
        bytes_bits_nil, List.append_nil, holds.holding, ← usedLength,
        or_to_item_bits wide last theValue used (by omega) lastBits, ← List.append_assoc, ← whole]

theorem left_bits_small {n : Nat} {theValue : BitVec n} {first bitCount : Nat} (more : first ≤ bitCount)
    (small : theValue.toNat < 2 ^ bitCount) : (theValue >>> first).toNat < 2 ^ (bitCount - first) := by
  rw [BitVec.toNat_ushiftRight, Nat.shiftRight_eq_div_pow]
  apply Nat.div_lt_of_lt_mul
  rw [← pow_add, show first + (bitCount - first) = bitCount by omega]
  exact small

/-- Every writer of a field of at most `n` bits goes through this one. -/
theorem write_bits_counts {n : Nat} (wide : 8 ≤ n) (value : BitVec n) (bitCount : Nat)
    (valid : isEnoughBits n bitCount = true) (stream : OBitStream β) (bits : List Bool)
    (holds : Holds stream bits) :
    ∃ after, Runs (writeBitsImpl value bitCount) stream () after ∧
      Holds after (bits ++ lowBits bitCount value.toNat) ∧
      after.shouldUseUtf8ForString = stream.shouldUseUtf8ForString ∧
      after.totalBitCount = (stream.totalBitCount + bitCount).bmod (2 ^ 32) := by
  have range := (is_enough_bits_iff n bitCount).mp valid
  have masked := reset_unused_bits_toNat value bitCount range.2
  have small : (resetUnusedBits value bitCount).toNat < 2 ^ bitCount := by
    rw [masked]
    exact Nat.mod_lt _ (Nat.two_pow_pos _)
  have sameBits : lowBits bitCount (resetUnusedBits value bitCount).toNat =
      lowBits bitCount value.toNat := by
    rw [masked, low_bits_mod]
  obtain ⟨firstBuffer, firstRuns, firstBits⟩ :=
    write_first_bits_appends wide (resetUnusedBits value bitCount) stream bits holds
  have position : ∀ stream' : OBitStream β, stream'.holdingBitCount = stream.holdingBitCount →
      (stream'.holdingBitCount + bitCount) &&& (charBit - 1) =
        (bits ++ lowBits bitCount value.toNat).length % 8 := by
    intro stream' same
    rw [show charBit - 1 = 2 ^ 3 - 1 from rfl, Nat.and_two_pow_sub_one_eq_mod, same, holds.holding]
    simp
  by_cases more : bitCount > charBit - stream.holdingBitCount
  · have shift : charBit - stream.holdingBitCount = 8 - bits.length % 8 := by
      rw [holds.holding]
      rfl
    have shifted : (resetUnusedBits value bitCount >>> (8 - bits.length % 8)).toNat =
        (resetUnusedBits value bitCount).toNat / 2 ^ (8 - bits.length % 8) := by
      simp [Nat.shiftRight_eq_div_pow]
    rw [shift] at more
    obtain ⟨leftBuffer, items, leftRuns, leftContents, leftBits⟩ := write_left_bits_appends
      (bitCount - (8 - bits.length % 8)) (bitCount - (8 - bits.length % 8))
      (resetUnusedBits value bitCount >>> (8 - bits.length % 8)) (Nat.le_refl _) (by omega)
      (left_bits_small (Nat.le_of_lt more) small) firstBuffer
    have loop : Runs (onBuffer (writeLeftBits (bitCount - (charBit - stream.holdingBitCount))
        (bitCount - (charBit - stream.holdingBitCount))
        (resetUnusedBits value bitCount >>> (charBit - stream.holdingBitCount))))
        { stream with streamBuffer := firstBuffer } () { stream with streamBuffer := leftBuffer } := by
      rw [shift]
      exact leftRuns.focus
    refine ⟨_, (runs_require valid _ _).bind ((runs_get _).bind (firstRuns.bind
      ((loop.guarded (by rw [shift]; simpa using more)).bind (runs_modify _ _)))), ?_, rfl, rfl⟩
    constructor
    · have split := low_bits_add (8 - bits.length % 8) (bitCount - (8 - bits.length % 8))
        (resetUnusedBits value bitCount).toNat
      rw [show 8 - bits.length % 8 + (bitCount - (8 - bits.length % 8)) = bitCount by omega,
        sameBits] at split
      have samePadding : padding (bitCount - (8 - bits.length % 8)) =
          padding (bits ++ lowBits bitCount value.toNat).length := by
        simp only [padding, List.length_append, low_bits_length]
        omega
      simp only [leftContents, bytes_bits_append, firstBits, leftBits, shifted, split, samePadding,
        List.append_assoc]
    · exact position _ rfl
  · refine ⟨_, (runs_require valid _ _).bind ((runs_get _).bind (firstRuns.bind
      ((runs_guarded_skip (by simpa using more) _ _).bind (runs_modify _ _)))), ?_, rfl, rfl⟩
    constructor
    · have fits : bitCount ≤ 8 - bits.length % 8 := by
        rw [holds.holding] at more
        simp only [charBit] at more
        omega
      have fill := low_bits_of_lt bitCount (8 - bits.length % 8 - bitCount)
        (resetUnusedBits value bitCount).toNat small
      rw [show bitCount + (8 - bits.length % 8 - bitCount) = 8 - bits.length % 8 by omega,
        sameBits] at fill
      have samePadding : 8 - bits.length % 8 - bitCount =
          padding (bits ++ lowBits bitCount value.toNat).length := by
        simp only [padding, List.length_append, low_bits_length]
        omega
      simp only [firstBits, fill, samePadding, List.append_assoc]
    · exact position _ rfl

theorem write_bits_appends {n : Nat} (wide : 8 ≤ n) (value : BitVec n) (bitCount : Nat)
    (valid : isEnoughBits n bitCount = true) (stream : OBitStream β) (bits : List Bool)
    (holds : Holds stream bits) :
    ∃ after, Runs (writeBitsImpl value bitCount) stream () after ∧
      Holds after (bits ++ lowBits bitCount value.toNat) ∧
      after.shouldUseUtf8ForString = stream.shouldUseUtf8ForString := by
  rcases write_bits_counts wide value bitCount valid stream bits holds with
    ⟨after, runs, afterHolds, sameMode, _⟩
  exact ⟨after, runs, afterHolds, sameMode⟩

theorem align_appends (stream : OBitStream β) (bits : List Bool) (holds : Holds stream bits) :
    ∃ after, Runs align stream () after ∧
      Holds after (bits ++ List.replicate (padding bits.length) false) ∧
      FifoBuffer.contents after.streamBuffer = FifoBuffer.contents stream.streamBuffer ∧
      after.shouldUseUtf8ForString = stream.shouldUseUtf8ForString ∧
      (stream.Counts bits → after.Counts (bits ++ List.replicate (padding bits.length) false)) := by
  by_cases boundary : bits.length % 8 = 0
  · have none : padding bits.length = 0 := by
      unfold padding
      omega
    refine ⟨stream, (runs_get _).bind (runs_guarded_skip ?_ _ _), ?_, rfl, rfl, ?_⟩
    · rw [holds.holding]
      simpa using boundary
    · simpa [none] using holds
    · simp [none]
  · have count : charBit - stream.holdingBitCount = padding bits.length := by
      rw [holds.holding]
      unfold padding charBit
      omega
    have zeros : lowBits (padding bits.length) 0 = List.replicate (padding bits.length) false := by
      simpa using low_bits_of_lt 0 (padding bits.length) 0 (by simp)
    have valid : isEnoughBits 32 (padding bits.length) = true := by
      rw [is_enough_bits_iff]
      unfold padding
      omega
    obtain ⟨after, runs, afterHolds, sameMode, total⟩ := write_bits_counts (n := 32) (by omega) 0#32
      (padding bits.length) valid stream bits holds
    rw [BitVec.toNat_ofNat, Nat.zero_mod, zeros] at afterHolds
    refine ⟨after, (runs_get _).bind (Runs.guarded ?_ ?_), afterHolds, ?_, sameMode, ?_⟩
    · rw [holds.holding]
      simp
      omega
    · rw [count]
      exact runs
    · apply bytes_bits_injective
      have whole : padding (bits ++ List.replicate (padding bits.length) false).length = 0 := by
        simp only [padding, List.length_append, List.length_replicate]
        omega
      rw [afterHolds.packed, holds.packed, whole]
      simp
    · intro counts
      have sum := counts.append (List.replicate (padding bits.length) false)
      rw [List.length_replicate] at sum
      rw [Counts, total, sum]

theorem write_buffer_counts (buffer : List UInt8) (length : UInt16)
    (exact : buffer.length = length.toNat) (stream : OBitStream β) (bits : List Bool)
    (holds : Holds stream bits) :
    ∃ after, Runs (writeBuffer buffer length) stream () after ∧
      Holds after (bits ++ (List.replicate (padding bits.length) false ++ bytesBits buffer)) ∧
      after.shouldUseUtf8ForString = stream.shouldUseUtf8ForString ∧
      (stream.Counts bits →
        after.Counts (bits ++ (List.replicate (padding bits.length) false ++ bytesBits buffer))) := by
  obtain ⟨aligned, alignRuns, alignHolds, _, sameMode, alignCounts⟩ := align_appends stream bits holds
  obtain ⟨copied, copyRuns, copyContents⟩ :=
    FifoBuffer.copyFrom_runs (buffer.take length.toNat) aligned.streamBuffer
  have copy : Runs (onBuffer (StreamBuffer.copyFrom (buffer.take length.toNat))) aligned ()
      { aligned with streamBuffer := copied } := copyRuns.focus
  refine ⟨_, alignRuns.bind (copy.bind (runs_modify _ _)), ?_, sameMode, ?_⟩
  have whole : padding (bits ++ List.replicate (padding bits.length) false).length = 0 := by
    simp only [padding, List.length_append, List.length_replicate]
    omega
  have packed := alignHolds.packed
  rw [whole, List.replicate_zero, List.append_nil] at packed
  · constructor
    · have none : padding (bits ++
          (List.replicate (padding bits.length) false ++ bytesBits buffer)).length = 0 := by
        simp only [padding, List.length_append, List.length_replicate, bytes_bits_length]
        omega
      rw [none, copyContents, bytes_bits_append, packed, List.take_of_length_le (by omega)]
      simp
    · rw [alignHolds.holding]
      simp only [List.length_append, List.length_replicate, bytes_bits_length]
      omega
  · intro counts
    have sum := (alignCounts counts).append (bytesBits buffer)
    rw [bytes_bits_length, exact, List.append_assoc, Nat.mul_comm] at sum
    rw [Counts, ← sum]
    rfl

theorem write_buffer_appends (buffer : List UInt8) (length : UInt16)
    (exact : buffer.length = length.toNat) (stream : OBitStream β) (bits : List Bool)
    (holds : Holds stream bits) :
    ∃ after, Runs (writeBuffer buffer length) stream () after ∧
      Holds after (bits ++ (List.replicate (padding bits.length) false ++ bytesBits buffer)) ∧
      after.shouldUseUtf8ForString = stream.shouldUseUtf8ForString := by
  rcases write_buffer_counts buffer length exact stream bits holds with
    ⟨after, runs, afterHolds, sameMode, _⟩
  exact ⟨after, runs, afterHolds, sameMode⟩

/-- Only the first `length` bytes at the address are written. -/
theorem write_buffer_first (buffer : List UInt8) (length : UInt16)
    (enough : length.toNat ≤ buffer.length) (stream : OBitStream β) (bits : List Bool)
    (holds : Holds stream bits) :
    ∃ after, Runs (writeBuffer buffer length) stream () after ∧
      Holds after (bits ++ (List.replicate (padding bits.length) false ++
        bytesBits (buffer.take length.toNat))) := by
  rcases write_buffer_appends (buffer.take length.toNat) length (List.length_take_of_le enough)
    stream bits holds with ⟨after, runs, afterHolds, _⟩
  refine ⟨after, ?_, afterHolds⟩
  unfold writeBuffer at runs ⊢
  rw [List.take_take, Nat.min_self] at runs
  exact runs

/-- The stream stands on the byte boundary behind these bytes. -/
def HoldsBytes (stream : OBitStream β) (bytes : List UInt8) : Prop :=
  FifoBuffer.contents stream.streamBuffer = bytes ∧ stream.holdingBitCount = 0

theorem holds_bytes_iff (stream : OBitStream β) (bytes : List UInt8) :
    stream.HoldsBytes bytes ↔ stream.Holds (bytesBits bytes) := by
  have boundary : (bytesBits bytes).length % 8 = 0 := by
    rw [bytes_bits_length]
    omega
  have none : padding (bytesBits bytes).length = 0 := by
    rw [padding, boundary]
  constructor
  · rintro ⟨contents, holding⟩
    constructor
    · rw [contents, none, List.replicate_zero, List.append_nil]
    · rw [holding, boundary]
  · intro holds
    have packed := holds.packed
    rw [none, List.replicate_zero, List.append_nil] at packed
    exact ⟨bytes_bits_injective packed, by rw [holds.holding, boundary]⟩

end Fifo

end Sne.Core.OBitStream
