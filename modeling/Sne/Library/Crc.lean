import Mathlib.Algebra.Group.Nat.Defs
import Mathlib.Data.List.Basic

/-!
# Cyclic redundancy checks

The reflected form: the remainder is shifted to the right, and the polynomial is added when a
bit falls out. The step is linear in exclusive or. It can be taken back when the polynomial
has its top bit, so that as many bytes as the remainder has lead from any remainder to any
other.
-/

namespace Sne.Library.Crc

set_option autoImplicit false

variable {width : Nat} {poly : BitVec width}

def step (poly crc : BitVec width) : BitVec width :=
  if crc.getLsbD 0 then (crc >>> 1) ^^^ poly else crc >>> 1

def steps (poly : BitVec width) : Nat → BitVec width → BitVec width
  | 0, crc => crc
  | count + 1, crc => steps poly count (step poly crc)

def feed (poly crc : BitVec width) (byte : UInt8) : BitVec width :=
  steps poly 8 (crc ^^^ byte.toBitVec.setWidth width)

theorem step_xor (left right : BitVec width) :
    step poly (left ^^^ right) = step poly left ^^^ step poly right := by
  unfold step
  rw [BitVec.getLsbD_xor, BitVec.ushiftRight_xor_distrib]
  cases left.getLsbD 0 with
  | false =>
      cases right.getLsbD 0 with
      | false => rfl
      | true => simp [BitVec.xor_assoc]
  | true =>
      cases right.getLsbD 0 with
      | false =>
          simp only [Bool.xor_false, if_true, Bool.false_eq_true, if_false]
          rw [BitVec.xor_assoc, BitVec.xor_assoc, BitVec.xor_comm poly]
      | true =>
          have twice : poly ^^^ (right >>> 1 ^^^ poly) = right >>> 1 := by
            rw [BitVec.xor_comm, BitVec.xor_assoc, BitVec.xor_self, BitVec.xor_zero]
          simp only [bne_self_eq_false, Bool.false_eq_true, if_false, if_true]
          rw [BitVec.xor_assoc, twice]

theorem steps_xor (count : Nat) (left right : BitVec width) :
    steps poly count (left ^^^ right) = steps poly count left ^^^ steps poly count right := by
  induction count generalizing left right with
  | zero => rfl
  | succ count induction =>
      rw [steps, steps, steps, step_xor, induction]

theorem steps_add (first second : Nat) (crc : BitVec width) :
    steps poly (first + second) crc = steps poly second (steps poly first crc) := by
  induction first generalizing crc with
  | zero => rw [Nat.zero_add, steps]
  | succ first induction =>
      rw [Nat.add_right_comm, steps, steps, induction]

/-- Bits that no step lets fall out only move down. -/
theorem steps_moves (count : Nat) (value : BitVec width) (small : value.toNat * 2 ^ count < 2 ^ width) :
    steps poly count (value <<< count) = value := by
  induction count with
  | zero => rw [steps, BitVec.shiftLeft_zero]
  | succ count induction =>
      have fits : value.toNat * 2 ^ count < 2 ^ width := by
        rw [Nat.pow_succ, ← Nat.mul_assoc] at small
        omega
      have shifted : (value <<< (count + 1)).toNat = value.toNat * 2 ^ count * 2 := by
        rw [BitVec.toNat_shiftLeft, Nat.shiftLeft_eq, Nat.mod_eq_of_lt small, Nat.pow_succ, Nat.mul_assoc]
      have kept : (value <<< count).toNat = value.toNat * 2 ^ count := by
        rw [BitVec.toNat_shiftLeft, Nat.shiftLeft_eq, Nat.mod_eq_of_lt fits]
      have even : (value <<< (count + 1)).getLsbD 0 = false := by
        rw [BitVec.getLsbD, shifted, Nat.testBit_zero]
        simp
      have once : step poly (value <<< (count + 1)) = value <<< count := by
        unfold step
        rw [even]
        apply BitVec.eq_of_toNat_eq
        simp only [Bool.false_eq_true, if_false]
        rw [BitVec.toNat_ushiftRight, shifted, kept, Nat.shiftRight_eq_div_pow]
        omega
      rw [steps, once, induction fits]

/-- The step before, for a polynomial with its top bit. -/
def unstep (poly crc : BitVec width) : BitVec width :=
  if crc.msb then ((crc ^^^ poly) <<< 1) ||| BitVec.ofNat width 1 else crc <<< 1

theorem shift_back (value low : BitVec width) (clear : value.msb = false) (small : low.toNat < 2) :
    ((value <<< 1) ||| low) >>> 1 = value := by
  apply BitVec.eq_of_getLsbD_eq
  intro index inside
  have nothing : low.getLsbD (1 + index) = false := by
    apply Nat.testBit_lt_two_pow
    have power : 2 ^ 1 ≤ 2 ^ (1 + index) := Nat.pow_le_pow_right (by decide) (Nat.le_add_right 1 index)
    omega
  rw [BitVec.getLsbD_ushiftRight, BitVec.getLsbD_or, BitVec.getLsbD_shiftLeft, nothing]
  by_cases last : 1 + index < width
  · simp [last]
  · have top : value.getLsbD index = false := by
      rw [BitVec.msb_eq_getLsbD_last] at clear
      rw [show index = width - 1 by omega]
      exact clear
    simp [last, top]

theorem step_unstep (top : poly.msb = true) (crc : BitVec width) :
    step poly (unstep poly crc) = crc := by
  have some : 0 < width := by
    apply Nat.pos_of_ne_zero
    rintro rfl
    rw [BitVec.msb_of_zero_length rfl] at top
    cases top
  cases sign : crc.msb with
  | true =>
      have clear : (crc ^^^ poly).msb = false := by
        rw [BitVec.msb_xor, sign, top]
        rfl
      have before : unstep poly crc = ((crc ^^^ poly) <<< 1) ||| BitVec.ofNat width 1 := by
        unfold unstep
        rw [sign]
        rfl
      have odd : (unstep poly crc).getLsbD 0 = true := by
        rw [before, BitVec.getLsbD_or]
        simp [some]
      have one : (BitVec.ofNat width 1).toNat < 2 := by
        rw [BitVec.toNat_ofNat]
        exact Nat.lt_of_le_of_lt (Nat.mod_le _ _) (by decide)
      unfold step
      rw [odd, if_pos rfl, before, shift_back _ _ clear one, BitVec.xor_assoc, BitVec.xor_self,
        BitVec.xor_zero]
  | false =>
      have before : unstep poly crc = (crc <<< 1) ||| BitVec.ofNat width 0 := by
        unfold unstep
        rw [sign, BitVec.or_zero]
        rfl
      have even : (unstep poly crc).getLsbD 0 = false := by
        rw [before, BitVec.getLsbD_or]
        simp
      have zero : (BitVec.ofNat width 0).toNat < 2 := by
        rw [BitVec.toNat_ofNat, Nat.zero_mod]
        decide
      unfold step
      rw [even, if_neg Bool.false_ne_true, before, shift_back _ _ sign zero]

theorem steps_onto (top : poly.msb = true) (count : Nat) (target : BitVec width) :
    ∃ crc, steps poly count crc = target := by
  induction count generalizing target with
  | zero => exact ⟨target, rfl⟩
  | succ count induction =>
      rcases induction target with ⟨crc, same⟩
      refine ⟨unstep poly crc, ?_⟩
      rw [steps, step_unstep top, same]

/-- The bytes as one number, the first one lowest. -/
def word (width : Nat) : List UInt8 → BitVec width
  | [] => BitVec.ofNat width 0
  | byte :: rest => byte.toBitVec.setWidth width ^^^ (word width rest <<< 8)

theorem word_cons (byte : UInt8) (rest : List UInt8) :
    word width (byte :: rest) = byte.toBitVec.setWidth width ^^^ (word width rest <<< 8) :=
  rfl

theorem byte_xor_to_nat (byte : UInt8) (value : BitVec width)
    (small : 256 * value.toNat + 255 < 2 ^ width) :
    (byte.toBitVec.setWidth width ^^^ (value <<< 8)).toNat = byte.toNat + 256 * value.toNat := by
  have bound := byte.toNat_lt
  have low : (byte.toBitVec.setWidth width).toNat = byte.toNat := by
    rw [BitVec.toNat_setWidth, UInt8.toNat_toBitVec, Nat.mod_eq_of_lt (by omega)]
  have high : (value <<< 8).toNat = 2 ^ 8 * value.toNat := by
    rw [BitVec.toNat_shiftLeft, Nat.shiftLeft_eq, Nat.mul_comm, Nat.mod_eq_of_lt (by omega)]
  have sum : byte.toNat + 256 * value.toNat = 2 ^ 8 * value.toNat + byte.toNat := by omega
  rw [BitVec.toNat_xor, low, high, sum]
  apply Nat.eq_of_testBit_eq
  intro index
  rw [Nat.testBit_xor, Nat.testBit_two_pow_mul_add _ bound, Nat.testBit_two_pow_mul]
  by_cases inside : index < 8
  · simp [inside, Nat.not_le.mpr inside]
  · have nothing : byte.toNat.testBit index = false :=
      Nat.testBit_lt_two_pow (Nat.lt_of_lt_of_le bound (Nat.pow_le_pow_right (by decide) (by omega)))
    simp [inside, nothing, show 8 ≤ index by omega]

theorem word_small {bytes : List UInt8} (short : 8 * bytes.length ≤ width) :
    (word width bytes).toNat < 2 ^ (8 * bytes.length) := by
  induction bytes with
  | nil =>
      change (BitVec.ofNat width 0).toNat < 1
      rw [BitVec.toNat_ofNat, Nat.zero_mod]
      decide
  | cons byte rest induction =>
      rw [List.length_cons] at short
      have bound := byte.toNat_lt
      have below := induction (by omega)
      have power : 2 ^ (8 * (rest.length + 1)) = 2 ^ (8 * rest.length) * 256 := by
        rw [Nat.mul_succ, Nat.pow_add]
      have room : 2 ^ (8 * (rest.length + 1)) ≤ 2 ^ width := Nat.pow_le_pow_right (by decide) short
      rw [word_cons, byte_xor_to_nat byte _ (by omega), List.length_cons]
      omega

/-- Few enough bytes go into the remainder at once. -/
theorem feed_word {bytes : List UInt8} (short : 8 * bytes.length ≤ width) (crc : BitVec width) :
    bytes.foldl (feed poly) crc = steps poly (8 * bytes.length) (crc ^^^ word width bytes) := by
  induction bytes generalizing crc with
  | nil =>
      change crc = crc ^^^ BitVec.ofNat width 0
      rw [BitVec.xor_zero]
  | cons byte rest induction =>
      rw [List.length_cons] at short
      have below : (word width rest).toNat < 2 ^ (8 * rest.length) := word_small (by omega)
      have room : (word width rest).toNat * 2 ^ 8 < 2 ^ width := by
        calc (word width rest).toNat * 2 ^ 8 < 2 ^ (8 * rest.length) * 2 ^ 8 :=
              Nat.mul_lt_mul_of_pos_right below (by decide)
          _ = 2 ^ (8 * rest.length + 8) := (Nat.pow_add _ _ _).symm
          _ ≤ 2 ^ width := Nat.pow_le_pow_right (by decide) (by omega)
      rw [List.foldl_cons, induction (by omega), List.length_cons, Nat.mul_succ, Nat.add_comm, steps_add,
        word_cons, ← BitVec.xor_assoc, steps_xor 8, steps_moves 8 _ room]
      rfl

theorem word_onto (count : Nat) (short : 8 * count ≤ width) (value : BitVec width)
    (small : value.toNat < 2 ^ (8 * count)) :
    ∃ bytes : List UInt8, bytes.length = count ∧ word width bytes = value := by
  induction count generalizing value with
  | zero =>
      refine ⟨[], rfl, ?_⟩
      apply BitVec.eq_of_toNat_eq
      rw [Nat.mul_zero, Nat.pow_zero, Nat.lt_one_iff] at small
      rw [small, word, BitVec.toNat_ofNat, Nat.zero_mod]
  | succ count induction =>
      have power : 2 ^ (8 * (count + 1)) = 2 ^ (8 * count) * 256 := by
        rw [Nat.mul_succ, Nat.pow_add]
      have bound := value.isLt
      have high : (BitVec.ofNat width (value.toNat / 256)).toNat = value.toNat / 256 := by
        rw [BitVec.toNat_ofNat, Nat.mod_eq_of_lt (by omega)]
      rcases induction (by omega) (BitVec.ofNat width (value.toNat / 256)) (by omega) with
        ⟨bytes, length, whole⟩
      have room : 2 ^ (8 * (count + 1)) ≤ 2 ^ width := Nat.pow_le_pow_right (by decide) short
      refine ⟨UInt8.ofNat (value.toNat % 256) :: bytes, by rw [List.length_cons, length], ?_⟩
      apply BitVec.eq_of_toNat_eq
      rw [word_cons, whole, byte_xor_to_nat _ _ (by omega), high, UInt8.toNat_ofNat']
      omega

/-- As many bytes as the remainder has lead from any remainder to any other. -/
theorem feed_onto (top : poly.msb = true) {count : Nat} (exact : 8 * count = width)
    (crc target : BitVec width) :
    ∃ bytes : List UInt8, bytes.length = count ∧ bytes.foldl (feed poly) crc = target := by
  rcases steps_onto top (8 * count) target with ⟨start, same⟩
  rcases word_onto count (Nat.le_of_eq exact) (crc ^^^ start) (by
    rw [exact]
    exact (crc ^^^ start).isLt) with ⟨bytes, length, whole⟩
  refine ⟨bytes, length, ?_⟩
  rw [feed_word (by rw [length]; exact Nat.le_of_eq exact), whole, ← BitVec.xor_assoc, BitVec.xor_self,
    BitVec.zero_xor, length, same]

end Sne.Library.Crc
