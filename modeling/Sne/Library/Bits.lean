import Mathlib.Data.Nat.Bitwise
import Mathlib.Data.List.GetD

/-!
# Bit strings, least significant bit first

A number is read as the list of its low bits, a byte string as the list of the
eight bits of each byte. Packing and unpacking proofs compare these lists, so
that no proof has to follow a shift count across a byte boundary by hand.
-/

namespace Sne.Library.Bits

set_option autoImplicit false

/-- The low `width` bits of `value`, least significant first. -/
def lowBits (width value : Nat) : List Bool :=
  (List.range width).map value.testBit

def ofBits : List Bool → Nat
  | [] => 0
  | bit :: rest => bit.toNat + 2 * ofBits rest

@[simp] theorem low_bits_length (width value : Nat) : (lowBits width value).length = width := by
  simp [lowBits]

@[simp] theorem low_bits_zero_width (value : Nat) : lowBits 0 value = [] := rfl

theorem low_bits_getElem (width value index : Nat) (bound : index < (lowBits width value).length) :
    (lowBits width value)[index] = value.testBit index := by
  simp [lowBits]

theorem low_bits_succ (width value : Nat) :
    lowBits (width + 1) value = value.testBit 0 :: lowBits width (value / 2) := by
  simp only [lowBits, List.range_succ_eq_map, List.map_cons, List.map_map]
  congr 1
  apply List.map_congr_left
  intro index _
  simp [Nat.testBit_succ]

theorem low_bits_add (first second value : Nat) :
    lowBits (first + second) value = lowBits first value ++ lowBits second (value / 2 ^ first) := by
  apply List.ext_getElem
  · simp
  · intro index leftBound rightBound
    rw [low_bits_getElem]
    by_cases low : index < first
    · rw [List.getElem_append_left (by simpa using low), low_bits_getElem]
    · rw [List.getElem_append_right (by simpa using low), low_bits_getElem, Nat.testBit_div_two_pow]
      congr 1
      simp
      omega

theorem low_bits_of_lt (width extra value : Nat) (small : value < 2 ^ width) :
    lowBits (width + extra) value = lowBits width value ++ List.replicate extra false := by
  rw [low_bits_add, Nat.div_eq_of_lt small]
  congr 1
  apply List.ext_getElem <;> simp [lowBits]

theorem low_bits_congr (width left right : Nat)
    (same : ∀ index < width, left.testBit index = right.testBit index) :
    lowBits width left = lowBits width right := by
  apply List.map_congr_left
  intro index member
  exact same index (List.mem_range.mp member)

theorem low_bits_mod (width value : Nat) : lowBits width (value % 2 ^ width) = lowBits width value := by
  apply low_bits_congr
  intro index bound
  simp [Nat.testBit_mod_two_pow, bound]

theorem of_bits_lt (bits : List Bool) : ofBits bits < 2 ^ bits.length := by
  induction bits with
  | nil => simp [ofBits]
  | cons bit rest induction =>
      simp only [ofBits, List.length_cons, pow_succ]
      cases bit <;> simp <;> omega

theorem of_bits_low_bits (width value : Nat) : ofBits (lowBits width value) = value % 2 ^ width := by
  induction width generalizing value with
  | zero => simp [ofBits, Nat.mod_one]
  | succ width induction =>
      have split : value % 2 ^ (width + 1) = value % 2 + 2 * (value / 2 % 2 ^ width) := by
        rw [Nat.pow_succ', Nat.mod_mul]
      rw [low_bits_succ, ofBits, induction, split, Nat.testBit_zero]
      rcases Nat.mod_two_eq_zero_or_one value with even | odd <;> simp [*]

theorem of_bits_testBit (bits : List Bool) (index : Nat) :
    (ofBits bits).testBit index = bits.getD index false := by
  induction bits generalizing index with
  | nil => simp [ofBits]
  | cons bit rest induction =>
      cases index with
      | zero => cases bit <;> simp [ofBits, Nat.testBit_zero]
      | succ index =>
          have half : (bit.toNat + 2 * ofBits rest) / 2 = ofBits rest := by
            cases bit <;> simp
            omega
          rw [ofBits, Nat.testBit_succ, half, induction]
          rfl

def byteBits (byte : UInt8) : List Bool := lowBits 8 byte.toNat

def bytesBits (bytes : List UInt8) : List Bool := bytes.flatMap byteBits

@[simp] theorem byte_bits_length (byte : UInt8) : (byteBits byte).length = 8 := by
  simp [byteBits]

@[simp] theorem bytes_bits_nil : bytesBits [] = [] := rfl

@[simp] theorem bytes_bits_cons (byte : UInt8) (rest : List UInt8) :
    bytesBits (byte :: rest) = byteBits byte ++ bytesBits rest := by
  simp [bytesBits]

@[simp] theorem bytes_bits_append (left right : List UInt8) :
    bytesBits (left ++ right) = bytesBits left ++ bytesBits right := by
  simp [bytesBits]

@[simp] theorem bytes_bits_length (bytes : List UInt8) :
    (bytesBits bytes).length = 8 * bytes.length := by
  induction bytes with
  | nil => rfl
  | cons byte rest induction =>
      simp only [bytes_bits_cons, List.length_append, byte_bits_length, induction, List.length_cons]
      omega

theorem low_bits_getD (width value index : Nat) (small : value < 2 ^ width) :
    (lowBits width value).getD index false = value.testBit index := by
  by_cases inside : index < width
  · rw [List.getD_eq_getElem _ _ (by simpa using inside), low_bits_getElem]
  · have power : 2 ^ width ≤ 2 ^ index := Nat.pow_le_pow_right (by omega) (by omega)
    rw [Nat.testBit_lt_two_pow (by omega), List.getD_eq_getElem?_getD,
      List.getElem?_eq_none (by simp; omega)]
    rfl

theorem byte_bits_getD (byte : UInt8) (index : Nat) :
    (byteBits byte).getD index false = byte.toNat.testBit index :=
  low_bits_getD 8 byte.toNat index byte.toNat_lt

theorem byte_bits_injective : Function.Injective byteBits := by
  intro left right same
  have values := congrArg ofBits same
  simp only [byteBits, of_bits_low_bits] at values
  have leftBound := left.toNat_lt
  have rightBound := right.toNat_lt
  apply UInt8.toNat_inj.mp
  omega

theorem bytes_bits_injective : Function.Injective bytesBits := by
  intro left right same
  induction left generalizing right with
  | nil =>
      have length := congrArg List.length same
      simp only [bytes_bits_nil, List.length_nil, bytes_bits_length] at length
      exact (List.length_eq_zero_iff.mp (by omega)).symm
  | cons byte rest induction =>
      cases right with
      | nil =>
          have length := congrArg List.length same
          simp at length
      | cons other others =>
          rw [bytes_bits_cons, bytes_bits_cons] at same
          obtain ⟨first, second⟩ := List.append_inj same (by simp)
          rw [byte_bits_injective first, induction second]

theorem bytes_bits_drop (bytes : List UInt8) (count : Nat) :
    bytesBits (bytes.drop count) = (bytesBits bytes).drop (8 * count) := by
  by_cases inside : count ≤ bytes.length
  · have split := congrArg bytesBits (List.take_append_drop count bytes)
    rw [bytes_bits_append] at split
    have front : (bytesBits (bytes.take count)).length = 8 * count := by
      rw [bytes_bits_length, List.length_take]
      omega
    rw [← split, List.drop_append, front, List.drop_of_length_le (Nat.le_of_eq front)]
    simp
  · have beyond : (bytesBits bytes).length ≤ 8 * count := by
      rw [bytes_bits_length]
      omega
    rw [List.drop_of_length_le (by omega), List.drop_of_length_le beyond]
    rfl

theorem low_bits_of_bits (bits : List Bool) : lowBits bits.length (ofBits bits) = bits := by
  apply List.ext_getElem
  · simp
  · intro index _ bound
    rw [low_bits_getElem, of_bits_testBit, List.getD_eq_getElem _ _ bound]

theorem exists_bytes_of_bits (bits : List Bool) (whole : bits.length % 8 = 0) :
    ∃ bytes, bytesBits bytes = bits := by
  induction count : bits.length using Nat.strong_induction_on generalizing bits with
  | h size induction =>
      by_cases empty : bits.length = 0
      · exact ⟨[], by rw [List.eq_nil_of_length_eq_zero empty, bytes_bits_nil]⟩
      · have front : (bits.take 8).length = 8 := by
          rw [List.length_take]
          omega
        have shorter : (bits.drop 8).length < size := by
          rw [List.length_drop]
          omega
        have wholeRest : (bits.drop 8).length % 8 = 0 := by
          rw [List.length_drop]
          omega
        rcases induction _ shorter (bits.drop 8) wholeRest rfl with ⟨rest, others⟩
        have bound := of_bits_lt (bits.take 8)
        rw [front] at bound
        have first : byteBits (UInt8.ofNat (ofBits (bits.take 8))) = bits.take 8 := by
          have eight := low_bits_of_bits (bits.take 8)
          rw [front] at eight
          rw [byteBits, UInt8.toNat_ofNat', Nat.mod_eq_of_lt bound, eight]
        exact ⟨UInt8.ofNat (ofBits (bits.take 8)) :: rest, by
          rw [bytes_bits_cons, first, others, List.take_append_drop]⟩

end Sne.Library.Bits
