import Mathlib.Data.List.Basic
import Mathlib.Tactic.Ring

/-!
# Little-endian numbers

A number as a fixed count of bytes, the least significant byte first.
-/

namespace Sne.Library.Endian

set_option autoImplicit false

/-- The low `count` bytes of a number. -/
def littleEndian : Nat → Nat → List UInt8
  | 0, _ => []
  | count + 1, value => UInt8.ofNat value :: littleEndian count (value / 256)

def ofLittleEndian : List UInt8 → Nat
  | [] => 0
  | byte :: rest => byte.toNat + 256 * ofLittleEndian rest

@[simp] theorem little_endian_length (count value : Nat) :
    (littleEndian count value).length = count := by
  induction count generalizing value with
  | zero => rfl
  | succ count induction => simp [littleEndian, induction]

theorem little_endian_take (count more value : Nat) :
    (littleEndian (count + more) value).take count = littleEndian count value := by
  induction count generalizing value with
  | zero => simp [littleEndian]
  | succ count induction =>
      rw [Nat.add_right_comm, littleEndian, List.take_succ_cons, induction, littleEndian]

theorem of_little_endian_lt (bytes : List UInt8) : ofLittleEndian bytes < 256 ^ bytes.length := by
  induction bytes with
  | nil => simp [ofLittleEndian]
  | cons byte rest induction =>
      have bound := byte.toNat_lt
      simp only [ofLittleEndian, List.length_cons, pow_succ]
      omega

theorem of_little_endian_append (low high : List UInt8) :
    ofLittleEndian (low ++ high) = ofLittleEndian low + 256 ^ low.length * ofLittleEndian high := by
  induction low with
  | nil => simp [ofLittleEndian]
  | cons byte rest induction =>
      rw [List.cons_append, ofLittleEndian, ofLittleEndian, induction, List.length_cons, pow_succ']
      ring

theorem of_little_endian_little_endian (count value : Nat) :
    ofLittleEndian (littleEndian count value) = value % 256 ^ count := by
  induction count generalizing value with
  | zero => simp [littleEndian, ofLittleEndian, Nat.mod_one]
  | succ count induction =>
      rw [littleEndian, ofLittleEndian, induction, pow_succ', Nat.mod_mul]
      simp

theorem little_endian_of_little_endian (bytes : List UInt8) :
    littleEndian bytes.length (ofLittleEndian bytes) = bytes := by
  induction bytes with
  | nil => rfl
  | cons byte rest induction =>
      have bound := byte.toNat_lt
      have quotient : (byte.toNat + 256 * ofLittleEndian rest) / 256 = ofLittleEndian rest := by
        omega
      have remainder : UInt8.ofNat (byte.toNat + 256 * ofLittleEndian rest) = byte := by
        apply UInt8.toNat_inj.mp
        rw [UInt8.toNat_ofNat']
        omega
      rw [ofLittleEndian, List.length_cons, littleEndian, quotient, remainder, induction]

end Sne.Library.Endian
