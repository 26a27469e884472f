import Mathlib.Data.List.GetD

/-!
# Memory by addresses

Bytes at addresses, read and written in runs, and the 64-bit sizes of runs.
-/

namespace Sne.Library.ByteMemory

set_option autoImplicit false

/-- The value of an expression of type `size_t`. -/
def sizeT (value : Int) : Nat := (value % 18446744073709551616).toNat

theorem size_t_exact {value : Int} (lower : 0 ≤ value) (upper : value < 18446744073709551616) :
    (sizeT value : Int) = value := by
  rw [sizeT, Int.emod_eq_of_lt lower upper, Int.toNat_of_nonneg lower]

theorem size_t_sum {first second : Nat} (bound : first + second < 18446744073709551616) :
    sizeT (first + second) = first + second := by
  have exact : (sizeT (first + second) : Int) = first + second := size_t_exact (by omega) (by omega)
  omega

theorem size_t_lt (value : Int) : sizeT value < 18446744073709551616 := by
  unfold sizeT
  omega

abbrev Memory := Nat → UInt8

def read (memory : Memory) (first count : Nat) : List UInt8 :=
  (List.range count).map fun offset => memory (first + offset)

def write (memory : Memory) (first : Nat) (bytes : List UInt8) : Memory := fun address =>
  if first ≤ address ∧ address < first + bytes.length then bytes.getD (address - first) 0
  else memory address

/-- The same bytes at `count` addresses. -/
def Agree (memory other : Memory) (first count : Nat) : Prop :=
  ∀ address, first ≤ address → address < first + count → memory address = other address

@[simp] theorem read_length (memory : Memory) (first count : Nat) :
    (read memory first count).length = count := by
  simp [read]

theorem read_add (memory : Memory) (first count more : Nat) :
    read memory first (count + more) = read memory first count ++ read memory (first + count) more := by
  simp only [read, List.range_add, List.map_append, List.map_map, Function.comp_def, Nat.add_assoc]

theorem Agree.read {memory other : Memory} {first count : Nat} (agree : Agree memory other first count) :
    read memory first count = read other first count := by
  apply List.map_congr_left
  intro offset member
  have bound := List.mem_range.mp member
  exact agree _ (by omega) (by omega)

theorem Agree.sub {memory other : Memory} {first count inner size : Nat}
    (agree : Agree memory other first count) (from_first : first ≤ inner)
    (inside : inner + size ≤ first + count) : Agree memory other inner size := by
  intro address lower upper
  exact agree address (by omega) (by omega)

theorem write_outside (memory : Memory) (first : Nat) (bytes : List UInt8) (address : Nat)
    (outside : address < first ∨ first + bytes.length ≤ address) :
    write memory first bytes address = memory address := by
  rw [write, if_neg (by omega)]

theorem read_write (memory : Memory) (first : Nat) {bytes : List UInt8} {count : Nat}
    (exact : bytes.length = count) : read (write memory first bytes) first count = bytes := by
  subst exact
  apply List.ext_getElem
  · simp
  · intro index lower upper
    simp only [read, write, List.getElem_map, List.getElem_range, Nat.add_sub_cancel_left]
    rw [if_pos (by omega), List.getD_eq_getElem _ _ upper]

/-- A write elsewhere does not disturb what is read. -/
theorem read_write_apart (memory : Memory) (first : Nat) (bytes : List UInt8) (other count : Nat)
    (apart : other + count ≤ first ∨ first + bytes.length ≤ other) :
    read (write memory first bytes) other count = read memory other count := by
  apply Agree.read
  intro address lower upper
  exact write_outside _ _ _ _ (by omega)

end Sne.Library.ByteMemory
