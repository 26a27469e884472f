import Mathlib.Data.List.Basic
import Mathlib.Data.List.Palindrome

/-!
# Copies within a list

A loop that copies the entries of a list from its front to its back, one by one and within
the list itself. Behind the middle it copies what it has written before, so the list is
mirrored and not reversed.
-/

namespace Sne.Library.InPlace

set_option autoImplicit false

universe u

variable {α : Type u} [Inhabited α]

/-- `*dest-- = *src++`, as often as `remaining` says. -/
def copyBack : Nat → Nat → Nat → List α → List α
  | 0, _, _, entries => entries
  | remaining + 1, src, dest, entries =>
      copyBack remaining (src + 1) (dest - 1) (entries.set dest (entries.getD src default))

def copyOnto (entries : List α) : List α := copyBack entries.length 0 (entries.length - 1) entries

theorem copy_back_length (remaining src dest : Nat) (entries : List α) :
    (copyBack remaining src dest entries).length = entries.length := by
  induction remaining generalizing src dest entries with
  | zero => rfl
  | succ remaining induction => rw [copyBack, induction, List.length_set]

@[simp] theorem copy_onto_length (entries : List α) : (copyOnto entries).length = entries.length :=
  copy_back_length _ _ _ _

/-- After `src` rounds the last `src` entries mirror what was at the front. -/
def Mirrors (original : List α) (src : Nat) (entries : List α) : Prop :=
  entries.length = original.length ∧ ∀ index, index < original.length →
    entries[index]? = if original.length ≤ index + src then
      original[min index (original.length - 1 - index)]? else original[index]?

theorem mirrors_round {original entries : List α} {src : Nat} (inside : src < original.length)
    (mirrors : Mirrors original src entries) :
    Mirrors original (src + 1) (entries.set (original.length - 1 - src) (entries.getD src default)) := by
  obtain ⟨length, places⟩ := mirrors
  refine ⟨by rw [List.length_set, length], ?_⟩
  intro index bound
  by_cases target : index = original.length - 1 - src
  · have within : original.length - 1 - src < entries.length := by omega
    have source : entries[src]? = original[min index (original.length - 1 - index)]? := by
      rw [places src inside]
      split
      · congr 1
        omega
      · congr 1
        omega
    rw [target, List.getElem?_set_self within, if_pos (by omega), ← target, ← source,
      List.getD_eq_getElem?_getD, List.getElem?_eq_getElem (by omega)]
    rfl
  · rw [List.getElem?_set_ne (Ne.symm target), places index bound]
    by_cases behind : original.length ≤ index + src
    · rw [if_pos behind, if_pos (by omega)]
    · rw [if_neg behind, if_neg (by omega)]

theorem copy_back_mirrors {original : List α} {remaining src : Nat} {entries : List α}
    (rounds : src + remaining = original.length) (mirrors : Mirrors original src entries) :
    Mirrors original original.length (copyBack remaining src (original.length - 1 - src) entries) := by
  induction remaining generalizing src entries with
  | zero =>
      rw [← rounds]
      exact mirrors
  | succ remaining induction =>
      have next := mirrors_round (by omega) mirrors
      have dest : original.length - 1 - src - 1 = original.length - 1 - (src + 1) := by omega
      rw [copyBack, dest]
      exact induction (by omega) next

theorem copy_onto_get (entries : List α) {index : Nat} (bound : index < entries.length) :
    (copyOnto entries)[index]? = entries[min index (entries.length - 1 - index)]? := by
  have start : Mirrors entries 0 entries := by
    refine ⟨rfl, ?_⟩
    intro index bound
    rw [if_neg (by omega)]
  have mirrors := copy_back_mirrors (Nat.zero_add _) start
  rw [Nat.sub_zero] at mirrors
  have place := mirrors.2 index bound
  rw [if_pos (Nat.le_add_left _ _)] at place
  exact place

theorem copy_onto_palindrome (entries : List α) : (copyOnto entries).Palindrome := by
  apply List.Palindrome.of_reverse_eq
  apply List.ext_getElem?
  intro index
  by_cases bound : index < entries.length
  · have mirrored : entries.length - 1 - index < entries.length := by omega
    rw [List.getElem?_reverse (by rw [copy_onto_length]; exact bound), copy_onto_length,
      copy_onto_get entries mirrored, copy_onto_get entries bound]
    congr 1
    omega
  · rw [List.getElem?_eq_none (by rw [List.length_reverse, copy_onto_length]; omega),
      List.getElem?_eq_none (by rw [copy_onto_length]; omega)]

theorem copy_onto_of_palindrome {entries : List α} (palindrome : entries.Palindrome) :
    copyOnto entries = entries := by
  apply List.ext_getElem?
  intro index
  by_cases bound : index < entries.length
  · rw [copy_onto_get entries bound]
    by_cases front : index ≤ entries.length - 1 - index
    · rw [Nat.min_eq_left front]
    · rw [Nat.min_eq_right (by omega), ← List.getElem?_reverse bound, palindrome.reverse_eq]
  · rw [List.getElem?_eq_none (by rw [copy_onto_length]; omega), List.getElem?_eq_none (by omega)]

/-- The list is reversed exactly when there is nothing to reverse. -/
theorem copy_onto_reverse_iff (entries : List α) :
    copyOnto entries = entries.reverse ↔ entries.Palindrome := by
  constructor
  · intro same
    have palindrome := copy_onto_palindrome entries
    rw [same] at palindrome
    apply List.Palindrome.of_reverse_eq
    have reversed := palindrome.reverse_eq
    rw [List.reverse_reverse] at reversed
    exact reversed.symm
  · intro palindrome
    rw [copy_onto_of_palindrome palindrome, palindrome.reverse_eq]

end Sne.Library.InPlace
