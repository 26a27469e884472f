import Mathlib.Data.List.Basic

/-!
# Search by halving

The first place of a list at which a test fails, for lists that the test splits into a
front that passes and a back that does not. The search looks at the middle of what is
left, as `std::lower_bound` does.
-/

namespace Sne.Library.Bisection

set_option autoImplicit false

universe u

variable {Entry : Type u}

/-- The loop over the `len` entries from `first` on; it ends within `len` rounds. -/
def bisect (isBefore : Entry → Bool) (entries : List Entry) : Nat → Nat → Nat → Nat
  | 0, first, _ => first
  | fuel + 1, first, len =>
      if len > 0 then
        let half := len / 2
        match entries[first + half]? with
        | some middle =>
            if isBefore middle then bisect isBefore entries fuel (first + half + 1) (len - half - 1)
            else bisect isBefore entries fuel first half
        | none => first
      else
        first

def lowerBound (isBefore : Entry → Bool) (entries : List Entry) : Nat :=
  bisect isBefore entries entries.length 0 entries.length

structure Split (isBefore : Entry → Bool) (entries front back : List Entry) : Prop where
  whole : entries = front ++ back
  passes : ∀ entry ∈ front, isBefore entry = true
  fails : ∀ entry ∈ back, isBefore entry = false

/-- The end of the front stays inside of what is left to search. -/
theorem bisect_eq {isBefore : Entry → Bool} {entries front back : List Entry}
    (parts : Split isBefore entries front back) (fuel first len : Nat) (enough : len ≤ fuel)
    (lower : first ≤ front.length) (upper : front.length ≤ first + len)
    (inside : first + len ≤ entries.length) : bisect isBefore entries fuel first len = front.length := by
  induction fuel generalizing first len with
  | zero =>
      rw [bisect]
      omega
  | succ fuel induction =>
      rw [bisect]
      by_cases left : len > 0
      · have bound : first + len / 2 < entries.length := by omega
        rw [if_pos left]
        dsimp only
        rw [List.getElem?_eq_getElem bound]
        dsimp only
        by_cases inFront : first + len / 2 < front.length
        · have middle : isBefore entries[first + len / 2] = true := by
            simp only [parts.whole, List.getElem_append_left inFront]
            exact parts.passes _ (List.getElem_mem inFront)
          rw [if_pos middle]
          exact induction _ _ (by omega) (by omega) (by omega) (by omega)
        · have middle : isBefore entries[first + len / 2] = false := by
            simp only [parts.whole, List.getElem_append_right (Nat.not_lt.mp inFront)]
            exact parts.fails _ (List.getElem_mem _)
          rw [middle, if_neg Bool.false_ne_true]
          exact induction _ _ (by omega) (by omega) (by omega) (by omega)
      · rw [if_neg left]
        omega

theorem lower_bound_eq {isBefore : Entry → Bool} {entries front back : List Entry}
    (parts : Split isBefore entries front back) : lowerBound isBefore entries = front.length := by
  have length := congrArg List.length parts.whole
  rw [List.length_append] at length
  exact bisect_eq parts _ _ _ (Nat.le_refl _) (Nat.zero_le _) (by omega) (by omega)

/-- A list in which nothing that passes comes behind something that fails is split. -/
theorem exists_split {isBefore : Entry → Bool} {entries : List Entry}
    (ordered : entries.Pairwise fun earlier later => isBefore later = true → isBefore earlier = true) :
    ∃ front back, Split isBefore entries front back := by
  induction entries with
  | nil =>
      exact ⟨[], [], rfl, fun _ member => absurd member List.not_mem_nil,
        fun _ member => absurd member List.not_mem_nil⟩
  | cons entry rest induction =>
      rcases List.pairwise_cons.mp ordered with ⟨least, orderedRest⟩
      cases first : isBefore entry with
      | true =>
          rcases induction orderedRest with ⟨front, back, whole, passes, fails⟩
          refine ⟨entry :: front, back, by rw [whole]; rfl, ?_, fails⟩
          intro other member
          rcases List.mem_cons.mp member with rfl | later
          · exact first
          · exact passes other later
      | false =>
          refine ⟨[], entry :: rest, rfl, fun _ member => absurd member List.not_mem_nil, ?_⟩
          intro other member
          rcases List.mem_cons.mp member with rfl | later
          · exact first
          · cases tested : isBefore other with
            | true => exact (Bool.false_ne_true (first.symm.trans (least other later tested))).elim
            | false => rfl

theorem insert_between (front back : List Entry) (entry : Entry) :
    (front ++ back).insertIdx front.length entry = front ++ entry :: back := by
  induction front with
  | nil => rfl
  | cons first rest induction =>
      rw [List.cons_append, List.length_cons, List.insertIdx_succ_cons, induction, List.cons_append]

section Found

variable {isBefore : Entry → Bool} {entries front back : List Entry}
  (parts : Split isBefore entries front back)

include parts

theorem at_lower_bound : entries[lowerBound isBefore entries]? = back.head? := by
  rw [lower_bound_eq parts, parts.whole, List.getElem?_append_right (Nat.le_refl _), Nat.sub_self,
    List.head?_eq_getElem?]

theorem insert_at_lower_bound (entry : Entry) :
    entries.insertIdx (lowerBound isBefore entries) entry = front ++ entry :: back := by
  rw [lower_bound_eq parts, parts.whole, insert_between]

end Found

theorem pairwise_insert {related : Entry → Entry → Prop} {front back : List Entry} {entry : Entry}
    (pairwise : (front ++ back).Pairwise related) (above : ∀ other ∈ front, related other entry)
    (below : ∀ other ∈ back, related entry other) : (front ++ entry :: back).Pairwise related := by
  rcases List.pairwise_append.mp pairwise with ⟨frontOrdered, backOrdered, across⟩
  apply List.pairwise_append.mpr
  refine ⟨frontOrdered, List.pairwise_cons.mpr ⟨below, backOrdered⟩, ?_⟩
  intro earlier inFront later inBack
  rcases List.mem_cons.mp inBack with rfl | behind
  · exact above earlier inFront
  · exact across earlier inFront later behind

end Sne.Library.Bisection
