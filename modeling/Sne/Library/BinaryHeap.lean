import Mathlib.Data.List.Basic
import Mathlib.Data.List.Perm.Basic
import Mathlib.Logic.Equiv.Basic
import Sne.Library.Orders

/-!
# Binary heaps in a list

The algorithms of `std::push_heap` and `std::pop_heap`: an entry goes up while its parent is
less, and the place of the entry that is taken out goes down to a leaf, always to the
greater child, before the last entry goes up from there. Of two children neither of which
is less, the right one moves. An entry is moved by swaps. Whatever `less` is, the entries
stay the same; that the first one is greatest needs `less` to be a weak order.
-/

namespace Sne.Library.BinaryHeap

open Sne.Library.Orders

set_option autoImplicit false

universe u

variable {Entry : Type u}

def parent (place : Nat) : Nat := (place - 1) / 2

def swap (first second : Nat) (heap : List Entry) : List Entry :=
  match heap[first]?, heap[second]? with
  | some left, some right => (heap.set first right).set second left
  | _, _ => heap

def lessAt (less : Entry → Entry → Bool) (heap : List Entry) (first second : Nat) : Bool :=
  match heap[first]?, heap[second]? with
  | some left, some right => less left right
  | _, _ => false

section Algorithms

variable (less : Entry → Entry → Bool)

/-- The entry at `place` goes up; it has no more than `fuel` entries above it. -/
def siftUp : Nat → Nat → List Entry → List Entry
  | 0, _, heap => heap
  | fuel + 1, place, heap =>
      if 0 < place ∧ lessAt less heap (parent place) place = true then
        siftUp fuel (parent place) (swap (parent place) place heap)
      else
        heap

def greaterChild (heap : List Entry) (place : Nat) : Nat :=
  if lessAt less heap (2 * place + 2) (2 * place + 1) then 2 * place + 1 else 2 * place + 2

/-- The entry at `place` goes down to a leaf, and up from there. -/
def adjustHeap : Nat → Nat → List Entry → List Entry
  | 0, _, heap => heap
  | fuel + 1, place, heap =>
      if 2 * place + 2 < heap.length then
        adjustHeap fuel (greaterChild less heap place) (swap place (greaterChild less heap place) heap)
      else if 2 * place + 1 < heap.length then
        siftUp less (2 * place + 1) (2 * place + 1) (swap place (2 * place + 1) heap)
      else
        siftUp less place place heap

/-- `push_back` and `push_heap`. -/
def pushHeap (entry : Entry) (heap : List Entry) : List Entry :=
  siftUp less heap.length heap.length (heap ++ [entry])

/-- The first entry, and what `pop_heap` and `pop_back` leave. -/
def popHeap : List Entry → Option (Entry × List Entry)
  | [] => none
  | top :: rest =>
      match rest.getLast? with
      | none => some (top, [])
      | some last => some (top, adjustHeap less rest.length 0 (last :: rest.dropLast))

end Algorithms

section Swap

variable {heap : List Entry} {first second : Nat}

theorem swap_get (firstIn : first < heap.length) (secondIn : second < heap.length) (place : Nat) :
    (swap first second heap)[place]? = heap[Equiv.swap first second place]? := by
  simp only [swap, List.getElem?_eq_getElem firstIn, List.getElem?_eq_getElem secondIn]
  rw [List.getElem?_set, List.getElem?_set, Equiv.swap_apply_def]
  by_cases atSecond : second = place
  · rw [if_pos atSecond, ← atSecond, List.length_set, if_pos secondIn]
    by_cases same : second = first
    · rw [if_pos same, List.getElem?_eq_getElem secondIn]
      congr 2
      exact same.symm
    · rw [if_neg same, if_pos rfl, List.getElem?_eq_getElem firstIn]
  · rw [if_neg atSecond]
    by_cases atFirst : first = place
    · rw [if_pos atFirst, if_pos atFirst.symm, if_pos firstIn, List.getElem?_eq_getElem secondIn]
    · rw [if_neg atFirst, if_neg (Ne.symm atFirst), if_neg (Ne.symm atSecond)]

theorem less_at_swap (less : Entry → Entry → Bool) (firstIn : first < heap.length)
    (secondIn : second < heap.length) (left right : Nat) :
    lessAt less (swap first second heap) left right =
      lessAt less heap (Equiv.swap first second left) (Equiv.swap first second right) := by
  simp only [lessAt, swap_get firstIn secondIn]

theorem swap_perm (first second : Nat) (heap : List Entry) : (swap first second heap).Perm heap := by
  unfold swap
  split
  · rename_i left right atFirst atSecond
    rcases List.getElem?_eq_some_iff.mp atFirst with ⟨firstIn, rfl⟩
    rcases List.getElem?_eq_some_iff.mp atSecond with ⟨secondIn, rfl⟩
    exact List.set_set_perm firstIn secondIn
  · exact List.Perm.refl heap

end Swap

section Entries

variable {less : Entry → Entry → Bool}

theorem sift_up_perm (fuel place : Nat) (heap : List Entry) :
    (siftUp less fuel place heap).Perm heap := by
  induction fuel generalizing place heap with
  | zero => exact List.Perm.refl heap
  | succ fuel induction =>
      rw [siftUp]
      split
      · exact (induction _ _).trans (swap_perm _ _ heap)
      · exact List.Perm.refl heap

theorem adjust_heap_perm (fuel place : Nat) (heap : List Entry) :
    (adjustHeap less fuel place heap).Perm heap := by
  induction fuel generalizing place heap with
  | zero => exact List.Perm.refl heap
  | succ fuel induction =>
      rw [adjustHeap]
      split
      · exact (induction _ _).trans (swap_perm _ _ heap)
      · split
        · exact (sift_up_perm _ _ _).trans (swap_perm _ _ heap)
        · exact sift_up_perm _ _ heap

theorem push_heap_perm (entry : Entry) (heap : List Entry) :
    (pushHeap less entry heap).Perm (entry :: heap) :=
  (sift_up_perm _ _ _).trans (List.perm_append_singleton entry heap)

theorem pop_heap_perm {heap rest : List Entry} {top : Entry}
    (popped : popHeap less heap = some (top, rest)) :
    heap.Perm (top :: rest) ∧ heap[0]? = some top := by
  cases heap with
  | nil => cases popped
  | cons first others =>
      rw [popHeap] at popped
      split at popped
      · rename_i none
        cases popped
        rw [List.getLast?_eq_none_iff.mp none]
        exact ⟨List.Perm.refl _, rfl⟩
      · rename_i last found
        cases popped
        refine ⟨?_, rfl⟩
        rcases List.getLast?_eq_some_iff.mp found with ⟨front, rfl⟩
        rw [List.dropLast_concat]
        exact ((List.perm_append_singleton last front).trans (adjust_heap_perm _ _ _).symm).cons top

end Entries

/-- No parent is less than its child. -/
def IsHeap (less : Entry → Entry → Bool) (heap : List Entry) : Prop :=
  ∀ place, 0 < place → lessAt less heap (parent place) place = false

section Places

variable {less : Entry → Entry → Bool} {heap : List Entry} {first second third : Nat}

theorem less_at_in (isLess : lessAt less heap first second = true) :
    first < heap.length ∧ second < heap.length := by
  unfold lessAt at isLess
  split at isLess
  · rename_i left right atFirst atSecond
    exact ⟨(List.getElem?_eq_some_iff.mp atFirst).1, (List.getElem?_eq_some_iff.mp atSecond).1⟩
  · cases isLess

theorem less_at_outside (outside : heap.length ≤ second) : lessAt less heap first second = false := by
  apply Bool.eq_false_iff.mpr
  intro isLess
  exact Nat.not_lt.mpr outside (less_at_in isLess).2

theorem less_at_eq (firstIn : first < heap.length) (secondIn : second < heap.length) :
    lessAt less heap first second = less heap[first] heap[second] := by
  simp only [lessAt, List.getElem?_eq_getElem firstIn, List.getElem?_eq_getElem secondIn]

theorem less_at_asymm (order : WeakOrder less) (isLess : lessAt less heap first second = true) :
    lessAt less heap second first = false := by
  rcases less_at_in isLess with ⟨firstIn, secondIn⟩
  rw [less_at_eq firstIn secondIn] at isLess
  rw [less_at_eq secondIn firstIn]
  exact order.asymm _ _ isLess

theorem less_at_trans (order : WeakOrder less) (secondIn : second < heap.length)
    (before : lessAt less heap first second = false) (after : lessAt less heap second third = false) :
    lessAt less heap first third = false := by
  apply Bool.eq_false_iff.mpr
  intro isLess
  rcases less_at_in isLess with ⟨firstIn, thirdIn⟩
  rw [less_at_eq firstIn thirdIn] at isLess
  rw [less_at_eq firstIn secondIn] at before
  rw [less_at_eq secondIn thirdIn] at after
  exact Bool.eq_false_iff.mp (order.trans _ _ _ before after) isLess

/-- What is greater than an entry that is not less than a third one, is not less than that. -/
theorem less_at_of_less (order : WeakOrder less) (isLess : lessAt less heap first second = true)
    (notLess : lessAt less heap first third = false) : lessAt less heap second third = false := by
  apply Bool.eq_false_iff.mpr
  intro secondLess
  have back := less_at_asymm order secondLess
  have same := less_at_trans order (less_at_in secondLess).2 notLess back
  rw [same] at isLess
  cases isLess

end Places

section Sifting

variable {less : Entry → Entry → Bool} {heap : List Entry} {place : Nat}

/-- The entry at `place` may be greater than its parent; all others are in order, also
without it. -/
structure UpOrder (less : Entry → Entry → Bool) (heap : List Entry) (place : Nat) : Prop where
  except : ∀ other, 0 < other → other ≠ place → lessAt less heap (parent other) other = false
  around : 0 < place → ∀ child, 0 < child → parent child = place →
    lessAt less heap (parent place) child = false

/-- The entry at `place` may be in any order to its parent and its children. -/
structure DownOrder (less : Entry → Entry → Bool) (heap : List Entry) (place : Nat) : Prop where
  except : ∀ other, 0 < other → other ≠ place → parent other ≠ place →
    lessAt less heap (parent other) other = false
  around : 0 < place → ∀ child, 0 < child → parent child = place →
    lessAt less heap (parent place) child = false

theorem parent_lt (positive : 0 < place) : parent place < place := by
  unfold parent
  omega

theorem UpOrder.finish (up : UpOrder less heap place)
    (stop : 0 < place → lessAt less heap (parent place) place = false) : IsHeap less heap := by
  intro other positive
  by_cases same : other = place
  · rw [same] at positive ⊢
    exact stop positive
  · exact up.except other positive same

theorem UpOrder.move (order : WeakOrder less) (up : UpOrder less heap place) (positive : 0 < place)
    (isLess : lessAt less heap (parent place) place = true) :
    UpOrder less (swap (parent place) place heap) (parent place) := by
  rcases less_at_in isLess with ⟨parentIn, placeIn⟩
  have above := parent_lt positive
  constructor
  · intro other otherPositive notParent
    rw [less_at_swap less parentIn placeIn]
    by_cases same : other = place
    · rw [same, Equiv.swap_apply_left, Equiv.swap_apply_right]
      exact less_at_asymm order isLess
    · rw [Equiv.swap_apply_of_ne_of_ne notParent same]
      by_cases sibling : parent other = parent place
      · rw [sibling, Equiv.swap_apply_left]
        apply less_at_of_less order isLess
        rw [← sibling]
        exact up.except other otherPositive same
      · by_cases child : parent other = place
        · rw [child, Equiv.swap_apply_right]
          exact up.around positive other otherPositive child
        · rw [Equiv.swap_apply_of_ne_of_ne sibling child]
          exact up.except other otherPositive same
  · intro parentPositive child childPositive isChild
    have grand := parent_lt parentPositive
    have grandOrder := up.except (parent place) parentPositive (Nat.ne_of_lt above)
    have below := parent_lt childPositive
    rw [less_at_swap less parentIn placeIn,
      Equiv.swap_apply_of_ne_of_ne (Nat.ne_of_lt grand) (Nat.ne_of_lt (Nat.lt_trans grand above))]
    by_cases same : child = place
    · rw [same, Equiv.swap_apply_right]
      exact grandOrder
    · rw [Equiv.swap_apply_of_ne_of_ne (by omega) same]
      apply less_at_trans order parentIn grandOrder
      rw [← isChild]
      exact up.except child childPositive same

/-- The fuel lasts because every parent comes before its child. -/
theorem UpOrder.sift (order : WeakOrder less) {fuel : Nat} (up : UpOrder less heap place)
    (enough : place ≤ fuel) : IsHeap less (siftUp less fuel place heap) := by
  induction fuel generalizing place heap with
  | zero =>
      apply up.finish
      intro positive
      exact absurd enough (Nat.not_le.mpr positive)
  | succ fuel induction =>
      rw [siftUp]
      split
      · rename_i goesOn
        have above := parent_lt goesOn.1
        exact induction (up.move order goesOn.1 goesOn.2) (by omega)
      · rename_i stops
        apply up.finish
        intro positive
        exact Bool.eq_false_iff.mpr (fun isLess => stops ⟨positive, isLess⟩)

theorem DownOrder.move (down : DownOrder less heap place) (placeIn : place < heap.length) {child : Nat}
    (childIn : child < heap.length) (positive : 0 < child) (isChild : parent child = place)
    (greatest : ∀ other, 0 < other → parent other = place → lessAt less heap child other = false) :
    DownOrder less (swap place child heap) child := by
  have below := parent_lt positive
  constructor
  · intro other otherPositive notChild notBelow
    rw [less_at_swap less placeIn childIn]
    by_cases same : other = place
    · have above := parent_lt otherPositive
      rw [same] at otherPositive above notBelow ⊢
      rw [Equiv.swap_apply_left, Equiv.swap_apply_of_ne_of_ne (Nat.ne_of_lt above) notBelow]
      exact down.around otherPositive child positive isChild
    · rw [Equiv.swap_apply_of_ne_of_ne same notChild]
      by_cases sibling : parent other = place
      · rw [sibling, Equiv.swap_apply_left]
        exact greatest other otherPositive sibling
      · rw [Equiv.swap_apply_of_ne_of_ne sibling notBelow]
        exact down.except other otherPositive same sibling
  · intro _ grandchild grandPositive isGrandchild
    have further := parent_lt grandPositive
    have notPlace : grandchild ≠ place := by omega
    have notChild : grandchild ≠ child := by omega
    rw [isChild, less_at_swap less placeIn childIn, Equiv.swap_apply_left,
      Equiv.swap_apply_of_ne_of_ne notPlace notChild, ← isGrandchild]
    apply down.except grandchild grandPositive notPlace
    omega

theorem parent_child {child : Nat} (positive : 0 < child) (isChild : parent child = place) :
    child = 2 * place + 1 ∨ child = 2 * place + 2 := by
  unfold parent at isChild
  omega

theorem DownOrder.leaf (down : DownOrder less heap place) (leaf : heap.length ≤ 2 * place + 1) :
    UpOrder less heap place where
  except other positive different := by
    by_cases child : parent other = place
    · have below := parent_child positive child
      apply less_at_outside
      omega
    · exact down.except other positive different child
  around := down.around

theorem greater_child_cases (less : Entry → Entry → Bool) (heap : List Entry) (place : Nat) :
    greaterChild less heap place = 2 * place + 1 ∨ greaterChild less heap place = 2 * place + 2 := by
  unfold greaterChild
  split
  · exact Or.inl rfl
  · exact Or.inr rfl

theorem less_at_self (order : WeakOrder less) (place : Nat) : lessAt less heap place place = false := by
  apply Bool.eq_false_iff.mpr
  intro isLess
  have back := less_at_asymm order isLess
  rw [back] at isLess
  cases isLess

theorem greater_child_greatest (order : WeakOrder less) {other : Nat} (positive : 0 < other)
    (child : parent other = place) : lessAt less heap (greaterChild less heap place) other = false := by
  unfold greaterChild
  split
  · rename_i isLess
    rcases parent_child positive child with rfl | rfl
    · exact less_at_self order _
    · exact less_at_asymm order isLess
  · rename_i notLess
    rcases parent_child positive child with rfl | rfl
    · exact Bool.eq_false_iff.mpr notLess
    · exact less_at_self order _

/-- The fuel lasts because every child comes after its parent. -/
theorem DownOrder.adjust (order : WeakOrder less) {fuel : Nat} (down : DownOrder less heap place)
    (placeIn : place < heap.length) (enough : heap.length ≤ fuel + place) :
    IsHeap less (adjustHeap less fuel place heap) := by
  induction fuel generalizing place heap with
  | zero => exact absurd placeIn (Nat.not_lt.mpr (by omega))
  | succ fuel induction =>
      rw [adjustHeap]
      have length := fun child => (swap_perm place child heap).length_eq
      split
      · rename_i bothIn
        have cases := greater_child_cases less heap place
        have childIn : greaterChild less heap place < heap.length := by omega
        have isChild : parent (greaterChild less heap place) = place := by
          unfold parent
          omega
        apply induction
        · apply down.move placeIn childIn (by omega) isChild
          intro other positive child
          exact greater_child_greatest order positive child
        · rw [length]
          exact childIn
        · rw [length]
          omega
      · split
        · rename_i noRight leftIn
          have isChild : parent (2 * place + 1) = place := by
            unfold parent
            omega
          have moved : DownOrder less (swap place (2 * place + 1) heap) (2 * place + 1) := by
            apply down.move placeIn leftIn (Nat.succ_pos _) isChild
            intro other positive child
            rcases parent_child positive child with rfl | rfl
            · exact less_at_self order _
            · exact less_at_outside (Nat.not_lt.mp noRight)
          have leaf := moved.leaf (by rw [length]; omega)
          exact leaf.sift order (Nat.le_refl _)
        · rename_i noLeft
          exact (down.leaf (Nat.not_lt.mp noLeft)).sift order (Nat.le_refl _)

end Sifting

section Heaps

variable {less : Entry → Entry → Bool} {heap rest : List Entry} {entry top : Entry}

theorem empty_heap (less : Entry → Entry → Bool) : IsHeap less [] := by
  intro place _
  exact less_at_outside (Nat.zero_le _)

theorem IsHeap.push (order : WeakOrder less) (isHeap : IsHeap less heap) (entry : Entry) :
    IsHeap less (pushHeap less entry heap) := by
  have up : UpOrder less (heap ++ [entry]) heap.length := by
    constructor
    · intro other positive different
      have above := parent_lt positive
      by_cases inside : other < heap.length
      · have same := isHeap other positive
        unfold lessAt at same ⊢
        rw [List.getElem?_append_left inside, List.getElem?_append_left (Nat.lt_trans above inside)]
        exact same
      · apply less_at_outside
        rw [List.length_append, List.length_singleton]
        omega
    · intro _ child positive isChild
      have below := parent_lt positive
      apply less_at_outside
      rw [List.length_append, List.length_singleton]
      omega
  exact up.sift order (Nat.le_refl _)

theorem IsHeap.pop (order : WeakOrder less) (isHeap : IsHeap less heap)
    (popped : popHeap less heap = some (top, rest)) : IsHeap less rest := by
  cases heap with
  | nil => cases popped
  | cons first others =>
      rw [popHeap] at popped
      split at popped
      · cases popped
        exact empty_heap less
      · rename_i last found
        cases popped
        rcases List.getLast?_eq_some_iff.mp found with ⟨front, rfl⟩
        rw [List.dropLast_concat]
        have down : DownOrder less (last :: front) 0 := by
          constructor
          · intro other positive _ notRoot
            have above := parent_lt positive
            by_cases inside : other < (last :: front).length
            · have same := isHeap other positive
              have unchanged : ∀ place, 0 < place → place < (last :: front).length →
                  (top :: (front ++ [last]))[place]? = (last :: front)[place]? := by
                intro place placePositive placeIn
                rcases Nat.exists_eq_succ_of_ne_zero (Nat.ne_of_gt placePositive) with ⟨before, rfl⟩
                rw [List.getElem?_cons_succ, List.getElem?_cons_succ,
                  List.getElem?_append_left (Nat.lt_of_succ_lt_succ placeIn)]
              unfold lessAt at same ⊢
              rw [unchanged other positive inside,
                unchanged _ (Nat.pos_of_ne_zero notRoot) (Nat.lt_trans above inside)] at same
              exact same
            · exact less_at_outside (Nat.not_lt.mp inside)
          · intro impossible
            cases impossible
        apply down.adjust order (Nat.succ_pos _)
        rw [List.length_append]
        exact Nat.le_refl _

/-- The first entry of a heap is not less than any other. -/
theorem IsHeap.top_greatest (order : WeakOrder less) (isHeap : IsHeap less heap)
    (isTop : heap[0]? = some top) {other : Entry} (member : other ∈ heap) : less top other = false := by
  have rootIn := (List.getElem?_eq_some_iff.mp isTop).1
  have all : ∀ place, lessAt less heap 0 place = false := by
    intro place
    induction place using Nat.strongRecOn with
    | ind place induction =>
        rcases Nat.eq_zero_or_pos place with rfl | positive
        · exact less_at_self order 0
        · have above := parent_lt positive
          by_cases parentIn : parent place < heap.length
          · exact less_at_trans order parentIn (induction _ above) (isHeap place positive)
          · apply less_at_outside
            omega
  rcases List.getElem?_of_mem member with ⟨place, found⟩
  have least := all place
  simp only [lessAt, isTop, found] at least
  exact least

theorem sift_up_congr {finer : Entry → Entry → Bool} (fuel : Nat) {place : Nat}
    (found : heap[place]? = some entry)
    (same : ∀ other ∈ heap, less other entry = finer other entry) :
    siftUp less fuel place heap = siftUp finer fuel place heap := by
  induction fuel generalizing place heap with
  | zero => rfl
  | succ fuel induction =>
      have agrees : lessAt less heap (parent place) place = lessAt finer heap (parent place) place := by
        unfold lessAt
        rw [found]
        cases above : heap[parent place]? with
        | none => rfl
        | some other => exact same other (List.mem_of_getElem? above)
      rw [siftUp, siftUp, agrees]
      split
      · rename_i goesOn
        rcases less_at_in goesOn.2 with ⟨parentIn, placeIn⟩
        apply induction
        · rw [swap_get parentIn placeIn, Equiv.swap_apply_left]
          exact found
        · intro other member
          exact same other ((swap_perm _ _ heap).mem_iff.mp member)
      · rfl

theorem push_heap_congr {finer : Entry → Entry → Bool}
    (same : ∀ other ∈ heap ++ [entry], less other entry = finer other entry) :
    pushHeap less entry heap = pushHeap finer entry heap :=
  sift_up_congr heap.length List.getElem?_concat_length same

end Heaps

end Sne.Library.BinaryHeap
