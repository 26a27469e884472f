import Mathlib.Data.List.Basic

/-!
# Weak orders

Comparisons with a Boolean result, as the sorted containers take them. Two values of which neither
is less than the other are equal for all purposes.
-/

namespace Sne.Library.Orders

set_option autoImplicit false

universe u v

variable {Entry : Type u} {Key : Type v}

/-- A strict order in which what is not comparable is equal for all purposes. -/
structure WeakOrder (less : Entry → Entry → Bool) : Prop where
  asymm : ∀ left right, less left right = true → less right left = false
  trans : ∀ first second third, less first second = false → less second third = false →
    less first third = false

theorem WeakOrder.less_trans {less : Entry → Entry → Bool} (order : WeakOrder less)
    {first second third : Entry} (before : less first second = true) (after : less second third = true) :
    less first third = true := by
  by_contra none
  have notLess := order.trans first third second (Bool.eq_false_iff.mpr none)
    (order.asymm second third after)
  exact Bool.false_ne_true (notLess.symm.trans before)

theorem WeakOrder.on {less : Key → Key → Bool} (order : WeakOrder less) (key : Entry → Key) :
    WeakOrder fun left right => less (key left) (key right) where
  asymm left right := order.asymm (key left) (key right)
  trans first second third := order.trans (key first) (key second) (key third)

end Sne.Library.Orders
