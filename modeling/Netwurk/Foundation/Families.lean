/-
Finite families of values, one member of which is replaced. A total over the
family changes by exactly the member's change; the identities are additive, so
that they also hold in the naturals and for multisets. A family that is filled in
order has a border, which replacing the next member moves by one.
-/

import Mathlib.Algebra.BigOperators.Group.Finset.Basic
import Mathlib.Data.Fintype.BigOperators
import Mathlib.Algebra.Order.BigOperators.Group.Finset

namespace Netwurk.Families

open Finset

section Totals

variable {Index Value : Type} [Fintype Index] [DecidableEq Index]

theorem sum_update_add {Total : Type} [AddCommMonoid Total]
    (weight : Index → Value → Total) (family : Index → Value) (index : Index) (value : Value) :
    (∑ other, weight other (Function.update family index value other)) +
        weight index (family index) =
      (∑ other, weight other (family other)) + weight index value := by
  have outside :
      ∑ other ∈ univ.erase index, weight other (Function.update family index value other) =
        ∑ other ∈ univ.erase index, weight other (family other) := by
    apply sum_congr rfl
    intro other member
    rw [Function.update_of_ne (ne_of_mem_erase member)]
  rw [← add_sum_erase univ _ (mem_univ index),
    ← add_sum_erase univ (fun other => weight other (family other)) (mem_univ index),
    outside, Function.update_self]
  ac_rfl

theorem sum_update_grow {Total : Type} [AddCancelCommMonoid Total]
    (weight : Index → Value → Total) (family : Index → Value) (index : Index) {value : Value}
    {extra : Total} (grown : weight index value = weight index (family index) + extra) :
    ∑ other, weight other (Function.update family index value other) =
      (∑ other, weight other (family other)) + extra := by
  have total := sum_update_add weight family index value
  rw [grown, add_comm (weight index (family index)), ← add_assoc] at total
  exact add_right_cancel total

end Totals

section Borders

variable {count : Nat} {Value : Type} {family : Fin count → Value}

theorem border_advances (absent : Value → Prop) {border : Nat} (within : border < count)
    {value : Value}
    (before : ∀ other, absent (family other) ↔ border ≤ other.val) (present : ¬ absent value) :
    ∀ other, absent (Function.update family ⟨border, within⟩ value other) ↔
      border + 1 ≤ other.val := by
  intro other
  by_cases same : other = ⟨border, within⟩
  · subst same
    rw [Function.update_self]
    constructor
    · intro impossible
      exact absurd impossible present
    · intro later
      simp at later
  · rw [Function.update_of_ne same, before other]
    have differs : other.val ≠ border := fun value => same (Fin.ext value)
    omega

theorem border_stays (absent : Value → Prop) {border : Nat} {index : Fin count}
    {value : Value}
    (before : ∀ other, absent (family other) ↔ border ≤ other.val)
    (kept : absent value ↔ absent (family index)) :
    ∀ other, absent (Function.update family index value other) ↔ border ≤ other.val := by
  intro other
  by_cases same : other = index
  · subst same
    rw [Function.update_self, kept]
    exact before other
  · rw [Function.update_of_ne same]
    exact before other

theorem prefix_stays (ended : Value → Prop) {border : Nat} {index : Fin count} {value : Value}
    (before : ∀ other : Fin count, other.val < border → ended (family other))
    (kept : ended (family index) → ended value) :
    ∀ other : Fin count, other.val < border → ended (Function.update family index value other) := by
  intro other below
  by_cases same : other = index
  · subst same
    rw [Function.update_self]
    exact kept (before other below)
  · rw [Function.update_of_ne same]
    exact before other below

theorem prefix_advances (ended : Value → Prop) {border : Nat} (within : border < count)
    (before : ∀ other : Fin count, other.val < border → ended (family other))
    (next : ended (family ⟨border, within⟩)) :
    ∀ other : Fin count, other.val < border + 1 → ended (family other) := by
  intro other below
  rcases Nat.lt_succ_iff_lt_or_eq.mp below with inside | last
  · exact before other inside
  · have same : other = ⟨border, within⟩ := Fin.ext last
    rw [same]
    exact next

end Borders

end Netwurk.Families
