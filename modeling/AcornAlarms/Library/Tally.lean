import Mathlib.Algebra.BigOperators.Group.Finset.Basic
import Mathlib.Algebra.Order.BigOperators.Group.Finset
import Mathlib.Data.List.Perm.Subperm

/-!
# Sums of local costs

A cost for every index that is zero outside a finite support, summed up. A change that
pays at one index and costs nothing at the others pays in the sum.
-/

namespace AcornAlarms.Library

universe u

variable {Index : Type u} {cost later : Index → Nat} {support laterSupport : Finset Index}

/-- A larger support gives the same sum. -/
theorem sum_of_support {larger : Finset Index} (inside : support ⊆ larger)
    (outside : ∀ index, index ∉ support → cost index = 0) :
    ∑ index ∈ larger, cost index = ∑ index ∈ support, cost index :=
  (Finset.sum_subset inside fun index _ absent => outside index absent).symm

variable [DecidableEq Index]

/-- One index trades `paid` for `owed`, and no other index costs more than before. -/
theorem sum_trade (index : Index) {paid owed : Nat}
    (outside : ∀ other, other ∉ support → cost other = 0)
    (laterOutside : ∀ other, other ∉ laterSupport → later other = 0)
    (here : later index + paid ≤ cost index + owed)
    (others : ∀ other, other ≠ index → later other ≤ cost other) :
    ∑ other ∈ laterSupport, later other + paid ≤ ∑ other ∈ support, cost other + owed := by
  let all := insert index (support ∪ laterSupport)
  have inside : support ⊆ all := fun other member =>
    Finset.mem_insert_of_mem (Finset.mem_union_left _ member)
  have laterInside : laterSupport ⊆ all := fun other member =>
    Finset.mem_insert_of_mem (Finset.mem_union_right _ member)
  have member : index ∈ all := Finset.mem_insert_self _ _
  rw [← sum_of_support inside outside, ← sum_of_support laterInside laterOutside,
    ← Finset.add_sum_erase all cost member, ← Finset.add_sum_erase all later member]
  have rest : ∑ other ∈ all.erase index, later other ≤ ∑ other ∈ all.erase index, cost other :=
    Finset.sum_le_sum fun other inside => others other (Finset.ne_of_mem_erase inside)
  omega

/-- No index costs more than before. -/
theorem sum_le_of_support (outside : ∀ other, other ∉ support → cost other = 0)
    (laterOutside : ∀ other, other ∉ laterSupport → later other = 0)
    (all : ∀ other, later other ≤ cost other) :
    ∑ other ∈ laterSupport, later other ≤ ∑ other ∈ support, cost other := by
  have left : support ⊆ support ∪ laterSupport := Finset.subset_union_left
  have right : laterSupport ⊆ support ∪ laterSupport := Finset.subset_union_right
  rw [← sum_of_support left outside, ← sum_of_support right laterOutside]
  exact Finset.sum_le_sum fun other _ => all other

/-- A list with no more of any element than another is no longer. -/
theorem length_le_of_count {shorter longer : List Index}
    (fewer : ∀ index, shorter.count index ≤ longer.count index) : shorter.length ≤ longer.length :=
  (List.subperm_ext_iff.mpr fun index _ => fewer index).length_le

end AcornAlarms.Library
