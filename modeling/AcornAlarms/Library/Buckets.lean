import Mathlib.Algebra.Order.Ring.Int
import Mathlib.Data.List.Perm.Basic
import Mathlib.Data.List.Sort

/-!
# Counting by buckets

A value belongs to the first bucket whose bound it does not exceed, and to none when it exceeds
every bound. Counts kept by bucket add up to the numbers of values below each bound.
-/

namespace AcornAlarms.Library

universe u v

variable {α : Type u} [LinearOrder α] {bounds : List α} {value : α}
  {Count : Type v} [AddCommMonoid Count] [One Count]

/-- The first bucket whose bound a value does not exceed. -/
def bucketOf (bounds : List α) (value : α) : Option Nat :=
  bounds.findIdx? fun bound => value ≤ bound

/-- A bucket lies within the bounds. -/
theorem bucketOf_lt {place : Nat} (found : bucketOf bounds value = some place) :
    place < bounds.length := by
  rw [bucketOf, List.findIdx?_eq_some_iff_getElem] at found
  obtain ⟨within, -⟩ := found
  exact within

/-- A value without a bucket exceeds every bound. -/
theorem bucketOf_eq_none_iff : bucketOf bounds value = none ↔ ∀ bound ∈ bounds, bound < value := by
  simp [bucketOf, List.findIdx?_eq_none_iff]

/-- With increasing bounds a bucket is not behind another exactly if the value does not exceed the
bound of the other. -/
theorem bucketOf_le_iff (sorted : bounds.Pairwise (· ≤ ·)) {place : Nat}
    (found : bucketOf bounds value = some place) {index : Nat} (within : index < bounds.length) :
    place ≤ index ↔ value ≤ bounds[index] := by
  rw [bucketOf, List.findIdx?_eq_some_iff_getElem] at found
  obtain ⟨placed, covers, first⟩ := found
  constructor
  · intro before
    have covered : value ≤ bounds[place] := of_decide_eq_true covers
    obtain rfl | less := Nat.eq_or_lt_of_le before
    · exact covered
    · exact covered.trans (List.pairwise_iff_getElem.mp sorted place index placed within less)
  · intro below
    by_contra later
    have skipped := first index (Nat.lt_of_not_le later)
    simp [below] at skipped

/-- The counts with one more in a bucket. -/
def countAt (counts : List Count) : Option Nat → List Count
  | some place => counts.modify place (· + 1)
  | none => counts

@[simp] theorem length_countAt (counts : List Count) (place : Option Nat) :
    (countAt counts place).length = counts.length := by
  cases place with
  | none => rfl
  | some place => exact List.length_modify _ _ _

/-- One more in a bucket adds one to the sums that reach it. -/
theorem sum_take_countAt {counts : List Count} {place : Nat} (within : place < counts.length)
    (first : Nat) : ((countAt counts (some place)).take first).sum =
      (counts.take first).sum + if place < first then 1 else 0 := by
  induction counts generalizing place first with
  | nil => cases within
  | cons count rest ih =>
      cases first with
      | zero => simp [countAt]
      | succ first =>
          cases place with
          | zero => simp [countAt, add_right_comm]
          | succ place =>
              have later := ih (Nat.lt_of_succ_lt_succ within) first
              simp only [countAt, List.modify_succ_cons, List.take_succ_cons, List.sum_cons,
                Nat.succ_lt_succ_iff] at later ⊢
              rw [later, add_assoc]

/-- Taking an element out of a list takes it out of the count. -/
theorem countP_eraseIdx {Element : Type u} {holds : Element → Bool} {list : List Element}
    {index : Nat} {element : Element} (found : list[index]? = some element)
    (counts : holds element = true) :
    (list.eraseIdx index).countP holds + 1 = list.countP holds := by
  obtain ⟨within, same⟩ := List.getElem?_eq_some_iff.mp found
  rw [← (List.getElem_cons_eraseIdx_perm within).countP_eq holds, same,
    List.countP_cons_of_pos counts]

end AcornAlarms.Library
