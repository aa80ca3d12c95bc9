import Mathlib.Algebra.Order.Ring.Int
import Mathlib.Tactic.Linarith
import Mathlib.Tactic.Ring

/-!
# Numbers in two parts

A number as whole units and a part of one, such as seconds and nanoseconds. Addition carries,
subtraction borrows, and the order compares the units first.
-/

namespace AcornAlarms.Library

/-- Whole units, possibly negative, and a part of one unit. -/
structure Mixed (unit : Nat) where
  whole : Int
  part : Nat
  bounded : part < unit
deriving DecidableEq

namespace Mixed

variable {unit : Nat}

/-- The number, counted in parts. -/
def total (number : Mixed unit) : Int := number.whole * unit + number.part

def add (first second : Mixed unit) : Mixed unit :=
  if fits : first.part + second.part < unit then
    ⟨first.whole + second.whole, first.part + second.part, fits⟩
  else
    ⟨first.whole + second.whole + 1, first.part + second.part - unit, by
      have bound := first.bounded
      have bound' := second.bounded
      omega⟩

def sub (first second : Mixed unit) : Mixed unit :=
  if borrows : first.part < second.part then
    ⟨first.whole - second.whole - 1, first.part + unit - second.part, by
      have bound := first.bounded
      omega⟩
  else
    ⟨first.whole - second.whole, first.part - second.part, by
      have bound := first.bounded
      omega⟩

/-- Units first, then parts. -/
def le (first second : Mixed unit) : Bool :=
  first.whole < second.whole ||
    first.whole == second.whole && first.part ≤ second.part

def min (first second : Mixed unit) : Mixed unit := if first.le second then first else second

variable {first second number : Mixed unit}

@[simp] theorem total_add : (first.add second).total = first.total + second.total := by
  unfold add total
  split
  · push_cast
    ring
  · next carries =>
      have enough : unit ≤ first.part + second.part := Nat.le_of_not_lt carries
      push_cast [enough]
      ring

@[simp] theorem total_sub : (first.sub second).total = first.total - second.total := by
  unfold sub total
  split
  · have enough : second.part ≤ first.part + unit :=
      second.bounded.le.trans (Nat.le_add_left unit first.part)
    push_cast [enough]
    ring
  · next keeps =>
      have enough : second.part ≤ first.part := Nat.le_of_not_lt keeps
      push_cast [enough]
      ring

/-- The part never makes up for a unit. -/
theorem total_lt_of_whole_lt (less : first.whole < second.whole) : first.total < second.total := by
  have bound : (first.part : Int) < unit := Int.ofNat_lt.mpr first.bounded
  have units : (first.whole + 1) * unit ≤ second.whole * unit :=
    mul_le_mul_of_nonneg_right less (Int.natCast_nonneg unit)
  unfold total
  linarith

theorem le_iff_total_le : first.le second = true ↔ first.total ≤ second.total := by
  simp only [le, Bool.or_eq_true, Bool.and_eq_true, decide_eq_true_eq, beq_iff_eq]
  rcases lt_trichotomy first.whole second.whole with less | same | more
  · have below := total_lt_of_whole_lt less
    simp [less, below.le]
  · simp [total, same]
  · have above := total_lt_of_whole_lt more
    simp [not_lt.mpr more.le, more.ne', above]

@[simp] theorem total_min : (first.min second).total = Min.min first.total second.total := by
  unfold min
  split
  · next ordered => exact (min_eq_left (le_iff_total_le.mp ordered)).symm
  · next reversed =>
      rw [le_iff_total_le, not_le] at reversed
      exact (min_eq_right reversed.le).symm

/-- A number below zero is below it in units. -/
theorem whole_nonneg_iff : 0 ≤ number.whole ↔ 0 ≤ number.total := by
  have bound : (number.part : Int) < unit := Int.ofNat_lt.mpr number.bounded
  have units : (0 : Int) ≤ unit := Int.natCast_nonneg unit
  constructor
  · intro nonneg
    have product := mul_nonneg nonneg units
    unfold total
    linarith [Int.natCast_nonneg number.part]
  · intro nonneg
    by_contra negative
    have units' : (number.whole + 1) * unit ≤ 0 :=
      mul_nonpos_of_nonpos_of_nonneg (by omega) units
    unfold total at nonneg
    linarith

/-- A bound on the number is one on its units. -/
theorem whole_lt_of_total_lt {limit : Int} (less : number.total < limit * unit) :
    number.whole < limit := by
  by_contra more
  have units : limit * unit ≤ number.whole * unit :=
    mul_le_mul_of_nonneg_right (not_lt.mp more) (Int.natCast_nonneg unit)
  unfold total at less
  linarith [Int.natCast_nonneg number.part]

end Mixed

end AcornAlarms.Library
