import Mathlib.Data.List.Nodup

/-!
# Insertion-ordered maps

A map whose entries keep the order in which their keys arrived. Replacing a value
leaves its key in place, and entries leave at the front.
-/

namespace AcornAlarms.Library

universe u v

/-- Entries with distinct keys, the oldest key first. -/
structure RingMap (Key : Type u) (Value : Type v) where
  entries : List (Key × Value)
  distinct : (entries.map Prod.fst).Nodup

namespace RingMap

variable {Key : Type u} {Value : Type v}

@[ext]
theorem ext {first second : RingMap Key Value} (same : first.entries = second.entries) :
    first = second := by
  cases first
  cases second
  cases same
  rfl

instance [DecidableEq Key] [DecidableEq Value] : DecidableEq (RingMap Key Value) :=
  fun _ _ => decidable_of_iff _ RingMap.ext_iff.symm

/-- The map with no entry. -/
def empty : RingMap Key Value := ⟨[], .nil⟩

/-- Take out the oldest entry. -/
def popFront (map : RingMap Key Value) : Option ((Key × Value) × RingMap Key Value) :=
  match map with
  | ⟨[], _⟩ => none
  | ⟨entry :: rest, distinct⟩ => some (entry, ⟨rest, (List.nodup_cons.mp distinct).2⟩)

@[simp] theorem popFront_eq_none_iff (map : RingMap Key Value) :
    map.popFront = none ↔ map = empty := by
  obtain ⟨entries, distinct⟩ := map
  cases entries with
  | nil => exact ⟨fun _ => rfl, fun _ => rfl⟩
  | cons entry rest =>
      constructor
      · intro popped
        cases popped
      · intro same
        cases congrArg RingMap.entries same

variable [DecidableEq Key]

/-- The value under a key among some entries. -/
def find? (key : Key) : List (Key × Value) → Option Value
  | [] => none
  | entry :: rest => if entry.1 = key then some entry.2 else find? key rest

/-- The value under a key. -/
def get? (map : RingMap Key Value) (key : Key) : Option Value := find? key map.entries

/-- Replace the value of a key in place, or add the key at the end. -/
def put (key : Key) (value : Value) : List (Key × Value) → List (Key × Value)
  | [] => [(key, value)]
  | entry :: rest => if entry.1 = key then (key, value) :: rest else entry :: put key value rest

theorem mem_keys_put (key other : Key) (value : Value) (entries : List (Key × Value)) :
    other ∈ (put key value entries).map Prod.fst ↔ other = key ∨ other ∈ entries.map Prod.fst := by
  induction entries with
  | nil => simp [put]
  | cons entry rest ih =>
      by_cases here : entry.1 = key
      · simp [put, here]
      · rw [put, if_neg here, List.map_cons, List.mem_cons, ih, List.map_cons, List.mem_cons]
        tauto

theorem distinct_put (key : Key) (value : Value) {entries : List (Key × Value)}
    (distinct : (entries.map Prod.fst).Nodup) : ((put key value entries).map Prod.fst).Nodup := by
  induction entries with
  | nil => exact List.nodup_singleton key
  | cons entry rest ih =>
      obtain ⟨absent, tail⟩ := List.nodup_cons.mp distinct
      by_cases here : entry.1 = key
      · rw [put, if_pos here]
        exact List.nodup_cons.mpr ⟨here ▸ absent, tail⟩
      · rw [put, if_neg here]
        refine List.nodup_cons.mpr ⟨?_, ih tail⟩
        rw [mem_keys_put]
        exact not_or.mpr ⟨here, absent⟩

/-- Set the value of a key. -/
def insert (map : RingMap Key Value) (key : Key) (value : Value) : RingMap Key Value :=
  ⟨put key value map.entries, distinct_put key value map.distinct⟩

@[simp] theorem get?_empty (key : Key) : (empty : RingMap Key Value).get? key = none := rfl

theorem find?_eq_none {key : Key} {entries : List (Key × Value)}
    (absent : key ∉ entries.map Prod.fst) : find? key entries = none := by
  induction entries with
  | nil => rfl
  | cons entry rest ih =>
      rw [List.map_cons, List.mem_cons, not_or] at absent
      rw [find?, if_neg (Ne.symm absent.1), ih absent.2]

theorem get?_insert (map : RingMap Key Value) (key other : Key) (value : Value) :
    (map.insert key value).get? other = if other = key then some value else map.get? other := by
  change find? other (put key value map.entries) =
    if other = key then some value else find? other map.entries
  induction map.entries with
  | nil => simp [put, find?, eq_comm]
  | cons entry rest ih =>
      by_cases here : entry.1 = key
      · by_cases same : other = key
        · simp [put, find?, here, same]
        · have apart : ¬ key = other := fun equal => same equal.symm
          simp [put, find?, here, same, apart]
      · rw [put, if_neg here, find?, ih, find?]
        by_cases same : other = key
        · subst same
          simp [here]
        · simp [same]

/-- The entry taken out was in the map; the others stay. -/
theorem popFront_eq_some {map rest : RingMap Key Value} {key : Key} {value : Value}
    (popped : map.popFront = some ((key, value), rest)) :
    map.get? key = some value ∧
      ∀ other, rest.get? other = if other = key then none else map.get? other := by
  obtain ⟨entries, distinct⟩ := map
  cases entries with
  | nil => cases popped
  | cons entry tail =>
      simp only [popFront, Option.some.injEq, Prod.mk.injEq] at popped
      obtain ⟨rfl, rfl⟩ := popped
      obtain ⟨absent, _⟩ := List.nodup_cons.mp distinct
      refine ⟨by simp [get?, find?], fun other => ?_⟩
      by_cases same : other = key
      · subst same
        simpa [get?] using find?_eq_none absent
      · have apart : ¬ key = other := fun equal => same equal.symm
        simp [get?, find?, same, apart]

end RingMap

end AcornAlarms.Library
