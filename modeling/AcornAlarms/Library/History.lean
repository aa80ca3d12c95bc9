import Mathlib.Data.List.Sort

/-!
# Histories

Lists of events, oldest first: the latest value the events of a history carry, the
events that occurred while a value was the latest one, and the histories with values
left out.
-/

namespace AcornAlarms.Library

universe u v

variable {Event : Type u} {Value : Type v}

/-- An occurrence in two joined histories lies in the first or in the second. -/
theorem split_append {first second before after : List Event} {event : Event}
    (split : first ++ second = before ++ event :: after) :
    (∃ rest, first = before ++ event :: rest ∧ after = rest ++ second) ∨
      ∃ early, before = first ++ early ∧ second = early ++ event :: after := by
  rcases List.append_eq_append_iff.mp split with ⟨early, left, right⟩ | ⟨rest, left, right⟩
  · exact .inr ⟨early, left, right⟩
  · cases rest with
    | nil =>
        refine .inr ⟨[], ?_, by simpa using right.symm⟩
        simpa using left.symm
    | cons head tail =>
        simp only [List.cons_append, List.cons.injEq] at right
        obtain ⟨rfl, rfl⟩ := right
        exact .inl ⟨tail, left, rfl⟩

/-- An occurrence in a history of one event. -/
theorem split_singleton {only event : Event} {before after : List Event}
    (split : [only] = before ++ event :: after) : before = [] ∧ event = only := by
  cases before with
  | nil => exact ⟨rfl, (List.cons.inj split).1.symm⟩
  | cons head tail => simp at split

/-- An occurrence in a history of two events. -/
theorem split_pair {first second event : Event} {before after : List Event}
    (split : [first, second] = before ++ event :: after) :
    (before = [] ∧ event = first) ∨ (before = [first] ∧ event = second) := by
  cases before with
  | nil => exact .inl ⟨rfl, (List.cons.inj split).1.symm⟩
  | cons head tail =>
      obtain ⟨rfl, rest⟩ := List.cons.inj split
      obtain ⟨rfl, rfl⟩ := split_singleton rest
      exact .inr ⟨rfl, rfl⟩

/-- The value of the last event that carries one. -/
def latest (pick : Event → Option Value) (history : List Event) : Option Value :=
  (history.filterMap pick).getLast?

variable {pick : Event → Option Value}

@[simp] theorem latest_nil : latest pick [] = none := rfl

theorem latest_append (first second : List Event) :
    latest pick (first ++ second) = (latest pick second).or (latest pick first) := by
  simp [latest, List.getLast?_append]

@[simp] theorem latest_singleton (event : Event) : latest pick [event] = pick event := by
  cases picked : pick event <;> simp [latest, picked]

theorem latest_cons (event : Event) (rest : List Event) :
    latest pick (event :: rest) = (latest pick rest).or (pick event) := by
  rw [← List.singleton_append, latest_append, latest_singleton]

/-- The event that carries the latest value. -/
theorem latest_eq_some_iff {history : List Event} {value : Value} :
    latest pick history = some value ↔
      ∃ older event newer, history = older ++ event :: newer ∧ pick event = some value ∧
        ∀ later ∈ newer, pick later = none := by
  rw [latest, List.getLast?_filterMap, List.findSome?_eq_some_iff]
  constructor
  · rintro ⟨after, event, before, reversed, picked, silent⟩
    refine ⟨before.reverse, event, after.reverse, ?_, picked, ?_⟩
    · rw [← List.reverse_reverse history, reversed]
      simp
    · intro later member
      exact silent later (List.mem_reverse.mp member)
  · rintro ⟨older, event, newer, rfl, picked, silent⟩
    refine ⟨newer.reverse, event, older.reverse, by simp, picked, ?_⟩
    intro later member
    exact silent later (List.mem_reverse.mp member)

/-- The event occurred while the value was the latest. -/
def During (pick : Event → Option Value) (history : List Event) (value : Value)
    (event : Event) : Prop :=
  ∃ before after, history = before ++ event :: after ∧ latest pick before = some value

namespace During

variable {history out : List Event} {value : Value} {event : Event}

theorem append (during : During pick history value event) (out : List Event) :
    During pick (history ++ out) value event := by
  obtain ⟨before, after, rfl, current⟩ := during
  exact ⟨before, after ++ out, by simp, current⟩

/-- An event that occurs now occurs while the latest value is the latest. -/
theorem now (current : latest pick history = some value) (event : Event) :
    During pick (history ++ [event]) value event :=
  ⟨history, [], by simp, current⟩

/-- An occurrence in a longer history is old or among the new events. -/
theorem of_append (during : During pick (history ++ out) value event) :
    During pick history value event ∨ event ∈ out := by
  obtain ⟨before, after, split, current⟩ := during
  rcases split_append split with ⟨rest, same, _⟩ | ⟨early, _, same⟩
  · exact .inl ⟨before, rest, same, current⟩
  · exact .inr (by rw [same]; simp)

/-- An occurrence in a history one event longer is old or happens now. -/
theorem of_snoc {last : Event} (during : During pick (history ++ [last]) value event) :
    During pick history value event ∨ (event = last ∧ latest pick history = some value) := by
  obtain ⟨before, after, split, current⟩ := during
  rcases split_append split with ⟨rest, same, _⟩ | ⟨early, same, single⟩
  · exact .inl ⟨before, rest, same, current⟩
  · cases early with
    | nil =>
        simp only [List.nil_append, List.cons.injEq] at single
        refine .inr ⟨single.1.symm, ?_⟩
        rw [← current, same, List.append_nil]
    | cons head tail => simp at single

end During

/-- Some values of a history are left out, in order, and never the last one. -/
structure Coalesced (kept all : List Value) : Prop where
  inside : kept.Sublist all
  last : kept.getLast? = all.getLast?

/-- A new value takes the place of any values after those already kept. -/
theorem Coalesced.supersede {kept left all : List Value} (coalesced : Coalesced (kept ++ left) all)
    (value : Value) : Coalesced (kept ++ [value]) (all ++ [value]) where
  inside := ((List.sublist_append_left kept left).trans coalesced.inside).append (.refl _)
  last := by simp

section Trace

variable {State : Type v} (advance : State → Event → State) (picks : Event → Bool)

/-- The states a history passed through when the picked events occurred, oldest first. -/
def statesAt (state : State) : List Event → List State
  | [] => []
  | event :: rest => (if picks event then [state] else []) ++ statesAt (advance state event) rest

theorem statesAt_append (state : State) (first second : List Event) :
    statesAt advance picks state (first ++ second) =
      statesAt advance picks state first ++
        statesAt advance picks (first.foldl advance state) second := by
  induction first generalizing state with
  | nil => rfl
  | cons event rest ih =>
      simp only [List.cons_append, statesAt, List.foldl_cons, ih, List.append_assoc]

/-- There is one state for each picked event. -/
theorem length_statesAt (state : State) (events : List Event) :
    (statesAt advance picks state events).length = events.countP picks := by
  induction events generalizing state with
  | nil => rfl
  | cons event rest ih =>
      rw [statesAt, List.length_append, ih, List.countP_cons]
      cases picks event <;> simp [Nat.add_comm]

/-- Events of which none is picked. -/
theorem statesAt_none (state : State) (events : List Event)
    (skipped : ∀ event ∈ events, picks event = false) :
    statesAt advance picks state events = [] := by
  induction events generalizing state with
  | nil => rfl
  | cons event rest ih =>
      rw [statesAt, skipped event List.mem_cons_self,
        ih _ fun later member => skipped later (List.mem_cons_of_mem _ member)]
      rfl

/-- Events that neither are picked nor change the state. -/
theorem statesAt_still (state : State) (events : List Event)
    (still : ∀ event ∈ events, picks event = false ∧ ∀ state, advance state event = state) :
    statesAt advance picks state events = [] ∧ events.foldl advance state = state := by
  induction events with
  | nil => exact ⟨rfl, rfl⟩
  | cons event rest ih =>
      obtain ⟨skipped, kept⟩ := still event List.mem_cons_self
      obtain ⟨none, same⟩ := ih fun later member => still later (List.mem_cons_of_mem _ member)
      rw [statesAt, skipped, List.foldl_cons, kept]
      exact ⟨by simpa using none, same⟩

end Trace

/-- Of two lists in the order of their numbers, one that has nothing the other does not is part of
it in that order. -/
theorem sublist_of_increasing {part whole : List (Nat × Value)}
    (partSorted : part.Pairwise fun earlier later => earlier.1 < later.1)
    (wholeSorted : whole.Pairwise fun earlier later => earlier.1 < later.1)
    (inside : part ⊆ whole) : part.Sublist whole := by
  have antisymmetric : Std.Antisymm fun earlier later : Nat × Value => earlier.1 < later.1 :=
    ⟨fun _ _ first second => absurd first (Nat.lt_asymm second)⟩
  have distinct : part.Nodup := partSorted.imp fun less same => by
    rw [same] at less
    exact Nat.lt_irrefl _ less
  exact List.sublist_of_subperm_of_pairwise (List.subperm_of_subset distinct inside) partSorted
    wholeSorted

/-- What a fold keeps in one place is the fold of what its events bring there. -/
theorem foldl_kept {State : Type*} {Kept : Type*} (pick : Event → Option Value)
    (act : State → Event → State) (kept : State → Kept) (add : Kept → Value → Kept)
    (one : ∀ state event,
      kept (act state event) = (pick event).elim (kept state) (add (kept state)))
    (events : List Event) (state : State) :
    kept (events.foldl act state) = (events.filterMap pick).foldl add (kept state) := by
  induction events generalizing state with
  | nil => rfl
  | cons event rest ih =>
      rw [List.foldl_cons, ih, one]
      cases brought : pick event with
      | none => rw [List.filterMap_cons_none brought, Option.elim_none]
      | some value => rw [List.filterMap_cons_some brought, Option.elim_some, List.foldl_cons]

end AcornAlarms.Library
