import Mathlib.Data.List.AList

/-!
# Finite maps

Mathlib's association lists without the dependent value type, in the words of a
hash map: `get?`, `insert`, `erase`, `contains`.
-/

namespace AcornAlarms.Library

universe u v w

/-- A finite map; the order of the entries is the order of insertion. -/
structure FiniteMap (Key : Type u) (Value : Type v) where
  assoc : AList fun _ : Key => Value

namespace FiniteMap

variable {Key : Type u} {Value : Type v} {Other : Type w}

theorem eq_iff_entries {first second : FiniteMap Key Value} :
    first.assoc.entries = second.assoc.entries ↔ first = second := by
  constructor
  · intro same
    cases first
    cases second
    exact congrArg _ (AList.ext same)
  · rintro rfl
    rfl

instance [DecidableEq Key] [DecidableEq Value] : DecidableEq (FiniteMap Key Value) :=
  fun _ _ => decidable_of_iff _ eq_iff_entries

/-- The map with no entry. -/
def empty : FiniteMap Key Value := ⟨∅⟩

/-- The entries as pairs. -/
def entries (map : FiniteMap Key Value) : List (Key × Value) :=
  map.assoc.entries.map fun entry => (entry.1, entry.2)

/-- The keys that have an entry. -/
def keys (map : FiniteMap Key Value) : List Key := map.assoc.keys

theorem keys_nodup (map : FiniteMap Key Value) : map.keys.Nodup := map.assoc.keys_nodup

/-- Rewrite every value. -/
def mapValues (f : Value → Other) (map : FiniteMap Key Value) : FiniteMap Key Other where
  assoc :=
    { entries := map.assoc.entries.map fun entry => ⟨entry.1, f entry.2⟩
      nodupKeys := by
        have same : (map.assoc.entries.map fun entry =>
            (⟨entry.1, f entry.2⟩ : Σ _ : Key, Other)).keys = map.assoc.entries.keys := by
          simp [List.keys, Function.comp_def]
        rw [List.NodupKeys, same]
        exact map.assoc.nodupKeys }

variable [DecidableEq Key]

/-- The value under a key. -/
def get? (map : FiniteMap Key Value) (key : Key) : Option Value := map.assoc.lookup key

/-- Whether a key has an entry. -/
def contains (map : FiniteMap Key Value) (key : Key) : Bool := (map.get? key).isSome

/-- Set the entry of a key, replacing an earlier one. -/
def insert (map : FiniteMap Key Value) (key : Key) (value : Value) : FiniteMap Key Value :=
  ⟨map.assoc.insert key value⟩

/-- Drop the entry of a key, if there is one. -/
def erase (map : FiniteMap Key Value) (key : Key) : FiniteMap Key Value := ⟨map.assoc.erase key⟩

@[simp] theorem get?_empty (key : Key) : (empty : FiniteMap Key Value).get? key = none :=
  AList.lookup_empty key

@[simp] theorem get?_insert_self (map : FiniteMap Key Value) (key : Key) (value : Value) :
    (map.insert key value).get? key = some value :=
  AList.lookup_insert map.assoc

theorem get?_insert_of_ne (map : FiniteMap Key Value) {key other : Key} (value : Value)
    (different : other ≠ key) : (map.insert key value).get? other = map.get? other :=
  AList.lookup_insert_ne different

theorem get?_insert (map : FiniteMap Key Value) (key other : Key) (value : Value) :
    (map.insert key value).get? other = if other = key then some value else map.get? other := by
  by_cases same : other = key
  · subst same; simp
  · simp [same, get?_insert_of_ne]

@[simp] theorem get?_erase_self (map : FiniteMap Key Value) (key : Key) :
    (map.erase key).get? key = none :=
  AList.lookup_erase key map.assoc

theorem get?_erase_of_ne (map : FiniteMap Key Value) {key other : Key}
    (different : other ≠ key) : (map.erase key).get? other = map.get? other :=
  AList.lookup_erase_ne different

theorem get?_erase (map : FiniteMap Key Value) (key other : Key) :
    (map.erase key).get? other = if other = key then none else map.get? other := by
  by_cases same : other = key
  · subst same; simp
  · simp [same, get?_erase_of_ne]

theorem mem_keys_iff (map : FiniteMap Key Value) (key : Key) :
    key ∈ map.keys ↔ (map.get? key).isSome = true := by
  rw [keys, get?, AList.lookup_isSome, AList.mem_keys]

theorem mem_entries_iff (map : FiniteMap Key Value) (key : Key) (value : Value) :
    (key, value) ∈ map.entries ↔ map.get? key = some value := by
  rw [get?, ← Option.mem_def, AList.mem_lookup_iff]
  simp [entries]

@[simp] theorem get?_mapValues (f : Value → Other) (map : FiniteMap Key Value) (key : Key) :
    (map.mapValues f).get? key = (map.get? key).map f := by
  ext value
  rw [← mem_entries_iff, Option.map_eq_some_iff]
  constructor
  · intro member
    obtain ⟨entry, inside, same⟩ := List.mem_map.mp member
    obtain ⟨original, originalInside, rfl⟩ := List.mem_map.mp inside
    obtain ⟨rfl, rfl⟩ := Prod.mk.inj same
    exact ⟨original.2,
      (mem_entries_iff map _ _).mp (List.mem_map.mpr ⟨original, originalInside, rfl⟩),
      rfl⟩
  · rintro ⟨original, found, rfl⟩
    obtain ⟨entry, inside, same⟩ := List.mem_map.mp ((mem_entries_iff map _ _).mpr found)
    obtain ⟨rfl, rfl⟩ := Prod.mk.inj same
    exact List.mem_map.mpr ⟨_, List.mem_map.mpr ⟨entry, inside, rfl⟩, rfl⟩

/-- Looking up keys that all have an entry finds their values. -/
theorem map_get?_of_present (map : FiniteMap Key Value) {named : List Key}
    (present : ∀ key ∈ named, (map.get? key).isSome) :
    ∃ values, named.map map.get? = values.map some ∧
      List.Forall₂ (fun key value => map.get? key = some value) named values := by
  induction named with
  | nil => exact ⟨[], rfl, .nil⟩
  | cons key rest ih =>
      obtain ⟨value, found⟩ := Option.isSome_iff_exists.mp (present key List.mem_cons_self)
      obtain ⟨values, same, each⟩ :=
        ih fun other member => present other (List.mem_cons_of_mem _ member)
      exact ⟨value :: values, by simp [found, same], .cons found each⟩

theorem keys_erase (map : FiniteMap Key Value) (key : Key) :
    (map.erase key).keys = map.keys.erase key :=
  AList.keys_erase key map.assoc

/-- A map none of whose keys has a value has no entries. -/
theorem keys_eq_nil_iff (map : FiniteMap Key Value) :
    map.keys = [] ↔ ∀ key, map.get? key = none := by
  simp only [List.eq_nil_iff_forall_not_mem, mem_keys_iff]
  simp

/-- A map with keys of another and some extra ones is at most that much larger. -/
theorem length_keys_le {map : FiniteMap Key Value} {other : FiniteMap Key Other} (extra : List Key)
    (within : ∀ key, (map.get? key).isSome → key ∈ extra ∨ (other.get? key).isSome) :
    map.keys.length ≤ extra.length + other.keys.length := by
  have inside : map.keys ⊆ extra ++ other.keys := by
    intro key member
    rw [List.mem_append, mem_keys_iff]
    exact within key ((mem_keys_iff map key).mp member)
  have bound := (List.subperm_of_subset map.keys_nodup inside).length_le
  rwa [List.length_append] at bound

/-- A list that names only keys with an entry, each at most once, is no longer than the keys. -/
theorem length_le_keys {map : FiniteMap Key Value} {named : List Key}
    (once : ∀ key, named.count key ≤ if map.contains key then 1 else 0) :
    named.length ≤ map.keys.length := by
  have distinct : named.Nodup := by
    refine List.nodup_iff_count_le_one.mpr fun key => Nat.le_trans (once key) ?_
    split <;> simp
  refine (List.subperm_of_subset distinct fun key member => ?_).length_le
  rw [mem_keys_iff, ← contains]
  have bound := once key
  have positive := List.count_pos_iff.mpr member
  split at bound
  · assumption
  · omega

theorem length_keys_erase {map : FiniteMap Key Value} {key : Key}
    (present : (map.get? key).isSome) : (map.erase key).keys.length + 1 = map.keys.length := by
  have member := (mem_keys_iff map key).mpr present
  have positive := List.length_pos_of_mem member
  rw [keys_erase, List.length_erase_of_mem member]
  omega

/-- Maps with the same keys are equally large. -/
theorem length_keys_congr {map : FiniteMap Key Value} {other : FiniteMap Key Other}
    (same : ∀ key, (map.get? key).isSome = (other.get? key).isSome) :
    map.keys.length = other.keys.length := by
  have member : ∀ key, key ∈ map.keys ↔ key ∈ other.keys := by
    intro key
    rw [mem_keys_iff, mem_keys_iff, same]
  exact ((List.perm_ext_iff_of_nodup map.keys_nodup other.keys_nodup).mpr member).length_eq

/-- A map whose entries point to different keys of another is at most as large. -/
theorem length_keys_le_of_image {Index : Type*} [DecidableEq Index] {map : FiniteMap Key Value}
    {other : FiniteMap Index Other} (image : Key → Value → Index)
    (inside : ∀ {key value}, map.get? key = some value →
      (other.get? (image key value)).isSome)
    (apart : ∀ {first second one two}, map.get? first = some one →
      map.get? second = some two → image first one = image second two → first = second) :
    map.keys.length ≤ other.keys.length := by
  have nodup : (map.assoc.entries.map fun entry => image entry.1 entry.2).Nodup := by
    have distinct : (map.assoc.entries.map fun entry => entry.1).Nodup := map.assoc.nodupKeys
    refine List.Nodup.map_on ?_ (List.Nodup.of_map _ distinct)
    intro first firstIn second secondIn same
    have one := AList.mem_lookup_iff.mpr firstIn
    have two := AList.mem_lookup_iff.mpr secondIn
    have equal := apart one two same
    exact List.inj_on_of_nodup_map distinct firstIn secondIn equal
  have within : (map.assoc.entries.map fun entry => image entry.1 entry.2) ⊆ other.keys := by
    intro index member
    obtain ⟨entry, entryIn, rfl⟩ := List.mem_map.mp member
    exact (mem_keys_iff other _).mpr (inside (AList.mem_lookup_iff.mpr entryIn))
  have bound := (List.subperm_of_subset nodup within).length_le
  rw [List.length_map] at bound
  rwa [keys, AList.keys, List.keys, List.length_map]

end FiniteMap

end AcornAlarms.Library
