import AcornAlarms.Library.FiniteMap
import AcornAlarms.Library.History

/-!
# Replaying a log into a map

A record of a log may set the value of one key, or remove the key. Replaying a log
leaves under a key what the last record that writes the key says.
-/

namespace AcornAlarms.Library

universe u v w

/-- A key and the value set under it; `none` removes the key. -/
structure Write (Key : Type u) (Value : Type v) where
  key : Key
  value : Option Value

variable {Key : Type u} {Value : Type v} {Record : Type w} [DecidableEq Key]

/-- What a write sets under a key, if it is of that key. -/
def Write.at? (write : Write Key Value) (key : Key) : Option (Option Value) :=
  if write.key = key then some write.value else none

theorem Write.bind_at?_eq_some_iff {write : Option (Write Key Value)} {key : Key}
    {value : Option Value} :
    (write.bind fun write => write.at? key) = some value ↔ write = some ⟨key, value⟩ := by
  constructor
  · intro found
    obtain ⟨⟨named, set⟩, rfl, same⟩ := Option.bind_eq_some_iff.mp found
    obtain ⟨rfl, set⟩ := Option.ite_none_right_eq_some.mp same
    obtain rfl := Option.some.inj set
    rfl
  · rintro rfl
    simp [Write.at?]

theorem Write.bind_at?_eq_none_iff {write : Option (Write Key Value)} {key : Key} :
    (write.bind fun write => write.at? key) = none ↔ ∀ value, write ≠ some ⟨key, value⟩ := by
  rw [Option.eq_none_iff_forall_ne_some]
  exact forall_congr' fun value => not_congr bind_at?_eq_some_iff

namespace FiniteMap

/-- Carry out a write, if there is one. -/
def apply (map : FiniteMap Key Value) : Option (Write Key Value) → FiniteMap Key Value
  | none => map
  | some ⟨key, none⟩ => map.erase key
  | some ⟨key, some value⟩ => map.insert key value

/-- A write is seen under its own key only. -/
theorem get?_apply (map : FiniteMap Key Value) (write : Option (Write Key Value)) (key : Key) :
    (map.apply write).get? key = (write.bind fun write => write.at? key).getD (map.get? key) := by
  cases write with
  | none => rfl
  | some write =>
      obtain ⟨written, value⟩ := write
      by_cases same : written = key
      · subst same
        cases value <;> simp [apply, Write.at?]
      · have other : key ≠ written := Ne.symm same
        cases value <;>
          simp [apply, Write.at?, same, get?_insert_of_ne _ _ other, get?_erase_of_ne _ other]

/-- Carry out the writes of a log, oldest first. -/
def replay (writes : Record → Option (Write Key Value)) (map : FiniteMap Key Value)
    (log : List Record) : FiniteMap Key Value :=
  log.foldl (fun map record => map.apply (writes record)) map

variable {writes : Record → Option (Write Key Value)}

/-- The values a log sets under a key, oldest first. -/
def written (writes : Record → Option (Write Key Value)) (key : Key) (log : List Record) :
    List (Option Value) :=
  log.filterMap fun record => (writes record).bind fun write => write.at? key

/-- The last write of a key decides. -/
theorem get?_replay (map : FiniteMap Key Value) (log : List Record) (key : Key) :
    (map.replay writes log).get? key = ((written writes key log).getLast?).getD (map.get? key) := by
  induction log generalizing map with
  | nil => rfl
  | cons record rest ih =>
      have replayed : map.replay writes (record :: rest) =
          (map.apply (writes record)).replay writes rest := rfl
      rw [replayed, ih, get?_apply, written, written, List.filterMap_cons]
      cases (writes record).bind fun write => write.at? key with
      | none => rfl
      | some value => simp [List.getLast?_cons]

theorem replay_append (map : FiniteMap Key Value) (first second : List Record) :
    map.replay writes (first ++ second) = (map.replay writes first).replay writes second :=
  List.foldl_append

/-- A log that sets a key replays over any map as over the empty one. -/
theorem get?_replay_of_written {log : List Record} {key : Key}
    (sets : written writes key log ≠ []) (map other : FiniteMap Key Value) :
    (map.replay writes log).get? key = (other.replay writes log).get? key := by
  obtain ⟨value, last⟩ := Option.isSome_iff_exists.mp (List.getLast?_isSome.mpr sets)
  rw [get?_replay, get?_replay, last]
  rfl

/-- A log that does not set a key leaves it alone. -/
theorem get?_replay_of_unwritten {log : List Record} {key : Key}
    (spares : written writes key log = []) (map : FiniteMap Key Value) :
    (map.replay writes log).get? key = map.get? key := by
  rw [get?_replay, spares]
  rfl

/-- A log that never writes a key. -/
theorem written_eq_nil_iff {log : List Record} {key : Key} :
    written writes key log = [] ↔ ∀ record ∈ log, ∀ value, writes record ≠ some ⟨key, value⟩ := by
  rw [written, List.filterMap_eq_nil_iff]
  simp only [Write.bind_at?_eq_none_iff]

/-- The record whose write of a key is the last one. -/
theorem getLast?_written_eq_some_iff {log : List Record} {key : Key} {value : Option Value} :
    (written writes key log).getLast? = some value ↔
      ∃ front record rest, log = front ++ record :: rest ∧
        writes record = some ⟨key, value⟩ ∧
        ∀ later ∈ rest, ∀ other, writes later ≠ some ⟨key, other⟩ := by
  have last := @latest_eq_some_iff _ _ (fun record => (writes record).bind fun write =>
    write.at? key) log value
  simp only [Write.bind_at?_eq_some_iff, Write.bind_at?_eq_none_iff] at last
  exact last

/-- Logs whose records of each key are the same replay alike. -/
theorem get?_replay_congr {key : Key} {first second : List Record}
    (same : written writes key first = written writes key second) (map : FiniteMap Key Value) :
    (map.replay writes first).get? key = (map.replay writes second).get? key := by
  rw [get?_replay, get?_replay, same]

end FiniteMap

end AcornAlarms.Library
