import AcornAlarms.Adapters.Snapshot
import AcornAlarms.Library.Replay

/-!
# The reduction of a topic

A record is effective for a key when it decides what the snapshot has for the key. The
reduction replays the effective records, so the last one of a key decides, and records of
different keys may change places.
-/

namespace AcornAlarms

open Library

namespace StringMessage

section

variable (json : StatusJson)

/-- The bypass a record carries; a tombstone carries none. -/
def Carries (record : StringMessage) (status : Status) : Prop :=
  isTombstone record.value = false ∧ json.decode record.value = some status ∧
    status.state.value = .bypassed

/-- What a record sets for its key, given that the key is one of EPICS. -/
def body? (record : StringMessage) : Option (Option Status) :=
  if isTombstone record.value then some none
  else
    match json.decode record.value with
    | none => none
    | some status =>
        if status.source.value ≠ .epics then none
        else some (if status.state.value = .bypassed then some status else none)

variable {json} {record : StringMessage}

/-- A body decides exactly if it is a tombstone or the status of an EPICS alarm. -/
theorem body?_isSome_iff : (record.body? json).isSome = true ↔
    isTombstone record.value = true ∨
      ∃ status, json.decode record.value = some status ∧ status.source.value = .epics := by
  unfold body?
  cases isTombstone record.value with
  | true => simp
  | false =>
      cases decoded : json.decode record.value with
      | none => simp
      | some status => by_cases epics : status.source.value = .epics <;> simp [epics]

/-- A body sets a status exactly if it carries that bypass and is one of EPICS. -/
theorem body?_eq_some_some_iff {status : Status} : record.body? json = some (some status) ↔
    record.Carries json status ∧ status.source.value = .epics := by
  unfold body? Carries
  cases isTombstone record.value with
  | true => simp
  | false =>
      cases decoded : json.decode record.value with
      | none => simp
      | some found =>
          by_cases epics : found.source.value = .epics
          · by_cases bypassed : found.state.value = .bypassed
            · simp only [epics, bypassed, Bool.false_eq_true, if_false, ne_eq, not_true_eq_false,
                if_true, Option.some.injEq, true_and]
              constructor
              · rintro rfl
                exact ⟨⟨rfl, bypassed⟩, epics⟩
              · rintro ⟨⟨rfl, _⟩, _⟩
                rfl
            · simp only [epics, bypassed, Bool.false_eq_true, if_false, ne_eq, not_true_eq_false,
                Option.some.injEq, reduceCtorEq, true_and, false_iff]
              rintro ⟨⟨rfl, same⟩, _⟩
              exact bypassed same
          · simp only [epics, Bool.false_eq_true, if_false, ne_eq, not_false_eq_true, if_true,
              reduceCtorEq, Option.some.injEq, true_and, false_iff]
            rintro ⟨⟨rfl, _⟩, same⟩
            exact epics same

end

section

variable [Platform] (json : StatusJson)

/-- The key a record names, if its text is one of a key. -/
def parsedKey (record : StringMessage) : Option Key :=
  record.key.bind fun keyText => (Key.tryFrom keyText).toOption

/-- A record that decides what a snapshot has for a key. -/
structure Effective (record : StringMessage) (key : Key) : Prop where
  named : ∃ keyText, record.key = some keyText ∧ Key.tryFrom keyText = .ok key
  epics : key.source = .epics
  body : isTombstone record.value = true ∨
    ∃ status, json.decode record.value = some status ∧ status.source.value = .epics

/-- The write of a record. -/
def write? (record : StringMessage) : Option (Write Key Status) :=
  record.parsedKey.bind fun key =>
    if key.source ≠ .epics then none else (record.body? json).map fun value => ⟨key, value⟩

variable {json} {record : StringMessage} {key : Key}

theorem parsedKey_eq_some_iff :
    record.parsedKey = some key ↔ ∃ keyText, record.key = some keyText ∧
      Key.tryFrom keyText = .ok key := by
  simp only [parsedKey, Option.bind_eq_some_iff]
  refine exists_congr fun keyText => and_congr_right fun _ => ?_
  cases Key.tryFrom keyText <;> simp [Except.toOption]

/-- A record writes the key it names, if that is one of EPICS and the body decides. -/
theorem write?_eq_some_iff {value : Option Status} : record.write? json = some ⟨key, value⟩ ↔
    record.parsedKey = some key ∧ key.source = .epics ∧ record.body? json = some value := by
  simp only [write?, Option.bind_eq_some_iff, ne_eq, ite_not, Option.ite_none_right_eq_some,
    Option.map_eq_some_iff, Write.mk.injEq]
  constructor
  · rintro ⟨_, parsed, epics, _, set, rfl, rfl⟩
    exact ⟨parsed, epics, set⟩
  · rintro ⟨parsed, epics, set⟩
    exact ⟨key, parsed, epics, value, set, rfl, rfl⟩

/-- A record that writes a key is effective for it. -/
theorem effective_iff : record.Effective json key ↔
    ∃ value, record.write? json = some ⟨key, value⟩ := by
  simp only [write?_eq_some_iff, exists_and_left]
  rw [← Option.isSome_iff_exists, body?_isSome_iff, parsedKey_eq_some_iff]
  constructor
  · rintro ⟨named, epics, body⟩
    exact ⟨named, epics, body⟩
  · rintro ⟨named, epics, body⟩
    exact ⟨named, epics, body⟩

/-- An effective record sets a status exactly if it carries that bypass. -/
theorem Effective.carries_iff (effective : record.Effective json key) {status : Status} :
    record.Carries json status ↔ record.write? json = some ⟨key, some status⟩ := by
  rw [write?_eq_some_iff, body?_eq_some_some_iff]
  constructor
  · intro carries
    refine ⟨parsedKey_eq_some_iff.mpr effective.named, effective.epics, carries, ?_⟩
    rcases effective.body with tombstone | ⟨found, decoded, epics⟩
    · rw [carries.1] at tombstone
      cases tombstone
    · rw [carries.2.1] at decoded
      obtain rfl := Option.some.inj decoded
      exact epics
  · rintro ⟨_, _, carries, _⟩
    exact carries

end

end StringMessage

section

variable [Platform] {json : StatusJson}

/-- One round of the loop carries out the write of its record. -/
theorem reduceRecord_eq (hydrated : FiniteMap Key Status) (record : StringMessage) :
    reduceRecord json hydrated record = hydrated.apply (record.write? json) := by
  unfold reduceRecord StringMessage.write? StringMessage.parsedKey
  cases record.key with
  | none => rfl
  | some keyText =>
      cases parsed : Key.tryFrom keyText with
      | error message => simp [parsed, Except.toOption, FiniteMap.apply]
      | ok key =>
          simp only [Option.bind_some, parsed, Except.toOption]
          by_cases epics : key.source = .epics
          · unfold StringMessage.body?
            simp only [epics, ne_eq, not_true_eq_false, if_false]
            cases isTombstone record.value with
            | true => rfl
            | false =>
                cases json.decode record.value with
                | none => rfl
                | some status =>
                    simp only [Bool.false_eq_true, if_false]
                    by_cases named : status.source.value = .epics
                    · by_cases bypassed : status.state.value = .bypassed <;>
                        simp [named, bypassed, FiniteMap.apply]
                    · simp [named, FiniteMap.apply]
          · simp [epics, FiniteMap.apply]

/-- The reduction replays the writes of the records. -/
theorem reduceSnapshot_eq_replay (records : List StringMessage) :
    reduceSnapshot json records =
      FiniteMap.empty.replay (StringMessage.write? json) records := by
  have same : reduceRecord json = fun hydrated record => hydrated.apply (record.write? json) := by
    funext hydrated record
    exact reduceRecord_eq hydrated record
  rw [reduceSnapshot, same, FiniteMap.replay]

/-- Records set a key if one of them is effective for it. -/
theorem written_eq_nil_iff {records : List StringMessage} {key : Key} :
    FiniteMap.written (StringMessage.write? json) key records = [] ↔
      ∀ record ∈ records, ¬ record.Effective json key := by
  simp only [FiniteMap.written_eq_nil_iff, StringMessage.effective_iff, not_exists, ne_eq]

/-- The records that name a key set it as all records do. -/
theorem written_filter (records : List StringMessage) (key : Key) :
    FiniteMap.written (StringMessage.write? json) key
        (records.filter fun record => record.parsedKey = some key) =
      FiniteMap.written (StringMessage.write? json) key records := by
  rw [FiniteMap.written, FiniteMap.written, List.filterMap_filter]
  apply List.filterMap_congr
  intro record _
  split
  · rfl
  · next other =>
      rw [eq_comm, Write.bind_at?_eq_none_iff]
      intro value write
      exact other (decide_eq_true (StringMessage.write?_eq_some_iff.mp write).1)

/-- The snapshot has under a key the bypass its last effective record carries. -/
theorem reduceSnapshot_eq_some_iff {records : List StringMessage} {key : Key} {status : Status} :
    (reduceSnapshot json records).get? key = some status ↔
      ∃ front record rest, records = front ++ record :: rest ∧ record.Effective json key ∧
        (∀ later ∈ rest, ¬ later.Effective json key) ∧ record.Carries json status := by
  have decided : (reduceSnapshot json records).get? key = some status ↔
      (FiniteMap.written (StringMessage.write? json) key records).getLast? =
        some (some status) := by
    rw [reduceSnapshot_eq_replay, FiniteMap.get?_replay, FiniteMap.get?_empty]
    cases (FiniteMap.written (StringMessage.write? json) key records).getLast? <;> simp
  rw [decided, FiniteMap.getLast?_written_eq_some_iff]
  constructor
  · rintro ⟨front, record, rest, split, write, spares⟩
    have effective : record.Effective json key := StringMessage.effective_iff.mpr ⟨_, write⟩
    refine ⟨front, record, rest, split, effective, ?_, effective.carries_iff.mpr write⟩
    intro later member effective
    obtain ⟨value, write⟩ := StringMessage.effective_iff.mp effective
    exact spares later member value write
  · rintro ⟨front, record, rest, split, effective, spares, carries⟩
    refine ⟨front, record, rest, split, effective.carries_iff.mp carries, ?_⟩
    intro later member value write
    exact spares later member (StringMessage.effective_iff.mpr ⟨value, write⟩)

/-- The last effective record of a key decides what a snapshot has for it. -/
theorem reduceSnapshot_lastEffective (json : StatusJson) (records : List StringMessage)
    (key : Key) :
    (∀ status, (reduceSnapshot json records).get? key = some status ↔
      ∃ front record rest, records = front ++ record :: rest ∧ record.Effective json key ∧
        (∀ later ∈ rest, ¬ later.Effective json key) ∧ record.Carries json status) ∧
    (key.source ≠ .epics → (reduceSnapshot json records).get? key = none) ∧
    (∀ more, ((∃ record ∈ more, record.Effective json key) →
        (reduceSnapshot json (records ++ more)).get? key = (reduceSnapshot json more).get? key) ∧
      ((∀ record ∈ more, ¬ record.Effective json key) →
        (reduceSnapshot json (records ++ more)).get? key =
          (reduceSnapshot json records).get? key)) ∧
    ∀ reordered : List StringMessage,
      (∀ named : Key, reordered.filter (fun record => record.parsedKey = some named) =
        records.filter fun record => record.parsedKey = some named) →
      (reduceSnapshot json reordered).get? key = (reduceSnapshot json records).get? key := by
  refine ⟨fun status => reduceSnapshot_eq_some_iff, ?_⟩
  simp only [reduceSnapshot_eq_replay]
  refine ⟨fun foreign => ?_, fun more => ⟨?_, ?_⟩, fun reordered same => ?_⟩
  · rw [FiniteMap.get?_replay_of_unwritten, FiniteMap.get?_empty]
    rw [written_eq_nil_iff]
    intro record _ effective
    exact foreign effective.epics
  · rintro ⟨record, member, effective⟩
    rw [FiniteMap.replay_append]
    apply FiniteMap.get?_replay_of_written
    intro nothing
    exact written_eq_nil_iff.mp nothing record member effective
  · intro spares
    rw [FiniteMap.replay_append]
    exact FiniteMap.get?_replay_of_unwritten (written_eq_nil_iff.mpr spares) _
  · apply FiniteMap.get?_replay_congr
    rw [← written_filter, same, written_filter]

end

end AcornAlarms
