import AcornAlarms.Library.FiniteMap
import AcornAlarms.Model.KeyText
import Mathlib.Data.List.Induction

/-!
# Topic records and the startup snapshot

The service appends the status of a key to a topic, and at startup reduces the records of
the topic to the EPICS bypasses they end with. Records it cannot read are skipped.
-/

namespace AcornAlarms

open Library

/-- A record of the topic. -/
structure StringMessage where
  key : Option String
  value : String
deriving DecidableEq, Repr

/-- `serde_json` for statuses. -/
structure StatusJson where
  encode : Status → String
  decode : String → Option Status

/-- The encoding of a status is a JSON object and decodes to the status. -/
structure StatusJson.Recodes (json : StatusJson) (status : Status) : Prop where
  object : ∃ rest, (json.encode status).toList = '{' :: rest
  decoded : json.decode (json.encode status) = some status

/-- A value that removes its key: blank, or `null` in any case. -/
def isTombstone (value : String) : Bool :=
  (trimChars value.toList).isEmpty ||
    (trimChars value.toList).map Char.toUpper = ['N', 'U', 'L', 'L']

/-- An encoded status is no tombstone. -/
theorem StatusJson.Recodes.body {json : StatusJson} {status : Status}
    (recodes : json.Recodes status) : isTombstone (json.encode status) = false := by
  obtain ⟨rest, text⟩ := recodes.object
  have member : '{' ∈ trimChars (json.encode status).toList :=
    mem_trimChars (by decide) (by simp [text])
  rw [isTombstone, Bool.or_eq_false_iff]
  constructor
  · rw [List.isEmpty_eq_false_iff]
    exact List.ne_nil_of_mem member
  · refine decide_eq_false fun same => ?_
    have upper : '{'.toUpper ∈ (trimChars (json.encode status).toList).map Char.toUpper :=
      List.mem_map_of_mem member
    rw [same] at upper
    revert upper
    decide

section

variable [Platform] (json : StatusJson)

/-- The record of a status. -/
def alarmToMessage (key : Key) (payload : Status) : StringMessage where
  key := some key.toText
  value := json.encode payload

/-- One round of the loop of `reduce_snapshot`. -/
def reduceRecord (hydrated : FiniteMap Key Status) (record : StringMessage) :
    FiniteMap Key Status :=
  match record.key with
  | none => hydrated
  | some keyText =>
      match Key.tryFrom keyText with
      | .error _ => hydrated
      | .ok key =>
          if key.source ≠ .epics then hydrated
          else if isTombstone record.value then hydrated.erase key
          else
            match json.decode record.value with
            | none => hydrated
            | some status =>
                if status.source.value ≠ .epics then hydrated
                else if status.state.value = .bypassed then hydrated.insert key status
                else hydrated.erase key

/-- `reduce_snapshot`. -/
def reduceSnapshot (records : List StringMessage) : FiniteMap Key Status :=
  records.foldl (reduceRecord json) .empty

/-- The map `load_acnet_hydration` collects from the answer of the proxy. -/
def loadAcnetHydration (snapshot : List Status) : FiniteMap Key Status :=
  snapshot.foldl (fun hydrated status => hydrated.insert (Key.from status) status) .empty

/-- Startup stops when two sources know a key. -/
inductive HydrationError where
  | keyInMultipleSources (key : Key)

/-- `merge_hydrated_statuses`. -/
def mergeHydratedStatuses (accumulated incoming : FiniteMap Key Status) :
    Except HydrationError (FiniteMap Key Status) :=
  incoming.entries.foldlM (fun accumulated (key, status) =>
    if accumulated.contains key then .error (.keyInMultipleSources key)
    else .ok (accumulated.insert key status)) accumulated

variable {json}

/-- A merge takes in every incoming entry and keeps the others. -/
theorem mergeHydratedStatuses_eq_ok {accumulated incoming merged : FiniteMap Key Status}
    (merges : mergeHydratedStatuses accumulated incoming = .ok merged) (key : Key) :
    merged.get? key = (incoming.get? key).or (accumulated.get? key) := by
  suffices folded : ∀ (entries : List (Key × Status)) (accumulated : FiniteMap Key Status),
      entries.foldlM (fun accumulated (key, status) =>
        if accumulated.contains key then Except.error (HydrationError.keyInMultipleSources key)
        else .ok (accumulated.insert key status)) accumulated = .ok merged →
      (∀ status, (key, status) ∈ entries → accumulated.get? key = none ∧
        merged.get? key = some status) ∧
      ((∀ status, (key, status) ∉ entries) → merged.get? key = accumulated.get? key) by
    obtain ⟨present, absent⟩ := folded incoming.entries accumulated merges
    cases found : incoming.get? key with
    | some status => exact (present status ((FiniteMap.mem_entries_iff _ _ _).mpr found)).2
    | none =>
        refine absent fun status member => ?_
        rw [(FiniteMap.mem_entries_iff _ _ _).mp member] at found
        cases found
  intro entries
  induction entries with
  | nil =>
      rintro accumulated merges
      cases merges
      exact ⟨fun _ member => absurd member List.not_mem_nil, fun _ => rfl⟩
  | cons entry rest ih =>
      obtain ⟨head, status⟩ := entry
      intro accumulated merges
      rw [List.foldlM_cons] at merges
      by_cases taken : accumulated.contains head = true
      · simp [taken, bind, Except.bind] at merges
      · simp only [taken, Bool.false_eq_true, if_false] at merges
        obtain ⟨present, absent⟩ := ih (accumulated.insert head status) merges
        have vacant : accumulated.get? head = none := by simpa [FiniteMap.contains] using taken
        constructor
        · intro found member
          rcases List.mem_cons.mp member with same | later
          · obtain ⟨rfl, rfl⟩ := Prod.mk.inj same
            refine ⟨vacant, ?_⟩
            rw [absent fun other inside => ?_, FiniteMap.get?_insert_self]
            have clash := (present other inside).1
            rw [FiniteMap.get?_insert_self] at clash
            cases clash
          · obtain ⟨free, written⟩ := present found later
            rw [FiniteMap.get?_insert] at free
            split at free
            · cases free
            · exact ⟨free, written⟩
        · intro missing
          have different : key ≠ head := by
            rintro rfl
            exact missing status List.mem_cons_self
          rw [absent fun other inside => missing other (List.mem_cons_of_mem _ inside),
            FiniteMap.get?_insert_of_ne _ _ different]

/-- The collected statuses stand under their own keys. -/
theorem from_of_loadAcnetHydration {snapshot : List Status} {key : Key} {status : Status}
    (found : (loadAcnetHydration snapshot).get? key = some status) : Key.from status = key := by
  induction snapshot using List.reverseRecOn with
  | nil => cases found
  | append_singleton front last ih =>
      rw [loadAcnetHydration, List.foldl_append, List.foldl_cons, List.foldl_nil,
        FiniteMap.get?_insert] at found
      split at found
      · next same =>
          obtain rfl := Option.some.inj found
          exact same.symm
      · exact ih found

/-- A record of another key, or of none, leaves a key alone. -/
theorem reduceRecord_other {hydrated : FiniteMap Key Status} {record : StringMessage} {key : Key}
    (other : ∀ text, record.key = some text → Key.tryFrom text ≠ .ok key) :
    (reduceRecord json hydrated record).get? key = hydrated.get? key := by
  unfold reduceRecord
  split
  · rfl
  · next text keyed =>
      split
      · rfl
      · next named parsed =>
          have different : key ≠ named := by
            rintro rfl
            exact other text keyed parsed
          split
          · rfl
          · split
            · exact FiniteMap.get?_erase_of_ne _ different
            · split
              · rfl
              · split
                · rfl
                · split
                  · exact FiniteMap.get?_insert_of_ne _ _ different
                  · exact FiniteMap.get?_erase_of_ne _ different

/-- A published record says whether its key is bypassed, provided the text of the key parses. -/
theorem reduceRecord_alarmToMessage {key : Key} {status : Status}
    (parses : Key.tryFrom key.toText = .ok key) (epics : key.source = .epics)
    (named : status.source.value = .epics) (recodes : json.Recodes status)
    (hydrated : FiniteMap Key Status) :
    (reduceRecord json hydrated (alarmToMessage json key status)).get? key =
      if status.state.value = .bypassed then some status else none := by
  simp only [reduceRecord, alarmToMessage, parses, epics, ne_eq, not_true_eq_false, if_false,
    recodes.body, Bool.false_eq_true, recodes.decoded, named]
  split
  · exact FiniteMap.get?_insert_self _ _ _
  · exact FiniteMap.get?_erase_self _ _

/-- What the reduction of a snapshot may hold under a key. -/
structure Hydratable (key : Key) (status : Status) : Prop where
  epics : key.source = .epics
  source : status.source.value = .epics
  state : status.state.value = .bypassed
  named : ∃ text, Key.tryFrom text = .ok key

/-- A record adds nothing else. -/
theorem reduceRecord_hydratable {hydrated : FiniteMap Key Status} {record : StringMessage}
    {key : Key} {status : Status}
    (before : ∀ status, hydrated.get? key = some status → Hydratable key status)
    (found : (reduceRecord json hydrated record).get? key = some status) :
    Hydratable key status := by
  unfold reduceRecord at found
  have erased : ∀ other, (hydrated.erase other).get? key = some status → Hydratable key status := by
    intro other found
    rw [FiniteMap.get?_erase] at found
    split at found
    · cases found
    · exact before status found
  split at found
  · exact before status found
  · next text _ =>
      split at found
      · exact before status found
      · next named parsed =>
          split at found
          · exact before status found
          · next epics =>
              split at found
              · exact erased named found
              · split at found
                · exact before status found
                · next decoded _ =>
                    split at found
                    · exact before status found
                    · next source =>
                        split at found
                        · next state =>
                            rw [FiniteMap.get?_insert] at found
                            split at found
                            · next same =>
                                subst same
                                obtain rfl := Option.some.inj found
                                exact ⟨not_not.mp epics, not_not.mp source, state, text, parsed⟩
                            · exact before status found
                        · exact erased named found

/-- A snapshot reduces to bypasses of EPICS keys. -/
theorem reduceSnapshot_hydratable (records : List StringMessage) {key : Key} {status : Status}
    (found : (reduceSnapshot json records).get? key = some status) : Hydratable key status := by
  induction records using List.reverseRecOn generalizing status with
  | nil => cases found
  | append_singleton front record ih =>
      rw [reduceSnapshot, List.foldl_append] at found
      exact reduceRecord_hydratable (fun _ earlier => ih earlier) found

end

end AcornAlarms
