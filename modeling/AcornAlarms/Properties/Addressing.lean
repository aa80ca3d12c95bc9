import AcornAlarms.Adapters.Redis
import AcornAlarms.Model.KeyText

/-!
# Addressing an ingested alarm

The key of an alarm read from the stream is the key of the text `device#source`, and it is
shown as a text that parses to it, unless the device has a `#`: a text is cut at the
first one and nothing escapes it.
-/

namespace AcornAlarms

open Library

section

variable [Platform]

/-- A source text Redis knows is known with whitespace around it too. -/
theorem sourceOfText_normalize {sourceStr : String}
    (known : readSource (toUppercase sourceStr) ≠ .unknown) :
    sourceOfText (normalize sourceStr) = some (readSource (toUppercase sourceStr)) := by
  have upper : normalize sourceStr = trim (toUppercase sourceStr) := by
    simp only [normalize, toUppercase, trim, String.toList_ofList, trimChars_upper]
  rw [upper]
  unfold readSource at known ⊢
  split at known
  · next same =>
      rw [same]
      decide
  · next same =>
      rw [same]
      decide
  · next same =>
      rw [same]
      decide
  · exact absurd rfl known

namespace Key

/-- A text with a second delimiter is none of a key. -/
theorem tryFrom_two_delimiters {device sourceStr : String} (contains : '#' ∈ device.toList) :
    ∃ message, tryFrom (device ++ "#" ++ sourceStr) = .error message := by
  obtain ⟨before, after, split, first⟩ := List.eq_append_cons_of_mem contains
  have cut : splitOnce '#' (device ++ "#" ++ sourceStr).toList =
      some (before, after ++ '#' :: sourceStr.toList) := by
    refine splitOnce_eq_some_iff.mpr ⟨?_, first⟩
    simp [split]
  have unknown : sourceOfText (normalize (String.ofList (after ++ '#' :: sourceStr.toList))) =
      none :=
    sourceOfText_delimiter ((delimiter_mem_normalize _).mpr (by simp))
  rw [tryFrom, cut]
  simp only [unknown]
  exact ⟨_, rfl⟩

/-- A text with one delimiter, after a device and before a source, is that of their key. -/
theorem tryFrom_device_source {device sourceStr : String} {key : Key}
    (absent : '#' ∉ device.toList) (named : normalize device = key.device)
    (source : sourceOfText (normalize sourceStr) = some key.source) (present : key.device ≠ "") :
    tryFrom (device ++ "#" ++ sourceStr) = .ok key := by
  refine tryFrom_eq_ok_iff.mpr ⟨device.toList, sourceStr.toList, ?_, ?_, ?_, present⟩
  · refine splitOnce_eq_some_iff.mpr ⟨?_, absent⟩
    simp
  · rw [String.ofList_toList, source]
  · rw [String.ofList_toList, named]

end Key

/-- The device text of a stream entry. -/
def deviceText (payload : FiniteMap String String) : String := (payload.get? "device").getD ""

/-- The source text of a stream entry. -/
def sourceText (payload : FiniteMap String String) : String := (payload.get? "source").getD ""

/-- The key of a stream entry has the normal form of its device text. -/
theorem Key.from_buildStatusFromRedis_device (payload : FiniteMap String String) (now : Int) :
    (Key.from (buildStatusFromRedis payload now)).device = normalize (deviceText payload) :=
  normalize_toUppercase (deviceText payload)

theorem Key.from_buildStatusFromRedis_source (payload : FiniteMap String String) (now : Int) :
    (Key.from (buildStatusFromRedis payload now)).source =
      readSource (toUppercase (sourceText payload)) :=
  EnumField.value_variant (readSource (toUppercase (sourceText payload)))

/-- An alarm the stream forwards can be addressed by its texts, and by the text of its key,
exactly if its device has no delimiter. -/
theorem Key.addressable {payload : FiniteMap String String} {now : Int} {status : Status}
    (forwarded : runAlarmStream payload now = some status)
    (known : readSource (toUppercase (sourceText payload)) ≠ .unknown)
    (visible : ∃ c ∈ (deviceText payload).toList, isWhitespace c = false) :
    ('#' ∉ (deviceText payload).toList →
      tryFrom (deviceText payload ++ "#" ++ sourceText payload) = .ok (Key.from status) ∧
        tryFrom (Key.from status).toText = .ok (Key.from status)) ∧
    ('#' ∈ (deviceText payload).toList →
      (∃ message, tryFrom (deviceText payload ++ "#" ++ sourceText payload) = .error message) ∧
        ∃ message, tryFrom (Key.from status).toText = .error message) := by
  obtain rfl : buildStatusFromRedis payload now = status := by
    simp only [runAlarmStream, Option.ite_none_left_eq_some, Option.some.injEq] at forwarded
    exact forwarded.2
  have device := from_buildStatusFromRedis_device payload now
  have source := from_buildStatusFromRedis_source payload now
  generalize Key.from (buildStatusFromRedis payload now) = key at device source ⊢
  have delimiter : '#' ∈ key.device.toList ↔ '#' ∈ (deviceText payload).toList := by
    rw [device, delimiter_mem_normalize]
  constructor
  · intro absent
    have present : key.device ≠ "" := by
      obtain ⟨c, member, shown⟩ := visible
      obtain ⟨d, upper⟩ := List.exists_mem_of_ne_nil _ (Platform.upperChar_nonempty c)
      have kept : d ∈ key.device.toList := by
        rw [device, normalize, toUppercase, trim, String.toList_ofList, String.toList_ofList]
        exact List.mem_flatMap.mpr ⟨c, mem_trimChars shown member, upper⟩
      intro empty
      rw [empty] at kept
      cases kept
    constructor
    · apply tryFrom_device_source absent device.symm _ present
      rw [sourceOfText_normalize known, source]
    · apply tryFrom_toText present (fun contains => absent (delimiter.mp contains))
      rw [source]
      exact known
  · intro contains
    constructor
    · exact tryFrom_two_delimiters contains
    · rw [toText]
      exact tryFrom_two_delimiters (delimiter.mpr contains)

end

section

attribute [local instance] asciiPlatform

/-- A stream entry of an EPICS alarm. -/
def epicsEntry (device : String) : FiniteMap String String :=
  (FiniteMap.empty.insert "device" device).insert "source" "epics"

/-- The beam can be addressed, also with whitespace around its name. -/
theorem Key.addressable_beam :
    tryFrom (deviceText (epicsEntry " beam ") ++ "#" ++ sourceText (epicsEntry " beam ")) =
        .ok (Key.from (buildStatusFromRedis (epicsEntry " beam ") 0)) ∧
      tryFrom (Key.from (buildStatusFromRedis (epicsEntry " beam ") 0)).toText =
        .ok (Key.from (buildStatusFromRedis (epicsEntry " beam ") 0)) :=
  have forwarded : runAlarmStream (epicsEntry " beam ") 0 =
      some (buildStatusFromRedis (epicsEntry " beam ") 0) := rfl
  (Key.addressable forwarded (by decide) ⟨'b', by decide, by decide⟩).1 (by decide)

/-- An alarm with a delimiter in its device is forwarded and cannot be addressed. -/
theorem Key.unaddressable :
    ∃ payload now status, runAlarmStream payload now = some status ∧
      readSource (toUppercase (sourceText payload)) = .epics ∧
      tryFrom (deviceText payload ++ "#" ++ sourceText payload) ≠ .ok (Key.from status) ∧
      tryFrom (Key.from status).toText ≠ .ok (Key.from status) := by
  refine ⟨epicsEntry "rack#2", 0, buildStatusFromRedis (epicsEntry "rack#2") 0, rfl, by decide,
    ?_, ?_⟩
  · have refused : ∃ message, tryFrom ("rack#2" ++ "#" ++ "epics") = .error message :=
      tryFrom_two_delimiters (by decide)
    obtain ⟨message, refused⟩ := refused
    intro accepted
    cases refused.symm.trans accepted
  · have refused : ∃ message, tryFrom ("RACK#2" ++ "#" ++ "Epics") = .error message :=
      tryFrom_two_delimiters (by decide)
    obtain ⟨message, refused⟩ := refused
    intro accepted
    cases refused.symm.trans accepted

end

end AcornAlarms
