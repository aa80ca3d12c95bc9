import AcornAlarms.Model.Key

/-!
# Keys as text

A key is displayed as `DEVICE#Source` and parsed by splitting at the first `#`. What a
displayed key parses to is that key; a key whose device is empty or contains a `#`, or whose
source is unknown, does not parse.
-/

namespace AcornAlarms

/-- `str::split_once`. -/
def splitOnce (delimiter : Char) (text : List Char) : Option (List Char × List Char) :=
  match text with
  | [] => none
  | c :: rest =>
      if c = delimiter then some ([], rest)
      else (splitOnce delimiter rest).map fun (before, after) => (c :: before, after)

/-- The text is cut at the first delimiter. -/
theorem splitOnce_eq_some_iff {delimiter : Char} {text before after : List Char} :
    splitOnce delimiter text = some (before, after) ↔
      text = before ++ delimiter :: after ∧ delimiter ∉ before := by
  induction text generalizing before with
  | nil => simp [splitOnce]
  | cons c rest ih =>
      by_cases here : c = delimiter
      · subst here
        cases before with
        | nil => simp [splitOnce]
        | cons d front =>
            constructor
            · intro found
              simp [splitOnce] at found
            · rintro ⟨same, absent⟩
              obtain ⟨rfl, _⟩ := List.cons.inj same
              exact absurd List.mem_cons_self absent
      · cases before with
        | nil =>
            constructor
            · intro found
              simp [splitOnce, here] at found
            · rintro ⟨same, _⟩
              exact absurd (List.cons.inj same).1 here
        | cons d front =>
            simp only [splitOnce, here, if_false, Option.map_eq_some_iff, Prod.exists,
              Prod.mk.injEq, List.cons.injEq, List.cons_append, List.mem_cons, not_or]
            constructor
            · rintro ⟨_, _, found, ⟨rfl, rfl⟩, rfl⟩
              obtain ⟨rfl, absent⟩ := ih.mp found
              exact ⟨⟨rfl, rfl⟩, Ne.symm here, absent⟩
            · rintro ⟨⟨rfl, same⟩, _, absent⟩
              exact ⟨front, after, ih.mpr ⟨same, absent⟩, ⟨rfl, rfl⟩, rfl⟩

/-- The `Debug` text of a source. -/
def Source.debug : Source → String
  | .unknown => "Unknown"
  | .analog => "Analog"
  | .digital => "Digital"
  | .epics => "Epics"

/-- The name of a source is ASCII text. -/
theorem Source.debug_ascii (source : Source) : ∀ c ∈ source.debug.toList, c.toNat < 128 := by
  have all : source.debug.toList.all (fun c => c.toNat < 128) = true := by cases source <;> decide
  intro c member
  exact of_decide_eq_true (List.all_eq_true.mp all c member)

/-- The source an upper-case text names. -/
def sourceOfText (text : String) : Option Source :=
  match text with
  | "ANALOG" => some .analog
  | "DIGITAL" => some .digital
  | "EPICS" => some .epics
  | _ => none

/-- No source is named by a text with a delimiter. -/
theorem sourceOfText_delimiter {text : String} (contains : '#' ∈ text.toList) :
    sourceOfText text = none := by
  unfold sourceOfText
  split
  · simp at contains
  · simp at contains
  · simp at contains
  · rfl

/-- Whitespace is all that trimming drops. -/
theorem mem_trimChars {text : List Char} {c : Char} (visible : isWhitespace c = false)
    (member : c ∈ text) : c ∈ trimChars text := by
  have kept : ∀ {text : List Char}, c ∈ text → c ∈ text.dropWhile isWhitespace := by
    intro text member
    rw [← List.takeWhile_append_dropWhile (p := isWhitespace) (l := text),
      List.mem_append] at member
    rcases member with dropped | left
    · rw [List.all_eq_true.mp List.all_takeWhile c dropped] at visible
      cases visible
    · exact left
  exact List.mem_reverse.mpr (kept (List.mem_reverse.mpr (kept member)))

theorem mem_of_mem_trimChars {text : List Char} {c : Char} (member : c ∈ trimChars text) :
    c ∈ text := by
  have front := (List.dropWhile_suffix isWhitespace).subset (List.mem_reverse.mp member)
  exact (List.dropWhile_suffix isWhitespace).subset (List.mem_reverse.mp front)

section

variable [Platform]

/-- Normalizing neither drops nor makes a delimiter. -/
theorem delimiter_mem_normalize (text : String) :
    '#' ∈ (normalize text).toList ↔ '#' ∈ text.toList := by
  simp only [normalize, toUppercase, trim, String.toList_ofList, List.mem_flatMap]
  constructor
  · rintro ⟨c, member, upper⟩
    rw [Platform.upperChar_delimiter c upper] at member
    exact mem_of_mem_trimChars member
  · intro member
    refine ⟨'#', mem_trimChars (by decide) member, ?_⟩
    rw [Platform.upperChar_ascii '#' (by decide)]
    decide

/-- The upper-case letters of ASCII text. -/
theorem toUppercase_ascii {text : String} (ascii : ∀ c ∈ text.toList, c.toNat < 128) :
    toUppercase text = String.ofList (text.toList.map Char.toUpper) := by
  rw [toUppercase, List.flatMap_congr fun c member => Platform.upperChar_ascii c (ascii c member),
    List.map_eq_flatMap]

/-- The text of a known source names it. -/
theorem sourceOfText_debug (source : Source) :
    sourceOfText (normalize source.debug) = if source = .unknown then none else some source := by
  have shown : normalize source.debug = String.ofList (source.debug.toList.map Char.toUpper) := by
    have trimmed : trim source.debug = source.debug := by cases source <;> decide
    rw [normalize, trimmed, toUppercase_ascii source.debug_ascii]
  rw [shown]
  cases source <;> decide

namespace Key

/-- `Key::try_from`. -/
def tryFrom (s : String) : Except String Key :=
  match splitOnce '#' s.toList with
  | some (device, sourceStr) =>
      match sourceOfText (normalize (String.ofList sourceStr)) with
      | some source =>
          if (normalize (String.ofList device)).isEmpty then
            .error s!"{s} is missing a device name."
          else .ok ⟨normalize (String.ofList device), source, normalize_normalize _⟩
      | none => .error s!"{s} does not contain a known alarms source."
  | none =>
      .error s!"{s} does not contain the expected '#' delimiter for separating device name from alarm source."

/-- The `Display` text of a key. -/
def toText (key : Key) : String := key.device ++ "#" ++ key.source.debug

/-- What a text must be to parse to a key. -/
theorem tryFrom_eq_ok_iff {s : String} {key : Key} :
    tryFrom s = .ok key ↔ ∃ device sourceStr, splitOnce '#' s.toList = some (device, sourceStr) ∧
      sourceOfText (normalize (String.ofList sourceStr)) = some key.source ∧
      normalize (String.ofList device) = key.device ∧ key.device ≠ "" := by
  obtain ⟨named, source, normal⟩ := key
  unfold tryFrom
  cases cut : splitOnce '#' s.toList with
  | none => simp only [reduceCtorEq, false_and, exists_false]
  | some parts =>
      obtain ⟨device, sourceStr⟩ := parts
      cases known : sourceOfText (normalize (String.ofList sourceStr)) with
      | none => simp [known]
      | some found =>
          by_cases missing : (normalize (String.ofList device)).isEmpty = true
          · have blank : normalize (String.ofList device) = "" := by simpa using missing
            simp [known, blank]
          · have present : normalize (String.ofList device) ≠ "" := by simpa using missing
            simp [known, missing]
            constructor
            · rintro ⟨rfl, rfl⟩
              exact ⟨rfl, rfl, present⟩
            · rintro ⟨rfl, rfl, _⟩
              exact ⟨rfl, rfl⟩

/-- What parses names a device, without a delimiter, and a known source. -/
theorem tryFrom_eq_ok {s : String} {key : Key} (parsed : tryFrom s = .ok key) :
    key.device ≠ "" ∧ '#' ∉ key.device.toList ∧ key.source ≠ .unknown := by
  obtain ⟨device, sourceStr, cut, named, normal, present⟩ := tryFrom_eq_ok_iff.mp parsed
  refine ⟨present, ?_, ?_⟩
  · rw [← normal, delimiter_mem_normalize, String.toList_ofList]
    exact (splitOnce_eq_some_iff.mp cut).2
  · intro unknown
    rw [unknown] at named
    unfold sourceOfText at named
    split at named <;> cases named

/-- The text of a key is cut after its device if that has no delimiter. -/
theorem splitOnce_toText {key : Key} (absent : '#' ∉ key.device.toList) :
    splitOnce '#' key.toText.toList = some (key.device.toList, key.source.debug.toList) := by
  refine splitOnce_eq_some_iff.mpr ⟨?_, absent⟩
  simp [toText]

/-- The text of a key with a proper device and source parses to it. -/
theorem tryFrom_toText {key : Key} (present : key.device ≠ "") (absent : '#' ∉ key.device.toList)
    (known : key.source ≠ .unknown) : tryFrom key.toText = .ok key := by
  refine tryFrom_eq_ok_iff.mpr ⟨_, _, splitOnce_toText absent, ?_, ?_, present⟩
  · rw [String.ofList_toList, sourceOfText_debug, if_neg known]
  · rw [String.ofList_toList, key.normal]

/-- The text of a key parses to that key or not at all. -/
theorem tryFrom_toText_eq {key other : Key} (parsed : tryFrom key.toText = .ok other) :
    other = key := by
  obtain ⟨device, sourceStr, cut, named, normal, _⟩ := tryFrom_eq_ok_iff.mp parsed
  by_cases contains : '#' ∈ key.device.toList
  · -- The text after the first delimiter has another one.
    obtain ⟨before, after, same, first⟩ := List.eq_append_cons_of_mem contains
    have deeper : splitOnce '#' key.toText.toList =
        some (before, after ++ '#' :: key.source.debug.toList) := by
      refine splitOnce_eq_some_iff.mpr ⟨?_, first⟩
      simp [toText, same]
    rw [cut] at deeper
    obtain ⟨rfl, rfl⟩ := Prod.mk.inj (Option.some.inj deeper)
    rw [sourceOfText_delimiter ((delimiter_mem_normalize _).mpr (by simp))] at named
    cases named
  · rw [splitOnce_toText contains] at cut
    obtain ⟨rfl, rfl⟩ := Prod.mk.inj (Option.some.inj cut)
    rw [String.ofList_toList, sourceOfText_debug] at named
    rw [String.ofList_toList, key.normal] at normal
    split at named
    · cases named
    · obtain ⟨device, source, _⟩ := key
      obtain ⟨otherDevice, otherSource, _⟩ := other
      simp only at normal named
      obtain rfl := normal
      obtain rfl := Option.some.inj named
      rfl

/-- A key that was parsed parses from its own text. -/
theorem tryFrom_toText_of_ok {s : String} {key : Key} (parsed : tryFrom s = .ok key) :
    tryFrom key.toText = .ok key := by
  obtain ⟨present, absent, known⟩ := tryFrom_eq_ok parsed
  exact tryFrom_toText present absent known

end Key

end

end AcornAlarms
