import Mathlib.Data.List.Basic
import Mathlib.Logic.Basic

/-!
# Device-name normalization

`str::trim` and `str::to_uppercase` over Unicode text. The uppercase table is
not part of this repository, so `Platform` carries it with the facts the
service relies on. `normalize` is the composition every alarm key is built
with.
-/

namespace AcornAlarms

/-- The characters with Unicode's `White_Space` property, as `char::is_whitespace` has them. -/
def isWhitespace (c : Char) : Bool :=
  (9 ≤ c.toNat && c.toNat ≤ 13) || c.toNat == 0x20 || c.toNat == 0x85 || c.toNat == 0xA0 ||
    c.toNat == 0x1680 || (0x2000 ≤ c.toNat && c.toNat ≤ 0x200A) || c.toNat == 0x2028 ||
    c.toNat == 0x2029 || c.toNat == 0x202F || c.toNat == 0x205F || c.toNat == 0x3000

/-- What the service takes from code outside the repository: the mapping behind
`char::to_uppercase`, the second counts `DateTime::from_timestamp_secs` represents, and the slot
`DelayQueue::insert_at` takes, by how many entries were inserted before and which slots are held. -/
class Platform where
  upperChar : Char → List Char
  upperChar_nonempty : ∀ c, upperChar c ≠ []
  upperChar_upper : ∀ c d, d ∈ upperChar c → upperChar d = [d]
  upperChar_whitespace : ∀ c d, d ∈ upperChar c → isWhitespace d = isWhitespace c
  upperChar_ascii : ∀ c, c.toNat < 128 → upperChar c = [c.toUpper]
  upperChar_delimiter : ∀ c, '#' ∈ upperChar c → c = '#'
  representable : Int → Bool
  freeSlot : Nat → List Nat → Nat
  freeSlot_unheld : ∀ inserted held, freeSlot inserted held ∉ held

/-- Drop the whitespace at both ends. -/
def trimChars (text : List Char) : List Char :=
  ((text.dropWhile isWhitespace).reverse.dropWhile isWhitespace).reverse

/-- `str::trim`. -/
def trim (text : String) : String := String.ofList (trimChars text.toList)

section

variable [Platform]

/-- `str::to_uppercase`. -/
def toUppercase (text : String) : String :=
  String.ofList (text.toList.flatMap Platform.upperChar)

/-- The normal form of a device name, `device.trim().to_uppercase()`. -/
def normalize (device : String) : String := toUppercase (trim device)

end

/-- A list with no whitespace at either end. -/
structure Trimmed (text : List Char) : Prop where
  head : ∀ c, text.head? = some c → isWhitespace c = false
  last : ∀ c, text.getLast? = some c → isWhitespace c = false

private theorem dropWhile_head {text : List Char} {c : Char}
    (first : (text.dropWhile isWhitespace).head? = some c) : isWhitespace c = false := by
  simpa [first] using List.head?_dropWhile_not isWhitespace text

theorem trimChars_trimmed (text : List Char) : Trimmed (trimChars text) where
  head := by
    intro c first
    -- The trimmed text is a prefix of the text with its leading whitespace dropped.
    have isPrefix : trimChars text <+: text.dropWhile isWhitespace := by
      have isSuffix := List.dropWhile_suffix isWhitespace
        (l := (text.dropWhile isWhitespace).reverse)
      simpa [trimChars] using List.reverse_prefix.mpr isSuffix
    obtain ⟨rest, same⟩ := isPrefix
    apply @dropWhile_head text c
    rw [← same, List.head?_append, first]
    rfl
  last := by
    intro c final
    rw [trimChars, List.getLast?_reverse] at final
    exact dropWhile_head final

theorem trimChars_of_trimmed {text : List Char} (trimmed : Trimmed text) :
    trimChars text = text := by
  have atHead : text.dropWhile isWhitespace = text := by
    cases text with
    | nil => rfl
    | cons c rest => simp [trimmed.head c rfl]
  have atLast : text.reverse.dropWhile isWhitespace = text.reverse := by
    cases reversed : text.reverse with
    | nil => rfl
    | cons c rest =>
        have final : text.getLast? = some c := by simp [← List.head?_reverse, reversed]
        simp [trimmed.last c final]
  rw [trimChars, atHead, atLast, List.reverse_reverse]

/-- Whitespace in front is whitespace in front of the images, where a character and its image
are whitespace together. -/
private theorem dropWhile_flatMap {image : Char → List Char} (nonempty : ∀ c, image c ≠ [])
    (whitespace : ∀ c, ∀ d ∈ image c, isWhitespace d = isWhitespace c) (text : List Char) :
    (text.flatMap image).dropWhile isWhitespace =
      (text.dropWhile isWhitespace).flatMap image := by
  induction text with
  | nil => rfl
  | cons c rest ih =>
      cases blank : isWhitespace c with
      | true =>
          have dropped : ∀ d ∈ image c, isWhitespace d = true := by
            intro d member
            rw [whitespace c d member, blank]
          rw [List.flatMap_cons, List.dropWhile_append_of_pos dropped, ih,
            List.dropWhile_cons_of_pos blank]
      | false =>
          obtain ⟨d, more, shown⟩ := List.exists_cons_of_ne_nil (nonempty c)
          have kept : isWhitespace d = false := by
            rw [whitespace c d (by simp [shown]), blank]
          rw [List.dropWhile_cons_of_neg (by simp [blank]), List.flatMap_cons, shown,
            List.cons_append, List.dropWhile_cons_of_neg (by simp [kept])]

section

variable [Platform]

theorem upper_trimmed {text : List Char} (trimmed : Trimmed text) :
    Trimmed (text.flatMap Platform.upperChar) where
  head := by
    intro c first
    cases text with
    | nil => simp at first
    | cons d rest =>
        have member : c ∈ Platform.upperChar d := by
          rw [List.flatMap_cons, List.head?_append_of_ne_nil _ (Platform.upperChar_nonempty d)]
            at first
          exact List.mem_of_head? first
        rw [Platform.upperChar_whitespace d c member]
        exact trimmed.head d rfl
  last := by
    intro c final
    rcases List.eq_nil_or_concat text with rfl | ⟨front, d, rfl⟩
    · simp at final
    · have member : c ∈ Platform.upperChar d := by
        rw [List.concat_eq_append, List.flatMap_append, List.flatMap_singleton,
          List.getLast?_append_of_ne_nil _ (Platform.upperChar_nonempty d)] at final
        exact List.mem_of_getLast? final
      rw [Platform.upperChar_whitespace d c member]
      exact trimmed.last d (by simp)

theorem upper_upper (text : List Char) :
    (text.flatMap Platform.upperChar).flatMap Platform.upperChar =
      text.flatMap Platform.upperChar := by
  have fixed : ∀ c, (Platform.upperChar c).flatMap Platform.upperChar = Platform.upperChar c := by
    intro c
    have each : ∀ d ∈ Platform.upperChar c, Platform.upperChar d = [d] :=
      Platform.upperChar_upper c
    rw [List.flatMap_congr each, List.flatMap_singleton']
  simp [List.flatMap_assoc, fixed]

/-- Trimming and taking upper case commute. -/
theorem trimChars_upper (text : List Char) :
    trimChars (text.flatMap Platform.upperChar) = (trimChars text).flatMap Platform.upperChar := by
  have front := dropWhile_flatMap Platform.upperChar_nonempty Platform.upperChar_whitespace
  have back : ∀ text : List Char,
      (text.flatMap (List.reverse ∘ Platform.upperChar)).dropWhile isWhitespace =
        (text.dropWhile isWhitespace).flatMap (List.reverse ∘ Platform.upperChar) := by
    apply dropWhile_flatMap
    · exact fun c => List.reverse_ne_nil_iff.mpr (Platform.upperChar_nonempty c)
    · exact fun c d member => Platform.upperChar_whitespace c d (List.mem_reverse.mp member)
  rw [trimChars, trimChars, front, List.reverse_flatMap, back, List.reverse_flatMap]
  simp [Function.comp_def]

/-- Taking upper case first changes no normal form. -/
theorem normalize_toUppercase (device : String) :
    normalize (toUppercase device) = normalize device := by
  simp only [normalize, toUppercase, trim, String.toList_ofList, trimChars_upper, upper_upper]

/-- A normal form is normal. -/
@[simp] theorem normalize_normalize (device : String) :
    normalize (normalize device) = normalize device := by
  have trimmed := upper_trimmed (trimChars_trimmed device.toList)
  simp only [normalize, toUppercase, trim, String.toList_ofList, trimChars_of_trimmed trimmed,
    upper_upper]

end

/-- `char::to_ascii_uppercase` moves the lower-case letters and nothing else. -/
private theorem toUpper_cases (c : Char) :
    c.toUpper = c ∨ (97 ≤ c.toNat ∧ c.toNat ≤ 122 ∧ c.toUpper.toNat = c.toNat - 32) := by
  by_cases lower : 'a'.val ≤ c.val ∧ c.val ≤ 'z'.val
  · have first : 97 ≤ c.toNat := lower.1
    have last : c.toNat ≤ 122 := lower.2
    refine .inr ⟨first, last, ?_⟩
    delta Char.toUpper
    simp only [lower, and_self, dif_pos]
    change (c.val + ('A'.val - 'a'.val)).toNat = c.val.toNat - 32
    have gap : ('A'.val - 'a'.val).toNat = 4294967264 := by decide
    change 97 ≤ c.val.toNat at first
    change c.val.toNat ≤ 122 at last
    rw [UInt32.toNat_add, gap]
    omega
  · refine .inl ?_
    delta Char.toUpper
    simp only [lower, dif_neg, not_false_eq_true]

private theorem toUpper_toUpper (c : Char) : c.toUpper.toUpper = c.toUpper := by
  rcases toUpper_cases c.toUpper with same | ⟨first, last, _⟩
  · exact same
  · rcases toUpper_cases c with same | ⟨_, _, moved⟩
    · rw [same, same]
    · omega

private theorem isWhitespace_toUpper (c : Char) : isWhitespace c.toUpper = isWhitespace c := by
  rcases toUpper_cases c with same | ⟨first, last, moved⟩
  · rw [same]
  · have upper : isWhitespace c.toUpper = false := by
      simp [isWhitespace]
      omega
    have lower : isWhitespace c = false := by
      simp [isWhitespace]
      omega
    rw [upper, lower]

/-- The first number above some others. -/
def firstAbove (numbers : List Nat) : Nat :=
  numbers.foldr (fun number above => max (number + 1) above) 0

theorem lt_firstAbove {numbers : List Nat} {number : Nat} (member : number ∈ numbers) :
    number < firstAbove numbers := by
  induction numbers with
  | nil => cases member
  | cons first rest ih =>
      simp only [firstAbove, List.foldr_cons]
      obtain rfl | later := List.mem_cons.mp member
      · omega
      · have below := ih later
        rw [firstAbove] at below
        omega

/-- The platform as ASCII text sees it, with the range of chrono's date-times. -/
@[reducible] def asciiPlatform : Platform where
  upperChar c := [c.toUpper]
  upperChar_nonempty := by simp
  upperChar_upper := by
    intro c d member
    obtain rfl := List.mem_singleton.mp member
    rw [toUpper_toUpper]
  upperChar_whitespace := by
    intro c d member
    obtain rfl := List.mem_singleton.mp member
    exact isWhitespace_toUpper c
  upperChar_ascii _ _ := rfl
  upperChar_delimiter := by
    intro c member
    have moved := List.mem_singleton.mp member
    rcases toUpper_cases c with same | ⟨first, last, code⟩
    · rw [same] at moved
      exact moved.symm
    · rw [← moved] at code
      have hash : '#'.toNat = 35 := rfl
      omega
  representable seconds := decide (-8334601228800 ≤ seconds ∧ seconds ≤ 8210266876799)
  freeSlot _ held := firstAbove held
  freeSlot_unheld _ _ held := Nat.lt_irrefl _ (lt_firstAbove held)

end AcornAlarms
