import Mathlib.Data.List.Forall2
import SharedNames.Proofs.TraceReading

/-!
Reading keys back from the texts that name them.

The text of a handle ends with its bracket, and that of a label with the first double
quote that no backslash escapes, whatever the label has in it. Only a number goes on as
long as digits follow. So a key is read back from the start of any text in which no digit
comes right after it (`readKey_append`), and a record that names two keys tells both.

* `Quotes s text` says, character by character, what the quoted text of a string looks
  like. By `quotes_iff` every string has one quoted text, which is `quote s`.
* `ContextKey.ofText?_text`: a key is read back from its text.
* `ContextKey.label_eq_of_prefix`: the text of a label does not go on as that of another.
* `readRefusal_text`: from the text of a record, whatever it is about, the two keys of a
  refused attachment are read, or nothing.
-/

namespace SharedNames

/-! ### The form of quoted text -/

namespace Text.Quoted

/-- The numerals to the base sixteen, in lower case and without leading zeros. -/
inductive Numeral : Nat → List Char → Prop where
  | digit {d : Nat} : d < 16 → Numeral d [d.digitChar]
  | snoc {n d : Nat} {digits : List Char} : Numeral n digits → 0 < n → d < 16 →
      Numeral (16 * n + d) (digits ++ [d.digitChar])

/-- The characters that have a form of their own. -/
def escaped : List Char :=
  ['"', '\\', '\x00', '\t', '\r', '\n']

/-- How quoted text shows a character. -/
inductive Shows : Char → List Char → Prop where
  | quote : Shows '"' ['\\', '"']
  | backslash : Shows '\\' ['\\', '\\']
  | null : Shows '\x00' ['\\', '0']
  | tab : Shows '\t' ['\\', 't']
  | carriageReturn : Shows '\r' ['\\', 'r']
  | lineFeed : Shows '\n' ['\\', 'n']
  /-- By its code between braces. -/
  | code {c : Char} {digits : List Char} : c ∉ escaped → isUnprintable c →
      Numeral c.toNat digits → Shows c ('\\' :: 'u' :: '\x7b' :: (digits ++ ['\x7d']))
  /-- By itself. -/
  | verbatim {c : Char} : c ∉ escaped → isUnprintable c = false → Shows c [c]

/-- What a text between double quotes looks like that shows the characters of a string
one after the other. -/
def Quotes (s text : String) : Prop :=
  ∃ parts, List.Forall₂ Shows s.toList parts ∧ text.toList = '"' :: (parts.flatten ++ ['"'])

/-- Every number has one numeral. The digits that are printed are so determined by the
grammar, which says nothing of how they are computed. -/
theorem numeral_iff {n : Nat} {digits : List Char} : Numeral n digits ↔ digits = hexDigits n := by
  constructor
  · intro numeral
    induction numeral with
    | digit small => exact (Nat.toDigits_of_lt_base small).symm
    | snoc _ pos small ih =>
        rw [ih, hexDigits, hexDigits, ← Nat.toDigits_of_lt_base small]
        exact Nat.toDigits_append_toDigits (by decide) pos small
  · rintro rfl
    induction n using Nat.strongRecOn with
    | ind n ih =>
        by_cases small : n < 16
        · rw [hexDigits, Nat.toDigits_of_lt_base small]
          exact .digit small
        · have numeral : Numeral (16 * (n / 16) + n % 16) _ :=
            .snoc (ih (n / 16) (by omega)) (by omega) (Nat.mod_lt n (by decide))
          rw [hexDigits_step (Nat.le_of_not_lt small)]
          rwa [Nat.div_add_mod] at numeral

theorem shortMark?_eq_none_iff {c : Char} : shortMark? c = none ↔ c ∉ escaped := by
  unfold shortMark?
  split
  case h_7 => simp_all [escaped]
  all_goals simp [escaped]

/-- Every character is shown in one way: the grammar leaves no choice between a short escape,
a code and the character itself. -/
theorem shows_iff {c : Char} {text : List Char} :
    Shows c text ↔ encodeChar isUnprintable c = text := by
  constructor
  · intro shown
    cases shown with
    | quote | backslash | null | tab | carriageReturn | lineFeed => rfl
    | code rare special numeral =>
        rw [encodeChar, shortMark?_eq_none_iff.mpr rare, numeral_iff.mp numeral, special]
        rfl
    | verbatim rare plain =>
        rw [encodeChar, shortMark?_eq_none_iff.mpr rare, plain]
        rfl
  · rintro rfl
    unfold encodeChar
    split
    case h_1 mark short =>
      unfold shortMark? at short
      split at short <;> cases short
      all_goals constructor
    case h_2 short =>
      rw [shortMark?_eq_none_iff] at short
      cases special : isUnprintable c with
      | false => exact .verbatim short special
      | true => exact .code short special (numeral_iff.mpr rfl)

/-- Every string has one quoted text, the one that is printed. So what is proved of the
grammar holds of the printer. -/
theorem quotes_iff {s text : String} : Quotes s text ↔ text = quote s := by
  have shows_eq : Shows = fun c part => encodeChar isUnprintable c = part :=
    funext₂ fun _ _ => propext shows_iff
  have parts_iff (parts : List (List Char)) :
      List.Forall₂ Shows s.toList parts ↔ s.toList.map (encodeChar isUnprintable) = parts := by
    rw [shows_eq, ← List.forall₂_map_left_iff, List.forall₂_eq_eq_eq]
  have form : (quote s).toList =
      '"' :: ((s.toList.map (encodeChar isUnprintable)).flatten ++ ['"']) := by
    rw [quote, encode, String.toList_ofList, encodeBody, List.flatMap_def]
  simp only [Quotes, parts_iff, exists_eq_left', ← form, String.toList_inj]

example : quote "a\"\\\t\u0301" = "\"a\\\"\\\\\\t\\u\x7b301\x7d\"" := by
  decide +kernel

end Text.Quoted

/-- Different strings have different quoted texts, as a quoted text is read back. -/
theorem Text.quote_injective : Function.Injective Text.quote := by
  intro s t same
  have read := congrArg Text.Quoted.decode same
  rw [Text.quote, Text.quote, Text.Quoted.decode_encode, Text.Quoted.decode_encode] at read
  exact Option.some.inj read

/-! ### Reading a key -/

/-- Reads all decimal digits that come next as the number of a key. -/
def readNumber (cs : List Char) : Option (UInt64 × List Char) :=
  let digits := cs.takeWhile Char.isDigit
  let value := Nat.ofDigitChars 10 digits 0
  if digits = [] ∨ UInt64.size ≤ value then none
  else some (UInt64.ofNat value, cs.dropWhile Char.isDigit)

/-- Reads the key that comes next: a number, a handle or a label, by how it begins. -/
def readKey (cs : List Char) : Option (ContextKey × List Char) :=
  ((readNumber cs).map fun (n, cs) => (.number n, cs)) <|>
    (do
      let cs ← readText "GroupKey(" cs
      let (n, cs) ← readNumber cs
      let cs ← readText ")" cs
      return (.handle n, cs)) <|>
    (do
      let cs ← readText "\"" cs
      let (label, cs) ← Text.Quoted.decodeBody cs
      return (.label (String.ofList label), cs))

/-- A number is read up to the first character that is not a digit. It is read to the end of
the digits, so a text behind it that began with one would become a part of it. -/
theorem readNumber_append (n : UInt64) {cs : List Char} (ends : ∀ c ∈ cs.head?, c.isDigit = false) :
    readNumber ((toString n.toNat).toList ++ cs) = some (n, cs) := by
  obtain ⟨digits, left⟩ := span_digits n.toNat ends
  have within : ¬ UInt64.size ≤ n.toNat := Nat.not_le.mpr n.toNat_lt
  rw [readNumber, digits, left, Nat.ofDigitChars_ten_toDigits, if_neg, UInt64.ofNat_toNat]
  exact not_or.mpr ⟨Nat.toDigits_ne_nil, within⟩

/-- A key is read back from the start of any text in which no digit comes right after it. The
three forms are told apart by their first character: a digit, a letter or a quote. -/
theorem readKey_append (key : ContextKey) {cs : List Char}
    (ends : ∀ c ∈ cs.head?, c.isDigit = false) :
    readKey (key.text.toList ++ cs) = some (key, cs) := by
  cases key with
  | number n =>
      rw [readKey, ContextKey.text, readNumber_append n ends]
      rfl
  | handle n =>
      have closes : ∀ c ∈ (")".toList ++ cs).head?, c.isDigit = false := by simp
      have noNumber (cs : List Char) : readNumber ("GroupKey(".toList ++ cs) = none := rfl
      simp only [readKey, ContextKey.text, String.toList_append, List.append_assoc, noNumber,
        readText_append, readNumber_append n closes, Option.bind_eq_bind, Option.bind_some]
      rfl
  | label s =>
      have form : (ContextKey.label s).text.toList ++ cs = "\"".toList ++
          (Text.Quoted.encodeBody Text.isUnprintable s.toList ++ '"' :: cs) := by
        simp [ContextKey.text, Text.quote, Text.Quoted.encode]
      have noNumber (cs : List Char) : readNumber ("\"".toList ++ cs) = none := rfl
      have noHandle (cs : List Char) : readText "GroupKey(" ("\"".toList ++ cs) = none := rfl
      simp only [readKey, form, noNumber, noHandle, readText_append, Option.bind_eq_bind,
        Option.bind_some, Text.Quoted.decodeBody_encodeBody, String.ofList_toList]
      rfl

theorem readKey_text (key : ContextKey) : readKey key.text.toList = some (key, []) := by
  have ends : ∀ c ∈ ([] : List Char).head?, c.isDigit = false := by simp
  have read := readKey_append key ends
  rwa [List.append_nil] at read

namespace ContextKey

def ofText? (text : String) : Option ContextKey :=
  match readKey text.toList with
  | some (key, []) => some key
  | _ => none

/-- Every key is read back from its text. With `text_injective` this makes the text a name for
the key: nothing of the key is lost in a record or an error. -/
theorem ofText?_text (key : ContextKey) : ofText? key.text = some key := by
  rw [ofText?, readKey_text]

theorem text_injective : Function.Injective text := by
  intro key other same
  have read := ofText?_text key
  rw [same, ofText?_text] at read
  exact (Option.some.inj read).symm

example : [handle 5, number 5, label "5"].map text = ["GroupKey(5)", "5", "\"5\""] := by
  decide

/-- The text of a label does not go on as that of another one. A number's text may: `1` goes
on as `12`. So labels can be told apart even where nothing separates them from what follows. -/
theorem label_eq_of_prefix {s t : String} (h : (label s).text.toList <+: (label t).text.toList) :
    s = t := by
  obtain ⟨rest, split⟩ := h
  have both : Text.quote s ++ String.ofList rest = Text.quote t ++ "" := by
    rw [← String.toList_inj, String.toList_append, String.toList_ofList, String.append_empty]
    exact split
  exact (Text.Quoted.encode_append_inj both).1

end ContextKey

/-! ### Reading a refused attachment -/

/-- Reads a whole text that begins with `before` and goes on with two keys. -/
def readKeys (before between : String) (text : String) : Option (ContextKey × ContextKey) := do
  let cs ← readText before text.toList
  let (key, cs) ← readKey cs
  let cs ← readText between cs
  let (other, cs) ← readKey cs
  if cs = [] then some (key, other) else none

def readRefusal (text : String) : Option (ContextKey × ContextKey) :=
  readKeys "Cannot attach " ": no share group for " text

/-- Two keys are read back from between the three texts around them, if the middle one does
not go on with digits. -/
theorem readKeys_append (before between : String) (key other : ContextKey)
    (apart : ∃ c cs, between.toList = c :: cs ∧ c.isDigit = false) :
    readKeys before between (before ++ key.text ++ between ++ other.text) = some (key, other) := by
  simp only [readKeys, String.toList_append, List.append_assoc, readText_append,
    readKey_append key (noDigit_append apart _), readKey_text, Option.bind_eq_bind,
    Option.bind_some, if_true]

theorem readKeys_of_other {before between text : String}
    (other : readText before text.toList = none) : readKeys before between text = none := by
  rw [readKeys, other]
  rfl

def Record.refused? : Record → Option (ContextKey × ContextKey)
  | attachRefused key existing => some (key, existing)
  | _ => none

/-- The text of a record of another sort begins in another way, whatever keys, names and
numbers it shows. -/
theorem readText_of_not_refused {record : Record} (other : record.refused? = none) :
    readText "Cannot attach " record.text.toList = none := by
  -- Both are opened as one `match` each: their equations are slow to derive.
  unfold Record.text Record.namingText
  cases record with
  | attachRefused => cases other
  | object kind event =>
      cases event with
      | naming event =>
          cases event with
          | kept =>
              simp only [String.toList_append, List.append_assoc]
              cases kind <;> rfl
          | made | removed | rebound | turnedDown =>
              simp only [String.toList_append, List.append_assoc]
              rfl
      | payloadTurnedDown =>
          simp only [String.toList_append, List.append_assoc]
          rfl
  | _ =>
      simp only [String.toList_append, List.append_assoc]
      rfl

/-- From the text of a record what it tells about a refused attachment is read back: both keys
from the text of a refusal, and nothing from that of any other record. -/
theorem readRefusal_text (record : Record) : readRefusal record.text = record.refused? := by
  cases told : record.refused? with
  | none => exact readKeys_of_other (readText_of_not_refused told)
  | some keys =>
      cases record with
      | attachRefused key existing =>
          cases told
          exact readKeys_append "Cannot attach " ": no share group for " key existing
            ⟨':', _, rfl, rfl⟩
      | _ => cases told

/-- The text of a refused attachment is that of no other record. So the line in the log
determines which key was to be attached, and to which other one. -/
theorem Record.text_eq_attachRefused_iff {record : Record} {key existing : ContextKey} :
    record.text = (attachRefused key existing).text ↔ record = attachRefused key existing := by
  constructor
  · intro same
    have told : record.refused? = some (key, existing) := by
      rw [← readRefusal_text, same, readRefusal_text]
      rfl
    cases record with
    | attachRefused =>
        cases told
        rfl
    | _ => cases told
  · rintro rfl
    rfl

end SharedNames
