import Mathlib.Data.List.Basic
import SharedNames.Record

/-!
Reading the records of changed names back from the log.

A line of the log is read from its left: the severity, what was done, the label of the kind,
and two names in decimal digits with their surroundings. `readTrace` knows nothing of how a
line was made; `readTrace_line` says that it reads from the line of every record what the
record was about, and nothing from the lines of other severities. So no two changes have one
line, although a label may have a space in it and names are not padded.
-/

namespace SharedNames

/-! ### Reading parts of a line -/

def readText (text : String) (cs : List Char) : Option (List Char) :=
  text.toList.isPrefixOf? cs

def readKind (cs : List Char) : Option (ObjectKind × List Char) :=
  ObjectKind.all.findSome? fun kind => (readText kind.label cs).map fun left => (kind, left)

def readName (cs : List Char) : Option (Name × List Char) :=
  let digits := cs.takeWhile Char.isDigit
  let value := Nat.ofDigitChars 10 digits 0
  if digits = [] ∨ UInt32.size ≤ value then none
  else some (UInt32.ofNat value, cs.dropWhile Char.isDigit)

/-- Reads a whole line that begins with a verb and a kind, and goes on with a local and a
global name. -/
def readChange (verb between ending : String) (cs : List Char) :
    Option (ObjectKind × Name × Name) := do
  let cs ← readText verb cs
  let (kind, cs) ← readKind cs
  let cs ← readText " " cs
  let (l, cs) ← readName cs
  let cs ← readText between cs
  let (g, cs) ← readName cs
  let cs ← readText ending cs
  if cs = [] then some (kind, l, g) else none

def isTraceLine (line : String) : Bool :=
  (readText "TRACE " line.toList).isSome

/-- Reads which change of the names of a kind a line is about. -/
def readTrace (line : String) : Option (ObjectKind × NameTable.Event) := do
  let cs ← readText "TRACE " line.toList
  ((readChange "gen " " -> " "" cs).map fun (kind, l, g) => (kind, .made l g)) <|>
    ((readChange "alias " " -> " "" cs).map fun (kind, l, g) => (kind, .rebound l g)) <|>
    ((readChange "delete " " (was " ")" cs).map fun (kind, l, g) => (kind, .removed l g))

/-! ### What is read -/

@[simp] theorem readText_append (text : String) (cs : List Char) :
    readText text (text.toList ++ cs) = some cs :=
  List.isPrefixOf?_eq_some_iff_append_eq.mpr rfl

/-- No label of a kind is the beginning of another one, so the first label that fits is the
right one. -/
@[simp] theorem readKind_append (kind : ObjectKind) (cs : List Char) :
    readKind (kind.label.toList ++ cs) = some (kind, cs) := by
  cases kind <;> rfl

/-- The decimal digits of a number end where no further digit follows. -/
theorem span_digits (n : Nat) {cs : List Char} (ends : ∀ c ∈ cs.head?, c.isDigit = false) :
    ((toString n).toList ++ cs).takeWhile Char.isDigit = Nat.toDigits 10 n ∧
      ((toString n).toList ++ cs).dropWhile Char.isDigit = cs := by
  have digits : ∀ c ∈ Nat.toDigits 10 n, c.isDigit = true := fun c mem =>
    Nat.isDigit_of_mem_toDigits (by decide) (by decide) mem
  have stops : cs.takeWhile Char.isDigit = [] ∧ cs.dropWhile Char.isDigit = cs := by
    cases cs with
    | nil => exact ⟨rfl, rfl⟩
    | cons c cs =>
        have stop := ends c rfl
        rw [List.takeWhile_cons, List.dropWhile_cons, stop]
        exact ⟨rfl, rfl⟩
  rw [Nat.toString_eq_ofList_toDigits, String.toList_ofList, List.takeWhile_append_of_pos digits,
    List.dropWhile_append_of_pos digits, stops.1, stops.2, List.append_nil]
  exact ⟨rfl, rfl⟩

/-- A name is read up to the first character that is not a digit. -/
theorem readName_append (n : Name) {cs : List Char} (ends : ∀ c ∈ cs.head?, c.isDigit = false) :
    readName ((toString n.toNat).toList ++ cs) = some (n, cs) := by
  obtain ⟨digits, left⟩ := span_digits n.toNat ends
  have within : ¬ UInt32.size ≤ n.toNat := Nat.not_le.mpr n.toNat_lt
  rw [readName, digits, left, Nat.ofDigitChars_ten_toDigits, if_neg, UInt32.ofNat_toNat]
  exact not_or.mpr ⟨Nat.toDigits_ne_nil, within⟩

theorem noDigit_append {text : String} (apart : ∃ c cs, text.toList = c :: cs ∧ c.isDigit = false)
    (cs : List Char) : ∀ c ∈ (text.toList ++ cs).head?, c.isDigit = false := by
  obtain ⟨c, cs', begins, noDigit⟩ := apart
  intro d first
  rw [begins] at first
  cases first
  exact noDigit

/-- A line is read if its texts after the names do not go on with digits. The texts themselves
are of no matter, so one law serves all three forms of the trace. -/
theorem readChange_append (verb between ending : String) (kind : ObjectKind) (l g : Name)
    (apart : ∃ c cs, between.toList = c :: cs ∧ c.isDigit = false)
    (ends : ∀ c ∈ ending.toList.head?, c.isDigit = false) :
    readChange verb between ending (verb ++ kind.label ++ " " ++ toString l.toNat ++ between ++
      toString g.toNat ++ ending).toList = some (kind, l, g) := by
  have closing : readText ending ending.toList = some [] := by
    rw [← List.append_nil ending.toList]
    exact readText_append ..
  simp only [String.toList_append, List.append_assoc, readChange, readText_append,
    readKind_append, Option.bind_eq_bind, Option.bind_some,
    readName_append _ (noDigit_append apart _), readName_append _ ends, closing, if_true]

/-- What was done to the names of a kind, where a record of the trace tells it. -/
def Record.traced? : Record → Option (ObjectKind × NameTable.Event)
  | object kind (.naming (.made l g)) => some (kind, .made l g)
  | object kind (.naming (.removed l g)) => some (kind, .removed l g)
  | object kind (.naming (.rebound l g)) => some (kind, .rebound l g)
  | _ => none

/-- The records of the trace are exactly those that tell of a change of names. -/
theorem isSome_traced?_iff (record : Record) :
    record.traced?.isSome ↔ record.severity = .trace := by
  cases record with
  | object kind event =>
      cases event with
      | naming event => cases event <;> simp [Record.traced?, Record.severity]
      | payloadTurnedDown l => simp [Record.traced?, Record.severity]
  | _ => simp [Record.traced?, Record.severity]

theorem readChange_of_other {verb between ending : String} {cs : List Char}
    (other : readText verb cs = none) : readChange verb between ending cs = none := by
  rw [readChange, other]
  rfl

/-- A line of the trace is read as the first of the three forms that it has. The forms begin
with different verbs, so a line has one of them at most. -/
theorem readTrace_eq {line : String} {cs : List Char}
    (begins : line.toList = "TRACE ".toList ++ cs) :
    readTrace line =
      (((readChange "gen " " -> " "" cs).map fun (kind, l, g) => (kind, .made l g)) <|>
        ((readChange "alias " " -> " "" cs).map fun (kind, l, g) => (kind, .rebound l g)) <|>
        ((readChange "delete " " (was " ")" cs).map fun (kind, l, g) => (kind, .removed l g))) := by
  rw [readTrace, begins, readText_append]
  rfl

theorem toList_line_of_trace {record : Record} (trace : record.severity = .trace) :
    record.line.toList = "TRACE ".toList ++ record.text.toList := by
  have label : "TRACE ".toList = "TRACE".toList ++ " ".toList := rfl
  rw [Record.line, trace, label, String.toList_append, String.toList_append]
  rfl

/-- The texts of a change in the order in which they are read. -/
theorem changeText_eq (verb between : String) (kind : ObjectKind) (l g : Name) :
    verb ++ kind.label ++ " " ++ (toString l.toNat ++ between ++ toString g.toNat) =
      verb ++ kind.label ++ " " ++ toString l.toNat ++ between ++ toString g.toNat ++ "" := by
  simp only [String.append_assoc, String.append_empty]

section Lines

variable (kind : ObjectKind) (l g : Name)

theorem readTrace_made :
    readTrace (Record.object kind (.naming (.made l g))).line = some (kind, .made l g) := by
  have text : (Record.object kind (.naming (.made l g))).text = _ :=
    changeText_eq "gen " " -> " kind l g
  have read := readChange_append "gen " " -> " "" kind l g ⟨' ', _, rfl, rfl⟩ (by simp)
  rw [readTrace_eq (toList_line_of_trace rfl), text, read]
  rfl

theorem readTrace_rebound :
    readTrace (Record.object kind (.naming (.rebound l g))).line = some (kind, .rebound l g) := by
  have text : (Record.object kind (.naming (.rebound l g))).text = _ :=
    changeText_eq "alias " " -> " kind l g
  have read := readChange_append "alias " " -> " "" kind l g ⟨' ', _, rfl, rfl⟩ (by simp)
  rw [readTrace_eq (toList_line_of_trace rfl), text, read, readChange_of_other]
  · rfl
  · simp only [String.toList_append, List.append_assoc]
    rfl

theorem readTrace_removed :
    readTrace (Record.object kind (.naming (.removed l g))).line = some (kind, .removed l g) := by
  have text : (Record.object kind (.naming (.removed l g))).text = "delete " ++ kind.label ++ " " ++
      toString l.toNat ++ " (was " ++ toString g.toNat ++ ")" := rfl
  have read := readChange_append "delete " " (was " ")" kind l g ⟨' ', _, rfl, rfl⟩ (by simp)
  rw [readTrace_eq (toList_line_of_trace rfl), text, read, readChange_of_other,
    readChange_of_other]
  · rfl
  · simp only [String.toList_append, List.append_assoc]
    rfl
  · simp only [String.toList_append, List.append_assoc]
    rfl

end Lines

/-- The lines of the trace are those of its records. A line begins with the word for its
severity, and no other of these words begins like that of the trace. -/
theorem isTraceLine_line_iff (record : Record) :
    isTraceLine record.line ↔ record.severity = .trace := by
  constructor
  · intro begins
    rw [isTraceLine, Record.line] at begins
    cases severity : record.severity with
    | trace => rfl
    | _ =>
        rw [severity, String.toList_append, String.toList_append, List.append_assoc] at begins
        cases begins
  · intro trace
    rw [isTraceLine, toList_line_of_trace trace, readText_append]
    rfl

/-- From the line of a record what the record tells is read back, and nothing from the line of
a record that is not of the trace. So the trace can be followed without the program. -/
theorem readTrace_line (record : Record) : readTrace record.line = record.traced? := by
  by_cases trace : record.severity = .trace
  · cases record with
    | object kind event =>
        cases event with
        | payloadTurnedDown => cases trace
        | naming event =>
            cases event with
            | kept | turnedDown => cases trace
            | made l g => exact readTrace_made kind l g
            | rebound l g => exact readTrace_rebound kind l g
            | removed l g => exact readTrace_removed kind l g
    | _ => cases trace
  · have untold : record.traced? = none := by
      rw [← Option.not_isSome_iff_eq_none, isSome_traced?_iff]
      exact trace
    have other : readText "TRACE " record.line.toList = none := by
      rw [← isTraceLine_line_iff, isTraceLine] at trace
      exact Option.not_isSome_iff_eq_none.mp trace
    rw [untold, readTrace, other]
    rfl

end SharedNames
