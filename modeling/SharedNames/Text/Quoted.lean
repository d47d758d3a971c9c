import SharedNames.Text.Unprintable

/-!
Quoted text: a string between double quotes, in which some characters are escaped.

A double quote and a backslash are escaped by a backslash, four control characters
have short escapes, and the characters of a given class are written as their code in
hexadecimal between braces. All else stands for itself. The class is a parameter:
reading back does not depend on it.

Main statements: `decodeBody_encodeBody` (what was written is read back, whatever
follows the closing quote) and `encode_append_inj` (a written string shows where it
ends, so that neither it nor what follows is ambiguous).
-/

namespace SharedNames.Text

namespace Quoted

/-! ### Hexadecimal numbers -/

def hexValue? (c : Char) : Option Nat :=
  if '0' ≤ c ∧ c ≤ '9' then some (c.toNat - 48)
  else if 'a' ≤ c ∧ c ≤ 'f' then some (c.toNat - 87)
  else none

def hexDigits (n : Nat) : List Char :=
  Nat.toDigits 16 n

theorem hexValue?_digitChar {d : Nat} (h : d < 16) : hexValue? d.digitChar = some d := by
  revert d
  decide

/-- The digits of a number: those of its quotient, and then the last one. The reader
multiplies as it goes along, so its law is by this recursion. -/
theorem hexDigits_step {n : Nat} (h : 16 ≤ n) :
    hexDigits n = hexDigits (n / 16) ++ [(n % 16).digitChar] :=
  Nat.toDigits_of_base_le (by decide) h

/-! ### Writing -/

/-- The mark after the backslash of a short escape. -/
def shortMark? : Char → Option Char
  | '"' => some '"'
  | '\\' => some '\\'
  | '\x00' => some '0'
  | '\t' => some 't'
  | '\r' => some 'r'
  | '\n' => some 'n'
  | _ => none

/-- One character of a quoted string, where `special` is the class of characters
that are written by their code. -/
def encodeChar (special : Char → Bool) (c : Char) : List Char :=
  match shortMark? c with
  | some mark => ['\\', mark]
  | none =>
    if special c then '\\' :: 'u' :: '\x7b' :: (hexDigits c.toNat ++ ['\x7d'])
    else [c]

def encodeBody (special : Char → Bool) (cs : List Char) : List Char :=
  cs.flatMap (encodeChar special)

def encode (special : Char → Bool) (s : String) : String :=
  String.ofList ('"' :: (encodeBody special s.toList ++ ['"']))

/-! ### Reading -/

/-- Where a reader stands. -/
inductive Place where
  | plain
  /-- Behind a backslash. -/
  | escape
  /-- Behind the letter that announces a code. -/
  | code
  /-- Inside the braces, with the value of the digits so far. -/
  | digits (value : Nat)

def marked? : Char → Option Char
  | '"' => some '"'
  | '\\' => some '\\'
  | '0' => some '\x00'
  | 't' => some '\t'
  | 'r' => some '\r'
  | 'n' => some '\n'
  | _ => none

/-- Reads up to the closing quote, and answers what was read and what follows. -/
def decodeFrom : Place → List Char → Option (List Char × List Char)
  | _, [] => none
  | .plain, c :: rest =>
    if c = '"' then some ([], rest)
    else if c = '\\' then decodeFrom .escape rest
    else (decodeFrom .plain rest).map fun (cs, rest) => (c :: cs, rest)
  | .escape, c :: rest =>
    if c = 'u' then decodeFrom .code rest
    else do
      let d ← marked? c
      let (cs, rest) ← decodeFrom .plain rest
      return (d :: cs, rest)
  | .code, c :: rest =>
    if c = '\x7b' then decodeFrom (.digits 0) rest else none
  | .digits value, c :: rest =>
    if c = '\x7d' then
      (decodeFrom .plain rest).map fun (cs, rest) => (Char.ofNat value :: cs, rest)
    else do
      let d ← hexValue? c
      decodeFrom (.digits (16 * value + d)) rest

def decodeBody (text : List Char) : Option (List Char × List Char) :=
  decodeFrom .plain text

def decode (text : String) : Option String :=
  match text.toList with
  | '"' :: rest =>
    match decodeBody rest with
    | some (cs, []) => some (String.ofList cs)
    | _ => none
  | _ => none

/-! ### Reading what was written -/

/-- Inside the braces the digits are read to the number whose digits they are, whatever
follows. -/
theorem decodeFrom_digits (n : Nat) (rest : List Char) :
    decodeFrom (.digits 0) (hexDigits n ++ rest) = decodeFrom (.digits n) rest := by
  induction n using Nat.strongRecOn generalizing rest with
  | ind n ih =>
    have step (value d : Nat) (lt : d < 16) (rest : List Char) :
        decodeFrom (.digits value) (d.digitChar :: rest) =
          decodeFrom (.digits (16 * value + d)) rest := by
      have noBrace : d.digitChar ≠ '\x7d' := by
        clear ih
        revert d
        decide
      simp [decodeFrom, noBrace, hexValue?_digitChar lt]
    by_cases small : n < 16
    · rw [hexDigits, Nat.toDigits_of_lt_base small, List.singleton_append, step _ _ small]
      simp
    · rw [hexDigits_step (by omega), List.append_assoc, ih _ (by omega), List.singleton_append,
        step _ _ (Nat.mod_lt _ (by omega)), Nat.div_add_mod]

/-- A mark stands for the character that it escapes, and announces no code: so the reader
never takes a short escape for a code. -/
theorem marked?_of_shortMark? {c mark : Char} (h : shortMark? c = some mark) :
    marked? mark = some c ∧ mark ≠ 'u' := by
  unfold shortMark? at h
  split at h <;> cases h
  all_goals exact ⟨rfl, by decide⟩

/-- A character is read back from its quoted form, with any text behind it. Each of the three
forms ends where the reader expects it to, so a string is read back character by character. -/
theorem decodeFrom_encodeChar (special : Char → Bool) (c : Char) (rest : List Char) :
    decodeFrom .plain (encodeChar special c ++ rest) =
      (decodeFrom .plain rest).map fun (cs, rest) => (c :: cs, rest) := by
  unfold encodeChar
  split
  case h_1 mark short =>
    obtain ⟨isMark, noCode⟩ := marked?_of_shortMark? short
    cases h : decodeFrom .plain rest <;> simp [decodeFrom, noCode, isMark, h]
  case h_2 short =>
    by_cases isSpecial : special c
    · simp [isSpecial, decodeFrom, decodeFrom_digits]
    · have noQuote : c ≠ '"' := by rintro rfl; simp [shortMark?] at short
      have noBackslash : c ≠ '\\' := by rintro rfl; simp [shortMark?] at short
      simp [isSpecial, decodeFrom, noQuote, noBackslash]

/-- What was written between quotes is read back, whatever follows the closing one. No
character is written as a bare quote, so the first bare one closes the string. -/
theorem decodeBody_encodeBody (special : Char → Bool) (cs rest : List Char) :
    decodeBody (encodeBody special cs ++ '"' :: rest) = some (cs, rest) := by
  unfold decodeBody
  induction cs with
  | nil => simp [encodeBody, decodeFrom]
  | cons c cs ih =>
    have front : encodeBody special (c :: cs) = encodeChar special c ++ encodeBody special cs := by
      simp [encodeBody]
    rw [front, List.append_assoc, decodeFrom_encodeChar, ih]
    rfl

theorem decode_encode (special : Char → Bool) (s : String) :
    decode (encode special s) = some s := by
  simp [decode, encode, decodeBody_encodeBody]

/-- Two quoted strings with something behind them agree only if the strings and what is behind
them agree. So a quoted string is no proper beginning of another one, and in a longer text it
can be told where it ends. -/
theorem encode_append_inj {special : Char → Bool} {s t u v : String}
    (h : encode special s ++ u = encode special t ++ v) : s = t ∧ u = v := by
  have chars := congrArg String.toList h
  simp only [encode, String.toList_append, String.toList_ofList, List.cons_append,
    List.append_assoc, List.nil_append, List.cons.injEq, true_and] at chars
  have read := congrArg decodeBody chars
  rw [decodeBody_encodeBody, decodeBody_encodeBody, Option.some.injEq, Prod.mk.injEq] at read
  exact ⟨String.toList_inj.1 read.1, String.toList_inj.1 read.2⟩

end Quoted

/-- The quoted text of a string in which unprintable characters show by their code. -/
def quote (s : String) : String :=
  Quoted.encode isUnprintable s

end SharedNames.Text
