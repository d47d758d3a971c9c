import Std.Data.ExtTreeMap
import SharedNames.Text.Quoted

/-!
The keys by which contexts are known to the registry.

A key is a native handle, a number or a label. Keys are ordered, handles and numbers by
their values and labels by their characters, so that tables over keys have one form.
Records and errors show a key by `ContextKey.text`.
-/

namespace SharedNames

inductive ContextKey where
  /-- A native handle. -/
  | handle (number : UInt64)
  /-- A number that the client chose. -/
  | number (value : UInt64)
  /-- A label that the client made up. -/
  | label (text : String)
  deriving DecidableEq, Repr

namespace ContextKey

/-! ### Order -/

/-- Handles come before numbers and numbers before labels; two of a form compare as
numbers, or by the first character in which they differ. -/
def order : ContextKey → ContextKey → Ordering
  | handle m, handle n => compare m n
  | handle _, number _ | handle _, label _ => .lt
  | number _, handle _ => .gt
  | number m, number n => compare m n
  | number _, label _ => .lt
  | label _, handle _ | label _, number _ => .gt
  | label s, label t => compare s t

instance : Ord ContextKey := ⟨order⟩

instance : Std.LawfulEqOrd ContextKey where
  compare_self := fun {a} => by
    cases a with
    | handle n => exact (Std.LawfulEqOrd.compare_eq_iff_eq.2 rfl : compare n n = .eq)
    | number n => exact (Std.LawfulEqOrd.compare_eq_iff_eq.2 rfl : compare n n = .eq)
    | label s => exact (Std.LawfulEqOrd.compare_eq_iff_eq.2 rfl : compare s s = .eq)
  eq_of_compare := fun {a b} h => by
    cases a with
    | handle m =>
      cases b with
      | handle n =>
        exact congrArg handle (Std.LawfulEqOrd.compare_eq_iff_eq.1 (h : compare m n = .eq))
      | number n | label t => cases h
    | number m =>
      cases b with
      | number n =>
        exact congrArg number (Std.LawfulEqOrd.compare_eq_iff_eq.1 (h : compare m n = .eq))
      | handle n | label t => cases h
    | label s =>
      cases b with
      | handle n | number n => cases h
      | label t =>
        exact congrArg label (Std.LawfulEqOrd.compare_eq_iff_eq.1 (h : compare s t = .eq))

instance : Std.TransOrd ContextKey where
  eq_swap := fun {a b} => by
    cases a with
    | handle m =>
      cases b with
      | handle n => exact (Std.OrientedOrd.eq_swap : compare m n = (compare n m).swap)
      | number n | label t => rfl
    | number m =>
      cases b with
      | number n => exact (Std.OrientedOrd.eq_swap : compare m n = (compare n m).swap)
      | handle n | label t => rfl
    | label s =>
      cases b with
      | handle n | number n => rfl
      | label t => exact (Std.OrientedOrd.eq_swap : compare s t = (compare t s).swap)
  isLE_trans := fun {a b c} ab bc => by
    cases a with
    | handle m =>
      cases c with
      | number o | label u => rfl
      | handle o =>
        cases b with
        | number n | label t => exact Bool.noConfusion (bc : false = true)
        | handle n => exact (Std.TransOrd.isLE_trans ab bc : (compare m o).isLE)
    | number m =>
      cases b with
      | handle n => exact Bool.noConfusion (ab : false = true)
      | number n =>
        cases c with
        | handle o => exact Bool.noConfusion (bc : false = true)
        | number o => exact (Std.TransOrd.isLE_trans ab bc : (compare m o).isLE)
        | label u => rfl
      | label t =>
        cases c with
        | handle o | number o => exact Bool.noConfusion (bc : false = true)
        | label u => rfl
    | label s =>
      cases b with
      | handle n | number n => exact Bool.noConfusion (ab : false = true)
      | label t =>
        cases c with
        | handle o | number o => exact Bool.noConfusion (bc : false = true)
        | label u => exact (Std.TransOrd.isLE_trans ab bc : (compare s u).isLE)

/-! ### Texts -/

/-- The text of a key in records and errors: a number, with the word for a handle around
it where it is one, or a quoted label. -/
def text : ContextKey → String
  | handle n => "GroupKey(" ++ toString n.toNat ++ ")"
  | number n => toString n.toNat
  | label s => Text.quote s

def hexText (number : UInt64) : String :=
  "GroupKey(0x" ++ String.ofList (Text.Quoted.hexDigits number.toNat) ++ ")"

/-- The text by which a client gives a key: a decimal number or the label itself. -/
def plainText : ContextKey → String
  | handle n | number n => toString n.toNat
  | label s => s

end ContextKey

end SharedNames
