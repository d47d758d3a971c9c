import SharedNames.Proofs.NameTable.Index

/-!
What the look-ups answer after the entry of one local name was rewritten.

A rewrite shows in the look-ups of its own local name and of two global names at most. The
global name that the entry gets is answered by this local name (`Rewrite.localOf_self`). The
one that it gives up is `HandedOver` to another sharer if this local name was the answer for
it (`Rewrite.handedOver`). Every other look-up answers as before (`Rewrite.localOf_of_ne`,
`Rewrite.globalOf_of_ne`).
-/

namespace SharedNames.NameTable

variable {rule : SuccessorRule} {l k h : Name} {entry : Option Name} {t u : NameTable}

/-- The local name `l`, which was the answer for the global name `h`, is no longer bound to it.
Now `h` is answered by another live local name that was and is bound to it, and by `0` exactly
if there is none. -/
structure HandedOver (l h : Name) (t u : NameTable) : Prop where
  to_sharer : u.localOf h ≠ 0 → u.localOf h ≠ l ∧
    (t.isLive (u.localOf h) ∧ t.globalOf (u.localOf h) = h) ∧
    (u.isLive (u.localOf h) ∧ u.globalOf (u.localOf h) = h)
  zero_iff : u.localOf h = 0 ↔ ¬ ∃ k, k ≠ l ∧ t.isLive k ∧ t.globalOf k = h

/-- No local name is the answer for `0`, also if names without a global name are live. -/
@[simp] theorem localOf_zero (t : NameTable) : t.localOf 0 = 0 :=
  if_pos rfl

/-- A local name that is the answer for a global name is bound to it. -/
theorem Indexed.globals_of_localOf (index : t.Indexed) (named : l ≠ 0) (answer : t.localOf h = l) :
    t.globals[l]? = some h :=
  index.globals_of_latest ((index.localOf_eq_iff named).mp answer)

namespace Rewrite

variable (write : Rewrite rule l entry t u)

include write

theorem isLive_of_ne (other : k ≠ l) : u.isLive k = t.isLive k := by
  simp only [isLive, Std.ExtTreeMap.contains_eq_isSome_getElem?, write.globals_of_ne other]

theorem globalOf_of_ne (other : k ≠ l) : u.globalOf k = t.globalOf k := by
  simp only [globalOf, write.globals_of_ne other]

/-- A name that is bound becomes the answer for its global name, whoever shared it before. -/
theorem localOf_self (nonzero : h ≠ 0) (bound : entry = some h) : u.localOf h = l := by
  rw [localOf, if_neg nonzero, write.latest, if_pos ⟨nonzero, bound⟩, Option.getD_some]

/-- A global name that the entry does not get is answered as before, unless it was answered by
the name of the entry. The two exceptions are all that a rewrite can do to the answers. -/
theorem localOf_of_ne (elsewhere : entry ≠ some h) (other : t.localOf h ≠ l) :
    u.localOf h = t.localOf h := by
  by_cases zero : h = 0
  · rw [zero, localOf_zero, localOf_zero]
  · have notLatest : t.latest[h]? ≠ some l := by
      intro latest
      refine other ?_
      rw [localOf, if_neg zero, latest, Option.getD_some]
    rw [localOf, localOf, if_neg zero, if_neg zero, write.latest,
      if_neg (fun both => elsewhere both.2), if_neg notLatest]

/-- A global name that the entry gives up goes over to the other sharers. Which of them
answers is left to the rule; that one does as long as there is any is not. -/
theorem handedOver (indexed : u.Indexed) (named : l ≠ 0)
    (elsewhere : entry ≠ some h) (answer : t.localOf h = l) : HandedOver l h t u := by
  have nonzero : h ≠ 0 := by
    rintro rfl
    exact named (answer.symm.trans t.localOf_zero)
  have left : u.globals[l]? ≠ some h := by
    rw [write.globals_self]
    exact elsewhere
  -- The sharers of `h` after the rewrite are those before it other than `l`.
  have sharers : ∀ k : Name, u.globals[k]? = some h ↔ k ≠ l ∧ t.globals[k]? = some h := by
    intro k
    by_cases same : k = l
    · rw [same]
      exact iff_of_false left fun both => both.1 rfl
    · rw [write.globals_of_ne same]
      exact (and_iff_right same).symm
  constructor
  case to_sharer =>
    intro answered
    have bound := indexed.globals_of_localOf answered rfl
    obtain ⟨other, before⟩ := (sharers _).mp bound
    exact ⟨other, isLive_and_globalOf_iff.mpr before, isLive_and_globalOf_iff.mpr bound⟩
  case zero_iff =>
    have answered := indexed.localOf_ne_zero_iff (g := h)
    simp only [isLive_and_globalOf_iff, nonzero, ne_eq, not_false_eq_true, true_and,
      sharers] at answered ⊢
    rw [← answered, not_not]

end Rewrite

end SharedNames.NameTable
