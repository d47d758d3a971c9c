/-!
Object names, and the search for an unused one.

A name is a 32-bit word. The name `0` is reserved: it stands for "no object",
is never handed out, and look-ups answer it on a miss. An unused name is searched
upwards from a counter, going round after the largest word.

Main statements: `firstFree_eq_some_iff` (the answer is the acceptable candidate
at the least distance) and `nextFree_isSome_iff` (going round once finds a name
exactly when there is one).
-/

namespace SharedNames

/-- A name of an object, as a client sees it (local) or as the shared execution
environment knows it (global). -/
abbrev Name := UInt32

/-! ### Candidates -/

/-- A candidate is free when it is not the reserved name and is not in use. -/
def IsFree (used : Name → Bool) (n : Name) : Prop :=
  n ≠ 0 ∧ used n = false

instance (used : Name → Bool) (n : Name) : Decidable (IsFree used n) :=
  inferInstanceAs (Decidable (_ ∧ _))

/-- The name `k` places after `start`, going round after the largest word. -/
def after (start : Name) (k : Nat) : Name :=
  start + UInt32.ofNat k

@[simp] theorem after_zero (start : Name) : after start 0 = start := by
  simp [after]

theorem after_succ (start : Name) (k : Nat) : after start (k + 1) = after (start + 1) k := by
  simp [after, UInt32.ofNat_add, UInt32.add_assoc, UInt32.add_comm 1]

/-- Candidates in numeral form. Every argument about going round ends here: the sum wraps, and
the difference of two candidates is that of their places up to whole rounds. -/
theorem toNat_after (start : Name) (k : Nat) :
    (after start k).toNat = (start.toNat + k) % 4294967296 := by
  simp [after]

/-- Every name lies less than a full round after every other one. So a search of one round
meets all names, and the bound of `nextFree` cuts nothing off. -/
theorem exists_eq_after (start n : Name) : ∃ k < 4294967296, n = after start k := by
  refine ⟨(n - start).toNat, UInt32.toNat_lt _, ?_⟩
  rw [after, UInt32.ofNat_toNat, UInt32.add_comm, UInt32.sub_add_cancel]

/-! ### The search -/

def firstFree (used : Name → Bool) : (span : Nat) → (start : Name) → Option Name
  | 0, _ => none
  | span + 1, start =>
    if IsFree used start then some start else firstFree used span (start + 1)

/-- The first free name from `start` on, going round once. -/
def nextFree (used : Name → Bool) (start : Name) : Option Name :=
  firstFree used 4294967296 start

/-- The answer is the free candidate at the least distance from the start. The reserved name
is among the candidates but is never free, so a search that goes round steps over it. -/
theorem firstFree_eq_some_iff {used : Name → Bool} {span : Nat} {start n : Name} :
    firstFree used span start = some n ↔
      ∃ k < span, n = after start k ∧ IsFree used n ∧
        ∀ j < k, ¬ IsFree used (after start j) := by
  induction span generalizing start with
  | zero => simp [firstFree]
  | succ span ih =>
    by_cases free : IsFree used start
    · simp only [firstFree, free, if_true, Option.some.injEq]
      constructor
      · rintro rfl
        exact ⟨0, by omega, by simp, free, by omega⟩
      · rintro ⟨k, -, rfl, -, least⟩
        cases k with
        | zero => simp
        | succ k => exact absurd (by simpa using free) (least 0 (by omega))
    · simp only [firstFree, free, if_false, ih]
      constructor
      · rintro ⟨k, lt, rfl, isFree, least⟩
        refine ⟨k + 1, by omega, (after_succ ..).symm, isFree, fun j hj => ?_⟩
        cases j with
        | zero => simpa using free
        | succ j => rw [after_succ]; exact least j (by omega)
      · rintro ⟨k, lt, rfl, isFree, least⟩
        cases k with
        | zero => exact absurd (by simpa using isFree) free
        | succ k =>
          refine ⟨k, by omega, after_succ .., isFree, fun j hj => ?_⟩
          rw [← after_succ]
          exact least (j + 1) (by omega)

/-- A search answers exactly when one of its candidates is free. This says nothing of which
one: `firstFree_eq_some_iff` does. -/
theorem firstFree_isSome_iff {used : Name → Bool} {span : Nat} {start : Name} :
    (firstFree used span start).isSome ↔ ∃ k < span, IsFree used (after start k) := by
  induction span generalizing start with
  | zero => simp [firstFree]
  | succ span ih =>
    by_cases free : IsFree used start
    · simp only [firstFree, free, if_true, Option.isSome_some, true_iff]
      exact ⟨0, by omega, by simpa using free⟩
    · simp only [firstFree, free, if_false, ih]
      constructor
      · rintro ⟨k, lt, isFree⟩
        exact ⟨k + 1, by omega, by rwa [after_succ]⟩
      · rintro ⟨k, lt, isFree⟩
        cases k with
        | zero => exact absurd (by simpa using isFree) free
        | succ k => exact ⟨k, by omega, by rwa [← after_succ]⟩

/-- Going round once finds a free name exactly when there is one, wherever the search starts. -/
theorem nextFree_isSome_iff {used : Name → Bool} {start : Name} :
    (nextFree used start).isSome ↔ ∃ n, IsFree used n := by
  rw [nextFree, firstFree_isSome_iff]
  constructor
  · rintro ⟨k, -, isFree⟩
    exact ⟨_, isFree⟩
  · rintro ⟨n, isFree⟩
    obtain ⟨k, lt, rfl⟩ := exists_eq_after start n
    exact ⟨k, lt, isFree⟩

theorem isFree_of_nextFree {used : Name → Bool} {start n : Name}
    (h : nextFree used start = some n) : IsFree used n := by
  obtain ⟨_, _, _, isFree, _⟩ := firstFree_eq_some_iff.1 h
  exact isFree

end SharedNames
