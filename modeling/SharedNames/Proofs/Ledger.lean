import Mathlib.Data.FinEnum
import Mathlib.Data.Fintype.Card
import SharedNames.Name

/-!
The account of a counter that issues names.

A counter passes the names in cyclic order, and it passes a name only if it issues the
name or finds it in use. So every name that it has passed was in use at some time. To
come back to its start it has to pass all names; until then every name that it issues
is a new one, also if names went out of use in between or came into use without it.

A `Ledger` keeps this account. `Ledger.issue` is the step in which the counter moves,
and `length_of_all_names` the count that keeps it from coming round.
-/

namespace SharedNames

theorem after_after (start : Name) (j k : Nat) : after (after start j) k = after start (j + k) := by
  simp [after, UInt32.ofNat_add, UInt32.add_assoc]

/-- Within one round no name is passed twice. -/
theorem after_injective_within {start : Name} {j k : Nat} (hj : j < 2 ^ 32) (hk : k < 2 ^ 32)
    (same : after start j = after start k) : j = k := by
  have places := congrArg UInt32.toNat same
  rw [toNat_after, toNat_after] at places
  omega

/-- A list of all names but `0` has `2 ^ 32 - 1` members at least. Repetitions do no harm, so
it may list every name that was ever in use, each time that it was. -/
theorem length_of_all_names {names : List Name} (all : ∀ n, n ≠ 0 → n ∈ names) :
    2 ^ 32 ≤ names.length + 1 := by
  have covers : (Finset.univ : Finset Name) ⊆ (0 :: names).toFinset := by
    intro n _
    rw [List.mem_toFinset, List.mem_cons]
    by_cases zero : n = 0
    · exact .inl zero
    · exact .inr (all n zero)
  calc 2 ^ 32 = (Finset.univ : Finset Name).card := by
        rw [Finset.card_univ, ← FinEnum.card_eq_fintypeCard]
        rfl
    _ ≤ (0 :: names).toFinset.card := Finset.card_le_card covers
    _ ≤ names.length + 1 := List.toFinset_card_le _

/-! ### The account of one counter -/

/-- What a counter that started at `first` has done: it has examined so many candidates
and issued the names `issued`. The names in `taken` were in use at some time, if only
since they were issued. -/
structure Ledger (first : Name) (examined : Nat) (used : Name → Bool) (counter : Name)
    (issued taken : List Name) : Prop where
  counter_eq : counter = after first examined
  examined_le : examined ≤ 2 ^ 32
  passed : ∀ j < examined, after first j ≠ 0 → after first j ∈ taken
  used_taken : ∀ n, used n = true → n ∈ taken
  issued_passed : ∀ n ∈ issued, n ≠ 0 ∧ ∃ j < examined, n = after first j
  nodup : issued.Nodup

namespace Ledger

variable {first counter n : Name} {examined : Nat} {used used' : Name → Bool}
  {issued taken : List Name}

/-- A counter that has done nothing, in a table without names. -/
theorem opening (first : Name) (noneUsed : ∀ n, used n = false) :
    Ledger first 0 used first [] [] where
  counter_eq := by simp
  examined_le := by omega
  passed := by omega
  used_taken := by
    intro n inUse
    rw [noneUsed n] at inUse
    cases inUse
  issued_passed := by simp
  nodup := .nil

/-- Names go out of use. Those that the counter has passed stay in `taken`, which never
shrinks: this is why a deleted name is not issued again. -/
theorem drop (ledger : Ledger first examined used counter issued taken)
    (fewer : ∀ n, used' n = true → used n = true) :
    Ledger first examined used' counter issued taken :=
  { ledger with used_taken := fun n inUse => ledger.used_taken n (fewer n inUse) }

/-- A name comes into use without the counter, which may meet it later and step over it. -/
theorem note (ledger : Ledger first examined used counter issued taken)
    (noted : ∀ m, used' m = true → used m = true ∨ m = n) :
    Ledger first examined used' counter issued (taken ++ [n]) where
  counter_eq := ledger.counter_eq
  examined_le := ledger.examined_le
  passed := by
    intro j before nonzero
    exact List.mem_append_left _ (ledger.passed j before nonzero)
  used_taken := by
    intro m inUse
    rcases noted m inUse with earlier | rfl
    · exact List.mem_append_left _ (ledger.used_taken m earlier)
    · exact List.mem_append_right _ (List.mem_singleton_self m)
  issued_passed := ledger.issued_passed
  nodup := ledger.nodup

/-- A name that was never in use is left while fewer than all were. So the search of the
counter ends. -/
theorem exists_free (ledger : Ledger first examined used counter issued taken)
    (few : taken.length + 1 < 2 ^ 32) : ∃ n, IsFree used n := by
  by_contra noneFree
  have all : ∀ n, n ≠ 0 → n ∈ taken := by
    intro n nonzero
    refine ledger.used_taken n ?_
    by_contra unused
    exact noneFree ⟨n, nonzero, Bool.eq_false_iff.mpr unused⟩
  have := length_of_all_names all
  omega

/-- The counter issues the next free name. It cannot come round by that, as it would have
passed all names, and fewer were ever in use. So the new name lies behind all that were
passed, and is none of those issued before. -/
theorem issue (ledger : Ledger first examined used counter issued taken)
    (found : nextFree used counter = some n) (few : taken.length + 1 < 2 ^ 32)
    (noted : ∀ m, used' m = true → used m = true ∨ m = n) :
    ∃ examined', Ledger first examined' used' (n + 1) (issued ++ [n]) (taken ++ [n]) := by
  obtain ⟨k, -, atK, free, least⟩ := firstFree_eq_some_iff.mp found
  rw [ledger.counter_eq, after_after] at atK
  have between : ∀ j < k, after first (examined + j) ≠ 0 → after first (examined + j) ∈ taken := by
    intro j before nonzero
    refine ledger.used_taken _ ?_
    by_contra unused
    refine least j before ?_
    rw [ledger.counter_eq, after_after]
    exact ⟨nonzero, Bool.eq_false_iff.mpr unused⟩
  have passed : ∀ j < examined + k, after first j ≠ 0 → after first j ∈ taken := by
    intro j before nonzero
    by_cases earlier : j < examined
    · exact ledger.passed j earlier nonzero
    · obtain ⟨i, rfl⟩ := Nat.exists_eq_add_of_le (Nat.le_of_not_lt earlier)
      exact between i (by omega) nonzero
  have notRound : examined + k < 2 ^ 32 := by
    by_contra round
    have all : ∀ m, m ≠ 0 → m ∈ taken := by
      intro m nonzero
      obtain ⟨j, within, rfl⟩ := exists_eq_after first m
      exact passed j (by omega) nonzero
    have := length_of_all_names all
    omega
  refine ⟨examined + k + 1, ?_⟩
  constructor
  case counter_eq =>
    rw [atK, ← after_after first (examined + k) 1]
    rfl
  case examined_le => omega
  case passed =>
    intro j before nonzero
    by_cases same : j = examined + k
    · rw [same, ← atK]
      exact List.mem_append_right _ (List.mem_singleton_self n)
    · exact List.mem_append_left _ (passed j (by omega) nonzero)
  case used_taken => exact (ledger.note noted).used_taken
  case issued_passed =>
    intro m member
    rcases List.mem_append.mp member with earlier | new
    · obtain ⟨nonzero, j, before, atJ⟩ := ledger.issued_passed m earlier
      exact ⟨nonzero, j, by omega, atJ⟩
    · rw [List.mem_singleton] at new
      rw [new]
      exact ⟨free.1, examined + k, by omega, atK⟩
  case nodup =>
    rw [List.nodup_append]
    refine ⟨ledger.nodup, List.nodup_singleton n, ?_⟩
    rintro m member _ new rfl
    rw [List.mem_singleton] at new
    obtain ⟨-, j, before, atJ⟩ := ledger.issued_passed m member
    have same : after first j = after first (examined + k) := by rw [← atJ, new, atK]
    have := after_injective_within (by omega) notRound same
    omega

end Ledger

end SharedNames
