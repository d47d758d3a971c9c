import Mathlib.Algebra.Group.Nat.Defs
import SharedNames.Name

/-!
The search for an unused name as a loop without a bound.

`firstFree` examines a given number of candidates. The search that a table makes is a
loop that goes on until it accepts a candidate, and its bound of one round is a fact
about the names, not a part of it. A `Probe` is a run of that loop to its end.

* `firstFree_eq_some_iff_probe`: a bounded search answers what the loop accepts within
  the bound.
* `Probe.examined_le` and `nextFree_eq_some_iff_probe`: a loop that accepts anything
  does so within one round, so going round once loses nothing.
* `not_probe`: without a free name the loop accepts nothing, however long it runs.
-/

namespace SharedNames

variable {used : Name → Bool} {start n left : Name} {examined : Nat}

/-- `Probe used start examined n left`: a loop whose counter stands at `start` examines
so many candidates, accepts `n`, and leaves its counter at `left`. -/
inductive Probe (used : Name → Bool) : Name → Nat → Name → Name → Prop where
  | accept {start : Name} : IsFree used start → Probe used start 1 start (start + 1)
  | skip {start n left : Name} {examined : Nat} : ¬ IsFree used start →
      Probe used (start + 1) examined n left → Probe used start (examined + 1) n left

/-- The candidate that is accepted is the free one at the least distance, and the counter is
left behind it. No bound is assumed: the candidates may go round any number of times. -/
theorem probe_iff :
    Probe used start examined n left ↔
      ∃ k, examined = k + 1 ∧ n = after start k ∧ left = n + 1 ∧ IsFree used n ∧
        ∀ j < k, ¬ IsFree used (after start j) := by
  constructor
  · intro probe
    induction probe with
    | accept free => exact ⟨0, rfl, by simp, rfl, free, by omega⟩
    | skip passed _ ih =>
        obtain ⟨k, rfl, rfl, rfl, free, least⟩ := ih
        refine ⟨k + 1, rfl, (after_succ ..).symm, rfl, free, fun j hj => ?_⟩
        cases j with
        | zero => simpa using passed
        | succ j =>
            rw [after_succ]
            exact least j (by omega)
  · rintro ⟨k, rfl, rfl, rfl, free, least⟩
    induction k generalizing start with
    | zero =>
        rw [after_zero] at free ⊢
        exact .accept free
    | succ k ih =>
        have passed : ¬ IsFree used start := by simpa using least 0 (by omega)
        rw [after_succ] at free ⊢
        refine .skip passed (ih free fun j hj => ?_)
        rw [← after_succ]
        exact least (j + 1) (by omega)

/-- A bounded search answers what the loop accepts within the bound. -/
theorem firstFree_eq_some_iff_probe {span : Nat} :
    firstFree used span start = some n ↔
      ∃ examined ≤ span, Probe used start examined n (n + 1) := by
  rw [firstFree_eq_some_iff]
  constructor
  · rintro ⟨k, lt, atK, free, least⟩
    exact ⟨k + 1, lt, probe_iff.mpr ⟨k, rfl, atK, rfl, free, least⟩⟩
  · rintro ⟨_, le, probe⟩
    obtain ⟨k, rfl, atK, -, free, least⟩ := probe_iff.mp probe
    exact ⟨k, le, atK, free, least⟩

/-- Behind a full round the candidates repeat, so the first free one lies before. This is
where the bound of one round comes from: it is proved of the loop. -/
theorem Probe.examined_le (probe : Probe used start examined n left) : examined ≤ 2 ^ 32 := by
  obtain ⟨k, rfl, -, -, free, least⟩ := probe_iff.mp probe
  obtain ⟨j, lt, atJ⟩ := exists_eq_after start n
  have notBefore : ¬ j < k := by
    intro before
    rw [atJ] at free
    exact least j before free
  omega

/-- Going round once answers what the loop without a bound accepts, if it accepts anything. -/
theorem nextFree_eq_some_iff_probe :
    nextFree used start = some n ↔ ∃ examined left, Probe used start examined n left := by
  rw [nextFree, firstFree_eq_some_iff_probe]
  constructor
  · rintro ⟨examined, -, probe⟩
    exact ⟨examined, n + 1, probe⟩
  · rintro ⟨examined, left, probe⟩
    have within := probe.examined_le
    obtain ⟨k, -, -, rfl, -, -⟩ := probe_iff.mp probe
    exact ⟨examined, within, probe⟩

def Accepts (used : Name → Bool) (start : Name) : Prop :=
  ∃ examined ≤ 2 ^ 32, ∃ n left, Probe used start examined n left

theorem accepts_iff_isSome : Accepts used start ↔ (nextFree used start).isSome := by
  rw [Option.isSome_iff_exists]
  constructor
  · rintro ⟨examined, -, n, left, probe⟩
    exact ⟨n, nextFree_eq_some_iff_probe.mpr ⟨examined, left, probe⟩⟩
  · rintro ⟨n, found⟩
    obtain ⟨examined, left, probe⟩ := nextFree_eq_some_iff_probe.mp found
    exact ⟨examined, probe.examined_le, n, left, probe⟩

/-- The loop accepts a candidate exactly when some name is free, wherever it starts. -/
theorem accepts_iff : Accepts used start ↔ ∃ n, IsFree used n := by
  rw [accepts_iff_isSome, nextFree_isSome_iff]

/-- Without a free name the loop accepts nothing, however long it runs. This is about the loop
itself, and not about a search that gives up. -/
theorem not_probe (noneFree : ∀ n, ¬ IsFree used n) : ¬ Probe used start examined n left := by
  intro probe
  obtain ⟨_, -, -, -, free, -⟩ := probe_iff.mp probe
  exact noneFree n free

end SharedNames
