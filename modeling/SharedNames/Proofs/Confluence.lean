import Mathlib.Algebra.Group.Defs
import Mathlib.Algebra.Group.Basic

/-!
Systems in which the order of steps does not matter.

A step leads from one state to another one and has an effect. `Steps` adds up effects
along a run. In a system with the `Diamond` property two different steps from one state
can each be made after the other, with the same effects; then all runs that went as far
as they can from one state end in one state, with one total effect
(`Diamond.unique_end`). Nothing has to be known about termination.
-/

namespace SharedNames

variable {σ M : Type} [AddCommMonoid M] {step : σ → M → σ → Prop} {s t u : σ} {m n : M}

/-- Steps one after the other, with the sum of their effects. -/
inductive Steps (step : σ → M → σ → Prop) : σ → M → σ → Prop where
  | done {s : σ} : Steps step s 0 s
  | next {s t u : σ} {m n : M} : step s m t → Steps step t n u → Steps step s (m + n) u

/-- Two different steps from one state can each be made after the other. -/
def Diamond (step : σ → M → σ → Prop) : Prop :=
  ∀ ⦃s t u m n⦄, step s m t → step s n u → (t = u ∧ m = n) ∨ ∃ v, step t n v ∧ step u m v

def Final (step : σ → M → σ → Prop) (s : σ) : Prop :=
  ∀ m t, ¬ step s m t

namespace Diamond

variable (diamond : Diamond step)

include diamond

/-- A run to a final state can begin with any step. The induction is on the run: its first
step and the given one are joined, and the rest of the run goes on from there with the given
one put in front. -/
theorem begin_with (run : Steps step s m t) (final : Final step t) (first : step s n u) :
    ∃ k, Steps step u k t ∧ m = n + k := by
  induction run generalizing n u with
  | done => exact absurd first (final _ _)
  | @next s w t m' k' made rest ih =>
      rcases diamond made first with ⟨rfl, rfl⟩ | ⟨v, here, there⟩
      · exact ⟨k', rest, rfl⟩
      · obtain ⟨k, run, rfl⟩ := ih final here
        exact ⟨m' + k, .next there run, add_left_comm m' n k⟩

/-- All runs from one state that end in a final state end in one state, with one effect. Each
step of the one is moved to the front of the other, so no measure of the states is needed. -/
theorem unique_end (first : Steps step s m t) (final : Final step t) (second : Steps step s n u)
    (final' : Final step u) : t = u ∧ m = n := by
  induction second generalizing m with
  | done =>
      cases first with
      | done => exact ⟨rfl, rfl⟩
      | next made _ => exact absurd made (final' _ _)
  | @next s v u n k made _ ih =>
      obtain ⟨k', rest, rfl⟩ := diamond.begin_with first final made
      obtain ⟨rfl, rfl⟩ := ih rest final'
      exact ⟨rfl, rfl⟩

end Diamond

end SharedNames
