import SharedNames.Proofs.Registry.Run

/-!
What follows from an operation, moment by moment.

`Unfolds` carries out tasks like a cascade, but every task may come with a policy of its
own, and the moments on the way are kept: which task was carried out, in which registry
and before which other tasks, and what it did.

* `Unfolds.of_cascade`: a cascade under a single policy unfolds.
* `Unfolds.length_le`: every moment makes the measure smaller, so it bounds their number.
* `Unfolds.next`: what a moment leads to is carried out right after it, before the rest.
* `Settles` is an unfolding up to the end, of which only the events are kept. An operation
  that is carried out to its end settles what follows from it (`settles_of_perform`).
* `Run.unfold`: what follows from an operation makes a run longer; `Run.at_moment` stops
  the run at one of the moments.
-/

namespace SharedNames.Registry

structure Moment where
  registry : Registry
  task : Task
  rest : List Task
  step : Step

/-- `Unfolds r tasks moments after left`: carrying out tasks, each under any policy, leads
from one registry to another one by these moments, and `left` is what remains to be done. -/
inductive Unfolds : Registry → List Task → List Moment → Registry → List Task → Prop where
  | rest {r : Registry} {tasks : List Task} : Unfolds r tasks [] r tasks
  | step {r after : Registry} {task : Task} {rest left : List Task} {policy : Policy}
      {step : Step} {moments : List Moment} :
      r.step policy rest task = some step →
      Unfolds step.registry (step.tasks ++ rest) moments after left →
      Unfolds r (task :: rest) (⟨r, task, rest, step⟩ :: moments) after left

def happened (moments : List Moment) : Journal :=
  moments.flatMap fun moment => moment.step.journal

namespace Unfolds

variable {r after : Registry} {tasks left : List Task} {moments : List Moment}

/-- A cascade is a list of moments, all under one policy. So what holds of all such lists
holds of `settle`. -/
theorem of_cascade {policy : Policy} {journal : Journal}
    (cascade : Cascade policy r tasks journal after left) :
    ∃ moments, Unfolds r tasks moments after left ∧ happened moments = journal := by
  induction cascade with
  | rest => exact ⟨[], .rest, rfl⟩
  | step stepped _ ih =>
      obtain ⟨moments, unfolds, rfl⟩ := ih
      exact ⟨_, .step stepped unfolds, rfl⟩

/-- There are no more moments than the measure allows for, whichever policies are chosen on
the way. -/
theorem length_le (unfolds : Unfolds r tasks moments after left) :
    moments.length + measure after left ≤ measure r tasks := by
  induction unfolds with
  | rest => simp
  | step stepped _ ih =>
      obtain ⟨gained, effect⟩ := effect_of_step stepped
      have smaller := effect.measure_lt
      rw [List.length_cons]
      omega

theorem find?_eq (unfolds : Unfolds r tasks moments after left) (target : GroupRef) :
    after.find? target = r.find? target := by
  induction unfolds with
  | rest => rfl
  | step stepped _ ih =>
      obtain ⟨gained, effect⟩ := effect_of_step stepped
      rw [ih, effect.find?_eq]

/-- The tasks are carried out from the first one on: what comes first is a moment, or is
left. -/
theorem head (unfolds : Unfolds r tasks moments after left) :
    (moments.map Moment.task ++ left)[0]? = tasks[0]? := by
  cases unfolds <;> rfl

/-- After a moment comes the first of the tasks that it led to and that remained. With `head`
this tells the task of each moment from the one before it. -/
theorem next (unfolds : Unfolds r tasks moments after left) {i : Nat} {moment : Moment}
    (here : moments[i]? = some moment) :
    (moments.map Moment.task ++ left)[i + 1]? = (moment.step.tasks ++ moment.rest)[0]? := by
  induction unfolds generalizing i with
  | rest => cases here
  | step stepped continued ih =>
      cases i with
      | zero =>
          cases here
          exact continued.head
      | succ i => exact ih here

end Unfolds

/-! ### Up to the end -/

/-- `Settles r tasks journal after`: all tasks are carried out, each under any policy, and
`journal` is what happens. -/
def Settles (r : Registry) (tasks : List Task) (journal : Journal) (after : Registry) : Prop :=
  ∃ moments, Unfolds r tasks moments after [] ∧ journal = happened moments

section Settles

variable {r after : Registry} {task : Task} {rest : List Task} {journal : Journal}

theorem settles_nil_iff : Settles r [] journal after ↔ journal = [] ∧ after = r := by
  constructor
  · rintro ⟨moments, unfolds, rfl⟩
    cases unfolds
    exact ⟨rfl, rfl⟩
  · rintro ⟨rfl, rfl⟩
    exact ⟨[], .rest, rfl⟩

/-- The first task is carried out, and then what it leads to before the others. Each step has
a policy of its own, so a rule that changes its mind in the middle is covered. -/
theorem settles_cons_iff :
    Settles r (task :: rest) journal after ↔
      ∃ policy step following, r.step policy rest task = some step ∧
        journal = step.journal ++ following ∧
        Settles step.registry (step.tasks ++ rest) following after := by
  constructor
  · rintro ⟨moments, unfolds, rfl⟩
    cases unfolds with
    | @step _ _ _ _ _ policy step moments stepped continued =>
        exact ⟨policy, step, happened moments, stepped, rfl, moments, continued, rfl⟩
  · rintro ⟨policy, step, following, stepped, rfl, moments, continued, rfl⟩
    exact ⟨_, .step stepped continued, rfl⟩

/-- Carrying out an operation to its end settles what follows from it. -/
theorem settles_of_perform {policy : Policy} {operation : Operation}
    (finished : (r.perform policy operation).residual = []) :
    ∃ following, Settles (r.change operation).registry (r.change operation).tasks following
        (r.perform policy operation).registry ∧
      (r.perform policy operation).journal = (r.change operation).journal ++ following := by
  have settles := (settle_ends policy (r.change operation).registry (r.change operation).tasks).1
  obtain ⟨moments, unfolds, events⟩ := Unfolds.of_cascade settles
  rw [show (settle policy _ _).residual = [] from finished] at unfolds
  exact ⟨_, ⟨moments, unfolds, events.symm⟩, rfl⟩

end Settles

namespace Run

variable {settings : Settings} {operations : List Operation} {log : Journal} {r after : Registry}
  {tasks left : List Task} {moments : List Moment}

theorem unfold (run : Run settings operations log r tasks)
    (unfolds : Unfolds r tasks moments after left) :
    Run settings operations (log ++ happened moments) after left := by
  induction unfolds generalizing log with
  | rest => simpa [happened] using run
  | step stepped _ ih =>
      have longer := ih (run.step stepped)
      rw [List.append_assoc] at longer
      exact longer

/-- Every moment is one of the run, and its task is carried out there. All that is known of
runs can be used at it. -/
theorem at_moment (run : Run settings operations log r tasks)
    (unfolds : Unfolds r tasks moments after left) {moment : Moment} (mem : moment ∈ moments) :
    (∃ log', Run settings operations log' moment.registry (moment.task :: moment.rest)) ∧
      ∃ policy, moment.registry.step policy moment.rest moment.task = some moment.step := by
  induction unfolds generalizing log with
  | rest => cases mem
  | @step _ _ _ _ _ policy _ _ stepped _ ih =>
      rcases List.mem_cons.mp mem with rfl | later
      · exact ⟨⟨log, run⟩, policy, stepped⟩
      · exact ih (run.step stepped) later

end Run

end SharedNames.Registry
