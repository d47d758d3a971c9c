import SharedNames.Proofs.Registry.Opening
import SharedNames.Proofs.Registry.Settling

/-!
Runs of a registry.

A `Run` carries out operations one after the other, from the registry without contexts
on. It goes task by task, so it stands at any moment, also in the middle of what follows
from an operation; between two operations no task is left. Every task may come with a
policy of its own: a statement about all runs holds whichever sharers take over, and in
whatever order destroyed groups release their payloads.

* `Run.invariant`: what every operation and every task preserves holds at each moment.
* `Run.accounted` and `Run.books`: at each moment what is there has shares, and what was
  made is there or was destroyed once.
* `Run.perform` and `Run.performAll`: carrying out operations under one policy is a run.
* `Run.step_destroyed_iff` and `Run.perform_destroyed_iff`: a task and an operation destroy
  what they leave without a share.
-/

namespace SharedNames.Registry

/-- `Run settings operations log r tasks`: the operations led to the registry `r`, where
`tasks` remain to be done, and `log` is what happened. The next operation waits until no task
is left, while each step may choose anew how to hand names over and in which order to
release. -/
inductive Run (settings : Settings) :
    List Operation → Journal → Registry → List Task → Prop where
  | start : Run settings [] [] (empty settings) []
  | operate {operations : List Operation} {log : Journal} {r : Registry} (operation : Operation) :
      Run settings operations log r [] →
      Run settings (operations ++ [operation]) (log ++ (r.change operation).journal)
        (r.change operation).registry (r.change operation).tasks
  | step {operations : List Operation} {log : Journal} {r : Registry} {task : Task}
      {rest : List Task} {policy : Policy} {step : Step} :
      Run settings operations log r (task :: rest) → r.step policy rest task = some step →
      Run settings operations (log ++ step.journal) step.registry (step.tasks ++ rest)

/-- `Later first pending operations log r tasks`: a run that stands at `first` with the
tasks `pending` goes on with the operations to `r` with `tasks`, and `log` is what happens
on the way. -/
inductive Later (first : Registry) (pending : List Task) :
    List Operation → Journal → Registry → List Task → Prop where
  | here : Later first pending [] [] first pending
  | operate {operations : List Operation} {log : Journal} {r : Registry} (operation : Operation) :
      Later first pending operations log r [] →
      Later first pending (operations ++ [operation]) (log ++ (r.change operation).journal)
        (r.change operation).registry (r.change operation).tasks
  | step {operations : List Operation} {log : Journal} {r : Registry} {task : Task}
      {rest : List Task} {policy : Policy} {step : Step} :
      Later first pending operations log r (task :: rest) →
      r.step policy rest task = some step →
      Later first pending operations (log ++ step.journal) step.registry (step.tasks ++ rest)

theorem accounted_empty (settings : Settings) : Accounted (empty settings) [] where
  has_iff h := by
    cases h <;> simp [has, empty, shares, handles]
  made_of_has h there := by
    cases h <;> simp [has, empty] at there

theorem books_empty (settings : Settings) : Books [] (empty settings) where
  made_iff h := by
    cases h <;> simp [Journal.made, Made, empty]
  made_nodup := List.nodup_nil
  destroyed_iff h := by
    cases h <;> simp [Journal.destroyed, Made, empty]
  destroyed_nodup := List.nodup_nil

/-- A complete cascade of what an operation leads to at first is all that follows from it. -/
theorem perform_eq_of_cascade {policy : Policy} {r after : Registry} {operation : Operation}
    {journal : Journal} {left : List Task}
    (cascade : Cascade policy (r.change operation).registry (r.change operation).tasks journal
      after left)
    (halted : Halted policy after left) :
    r.perform policy operation =
      ⟨(r.change operation).reply, after, (r.change operation).journal ++ journal, left⟩ := by
  rw [perform, settle_eq_of_cascade cascade halted]

namespace Run

variable {settings : Settings} {operations : List Operation} {log journal : Journal}
  {r after : Registry} {tasks left : List Task} {policy : Policy}

/-- The invariant of ownership holds at every moment, also within an operation. -/
theorem accounted (run : Run settings operations log r tasks) : Accounted r tasks := by
  induction run with
  | start => exact accounted_empty settings
  | @operate _ _ r operation _ ih =>
      obtain ⟨gained, opening⟩ := opening_of_change r operation
      exact (opening.transfer ih).accounted ih
  | step _ stepped ih =>
      obtain ⟨gained, effect⟩ := effect_of_step stepped
      exact (effect.transfer ih).accounted ih

/-- What every operation and every task preserves holds at each moment of a run. Both may use
that the registry is accounted for. This is the one induction over runs: what follows gives
only its two steps. -/
theorem invariant {P : Journal → Registry → List Task → Prop} (start : P [] (empty settings) [])
    (opened : ∀ {log r operation gained change}, P log r [] → Accounted r [] →
      Opening r operation gained change → P (log ++ change.journal) change.registry change.tasks)
    (stepped : ∀ {log r task rest policy gained step}, P log r (task :: rest) →
      Accounted r (task :: rest) → Effect policy rest r task gained step →
      P (log ++ step.journal) step.registry (step.tasks ++ rest))
    (run : Run settings operations log r tasks) : P log r tasks := by
  induction run with
  | start => exact start
  | @operate _ _ r operation run ih =>
      obtain ⟨gained, opening⟩ := opening_of_change r operation
      exact opened ih run.accounted opening
  | step run taken ih =>
      obtain ⟨gained, effect⟩ := effect_of_step taken
      exact stepped ih run.accounted effect

theorem settings_eq (run : Run settings operations log r tasks) : r.settings = settings :=
  run.invariant (P := fun _ r _ => r.settings = settings) rfl
    (fun same _ opening => opening.settings_eq.trans same)
    (fun same _ effect => effect.makes_no_group.1.trans same)

/-- The journal of a run and the registry agree about what was made and what is there. -/
theorem books (run : Run settings operations log r tasks) : Books log r :=
  run.invariant (P := fun log r _ => Books log r) (books_empty settings)
    (fun books accounted opening => (opening.transfer accounted).books accounted books)
    (fun books accounted effect => (effect.transfer accounted).books accounted books)

/-- The next task destroys what it leaves without a share, and nothing else. So nothing stays
behind, and nothing goes too early. -/
theorem step_destroyed_iff {policy : Policy} {task : Task} {rest : List Task} {step : Step}
    (run : Run settings operations log r (task :: rest))
    (stepped : r.step policy rest task = some step) {h : Handle} (there : r.has h) :
    h ∈ step.journal.destroyed ↔ step.registry.sharesWith (step.tasks ++ rest) h = 0 := by
  obtain ⟨gained, effect⟩ := effect_of_step stepped
  have transfer := effect.transfer run.accounted
  have old : h ∉ step.journal.made := fun new =>
    transfer.made_new h new (run.accounted.made_of_has h there)
  have shared := (run.accounted.has_iff h).mp there
  have after := transfer.shares_pos_iff h
  simp only [shared, true_and, old, or_false] at after
  rw [← Decidable.not_iff_not, ← after]
  omega

/-! ### Carrying out operations -/

/-- A run goes on with what its tasks lead to. -/
theorem cascade (run : Run settings operations log r tasks)
    (cascade : Cascade policy r tasks journal after left) :
    Run settings operations (log ++ journal) after left := by
  induction cascade generalizing log with
  | rest => simpa using run
  | step stepped _ ih =>
      rw [← List.append_assoc]
      exact ih (run.step stepped)

/-- Carrying out an operation with all that follows from it makes the run longer. -/
theorem perform (run : Run settings operations log r []) (policy : Policy) (operation : Operation) :
    Run settings (operations ++ [operation]) (log ++ (r.perform policy operation).journal)
      (r.perform policy operation).registry (r.perform policy operation).residual := by
  have settles := (settle_ends policy (r.change operation).registry (r.change operation).tasks).1
  have longer := (run.operate operation).cascade settles
  rw [List.append_assoc] at longer
  exact longer

/-- An operation destroys what it leaves without a share, counting also what remains to be
done after it if it cannot be completed. -/
theorem perform_destroyed_iff
    (run : Run settings operations log r []) (policy : Policy) (operation : Operation) {h : Handle}
    (shared : 0 < r.shares h) :
    h ∈ (r.perform policy operation).journal.destroyed ↔
      (r.perform policy operation).registry.sharesWith
        (r.perform policy operation).residual h = 0 := by
  have there : r.has h := (run.accounted.has_iff h).mpr shared
  have made := run.accounted.made_of_has h there
  have longer := run.perform policy operation
  have before : h ∉ log.destroyed := fun mem => ((run.books.destroyed_iff h).mp mem).2 there
  have madeAfter : (r.perform policy operation).registry.Made h := by
    rw [← longer.books.made_iff, Journal.made_append]
    exact List.mem_append_left _ ((run.books.made_iff h).mpr made)
  have after := longer.books.destroyed_iff h
  rw [Journal.destroyed_append, List.mem_append, longer.accounted.has_iff] at after
  simp only [before, false_or, madeAfter, true_and] at after
  rw [after]
  omega

theorem performAll (run : Run settings operations log r []) (policy : Policy)
    (more : List Operation) (finished : (r.performAll policy more).residual = []) :
    Run settings (operations ++ more) (log ++ (r.performAll policy more).journal)
      (r.performAll policy more).registry [] := by
  induction more generalizing operations log r with
  | nil => simpa [Registry.performAll] using run
  | cons operation more ih =>
      have longer := run.perform policy operation
      rw [Registry.performAll] at finished ⊢
      split at finished
      · rename_i settled
        rw [settled] at longer
        rw [if_pos settled]
        have all := ih longer finished
        simpa [Settled.after] using all
      · rename_i stuck
        exact absurd finished stuck

end Run

end SharedNames.Registry
