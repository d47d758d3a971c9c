import Mathlib.Data.List.Induction
import SharedNames.NameTable.Lemmas

/-!
Runs of a name table.

A `Run` carries out calls one after the other and keeps a history of them. Every call
may come with a successor rule of its own, so a statement about all runs holds
whichever sharer takes over a global name each time. A call that has no answer is not
part of any run.

* `effect_of_call` lists all that a call can do, with the conditions under which it
  does it. Proofs about calls go by these cases.
* `Run.keeps` carries what every call preserves to the end of a run.
* `Run.split` cuts a run where its history is cut.
* `Run.of_callAll`: carrying out calls under a single rule is a run.
-/

namespace SharedNames

theorem getElem?_snoc_iff {α : Type} {l : List α} {a b : α} {i : Nat} :
    (l ++ [a])[i]? = some b ↔ l[i]? = some b ∨ (i = l.length ∧ b = a) := by
  rcases Nat.lt_trichotomy i l.length with before | rfl | beyond
  · simp [List.getElem?_append_left before, Nat.ne_of_lt before]
  · simp [eq_comm]
  · have outside : (l ++ [a]).length ≤ i := by
      rw [List.length_append, List.length_singleton]
      exact beyond
    simp [List.getElem?_eq_none (Nat.le_of_lt beyond), List.getElem?_eq_none outside,
      Nat.ne_of_gt beyond]

namespace NameTable

variable {rule : SuccessorRule} {t u v : NameTable}

/-! ### What a call does -/

/-- All that a call can do to a table: its event, and the table it leaves. -/
inductive Effect (rule : SuccessorRule) (t : NameTable) : Call → Option Event → NameTable → Prop where
  | kept {l : Name} {withGlobal : Bool} : l ≠ 0 → t.isLive l = true →
      Effect rule t (.generate l withGlobal) (some (.kept l)) t
  | made {requested l g : Name} {withGlobal : Bool} :
      requested = 0 ∨ t.isLive requested = false →
      t.newLocal requested = some l → t.newGlobal withGlobal = some g →
      Effect rule t (.generate requested withGlobal) (some (.made l g))
        { nextLocal := if requested = 0 then l + 1 else t.nextLocal
          nextGlobal := if withGlobal then g + 1 else t.nextGlobal
          globals := t.globals.insert l g
          latest := if g = 0 then t.latest else t.latest.insert g l }
  | absent {l : Name} : t.globals[l]? = none → Effect rule t (.delete l) none t
  | removed {l g : Name} : t.globals[l]? = some g →
      Effect rule t (.delete l) (some (.removed l g)) (t.delete rule l).1
  | turnedDown {l g : Name} : l = 0 ∨ g = 0 →
      Effect rule t (.rebind l g) (some (.turnedDown l g)) t
  | rebound {l g : Name} : l ≠ 0 → g ≠ 0 →
      Effect rule t (.rebind l g) (some (.rebound l g)) (t.rebind rule l g).1

/-- A name that an entry is made for was free before, requested or generated. -/
theorem isFree_of_newLocal {requested l : Name} (new : requested = 0 ∨ t.isLive requested = false)
    (h : t.newLocal requested = some l) : IsFree t.isLive l := by
  unfold newLocal at h
  split at h
  · exact isFree_of_nextFree h
  · rename_i nonzero
    cases h
    exact ⟨nonzero, new.resolve_left nonzero⟩

/-- A request that is answered was for a live name, or made an entry. -/
theorem effect_of_generate {requested : Name} {withGlobal : Bool} {event : Event}
    (h : t.generate requested withGlobal = some (u, event)) :
    Effect rule t (.generate requested withGlobal) (some event) u := by
  by_cases keeps : requested ≠ 0 ∧ t.isLive requested = true
  · rw [generate_of_isLive withGlobal keeps.1 keeps.2] at h
    cases h
    exact .kept keeps.1 keeps.2
  · rw [generate, if_neg keeps] at h
    split at h
    · rename_i l g hl hg
      cases h
      exact .made (not_kept_iff.mp keeps) hl hg
    · cases h

theorem effect_of_delete (l : Name) :
    Effect rule t (.delete l) (t.delete rule l).2 (t.delete rule l).1 := by
  cases entry : t.globals[l]? with
  | none =>
      rw [delete_of_not_isLive rule (isLive_eq_false_iff.mpr entry)]
      exact .absent entry
  | some g =>
      have event : (t.delete rule l).2 = some (.removed l g) := by simp [delete, entry]
      rw [event]
      exact .removed entry

theorem effect_of_rebind (l g : Name) :
    Effect rule t (.rebind l g) (some (t.rebind rule l g).2) (t.rebind rule l g).1 := by
  by_cases reserved : l = 0 ∨ g = 0
  · rw [rebind_of_reserved rule t reserved]
    exact .turnedDown reserved
  · have event : (t.rebind rule l g).2 = .rebound l g := by simp [rebind, reserved]
    rw [event]
    exact .rebound (fun zero => reserved (.inl zero)) (fun zero => reserved (.inr zero))

/-- Every call that is answered has one of the effects. From here on nothing about a call is
proved from its definition, but from the list of what it can do. -/
theorem effect_of_call {c : Call} {event : Option Event}
    (h : t.call rule c = some (u, event)) : Effect rule t c event u := by
  cases c with
  | generate requested withGlobal =>
      obtain ⟨⟨u', made⟩, generated, eq⟩ := Option.map_eq_some_iff.mp h
      cases eq
      exact effect_of_generate generated
  | delete l =>
      obtain ⟨rfl, rfl⟩ := Prod.mk.inj (Option.some.inj h)
      exact effect_of_delete l
  | rebind l g =>
      cases h
      exact effect_of_rebind l g

/-! ### Runs -/

/-- The sharer at a position takes over, whatever the sharers are. -/
def SuccessorRule.nth (position : Nat) : SuccessorRule :=
  fun _ => position

structure Turn where
  call : Call
  event : Option Event
  deriving DecidableEq, Repr

/-- The entry that a call made or changed: a local name and its new global name. -/
def Turn.entry? (turn : Turn) : Option (Name × Name) :=
  match turn.event with
  | some (.made l g) | some (.rebound l g) => some (l, g)
  | _ => none

/-- `Run t log u`: calls lead from `t` to `u`, and `log` is their history. -/
inductive Run (t : NameTable) : List Turn → NameTable → Prop where
  | start : Run t [] t
  | step {log : List Turn} {u v : NameTable} {rule : SuccessorRule} {c : Call}
      {event : Option Event} :
      Run t log u → u.call rule c = some (v, event) → Run t (log ++ [⟨c, event⟩]) v

namespace Run

variable {log : List Turn}

/-- What every call preserves holds at the end of a run if it holds at its start. The rule may
differ from call to call, so such a property holds whichever sharers take over. -/
theorem keeps {P : NameTable → Prop}
    (step : ∀ {t u : NameTable} {rule : SuccessorRule} {c : Call} {event : Option Event},
      P t → Effect rule t c event u → P u)
    (run : Run t log u) (holds : P t) : P u := by
  induction run with
  | start => exact holds
  | step _ called ih => exact step ih (effect_of_call called)

theorem trans {log' : List Turn} (first : Run t log u) (second : Run u log' v) :
    Run t (log ++ log') v := by
  induction second with
  | start => simpa using first
  | step _ called ih =>
      rw [← List.append_assoc]
      exact .step ih called

theorem cons (rule : SuccessorRule) {c : Call} {event : Option Event}
    (called : t.call rule c = some (u, event)) (rest : Run u log v) :
    Run t (⟨c, event⟩ :: log) v :=
  trans (.step .start called) rest

theorem last {turn : Turn} (run : Run t (log ++ [turn]) v) :
    ∃ u rule, Run t log u ∧ u.call rule turn.call = some (v, turn.event) := by
  generalize eq : log ++ [turn] = whole at run
  cases run with
  | start => simp at eq
  | @step log' u _ rule c event run called =>
      obtain ⟨rfl, same⟩ := List.append_inj' eq rfl
      cases same
      exact ⟨u, rule, run, called⟩

/-- A run can be cut at every point of its history. The second part is again a run, from the
table that the first one left. -/
theorem split {log' : List Turn} (run : Run t (log ++ log') v) :
    ∃ u, Run t log u ∧ Run u log' v := by
  induction log' using List.reverseRecOn generalizing v with
  | nil => exact ⟨v, by simpa using run, .start⟩
  | append_singleton log' turn ih =>
      rw [← List.append_assoc] at run
      obtain ⟨w, rule, before, called⟩ := run.last
      obtain ⟨u, first, second⟩ := ih before
      exact ⟨u, first, .step second called⟩

/-- Calls that are carried out under one rule make a run, so what is proved of runs holds of
every such execution. -/
theorem of_callAll {calls : List Call} {events : List Event}
    (h : t.callAll rule calls = some (u, events)) :
    ∃ log, Run t log u ∧ log.map Turn.call = calls ∧ log.filterMap Turn.event = events := by
  induction calls generalizing t events with
  | nil =>
      cases h
      exact ⟨[], .start, rfl, rfl⟩
  | cons c calls ih =>
      obtain ⟨⟨w, event⟩, called, rest⟩ := Option.bind_eq_some_iff.mp h
      obtain ⟨⟨u', events'⟩, carriedOut, eq⟩ := Option.bind_eq_some_iff.mp rest
      cases eq
      obtain ⟨log, run, hcalls, hevents⟩ := ih carriedOut
      refine ⟨⟨c, event⟩ :: log, .cons rule called run, by simp [hcalls], ?_⟩
      cases event <;> simp [hevents]

end Run

end NameTable

end SharedNames
