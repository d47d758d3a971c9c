import Mathlib.Algebra.Group.Nat.Defs
import SharedNames.Proofs.NameTable.Index

/-!
Generated names in closed form.

The counters of a table run through all words, and they skip `0`, which is no name. So a
counter goes round after `2 ^ 32` steps, but after `2 ^ 32 - 1` names. `cycleName first k` is
the `k`-th of them.

* `existsUnique_cycleName`: the first cycle comes by every name but `0`, and by none twice.
* `ComesTo`: where a counter stands when it is about to hand out a name of the cycle.
* `InCycle` bounds a table by the names that it handed out: the live ones are among them, on
  both sides. So the next name of the cycle is free, whatever was deleted, until the cycle is
  complete (`InCycle.generate`).
* `Run.inCycle`: so it is in every run that only generates and deletes names.
-/

namespace SharedNames

/-- The `k`-th name that a counter hands out which starts at `first`, if it passes `0` only. It
starts at `1` instead of `0`. -/
def cycleName (first : Name) (k : Nat) : Name :=
  .ofNat (((max first 1).toNat - 1 + k) % (2 ^ 32 - 1) + 1)

/-- A counter at `counter` is about to hand out `n`. It passes `0` before `1`. -/
def ComesTo (counter n : Name) : Prop :=
  n ≠ 0 ∧ (counter = n ∨ counter = 0 ∧ n = 1)

variable {first counter n : Name} {j k : Nat} {used : Name → Bool}

/-! ### The cycle -/

/-- The names of the cycle in numeral form: the first one and the place behind it, taken
modulo the number of names other than `0`. -/
theorem toNat_cycleName (first : Name) (k : Nat) :
    (cycleName first k).toNat = ((max first 1).toNat - 1 + k) % (2 ^ 32 - 1) + 1 := by
  have below := Nat.mod_lt ((max first 1).toNat - 1 + k) (show 0 < 2 ^ 32 - 1 by decide)
  exact UInt32.toNat_ofNat_of_lt' (Nat.add_lt_of_lt_sub below)

theorem ne_zero_iff_toNat : n ≠ 0 ↔ 0 < n.toNat := by
  rw [Nat.pos_iff_ne_zero, ne_eq, ne_eq, ← UInt32.toNat_inj]
  rfl

theorem cycleName_ne_zero (first : Name) (k : Nat) : cycleName first k ≠ 0 := by
  rw [ne_zero_iff_toNat, toNat_cycleName]
  exact Nat.succ_pos _

theorem max_one_pos (first : Name) : 0 < (max first 1).toNat := by
  rw [← ne_zero_iff_toNat]
  have chosen : max first 1 = if first ≤ 1 then 1 else first := rfl
  rw [chosen]
  split
  · decide
  · rename_i above
    rintro rfl
    exact above (by decide)

/-- The cycle starts where the counter does. -/
theorem cycleName_zero (first : Name) : cycleName first 0 = max first 1 := by
  have pos := max_one_pos first
  have below := (max first 1).toNat_lt
  rw [← UInt32.toNat_inj, toNat_cycleName]
  omega

/-- Within one cycle no name comes twice. -/
theorem cycleName_injective_within (hj : j < 2 ^ 32 - 1) (hk : k < 2 ^ 32 - 1)
    (same : cycleName first j = cycleName first k) : j = k := by
  have places := congrArg UInt32.toNat same
  rw [toNat_cycleName, toNat_cycleName] at places
  omega

/-- Every name but `0` has its place in the first cycle, and one only. So the cycle is the
whole stock of names, in the order in which a counter goes through it. -/
theorem existsUnique_cycleName (first : Name) (named : n ≠ 0) :
    ∃! k, k < 2 ^ 32 - 1 ∧ cycleName first k = n := by
  have pos := max_one_pos first
  have below := (max first 1).toNat_lt
  have nPos := ne_zero_iff_toNat.mp named
  have nBelow := n.toNat_lt
  refine ⟨(n.toNat + (2 ^ 32 - 1) - (max first 1).toNat) % (2 ^ 32 - 1), ⟨?_, ?_⟩, ?_⟩
  · exact Nat.mod_lt _ (by decide)
  · rw [← UInt32.toNat_inj, toNat_cycleName]
    omega
  · rintro k ⟨within, rfl⟩
    rw [toNat_cycleName]
    omega

/-! ### A counter in the cycle -/

theorem comesTo_first (first : Name) : ComesTo (max first 1) (cycleName first 0) :=
  ⟨cycleName_ne_zero first 0, .inl (cycleName_zero first).symm⟩

/-- A counter that is left behind a name comes to the next one. Behind the largest name it
stands at `0`, which it passes, and the next one is `1`. -/
theorem comesTo_next (first : Name) (k : Nat) :
    ComesTo (cycleName first k + 1) (cycleName first (k + 1)) := by
  refine ⟨cycleName_ne_zero first (k + 1), ?_⟩
  have left : (cycleName first k + 1).toNat = ((cycleName first k).toNat + 1) % 2 ^ 32 := by simp
  simp only [← UInt32.toNat_inj, left, toNat_cycleName, UInt32.toNat_zero, UInt32.toNat_one]
  omega

/-- A counter hands out the name that it comes to, if that is not in use. At most the reserved
name lies between them. -/
theorem ComesTo.nextFree_eq (comes : ComesTo counter n) (unused : used n = false) :
    nextFree used counter = some n := by
  obtain ⟨named, rfl | ⟨rfl, rfl⟩⟩ := comes
  · refine firstFree_eq_some_iff.mpr ⟨0, by omega, (after_zero _).symm, ⟨named, unused⟩, ?_⟩
    omega
  · refine firstFree_eq_some_iff.mpr ⟨1, by omega, rfl, ⟨named, unused⟩, ?_⟩
    intro j before free
    obtain rfl : j = 0 := by omega
    exact free.1 rfl

namespace NameTable

variable {rule : SuccessorRule} {t u : NameTable} {log : List Turn} {l g : Name} {issued : Nat}

/-! ### A table in the cycle -/

def Call.followsCounters : Call → Bool
  | .generate requested withGlobal => requested = 0 && withGlobal
  | .delete _ => true
  | .rebind _ _ => false

def Turn.created? (turn : Turn) : Option (Name × Name) :=
  match turn.call, turn.event with
  | .generate _ _, some (.made l g) => some (l, g)
  | _, _ => none

def entriesCreated (log : List Turn) : List (Name × Name) :=
  log.filterMap Turn.created?

/-- A table that handed out so many names of the cycle: both counters come to the next one, and
the live names are among those, each one its own global name. -/
structure InCycle (first : Name) (issued : Nat) (t : NameTable) : Prop where
  index : t.Indexed
  nextLocal : ComesTo t.nextLocal (cycleName first issued)
  nextGlobal : ComesTo t.nextGlobal (cycleName first issued)
  own : ∀ {l g : Name}, t.globals[l]? = some g → g = l ∧ ∃ j < issued, l = cycleName first j

theorem inCycle_starting (first : Name) : InCycle first 0 (starting first) where
  index := indexed_starting first
  nextLocal := comesTo_first first
  nextGlobal := comesTo_first first
  own bound := by simp [starting] at bound

namespace InCycle

variable (cycle : InCycle first issued t)

include cycle

/-- Before the cycle is complete, the next name was not handed out, so it is not in use. Only
names that were handed out are live here, and none of them comes twice in one cycle. -/
theorem dead (within : issued < 2 ^ 32 - 1) : t.globals[cycleName first issued]? = none := by
  by_contra live
  obtain ⟨g, bound⟩ := Option.ne_none_iff_exists'.mp live
  obtain ⟨-, j, before, same⟩ := cycle.own bound
  have := cycleName_injective_within within (Nat.lt_trans before within) same
  omega

/-- A bound global name is the global name of itself, and was handed out as well. So what
keeps the next name from being live keeps it from being bound. -/
theorem unbound (within : issued < 2 ^ 32 - 1) : t.isBound (cycleName first issued) = false := by
  refine Bool.eq_false_iff.mpr fun bound => ?_
  obtain ⟨l, remembered⟩ := isBound_iff.mp bound
  have entry := cycle.index.globals_of_latest remembered
  obtain ⟨rfl, -⟩ := cycle.own entry
  rw [cycle.dead within] at entry
  cases entry

/-- Before the cycle is complete, the next name of it is generated on both sides. This is the
step from which the whole order follows. -/
theorem generate (within : issued < 2 ^ 32 - 1) :
    ∃ u, t.generate 0 true =
        some (u, .made (cycleName first issued) (cycleName first issued)) ∧
      InCycle first (issued + 1) u := by
  have dead := isLive_eq_false_iff.mpr (cycle.dead within)
  have free : IsFree t.isLive (cycleName first issued) := ⟨cycleName_ne_zero first issued, dead⟩
  have generated := generate_of_not_isLive true (.inl rfl)
    (show t.newLocal 0 = _ from cycle.nextLocal.nextFree_eq dead)
    (show t.newGlobal true = _ from cycle.nextGlobal.nextFree_eq (cycle.unbound within))
  refine ⟨_, generated, ?_⟩
  constructor
  case index =>
    exact (rewrite_made (.nth 0) cycle.index free).indexed cycle.index
      fun zero => absurd zero free.1
  case nextLocal => exact comesTo_next first issued
  case nextGlobal => exact comesTo_next first issued
  case own =>
    intro l g bound
    rw [getElem?_insert_name] at bound
    split at bound
    · rename_i new
      cases bound
      exact ⟨new.symm, issued, Nat.lt_succ_self issued, new⟩
    · obtain ⟨same, j, before, place⟩ := cycle.own bound
      exact ⟨same, j, Nat.lt_succ_of_lt before, place⟩

/-- A deletion takes nothing from the bound: the name that goes out of use lies behind both
counters, and they do not come back to it before the cycle is complete. -/
theorem delete (rule : SuccessorRule) (l : Name) : InCycle first issued (t.delete rule l).1 := by
  have write := rewrite_delete rule l cycle.index
  have counters := counters_delete rule t l
  constructor
  case index => exact write.indexed cycle.index fun _ => rfl
  case nextLocal =>
    rw [counters.1]
    exact cycle.nextLocal
  case nextGlobal =>
    rw [counters.2]
    exact cycle.nextGlobal
  case own =>
    intro k g bound
    rw [write.globals] at bound
    split at bound
    · cases bound
    · exact cycle.own bound

end InCycle

/-! ### Runs -/

theorem entriesCreated_snoc (log : List Turn) (turn : Turn) :
    entriesCreated (log ++ [turn]) = entriesCreated log ++ turn.created?.toList := by
  cases created : turn.created? <;> simp [entriesCreated, created]

def FollowsCycle (first : Name) (log : List Turn) : Prop :=
  ∀ k < 2 ^ 32 - 1, ∀ entry, (entriesCreated log)[k]? = some entry →
    entry = (cycleName first k, cycleName first k)

/-- In a run that only generates and deletes names, the entries that are created follow the
cycle, and the table is in the cycle until this is complete. The two are proved together: the
table of the moment says which name comes next, and that it came says where the table stands
then. -/
theorem Run.inCycle (run : Run (starting first) log t)
    (follows : ∀ turn ∈ log, turn.call.followsCounters) :
    FollowsCycle first log ∧
      ((entriesCreated log).length ≤ 2 ^ 32 - 1 → InCycle first (entriesCreated log).length t) := by
  induction run with
  | start =>
      refine ⟨?_, fun _ => inCycle_starting first⟩
      intro k _ entry created
      cases created
  | @step log t u rule c event run called ih =>
      obtain ⟨ordered, cycle⟩ := ih fun turn mem => follows turn (List.mem_append_left _ mem)
      have allowed := follows ⟨c, event⟩ (List.mem_append_right _ List.mem_cons_self)
      rw [FollowsCycle, entriesCreated_snoc]
      cases effect_of_call called with
      | kept nonzero => simp [Call.followsCounters, nonzero] at allowed
      | turnedDown | rebound => cases allowed
      | absent =>
          simp only [Turn.created?, Option.toList_none, List.append_nil]
          exact ⟨ordered, cycle⟩
      | @removed l =>
          simp only [Turn.created?, Option.toList_none, List.append_nil]
          exact ⟨ordered, fun within => (cycle within).delete rule l⟩
      | made =>
          obtain ⟨zero, both⟩ := Bool.and_eq_true_iff.mp allowed
          obtain rfl := of_decide_eq_true zero
          subst both
          simp only [Turn.created?, Option.toList_some, List.length_append, List.length_singleton]
          by_cases within : (entriesCreated log).length < 2 ^ 32 - 1
          · obtain ⟨after, generated, next⟩ := (cycle (Nat.le_of_lt within)).generate within
            rw [call, generated] at called
            cases called
            refine ⟨?_, fun _ => next⟩
            intro k before entry created
            rcases getElem?_snoc_iff.mp created with earlier | ⟨rfl, rfl⟩
            · exact ordered k before entry earlier
            · rfl
          · refine ⟨?_, fun fits => absurd fits within⟩
            intro k before entry created
            rcases getElem?_snoc_iff.mp created with earlier | ⟨rfl, -⟩
            · exact ordered k before entry earlier
            · exact absurd before within

end NameTable

end SharedNames
