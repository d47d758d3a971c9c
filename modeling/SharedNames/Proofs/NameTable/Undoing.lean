import SharedNames.Proofs.NameTable.Handover
import SharedNames.Proofs.NameTable.Sharing

/-!
Deleting a name undoes its creation.

A name is created with a new global name, without one, or by hand with a global name of any
choice. Deleting it leads back to the entries from before in each case, and the global names
are answered as before, up to the choice among several sharers of the one that the name had
in between (`Undone`). So the creation with a new global name, or without one, is undone
exactly.

* `Rewrite.undone`: deleting an entry undoes the rewrite that made it.
* `Indexed.latest_eq_of_localOf`: the answers for all global names decide which local names
  are remembered for them.
* `Run.delete_undoes`: so it is in every table that a run reaches. Also, binding a name back
  to the global name that it had leads back to the entries from before.

Names without a global name are no sharers of `0`: whatever their number, none of them is
answered for `0` (`Run.delete_undoes_not_for_zero`).
-/

namespace SharedNames.NameTable

variable {rule : SuccessorRule} {l g p requested : Name} {withGlobal : Bool} {t u v : NameTable}

/-! ### Tables with the same entries -/

/-- A global name that has sharers is answered by one of them. -/
theorem Indexed.globals_localOf (index : t.Indexed) (nonzero : g ≠ 0)
    (shared : ∃ k : Name, t.globals[k]? = some g) : t.globals[t.localOf g]? = some g := by
  simp only [← isLive_and_globalOf_iff] at shared
  exact index.globals_of_localOf (index.localOf_ne_zero_iff.mpr ⟨nonzero, shared⟩) rfl

/-- A global name without sharers is answered by `0`. -/
theorem Indexed.localOf_eq_zero (index : t.Indexed) (unshared : ∀ k : Name, t.globals[k]? ≠ some g) :
    t.localOf g = 0 := by
  by_contra answered
  exact unshared _ (index.globals_of_localOf answered rfl)

/-- Tables with the same entries answer a global name alike that has one sharer at most: with
one sharer there is nothing to choose, and with none the answer is `0`. -/
theorem Indexed.localOf_eq_of_single (index : t.Indexed) (other : v.Indexed)
    (same : v.globals = t.globals)
    (single : ∀ j k : Name, t.globals[j]? = some g → t.globals[k]? = some g → j = k) :
    v.localOf g = t.localOf g := by
  by_cases shared : g ≠ 0 ∧ ∃ k : Name, t.globals[k]? = some g
  · obtain ⟨nonzero, sharer⟩ := shared
    have now := other.globals_localOf nonzero (by rwa [same])
    rw [same] at now
    exact single _ _ now (index.globals_localOf nonzero sharer)
  · rcases Classical.not_and_iff_not_or_not.mp shared with zero | none
    · have zero : g = 0 := Classical.not_not.mp zero
      rw [zero, localOf_zero, localOf_zero]
    · have unshared := not_exists.mp none
      rw [index.localOf_eq_zero unshared, other.localOf_eq_zero (by rwa [same])]

/-- What is remembered for a global name is its answer, so tables that answer alike have the
same index. By this an equation between tables follows from what can be seen of them. -/
theorem Indexed.latest_eq_of_localOf (index : t.Indexed) (other : v.Indexed)
    (same : ∀ h, v.localOf h = t.localOf h) : v.latest = t.latest := by
  apply Std.ExtTreeMap.ext_getElem?
  intro h
  apply Option.ext
  intro k
  constructor
  · intro remembered
    have named := other.ne_zero_of_latest remembered
    rw [← index.localOf_eq_iff named, ← same, other.localOf_eq_iff named]
    exact remembered
  · intro remembered
    have named := index.ne_zero_of_latest remembered
    rw [← other.localOf_eq_iff named, same, index.localOf_eq_iff named]
    exact remembered

/-! ### Undoing the creation of an entry -/

/-- The entries of `v` are those of `t`, and global names are answered alike. Only among
several sharers of `g` another one may answer. The reserved name is no global name, and
stays without an answer. -/
structure Undone (g : Name) (t v : NameTable) : Prop where
  globals_eq : v.globals = t.globals
  localOf_zero : t.localOf 0 = 0 ∧ v.localOf 0 = 0
  localOf_of_ne : ∀ h, h ≠ g → v.localOf h = t.localOf h
  localOf_of_single :
    (∀ j k, t.isLive j ∧ t.globalOf j = g → t.isLive k ∧ t.globalOf k = g → j = k) →
      v.localOf g = t.localOf g
  localOf_of_shared : g ≠ 0 → (∃ k, t.isLive k ∧ t.globalOf k = g) →
    t.isLive (v.localOf g) ∧ t.globalOf (v.localOf g) = g

/-- A table whose maps agree as well, with the same entries and the same answers for all other
global names, undoes what led to it. -/
theorem Indexed.undone (index : t.Indexed) (other : v.Indexed) (same : v.globals = t.globals)
    (localOf_of_ne : ∀ h, h ≠ g → v.localOf h = t.localOf h) : Undone g t v where
  globals_eq := same
  localOf_zero := ⟨t.localOf_zero, v.localOf_zero⟩
  localOf_of_ne := localOf_of_ne
  localOf_of_single single := by
    simp only [isLive_and_globalOf_iff] at single
    exact index.localOf_eq_of_single other same single
  localOf_of_shared nonzero shared := by
    simp only [isLive_and_globalOf_iff] at shared ⊢
    rw [← same] at shared ⊢
    exact other.globals_localOf nonzero shared

/-- Deleting an entry undoes the rewrite that made it, whoever takes over the global name. The
local name was not live before, so it was nowhere the answer. -/
theorem Rewrite.undone (write : Rewrite rule l (some g) t u) (index : t.Indexed) (named : l ≠ 0)
    (dead : t.globals[l]? = none) (rule' : SuccessorRule) :
    (u.delete rule' l).1.Indexed ∧ Undone g t (u.delete rule' l).1 := by
  have made := write.indexed index fun zero => absurd zero named
  have erase := rewrite_delete rule' l made
  have left := erase.indexed made fun _ => rfl
  have same : (u.delete rule' l).1.globals = t.globals := by
    apply Std.ExtTreeMap.ext_getElem?
    intro k
    by_cases this : k = l
    · rw [this, erase.globals_self, dead]
    · rw [erase.globals_of_ne this, write.globals_of_ne this]
  refine ⟨left, index.undone left same ?_⟩
  -- The name was no answer before, so the other global names neither lose nor gain one.
  intro h other
  have notAnswer : t.localOf h ≠ l := by
    intro answer
    have bound := index.globals_of_localOf named answer
    rw [dead] at bound
    cases bound
  have between : u.localOf h = t.localOf h :=
    write.localOf_of_ne (fun both => other (Option.some.inj both).symm) notAnswer
  rw [erase.localOf_of_ne (by simp) (between ▸ notAnswer), between]

theorem eq_of_fields (nextLocal : t.nextLocal = u.nextLocal) (nextGlobal : t.nextGlobal = u.nextGlobal)
    (globals : t.globals = u.globals) (latest : t.latest = u.latest) : t = u := by
  cases t
  cases u
  exact NameTable.mk.injEq .. ▸ ⟨nextLocal, nextGlobal, globals, latest⟩

/-- The creation of an entry is a rewrite, and only the counters that it searched move. -/
theorem Indexed.rewrite_of_generate (index : t.Indexed) (rule : SuccessorRule)
    (generated : t.generate requested withGlobal = some (u, .made l g)) :
    IsFree t.isLive l ∧ Rewrite rule l (some g) t u ∧
      u.nextLocal = (if requested = 0 then l + 1 else t.nextLocal) ∧
      u.nextGlobal = (if withGlobal then g + 1 else t.nextGlobal) := by
  have effect : Effect rule t (.generate requested withGlobal) (some (.made l g)) u :=
    effect_of_generate generated
  cases effect with
  | made new foundLocal _ =>
      have free := isFree_of_newLocal new foundLocal
      exact ⟨free, rewrite_made rule index free, rfl, rfl⟩

/-- Deleting a name that was created with a new global name, or without one, undoes all but
the moves of the counters. A new global name has no sharer, so here the index is restored as
well, and the whole table is given by an equation. -/
theorem Indexed.delete_generated (index : t.Indexed)
    (generated : t.generate requested withGlobal = some (u, .made l g)) (rule : SuccessorRule) :
    (u.delete rule l).1 =
      { t with
        nextLocal := if requested = 0 then l + 1 else t.nextLocal
        nextGlobal := if withGlobal then g + 1 else t.nextGlobal } := by
  obtain ⟨free, write, nextLocal, nextGlobal⟩ := index.rewrite_of_generate rule generated
  obtain ⟨left, undone⟩ := write.undone index free.1 (isLive_eq_false_iff.mp free.2) rule
  have effect : Effect rule t (.generate requested withGlobal) (some (.made l g)) u :=
    effect_of_generate generated
  have answers : ∀ h, (u.delete rule l).1.localOf h = t.localOf h := by
    intro h
    by_cases own : h = g
    · subst own
      by_cases zero : h = 0
      · rw [zero, localOf_zero, localOf_zero]
      · -- A new global name has no sharer, so there is no choice among them.
        refine index.localOf_eq_of_single left undone.globals_eq fun j k bound => ?_
        exact absurd bound (effect.unshared_of_generate index rfl rfl zero j)
    · exact undone.localOf_of_ne h own
  have counters := counters_delete rule u l
  exact eq_of_fields (counters.1.trans nextLocal) (counters.2.trans nextGlobal) undone.globals_eq
    (index.latest_eq_of_localOf left answers)

/-- Deleting a name that was created by hand undoes its creation. If one of its names is
reserved, neither call does anything. -/
theorem Indexed.delete_rebound (index : t.Indexed) (dead : t.isLive l = false) (g : Name)
    (rule rule' : SuccessorRule) : Undone g t ((t.rebind rule l g).1.delete rule' l).1 := by
  by_cases reserved : l = 0 ∨ g = 0
  · rw [rebind_of_reserved rule t reserved, delete_of_not_isLive rule' dead]
    exact index.undone index rfl fun _ _ => rfl
  · obtain ⟨hl, hg⟩ := not_or.mp reserved
    exact ((rewrite_rebind rule index hl hg).undone index hl (isLive_eq_false_iff.mp dead) rule').2

/-- Binding a name back to the global name that it had undoes a binding by hand, as far as the
entries go. The answers can differ: the name is now the latest one that was bound there. -/
theorem globals_rebind_back (named : l ≠ 0) (nonzero : p ≠ 0) (bound : t.globals[l]? = some p)
    (g : Name) (rule rule' : SuccessorRule) :
    ((t.rebind rule l g).1.rebind rule' l p).1.globals = t.globals := by
  rw [globals_rebind rule' _ named nonzero]
  by_cases zero : g = 0
  · rw [rebind_of_reserved rule t (.inr zero), insert_eq_self bound]
  · rw [globals_rebind rule t named zero, insert_insert_eq_insert, insert_eq_self bound]

/-! ### Every table that a run reaches -/

namespace Run

variable {first : Name} {log : List Turn}

/-- In every table that a run reaches, whoever takes over a global name:
* deleting a name that was generated, or requested, undoes all but the moves of the counters
  that were searched;
* deleting a name that was created by hand undoes its creation, and leaves the counters;
* a live name that was bound to any other global name can be bound back. -/
theorem delete_undoes (run : Run (starting first) log t) :
    (∀ requested withGlobal u l g, t.generate requested withGlobal = some (u, .made l g) →
      ∀ rule : SuccessorRule, (u.delete rule l).1 =
        { t with
          nextLocal := if requested = 0 then l + 1 else t.nextLocal
          nextGlobal := if withGlobal then g + 1 else t.nextGlobal }) ∧
    (∀ l, t.isLive l = false → ∀ (g : Name) (rule rule' : SuccessorRule),
      Undone g t ((t.rebind rule l g).1.delete rule' l).1 ∧
      ((t.rebind rule l g).1.delete rule' l).1.nextLocal = t.nextLocal ∧
      ((t.rebind rule l g).1.delete rule' l).1.nextGlobal = t.nextGlobal) ∧
    (∀ l p, t.isLive l → t.globalOf l = p → p ≠ 0 → ∀ (g : Name) (rule rule' : SuccessorRule),
      ((t.rebind rule l g).1.rebind rule' l p).1.globals = t.globals) := by
  have index := run.indexed (indexed_starting first)
  refine ⟨?_, ?_, ?_⟩
  · intro requested withGlobal u l g generated rule
    exact index.delete_generated generated rule
  · intro l dead g rule rule'
    have bound := counters_rebind rule t l g
    have deleted := counters_delete rule' (t.rebind rule l g).1 l
    exact ⟨index.delete_rebound dead g rule rule', deleted.1.trans bound.1, deleted.2.trans bound.2⟩
  · intro l p live global nonzero g rule rule'
    have entry := isLive_and_globalOf_iff.mp ⟨live, global⟩
    exact globals_rebind_back (index.ne_zero_of_globals entry) nonzero entry g rule rule'

/-- `2`, `3` and the largest name share the largest global name, and `3` is the latest of them.
A name that is generated behind it, past `0`, is deleted again. Then `7` joins the sharers and
is deleted, and `2` takes over. In the end `3` is bound to `9` and back. -/
theorem delete_undoes_among_three :
    ∃ t, Run (starting 0xFFFFFFFF)
        [⟨.generate 0 true, some (.made 0xFFFFFFFF 0xFFFFFFFF)⟩,
          ⟨.rebind 2 0xFFFFFFFF, some (.rebound 2 0xFFFFFFFF)⟩,
          ⟨.rebind 3 0xFFFFFFFF, some (.rebound 3 0xFFFFFFFF)⟩] t ∧
      (∃ u, t.generate 0 true = some (u, .made 1 1) ∧
        (u.delete (.nth 0) 1).1 = { t with nextLocal := 2, nextGlobal := 2 }) ∧
      (t.isLive 7 = false ∧ t.localOf 0xFFFFFFFF = 3 ∧
        ((t.rebind (.nth 0) 7 0xFFFFFFFF).1.delete (.nth 0) 7).1.localOf 0xFFFFFFFF = 2 ∧
        Undone 0xFFFFFFFF t ((t.rebind (.nth 0) 7 0xFFFFFFFF).1.delete (.nth 0) 7).1) ∧
      t.isLive 3 ∧ t.globalOf 3 = 0xFFFFFFFF ∧
      ((t.rebind (.nth 0) 3 9).1.rebind (.nth 0) 3 0xFFFFFFFF).1.globals = t.globals := by
  have reached : ∃ t, Run (starting 0xFFFFFFFF)
        [⟨.generate 0 true, some (.made 0xFFFFFFFF 0xFFFFFFFF)⟩,
          ⟨.rebind 2 0xFFFFFFFF, some (.rebound 2 0xFFFFFFFF)⟩,
          ⟨.rebind 3 0xFFFFFFFF, some (.rebound 3 0xFFFFFFFF)⟩] t ∧
      (t.generate 0 true).map Prod.snd = some (.made 1 1) ∧ t.isLive 7 = false ∧
      t.localOf 0xFFFFFFFF = 3 ∧
      ((t.rebind (.nth 0) 7 0xFFFFFFFF).1.delete (.nth 0) 7).1.localOf 0xFFFFFFFF = 2 ∧
      t.isLive 3 ∧ t.globalOf 3 = 0xFFFFFFFF :=
    ⟨_, .cons (.nth 0) rfl (.cons (.nth 0) rfl (.cons (.nth 0) rfl .start)),
      rfl, rfl, rfl, rfl, rfl, rfl⟩
  obtain ⟨t, run, one, unused, latest, after, live, global⟩ := reached
  obtain ⟨generated, byHand, back⟩ := run.delete_undoes
  refine ⟨t, run, ?_, ⟨unused, latest, after, (byHand 7 unused 0xFFFFFFFF (.nth 0) (.nth 0)).1⟩,
    live, global, back 3 0xFFFFFFFF live global (by decide) 9 (.nth 0) (.nth 0)⟩
  obtain ⟨⟨u, event⟩, generates, made⟩ := Option.map_eq_some_iff.mp one
  obtain rfl : event = .made 1 1 := made
  exact ⟨u, generates, generated 0 true u 1 1 generates (.nth 0)⟩

/-- `5` and `6` have no global name. Binding `7` to `0` is turned down, and afterwards none of
them is answered for `0`. -/
theorem delete_undoes_not_for_zero :
    ∃ t, Run (starting 1)
        [⟨.generate 5 false, some (.made 5 0)⟩, ⟨.generate 6 false, some (.made 6 0)⟩] t ∧
      t.isLive 7 = false ∧ (t.isLive 5 ∧ t.globalOf 5 = 0) ∧ (t.isLive 6 ∧ t.globalOf 6 = 0) ∧
      ∀ rule rule' : SuccessorRule,
        ¬ t.isLive (((t.rebind rule 7 0).1.delete rule' 7).1.localOf 0) := by
  refine ⟨_, .cons (.nth 0) rfl (.cons (.nth 0) rfl .start), rfl, ⟨rfl, rfl⟩, ⟨rfl, rfl⟩, ?_⟩
  intro rule rule' live
  rw [localOf_zero] at live
  cases live

end Run

end SharedNames.NameTable
