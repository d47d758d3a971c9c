import SharedNames.NameTable.Basic
import SharedNames.Values

/-!
What the operations of a name table do to its views.

`mem_sharers` and `pick_eq_none_iff` are about the choice of a successor;
`latest_release` is the one law of giving up a binding. For every operation there is a
law about the global names (`globals_delete`, `globals_rebind`, `generate_of_not_isLive`)
and about the counters, which only `generate` moves.
-/

namespace SharedNames.NameTable

/-! ### Views -/

theorem isLive_iff {t : NameTable} {l : Name} : t.isLive l ↔ ∃ g, t.globals[l]? = some g := by
  rw [isLive, Std.ExtTreeMap.contains_eq_isSome_getElem?, Option.isSome_iff_exists]

theorem isBound_iff {t : NameTable} {g : Name} : t.isBound g ↔ ∃ l, t.latest[g]? = some l := by
  rw [isBound, Std.ExtTreeMap.contains_eq_isSome_getElem?, Option.isSome_iff_exists]

theorem isLive_eq_false_iff {t : NameTable} {l : Name} :
    t.isLive l = false ↔ t.globals[l]? = none := by
  rw [isLive, Std.ExtTreeMap.contains_eq_isSome_getElem?, Option.isSome_eq_false_iff,
    Option.isNone_iff_eq_none]

theorem globalOf_eq_of_globals {t : NameTable} {l g : Name} (entry : t.globals[l]? = some g) :
    t.globalOf l = g := by
  rw [globalOf, entry, Option.getD_some]

/-- The two look-ups of a local name together tell its entry. Neither does alone: `globalOf`
answers `0` both for a name that is not live and for one without a global name. -/
theorem isLive_and_globalOf_iff {t : NameTable} {l g : Name} :
    t.isLive l ∧ t.globalOf l = g ↔ t.globals[l]? = some g := by
  rw [isLive_iff]
  constructor
  · rintro ⟨⟨h, entry⟩, rfl⟩
    rw [globalOf_eq_of_globals entry]
    exact entry
  · intro entry
    exact ⟨⟨g, entry⟩, globalOf_eq_of_globals entry⟩

theorem mem_toList {t : NameTable} {l g : Name} :
    (l, g) ∈ t.toList ↔ t.globals[l]? = some g :=
  Std.ExtTreeMap.mem_toList_iff_getElem?_eq_some

@[simp] theorem length_toList (t : NameTable) : t.toList.length = t.size :=
  Std.ExtTreeMap.length_toList

/-! ### The choice of a successor -/

/-- The sharers are found among the entries, not through `latest`: a sharer that was bound
earlier than another one is in no index. -/
theorem mem_sharers {t : NameTable} {l g : Name} :
    l ∈ t.sharers g ↔ t.globals[l]? = some g := by
  simp [sharers, mem_toList]

/-- A rule picks one of the names. All that is known of a successor is that it shares the
global name, so what is proved for all rules holds for any order of the scan. -/
theorem mem_of_pick {rule : SuccessorRule} {names : List Name} {l : Name}
    (h : rule.pick names = some l) : l ∈ names :=
  List.mem_of_getElem? h

/-- A rule picks a name whenever there is one: the position is counted modulo the number of
names, so it is never out of range. -/
theorem pick_eq_none_iff {rule : SuccessorRule} {names : List Name} :
    rule.pick names = none ↔ names = [] := by
  rw [SuccessorRule.pick, List.getElem?_eq_none_iff]
  constructor
  · intro le
    by_cases empty : names = []
    · exact empty
    · have := Nat.mod_lt (rule names) (List.length_pos_iff.2 empty)
      omega
  · rintro rfl
    simp

/-! ### Giving up a binding -/

section Release

variable (rule : SuccessorRule) (l g : Name) (t : NameTable)

@[simp] theorem globals_release : (release rule l g t).globals = t.globals := by
  unfold release
  split
  · rfl
  · split <;> rfl

@[simp] theorem nextLocal_release : (release rule l g t).nextLocal = t.nextLocal := by
  unfold release
  split
  · rfl
  · split <;> rfl

@[simp] theorem nextGlobal_release : (release rule l g t).nextGlobal = t.nextGlobal := by
  unfold release
  split
  · rfl
  · split <;> rfl

/-- Only the global name itself can get another latest local name, and only if it was `l`:
then the successor, or none without one. The entries are not touched, since the binding that
ends is gone from them before. -/
theorem latest_release (h : Name) :
    (release rule l g t).latest[h]? =
      if h = g ∧ g ≠ 0 ∧ t.latest[g]? = some l then rule.pick (t.sharers g)
      else t.latest[h]? := by
  unfold release
  split
  case isTrue stays =>
    have notReleased : ¬ (h = g ∧ g ≠ 0 ∧ t.latest[g]? = some l) := by
      rintro ⟨-, nonzero, isLatest⟩
      exact stays.elim nonzero fun differs => differs isLatest
    rw [if_neg notReleased]
  case isFalse released =>
    have nonzero : g ≠ 0 := fun zero => released (.inl zero)
    have isLatest : t.latest[g]? = some l :=
      Decidable.not_not.1 fun differs => released (.inr differs)
    by_cases same : h = g
    · subst same
      cases picked : rule.pick (t.sharers h) <;> simp [nonzero, isLatest]
    · cases picked : rule.pick (t.sharers g) <;>
        simp [Std.ExtTreeMap.getElem?_insert, Std.ExtTreeMap.getElem?_erase, same, Ne.symm same]

end Release

/-! ### Operations -/

/-- A request makes a new entry unless it is for a live name. -/
theorem not_kept_iff {t : NameTable} {requested : Name} :
    ¬ (requested ≠ 0 ∧ t.isLive requested = true) ↔
      requested = 0 ∨ t.isLive requested = false := by
  by_cases zero : requested = 0
  · simp [zero]
  · simp [zero]

/-- A request for a live name changes nothing, the counters included, and does not ask for a
global name even if the live name has none. -/
theorem generate_of_isLive {t : NameTable} {requested : Name} (withGlobal : Bool)
    (nonzero : requested ≠ 0) (live : t.isLive requested) :
    t.generate requested withGlobal = some (t, .kept requested) := by
  simp [generate, nonzero, live]

/-- Otherwise an entry is made whenever both of its names can be had. A counter moves only if
it was searched, and it moves behind the name that it found, which need not be the one it
stood at. -/
theorem generate_of_not_isLive {t : NameTable} {requested : Name} (withGlobal : Bool)
    (new : requested = 0 ∨ t.isLive requested = false) {l g : Name}
    (hl : t.newLocal requested = some l) (hg : t.newGlobal withGlobal = some g) :
    t.generate requested withGlobal = some (
      { nextLocal := if requested = 0 then l + 1 else t.nextLocal
        nextGlobal := if withGlobal then g + 1 else t.nextGlobal
        globals := t.globals.insert l g
        latest := if g = 0 then t.latest else t.latest.insert g l },
      .made l g) := by
  simp [generate, not_kept_iff.2 new, hl, hg]

/-- A name that is not live is ignored, and there is no event for it. -/
theorem delete_of_not_isLive (rule : SuccessorRule) {t : NameTable} {l : Name}
    (dead : t.isLive l = false) : t.delete rule l = (t, none) := by
  simp [delete, isLive_eq_false_iff.1 dead]

theorem globals_delete (rule : SuccessorRule) (t : NameTable) (l : Name) :
    (t.delete rule l).1.globals = t.globals.erase l := by
  cases h : t.globals[l]? with
  | none => simp [delete, h, erase_eq_self h]
  | some g => simp [delete, h]

/-- Deleting gives no name back to the counters: the name is generated again only when the
search comes round to it. -/
theorem counters_delete (rule : SuccessorRule) (t : NameTable) (l : Name) :
    (t.delete rule l).1.nextLocal = t.nextLocal ∧
      (t.delete rule l).1.nextGlobal = t.nextGlobal := by
  cases h : t.globals[l]? <;> simp [delete, h]

/-- Reserved names are turned down, also where the other name is live. -/
theorem rebind_of_reserved (rule : SuccessorRule) (t : NameTable) {l g : Name}
    (reserved : l = 0 ∨ g = 0) : t.rebind rule l g = (t, .turnedDown l g) := by
  simp [rebind, reserved]

/-- Binding by hand makes an entry or overwrites it, whether or not the name was live. -/
theorem globals_rebind (rule : SuccessorRule) (t : NameTable) {l g : Name}
    (hl : l ≠ 0) (hg : g ≠ 0) :
    (t.rebind rule l g).1.globals = t.globals.insert l g := by
  unfold rebind
  rw [if_neg (by simp [hl, hg])]
  cases h : t.globals[l]? with
  | none => simp
  | some previous => by_cases same : previous = g <;> simp [same]

/-- A name that is bound by hand is taken without the counters. So a later search can meet it,
and has to step over it. -/
theorem counters_rebind (rule : SuccessorRule) (t : NameTable) (l g : Name) :
    (t.rebind rule l g).1.nextLocal = t.nextLocal ∧
      (t.rebind rule l g).1.nextGlobal = t.nextGlobal := by
  unfold rebind
  split
  · exact ⟨rfl, rfl⟩
  · cases h : t.globals[l]? with
    | none => exact ⟨rfl, rfl⟩
    | some previous => by_cases same : previous = g <;> simp [same]

end SharedNames.NameTable
