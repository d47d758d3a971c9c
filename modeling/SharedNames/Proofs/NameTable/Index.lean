import SharedNames.Proofs.NameTable.Run

/-!
The two maps of a name table agree.

`latest` is an index of `globals`: it remembers, for the global name of every live
local name, one local name that is bound to it. `Indexed` says so, and it holds of
every table that a run reaches, whichever sharers take over on the way.

All three operations come down to one change, a `Rewrite` of the entry of one local
name: its new global name remembers it, and a global name that remembered it before
remembers another sharer, or none. `Rewrite.indexed` is the one step lemma; the
operations are rewrites by `rewrite_made`, `rewrite_delete` and `rewrite_rebind`.
-/

namespace SharedNames.NameTable

variable {rule : SuccessorRule} {l : Name} {entry : Option Name} {t u : NameTable}

/-! ### The invariant -/

/-- The two maps of a table agree. An entry bound to `0` needs no index. -/
structure Indexed (t : NameTable) : Prop where
  zero_not_live : t.globals[(0 : Name)]? = none
  zero_not_bound : t.latest[(0 : Name)]? = none
  globals_of_latest : ∀ {g l : Name}, t.latest[g]? = some l → t.globals[l]? = some g
  latest_of_globals : ∀ {l g : Name}, t.globals[l]? = some g → g ≠ 0 → ∃ k, t.latest[g]? = some k

theorem indexed_starting (first : Name) : (starting first).Indexed where
  zero_not_live := by simp [starting]
  zero_not_bound := by simp [starting]
  globals_of_latest := by simp [starting]
  latest_of_globals := by simp [starting]

namespace Indexed

theorem ne_zero_of_globals (index : t.Indexed) {g : Name} (bound : t.globals[l]? = some g) :
    l ≠ 0 := by
  rintro rfl
  rw [index.zero_not_live] at bound
  cases bound

/-- Only live local names are remembered, so `0` never is. -/
theorem ne_zero_of_latest (index : t.Indexed) {g : Name} (remembered : t.latest[g]? = some l) :
    l ≠ 0 :=
  index.ne_zero_of_globals (index.globals_of_latest remembered)

/-- A name that is not live is remembered for nothing. So a deletion leaves no answer behind
that is not live. -/
theorem latest_ne_of_not_live (index : t.Indexed) (dead : t.globals[l]? = none) (g : Name) :
    t.latest[g]? ≠ some l := by
  intro remembered
  have live := index.globals_of_latest remembered
  rw [dead] at live
  cases live

/-- The only global name that can remember `l` is the one that `l` is bound to. This is what
bounds a rewrite: the rest of the index is not about `l` and stays. -/
theorem latest_eq_some_iff (index : t.Indexed) {g : Name} (bound : t.globals[l]? = some g)
    (h : Name) : t.latest[h]? = some l ↔ h = g ∧ g ≠ 0 ∧ t.latest[g]? = some l := by
  constructor
  · intro remembered
    have same := index.globals_of_latest remembered
    rw [bound, Option.some.injEq] at same
    subst same
    refine ⟨rfl, ?_, remembered⟩
    rintro rfl
    rw [index.zero_not_bound] at remembered
    cases remembered
  · rintro ⟨rfl, -, remembered⟩
    exact remembered

/-- The look-up of a global name answers `l` exactly when the table remembers `l` for it. -/
theorem localOf_eq_iff (index : t.Indexed) (h : l ≠ 0) {g : Name} :
    t.localOf g = l ↔ t.latest[g]? = some l := by
  unfold localOf
  by_cases zero : g = 0
  · subst zero
    rw [if_pos rfl, index.zero_not_bound]
    exact ⟨fun eq => absurd eq.symm h, fun eq => by cases eq⟩
  · rw [if_neg zero]
    cases remembered : t.latest[g]? with
    | none => exact ⟨fun eq => absurd eq.symm h, fun eq => by cases eq⟩
    | some k => simp

/-- The entries decide which global names are bound. The index adds only which of the sharers
is the answer. -/
theorem isBound_iff_shared (index : t.Indexed) {g : Name} :
    t.isBound g ↔ g ≠ 0 ∧ ∃ l : Name, t.globals[l]? = some g := by
  rw [isBound_iff]
  constructor
  · rintro ⟨l, remembered⟩
    refine ⟨?_, l, index.globals_of_latest remembered⟩
    rintro rfl
    rw [index.zero_not_bound] at remembered
    cases remembered
  · rintro ⟨nonzero, l, bound⟩
    exact index.latest_of_globals bound nonzero

/-- A global name is answered exactly if some live local name is bound to it. -/
theorem localOf_ne_zero_iff (index : t.Indexed) {g : Name} :
    t.localOf g ≠ 0 ↔ g ≠ 0 ∧ ∃ l, t.isLive l ∧ t.globalOf l = g := by
  constructor
  · intro answered
    have remembered := (index.localOf_eq_iff answered).mp rfl
    have bound := index.globals_of_latest remembered
    refine ⟨?_, t.localOf g, isLive_and_globalOf_iff.mpr bound⟩
    rintro rfl
    exact answered (by simp [localOf])
  · rintro ⟨nonzero, l, bound⟩
    have entry := isLive_and_globalOf_iff.mp bound
    obtain ⟨k, remembered⟩ := index.latest_of_globals entry nonzero
    have kNonzero := index.ne_zero_of_latest remembered
    rwa [(index.localOf_eq_iff kNonzero).mpr remembered]

/-- The answer for a global name leads back to it. -/
theorem globalOf_localOf (index : t.Indexed) {g : Name} (answered : t.localOf g ≠ 0) :
    t.globalOf (t.localOf g) = g := by
  have remembered := (index.localOf_eq_iff answered).mp rfl
  exact globalOf_eq_of_globals (index.globals_of_latest remembered)

end Indexed

/-! ### Rewriting one entry -/

/-- `u` is `t` with the entry of `l` rewritten: bound to a global name, or gone. -/
structure Rewrite (rule : SuccessorRule) (l : Name) (entry : Option Name) (t u : NameTable) :
    Prop where
  globals : ∀ k : Name, u.globals[k]? = if k = l then entry else t.globals[k]?
  latest : ∀ h : Name, u.latest[h]? =
    if h ≠ 0 ∧ entry = some h then some l
    else if t.latest[h]? = some l then rule.pick (u.sharers h)
    else t.latest[h]?

namespace Rewrite

variable (write : Rewrite rule l entry t u)

include write

theorem globals_self : u.globals[l]? = entry := by
  rw [write.globals, if_pos rfl]

theorem globals_of_ne {k : Name} (ne : k ≠ l) : u.globals[k]? = t.globals[k]? := by
  rw [write.globals, if_neg ne]

theorem isLive_imp {k : Name} (live : u.isLive k = true) : t.isLive k = true ∨ k = l := by
  obtain ⟨g, bound⟩ := isLive_iff.mp live
  by_cases same : k = l
  · exact .inr same
  · rw [write.globals_of_ne same] at bound
    exact .inl (isLive_iff.mpr ⟨g, bound⟩)

theorem isBound_imp {h : Name} (bound : u.isBound h = true) :
    t.isBound h = true ∨ entry = some h := by
  obtain ⟨k, remembered⟩ := isBound_iff.mp bound
  rw [write.latest] at remembered
  split at remembered
  · rename_i new
    exact .inr new.2
  · split at remembered
    · rename_i lost
      exact .inl (isBound_iff.mpr ⟨l, lost⟩)
    · exact .inl (isBound_iff.mpr ⟨k, remembered⟩)

/-- The two maps still agree after an entry was rewritten. For each kind of call it is enough
to see that it is a rewrite, so the cases of the index are gone through here and nowhere
else. -/
theorem indexed (index : t.Indexed) (named : l = 0 → entry = none) : u.Indexed where
  zero_not_live := by
    rw [write.globals]
    split
    · rename_i zero
      exact named zero.symm
    · exact index.zero_not_live
  zero_not_bound := by
    have never : t.latest[(0 : Name)]? ≠ some l := by simp [index.zero_not_bound]
    rw [write.latest, if_neg (fun h => h.1 rfl), if_neg never]
    exact index.zero_not_bound
  globals_of_latest := by
    intro g k remembered
    rw [write.latest] at remembered
    split at remembered
    · rename_i bound
      cases remembered
      rw [write.globals_self]
      exact bound.2
    · split at remembered
      · exact mem_sharers.mp (mem_of_pick remembered)
      · rename_i other
        have ne : k ≠ l := by
          rintro rfl
          exact other remembered
        rw [write.globals_of_ne ne]
        exact index.globals_of_latest remembered
  latest_of_globals := by
    intro k g bound nonzero
    rw [write.latest]
    split
    · exact ⟨l, rfl⟩
    · rename_i notNew
      split
      · have sharing : u.sharers g ≠ [] := List.ne_nil_of_mem (mem_sharers.mpr bound)
        exact Option.ne_none_iff_exists'.mp fun none => sharing (pick_eq_none_iff.mp none)
      · have ne : k ≠ l := by
          rintro rfl
          rw [write.globals_self] at bound
          exact notNew ⟨nonzero, bound⟩
        rw [write.globals_of_ne ne] at bound
        exact index.latest_of_globals bound nonzero

end Rewrite

/-! ### The operations are rewrites -/

/-- The sharers of a global name are a matter of the entries alone, so a successor can be
picked before or after the index is written. -/
theorem sharers_congr (h : u.globals = t.globals) (g : Name) : u.sharers g = t.sharers g := by
  simp only [sharers, toList, h]

theorem getElem?_insert_name (m : Std.ExtTreeMap Name Name) (k a j : Name) :
    (m.insert k a)[j]? = if j = k then some a else m[j]? := by
  rw [Std.ExtTreeMap.getElem?_insert]
  by_cases same : j = k
  · simp [same]
  · simp [same, Ne.symm same]

theorem getElem?_erase_name (m : Std.ExtTreeMap Name Name) (k j : Name) :
    (m.erase k)[j]? = if j = k then none else m[j]? := by
  rw [Std.ExtTreeMap.getElem?_erase]
  by_cases same : j = k
  · simp [same]
  · simp [same, Ne.symm same]

/-- A new entry rewrites nothing that was remembered: its local name was not live, so no
global name has to be handed over. -/
theorem rewrite_made (rule : SuccessorRule) {g nextLocal nextGlobal : Name} (index : t.Indexed)
    (free : IsFree t.isLive l) :
    Rewrite rule l (some g) t
      { nextLocal, nextGlobal
        globals := t.globals.insert l g
        latest := if g = 0 then t.latest else t.latest.insert g l } where
  globals := getElem?_insert_name t.globals l g
  latest := by
    intro h
    have dead := isLive_eq_false_iff.mp free.2
    rw [if_neg (index.latest_ne_of_not_live dead h)]
    by_cases zero : g = 0
    · have old : ¬ (h ≠ 0 ∧ some g = some h) := by
        rintro ⟨nonzero, same⟩
        exact nonzero ((Option.some.inj same).symm.trans zero)
      rw [if_pos zero, if_neg old]
    · rw [if_neg zero, getElem?_insert_name]
      by_cases same : h = g
      · subst same
        rw [if_pos rfl, if_pos ⟨zero, rfl⟩]
      · rw [if_neg same, if_neg (fun both => same (Option.some.inj both.2).symm)]

/-- Deleting rewrites the entry of the name to none. If the name is not live there is nothing
to rewrite, and the law holds of the table as it is. -/
theorem rewrite_delete (rule : SuccessorRule) (l : Name) (index : t.Indexed) :
    Rewrite rule l none t (t.delete rule l).1 where
  globals := by
    intro k
    rw [globals_delete, getElem?_erase_name]
  latest := by
    intro h
    rw [if_neg (by simp)]
    cases bound : t.globals[l]? with
    | none =>
        rw [delete_of_not_isLive rule (isLive_eq_false_iff.mpr bound),
          if_neg (index.latest_ne_of_not_live bound h)]
    | some g =>
        have deleted : (t.delete rule l).1 =
            release rule l g { t with globals := t.globals.erase l } := by
          simp [delete, bound]
        rw [sharers_congr (t := { t with globals := t.globals.erase l })
          (globals_delete rule t l) h, deleted, latest_release]
        simp only [index.latest_eq_some_iff bound h]
        by_cases same : h = g
        · rw [same]
        · simp [same]

/-- Binding by hand is one rewrite, whether or not the name was live, and also where it was
bound to the same global name before. -/
theorem rewrite_rebind (rule : SuccessorRule) {g : Name} (index : t.Indexed) (hl : l ≠ 0)
    (hg : g ≠ 0) : Rewrite rule l (some g) t (t.rebind rule l g).1 where
  globals := by
    intro k
    rw [globals_rebind rule t hl hg, getElem?_insert_name]
  latest := by
    intro h
    rw [sharers_congr (t := { t with globals := t.globals.insert l g })
      (globals_rebind rule t hl hg) h]
    unfold rebind
    rw [if_neg (by simp [hl, hg])]
    simp only [getElem?_insert_name]
    by_cases new : h = g
    · subst new
      rw [if_pos rfl, if_pos ⟨hg, rfl⟩]
    · rw [if_neg new, if_neg (fun both => new (Option.some.inj both.2).symm)]
      cases bound : t.globals[l]? with
      | none => rw [if_neg (index.latest_ne_of_not_live bound h)]
      | some previous =>
          simp only [index.latest_eq_some_iff bound h]
          by_cases same : previous = g
          · simp [same, new]
          · rw [if_neg same, latest_release]
            by_cases left : h = previous
            · rw [left]
            · simp [left]

/-! ### Every table that a run reaches -/

/-- Every call keeps the maps in agreement, under whatever rule it is carried out. -/
theorem Effect.indexed {c : Call} {event : Option Event} (index : t.Indexed)
    (effect : Effect rule t c event u) : u.Indexed := by
  cases effect with
  | kept | absent | turnedDown => exact index
  | made new hl =>
      have free := isFree_of_newLocal new hl
      exact (rewrite_made rule index free).indexed index fun zero => absurd zero free.1
  | removed => exact (rewrite_delete rule _ index).indexed index fun _ => rfl
  | rebound hl hg => exact (rewrite_rebind rule index hl hg).indexed index fun zero => absurd zero hl

theorem Run.indexed {log : List Turn} (run : Run t log u) (index : t.Indexed) : u.Indexed :=
  run.keeps (fun index effect => effect.indexed index) index

/-- In every table that a run reaches the two maps agree, and so do the two look-ups: a global
name is answered by a local name exactly when a live local name is bound to it, and the answer
is bound to it. The run may take another rule for each call, so nothing here depends on which
sharer takes over. -/
theorem Run.maps_agree {first : Name} {log : List Turn} (run : Run (starting first) log t) :
    (t.globals[(0 : Name)]? = none ∧ t.latest[(0 : Name)]? = none ∧
      ∀ g : Name, t.latest[g]? ≠ some 0) ∧
    (∀ g l : Name, t.latest[g]? = some l → t.globals[l]? = some g) ∧
    (∀ l g : Name, t.globals[l]? = some g → g ≠ 0 → t.isBound g) ∧
    ∀ g : Name,
      (t.localOf g ≠ 0 ↔ g ≠ 0 ∧ ∃ l, t.isLive l ∧ t.globalOf l = g) ∧
      (t.localOf g ≠ 0 → t.globalOf (t.localOf g) = g) := by
  have index := run.indexed (indexed_starting first)
  refine ⟨⟨index.zero_not_live, index.zero_not_bound, ?_⟩, ?_, ?_, ?_⟩
  · intro g remembered
    exact index.ne_zero_of_latest remembered rfl
  · intro g l remembered
    exact index.globals_of_latest remembered
  · intro l g bound nonzero
    exact isBound_iff.mpr (index.latest_of_globals bound nonzero)
  · intro g
    exact ⟨index.localOf_ne_zero_iff, index.globalOf_localOf⟩

/-- Three local names share `1`. When the latest of them is deleted, the one in the
middle takes over, and when that one is bound to `0xFFFFFFFF`, the first. -/
theorem Run.maps_agree_of_shared :
    ∃ t, Run (starting 1)
      [⟨.generate 0 true, some (.made 1 1)⟩, ⟨.generate 0 false, some (.made 2 0)⟩,
        ⟨.rebind 7 1, some (.rebound 7 1)⟩, ⟨.rebind 8 1, some (.rebound 8 1)⟩,
        ⟨.delete 8, some (.removed 8 1)⟩,
        ⟨.rebind 7 0xFFFFFFFF, some (.rebound 7 0xFFFFFFFF)⟩] t ∧
      (t.localOf 1 ≠ 0 ↔ (1 : Name) ≠ 0 ∧ ∃ l, t.isLive l ∧ t.globalOf l = 1) ∧
      (t.localOf 1 ≠ 0 → t.globalOf (t.localOf 1) = 1) := by
  refine Exists.imp (fun t run => ⟨run, ?_⟩)
    ⟨_, .cons (.nth 0) rfl (.cons (.nth 0) rfl (.cons (.nth 0) rfl (.cons (.nth 0) rfl
      (.cons (.nth 1) rfl (.cons (.nth 0) rfl .start)))))⟩
  exact run.maps_agree.2.2.2 1

end SharedNames.NameTable
