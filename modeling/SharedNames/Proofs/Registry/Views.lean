import SharedNames.Proofs.Registry.Soundness

/-!
The views of a group agree.

A client that asks whether a name is an object, which global name it has or what objects
there are reads the same table three times. The answers agree only if no object is bound to
`0`: a name table on its own allows that, a group does not. It always asks for a global
name, and no table binds a name to `0` when it is told to (`Effect.fullyBound`), so the
entries of all groups are `FullyBound` at every moment, whichever counters went round.

* `Indexed.viewsAgree`: in a table whose two maps agree and whose entries are fully bound,
  all views agree.
* `Run.views_agree`: these are the tables of every group at every moment of a run.
-/

namespace SharedNames

namespace NameTable

variable {rule : SuccessorRule} {c : Call} {event : Option Event} {t u : NameTable}

/-! ### No entry is bound to `0` -/

/-- Every live local name has a global name. -/
def FullyBound (t : NameTable) : Prop :=
  ∀ l : Name, t.globals[l]? ≠ some 0

theorem fullyBound_starting (first : Name) : (starting first).FullyBound := by
  intro l
  simp [starting]

/-- Making an entry with a global name keeps a table fully bound, whether the name was live or
not. -/
theorem FullyBound.insert (bound : t.FullyBound) {l g : Name} (nonzero : g ≠ 0)
    (written : u.globals = t.globals.insert l g) : u.FullyBound := by
  intro k
  rw [written, Std.ExtTreeMap.getElem?_insert]
  split
  · intro same
    exact nonzero (Option.some.inj same)
  · exact bound k

/-- A call keeps a table fully bound unless it creates a name without a global name. Groups
never make such a call. -/
theorem Effect.fullyBound (effect : Effect rule t c event u) (bound : t.FullyBound)
    (withGlobal : ∀ requested, c ≠ .generate requested false) : u.FullyBound := by
  cases effect with
  | kept | absent | turnedDown => exact bound
  | @made requested l g asked _ _ found =>
      cases asked with
      | false => exact absurd rfl (withGlobal requested)
      | true =>
          have free : IsFree t.isBound g := isFree_of_nextFree found
          exact bound.insert free.1 rfl
  | @removed l =>
      intro k
      rw [globals_delete, Std.ExtTreeMap.getElem?_erase]
      split
      · simp
      · exact bound k
  | rebound hl hg => exact bound.insert hg (globals_rebind rule t hl hg)

/-! ### The views -/

/-- What can be asked about the names of a table has answers that agree. -/
structure ViewsAgree (t : NameTable) : Prop where
  /-- The look-up of a local name answers `0` only where there is no object. -/
  live_iff_globalOf : ∀ l, t.isLive l ↔ t.globalOf l ≠ 0
  live_iff_listed : ∀ l, t.isLive l ↔ l ∈ t.toList.map Prod.fst
  /-- Every object is listed once. -/
  listed_once : (t.toList.map Prod.fst).Nodup
  /-- An object is listed with its global name, and neither name is `0`. -/
  of_listed : ∀ l g, (l, g) ∈ t.toList → g = t.globalOf l ∧ l ≠ 0 ∧ g ≠ 0
  length_list : t.toList.length = t.size
  /-- The global name of an object leads back to an object with this global name. -/
  localOf_globalOf : ∀ l, t.isLive l →
    t.isLive (t.localOf (t.globalOf l)) ∧ t.globalOf (t.localOf (t.globalOf l)) = t.globalOf l

theorem isLive_iff_mem_keys {l : Name} : t.isLive l ↔ l ∈ t.toList.map Prod.fst := by
  rw [isLive_iff, List.mem_map]
  constructor
  · rintro ⟨g, entry⟩
    exact ⟨(l, g), mem_toList.mpr entry, rfl⟩
  · rintro ⟨⟨k, g⟩, listed, rfl⟩
    exact ⟨g, mem_toList.mp listed⟩

/-- In a sound table in which every object has a global name, the views agree. Without the
second part the look-up of a local name could not tell an object without a global name from
none. -/
theorem Indexed.viewsAgree (index : t.Indexed) (bound : t.FullyBound) : t.ViewsAgree where
  live_iff_globalOf l := by
    rw [isLive_iff]
    constructor
    · rintro ⟨g, entry⟩ zero
      rw [globalOf_eq_of_globals entry] at zero
      subst zero
      exact bound l entry
    · intro nonzero
      cases entry : t.globals[l]? with
      | none => exact absurd (by rw [globalOf, entry]; rfl) nonzero
      | some g => exact ⟨g, rfl⟩
  live_iff_listed l := isLive_iff_mem_keys
  listed_once := by
    have keys : t.toList.map Prod.fst = t.globals.keys := Std.ExtTreeMap.map_fst_toList_eq_keys
    rw [keys]
    exact Std.ExtTreeMap.nodup_keys
  of_listed l g listed := by
    have entry := mem_toList.mp listed
    refine ⟨(globalOf_eq_of_globals entry).symm, index.ne_zero_of_globals entry, ?_⟩
    rintro rfl
    exact bound l entry
  length_list := length_toList t
  localOf_globalOf l live := by
    obtain ⟨g, entry⟩ := isLive_iff.mp live
    have nonzero : g ≠ 0 := by
      rintro rfl
      exact bound l entry
    rw [globalOf_eq_of_globals entry]
    have answered : t.localOf g ≠ 0 :=
      index.localOf_ne_zero_iff.mpr ⟨nonzero, l, live, globalOf_eq_of_globals entry⟩
    have remembered := (index.localOf_eq_iff answered).mp rfl
    exact ⟨isLive_iff.mpr ⟨g, index.globals_of_latest remembered⟩, index.globalOf_localOf answered⟩

end NameTable

/-! ### Groups -/

namespace ObjectGroup

def FullyBound (group : ObjectGroup) : Prop :=
  ∀ kind, (group.names kind).FullyBound

theorem fullyBound_starting (first : Name) : (starting first).FullyBound := by
  intro kind
  rw [names, table, starting, PerKind.get_const]
  exact NameTable.fullyBound_starting first

end ObjectGroup

/-- A request that makes an object asks for both of its names, so the tables of groups are
fully bound. -/
theorem ObjectTable.fullyBound_of_handle {rule : NameTable.SuccessorRule} {request : Request}
    {t : ObjectTable} {out : Outcome} (bound : t.names.FullyBound)
    (answered : t.handle rule request = some out) : out.table.names.FullyBound :=
  names_keep (fun effect => effect.fullyBound bound) bound answered

theorem ObjectGroup.fullyBound_of_handle {rule : NameTable.SuccessorRule} {kind : ObjectKind}
    {request : ObjectTable.Request} {group : ObjectGroup} {out : Outcome}
    (bound : group.FullyBound) (answered : group.handle rule kind request = some out) :
    out.group.FullyBound :=
  tables_keep (P := fun t => t.names.FullyBound) ObjectTable.fullyBound_of_handle bound answered

/-! ### Runs -/

namespace Registry.Run

variable {settings : Settings} {operations : List Operation} {log : Journal} {r : Registry}
  {tasks : List Task}

/-- At every moment of every run, and for every kind of objects of every group, the views
of the names agree: a name is an object exactly when its global name is not `0` and exactly
when it is listed. The list has every object once, and as many as the group counts. -/
theorem views_agree (run : Run settings operations log r tasks) {g : GroupId}
    {group : ObjectGroup} (found : r.groups[g]? = some group) (kind : ObjectKind) :
    (group.names kind).ViewsAgree ∧ (group.names kind).toList.length = group.count kind := by
  have sound := run.sound g group found
  have bound := run.groups ObjectGroup.fullyBound_starting ObjectGroup.fullyBound_of_handle
    g group found
  have agree := (sound kind).index.viewsAgree (bound kind)
  exact ⟨agree, agree.length_list⟩

/-- Both counters went round past `0xFFFFFFFF`, reserved names were turned down, and three
names share a global name of which the latest was deleted. -/
theorem views_agree_past_the_largest :
    ∃ log r, Run ⟨.reuse, 0xFFFFFFFF⟩
        [.create (.handle 1), .act (.key (.handle 1)) (.generate .texture [0, 0, 7]),
          .act (.key (.handle 1)) (.rebind .texture 0 5),
          .act (.key (.handle 1)) (.rebind .texture 5 0),
          .act (.key (.handle 1)) (.rebind .texture 8 0xFFFFFFFF),
          .act (.key (.handle 1)) (.rebind .texture 9 0xFFFFFFFF),
          .act (.key (.handle 1)) (.delete .texture 9)] log r [] ∧
      (r.groups[0]?.map fun group => (group.names .texture).toList) =
        some [(1, 1), (7, 2), (8, 0xFFFFFFFF), (0xFFFFFFFF, 0xFFFFFFFF)] ∧
      ∃ group, r.groups[0]? = some group ∧ (group.names .texture).ViewsAgree := by
  have fresh : Run ⟨.reuse, 0xFFFFFFFF⟩ [] [] _ [] := .start
  have run := fresh.performAll .standard
    [.create (.handle 1), .act (.key (.handle 1)) (.generate .texture [0, 0, 7]),
      .act (.key (.handle 1)) (.rebind .texture 0 5),
      .act (.key (.handle 1)) (.rebind .texture 5 0),
      .act (.key (.handle 1)) (.rebind .texture 8 0xFFFFFFFF),
      .act (.key (.handle 1)) (.rebind .texture 9 0xFFFFFFFF),
      .act (.key (.handle 1)) (.delete .texture 9)] (by decide)
  refine ⟨_, _, run, (and_iff_left_of_imp fun listed => ?_).mpr (by decide)⟩
  obtain ⟨group, found, -⟩ := Option.map_eq_some_iff.mp listed
  exact ⟨group, found, (run.views_agree found .texture).1⟩

end Registry.Run

end SharedNames
