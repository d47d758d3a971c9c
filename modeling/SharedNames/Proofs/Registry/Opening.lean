import SharedNames.Proofs.Registry.Accounts

/-!
All that the own change of an operation can do.

An operation changes a table or makes a group, and leaves what follows to tasks. The
eight cases are listed in `Opening`, and `opening_of_change` says that these are all.
`Opening.balance` is the exact law about the shares, and `Opening.transfer` that an
operation obeys the law of a change, so what it leaves is accounted for.
-/

namespace SharedNames

def Record.totals? : Record → Option (Nat × Nat)
  | groupDestroyed objects payloads => some (objects, payloads)
  | _ => none

namespace Registry

/-! ### What an operation can do -/

/-- All that the own change of an operation can do: the shares that it takes, and the
change. -/
inductive Opening (r : Registry) : Operation → List Handle → Change → Prop where
  /-- Nothing changes, and there may be a record of that. -/
  | unchanged {operation : Operation} {reply : Reply} (records : List Record) :
      (∀ record ∈ records, record.totals? = none) →
      Opening r operation [] ⟨reply, r, [], records.map .noted⟩
  | created {key : ContextKey} (records : List Record) :
      (∀ record ∈ records, record.totals? = none) →
      Opening r (.create key) [.group r.groupsMade]
        { reply := .group r.groupsMade
          registry :=
            { r with
              keys := r.keys.insert key r.groupsMade
              groups := r.groups.insert r.groupsMade r.settings.newGroup
              groupsMade := r.groupsMade + 1 }
          tasks := releaseGroup r.keys[key]?
          journal := records.map .noted ++ [.groupMade r.groupsMade key] }
  | attached {key existing : ContextKey} {g : GroupId} : r.keys[existing]? = some g →
      Opening r (.attach key existing) [.group g]
        { reply := .group g
          registry := { r with keys := r.keys.insert key g }
          tasks := releaseGroup r.keys[key]?
          journal := [.noted (.keyAttached key existing)] }
  | detached {key : ContextKey} {g : GroupId} : r.keys[key]? = some g →
      Opening r (.detach key) []
        { reply := .done
          registry := { r with keys := r.keys.erase key }
          tasks := releaseGroup (some g)
          journal := [.noted
            (.keyDetached key
              (({ r with keys := r.keys.erase key } : Registry).shares (.group g)))] }
  | kept {slot : String} {key : ContextKey} {g : GroupId} : r.keys[key]? = some g →
      Opening r (.keep slot key) [.group g]
        { reply := .group g
          registry := { r with slots := r.slots.insert slot g }
          tasks := releaseGroup r.slots[slot]?
          journal := [] }
  | letGo {slot : String} {g : GroupId} : r.slots[slot]? = some g →
      Opening r (.letGo slot) []
        ⟨.done, { r with slots := r.slots.erase slot }, releaseGroup (some g), []⟩
  | released {name : String} {p : PayloadId} : r.held[name]? = some p →
      Opening r (.releaseHeld name) []
        ⟨.done, { r with held := r.held.erase name }, [.release (.payload p)], []⟩
  | acting {target : GroupRef} {action : Action} {g : GroupId} : r.find? target = some g →
      Opening r (.act target action) [.group g] ⟨.done, r, [.act .client g action], []⟩

variable {r : Registry} {operation : Operation} {gained : List Handle} {change : Change}

/-- The own change of every operation is one of the openings. It is there for every operation:
a refusal is an opening that changes nothing. -/
theorem opening_of_change (r : Registry) (operation : Operation) :
    ∃ gained, Opening r operation gained (r.change operation) := by
  cases operation with
  | create key =>
      simp only [change, create]
      split
      · exact ⟨_, .created [] (by simp)⟩
      · rename_i g _
        exact ⟨_, .unchanged [.keyReused key] (by simp [Record.totals?])⟩
      · exact ⟨_, .created [.groupReplaced key] (by simp [Record.totals?])⟩
  | attach key existing =>
      simp only [change, attach]
      split
      · exact ⟨_, .unchanged [.attachRefused key existing] (by simp [Record.totals?])⟩
      · rename_i found
        exact ⟨_, .attached found⟩
  | detach key =>
      simp only [change, detach]
      split
      · exact ⟨_, .unchanged [] (by simp)⟩
      · rename_i found
        exact ⟨_, .detached found⟩
  | keep slot key =>
      simp only [change, keep]
      split
      · exact ⟨_, .unchanged [] (by simp)⟩
      · rename_i found
        exact ⟨_, .kept found⟩
  | letGo slot =>
      simp only [change, letGo]
      split
      · exact ⟨_, .unchanged [] (by simp)⟩
      · rename_i found
        exact ⟨_, .letGo found⟩
  | releaseHeld name =>
      simp only [change, releaseHeld]
      split
      · exact ⟨_, .unchanged [] (by simp)⟩
      · rename_i found
        exact ⟨_, .released found⟩
  | act target action =>
      simp only [change]
      split
      · exact ⟨_, .unchanged [] (by simp)⟩
      · rename_i found
        exact ⟨_, .acting found⟩

theorem Opening.settings_eq (opening : Opening r operation gained change) :
    change.registry.settings = r.settings := by
  cases opening <;> rfl

/-! ### What an operation does to the shares -/

theorem pending_releaseGroup (g : Option GroupId) (h : Handle) :
    pending (releaseGroup g) h = (g.toList.map Handle.group).count h := by
  cases g <;> rfl

/-- An operation moves shares to the tasks that have to follow, and adds those that it gains.
It never gives one up itself: even a detach hands the share of the key to a release. -/
theorem Opening.balance (opening : Opening r operation gained change)
    (fresh : r.groups[r.groupsMade]? = none) (h : Handle) :
    change.registry.sharesWith change.tasks h = r.shares h + gained.count h := by
  simp only [sharesWith]
  cases opening with
  | unchanged => rfl
  | @created key records =>
      have keys := sharesIn_insert (fun g => [Handle.group g]) r.keys h key r.groupsMade
      have groups := sharesIn_insert ObjectGroup.handles r.groups h r.groupsMade r.settings.newGroup
      simp only [fresh, Option.toList_none, List.flatMap_nil, List.count_nil, Settings.newGroup,
        ObjectGroup.handles_starting] at groups
      simp only [← List.map_eq_flatMap] at keys
      simp only [shares_eq, pending_releaseGroup, Settings.newGroup]
      omega
  | @attached key existing g found =>
      have keys := sharesIn_insert (fun g => [Handle.group g]) r.keys h key g
      simp only [← List.map_eq_flatMap] at keys
      simp only [shares_eq, pending_releaseGroup]
      omega
  | @detached key g found =>
      have keys := sharesIn_erase (fun g => [Handle.group g]) r.keys h key
      simp only [found, ← List.map_eq_flatMap] at keys
      simp only [shares_eq, pending_releaseGroup, List.count_nil]
      omega
  | @kept slot key g found =>
      have slots := sharesIn_insert (fun g => [Handle.group g]) r.slots h slot g
      simp only [← List.map_eq_flatMap] at slots
      simp only [shares_eq, pending_releaseGroup]
      omega
  | @letGo slot g found =>
      have slots := sharesIn_erase (fun g => [Handle.group g]) r.slots h slot
      simp only [found, ← List.map_eq_flatMap] at slots
      simp only [shares_eq, pending_releaseGroup, List.count_nil]
      omega
  | @released name p found =>
      have held := sharesIn_erase (fun p => [Handle.payload p]) r.held h name
      simp only [found, Option.toList_some, List.flatMap_singleton] at held
      simp only [shares_eq, pending_cons, pending_nil, Task.handles, List.count_nil]
      omega
  | acting found => rfl

/-- An operation takes shares only of what has shares already, or of what it made. A group is
thus never brought back once its last share is gone. -/
theorem Opening.shared (opening : Opening r operation gained change) {h : Handle}
    (mem : h ∈ gained) : 0 < r.shares h ∨ h ∈ change.journal.made := by
  cases opening with
  | unchanged | detached | letGo | released => cases mem
  | @created key records =>
      obtain rfl : h = .group r.groupsMade := List.mem_singleton.mp mem
      right
      simp [Journal.made, Entry.made?]
  | @attached key existing g found =>
      obtain rfl : h = .group g := List.mem_singleton.mp mem
      exact .inl (shares_group_pos_iff.mpr (.inl ⟨existing, found⟩))
  | @kept slot key g found =>
      obtain rfl : h = .group g := List.mem_singleton.mp mem
      exact .inl (shares_group_pos_iff.mpr (.inl ⟨key, found⟩))
  | @acting target action g found =>
      obtain rfl : h = .group g := List.mem_singleton.mp mem
      exact .inl (shares_pos_of_find found)

/-- The number that the next group gets is not in use. -/
theorem Accounted.fresh_group {tasks : List Task} (accounted : Accounted r tasks) :
    r.groups[r.groupsMade]? = none := by
  by_contra found
  obtain ⟨group, found⟩ := Option.ne_none_iff_exists'.mp found
  exact Nat.lt_irrefl _ (accounted.made_of_has (.group _) (has_group_iff.mpr ⟨group, found⟩))

theorem made_records (records : List Record) : Journal.made (records.map .noted) = [] := by
  simp [Journal.made, Entry.made?]

theorem destroyed_records (records : List Record) :
    Journal.destroyed (records.map .noted) = [] := by
  simp [Journal.destroyed, Entry.destroyed?]

/-- No operation destroys anything itself. Whatever is destroyed is destroyed by a release
that follows. -/
theorem Opening.destroyed_nil (opening : Opening r operation gained change) :
    change.journal.destroyed = [] := by
  cases opening with
  | unchanged records => exact destroyed_records records
  | created records =>
      rw [Journal.destroyed_append, destroyed_records]
      rfl
  | attached | detached | kept | letGo | released | acting => rfl

/-- Every operation obeys the law, as its tasks do: it destroys nothing, and the shares that
it gains are of the group that it makes or of one that has shares. A whole call is then one
chain of lawful changes. -/
theorem Opening.transfer (opening : Opening r operation gained change)
    (accounted : Accounted r []) :
    Transfer r [] change.journal change.registry change.tasks := by
  have balance := opening.balance accounted.fresh_group
  have nothing := opening.destroyed_nil
  have shared : ∀ h ∈ gained, 0 < r.sharesWith [] h ∨ h ∈ change.journal.made :=
    fun h => opening.shared
  have sharedOld (nothing : change.journal.made = []) : ∀ h ∈ gained, 0 < r.sharesWith [] h := by
    intro h mem
    exact (shared h mem).resolve_right fun made => by rw [nothing] at made; cases made
  cases opening with
  | unchanged records _ =>
      exact .of_shared ⟨nothing, made_records records⟩ (fun h => .rfl) (fun h => .rfl) balance
        (sharedOld (made_records records))
  | @created key records =>
      have one : Journal.made (records.map .noted ++ [.groupMade r.groupsMade key]) =
          [.group r.groupsMade] := by
        rw [Journal.made_append, made_records]
        rfl
      refine .of_gain nothing (fun h => ?_) (fun h => ?_) balance shared ?_ ?_ ?_
      · rw [one, List.mem_singleton]
        cases h with
        | group g => simp only [has, contains_insert_iff, Handle.group.injEq]
        | payload p => simp [has]
      · rw [one, List.mem_singleton]
        cases h with
        | group g =>
            simp only [Made, Handle.group.injEq]
            exact Nat.lt_succ_iff_lt_or_eq
        | payload p => simp [Made]
      · simp [one]
      · simp [one, Made]
      · simp [one]
  | attached | detached | kept | letGo | released | acting =>
      refine .of_shared ⟨nothing, rfl⟩ (fun h => ?_) (fun h => ?_) balance (sharedOld rfl)
      · cases h <;> rfl
      · cases h <;> rfl

end Registry

end SharedNames
