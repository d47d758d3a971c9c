import SharedNames.NameTable.Lemmas
import SharedNames.Proofs.Registry.Run

/-!
How long a group lives.

A group is there as long as it has a share: a key attached to it, a slot that keeps it,
a payload whose destructor holds it, or, while something is going on, a task that acts
on it. It is destroyed together with its last share, once, with a record of what it then
held, and no event after that is about it.

* `shares_group` counts the shares of a group by their owners.
* `Effect.of_groupDestroyed` says when a task destroys a group.
* `Run.silent_after_destruction`: what is destroyed is not heard of again.
* `perform_of_release`: where an operation takes a share of a group from a key or a slot,
  the group is destroyed next exactly when there are no more.
* `shares_detach`: the record of a detached key has the number of these.
* `Run.group_lifetimes` puts these together for every moment of every run.
-/

namespace SharedNames

def Entry.group? : Entry → Option GroupId
  | groupMade g _ | performed _ g _ _ _ _ | payloadRefused _ g _ _ _ | groupDestroyed g _ _ =>
      some g
  | noted _ | payloadMade _ _ | payloadDestroyed _ _ => none

/-- A later event is not about a group that an event destroyed. -/
def Entry.SilentAfter (entry later : Entry) : Prop :=
  ∀ g, entry.destroyed? = some (.group g) → later.group? ≠ some g

def Entry.totals? : Entry → Option (Nat × Nat)
  | groupDestroyed _ objects payloads => some (objects, payloads)
  | _ => none

/-! ### The totals of a group -/

theorem ObjectGroup.objectTotal_eq (group : ObjectGroup) :
    group.objectTotal = Registry.total (ObjectKind.all.map group.count) := by
  simp only [objectTotal, List.length_flatMap, NameTable.length_toList]
  rfl

theorem ObjectGroup.payloadTotal_eq (group : ObjectGroup) :
    group.payloadTotal =
      Registry.total (ObjectKind.all.map fun kind => (group.table kind).payloads.size) := by
  simp only [payloadTotal, payloadShares, List.length_flatMap, length_valuesOf]
  rfl

namespace Registry

/-! ### The owners of a group -/

def attachedKeys (r : Registry) (g : GroupId) : Nat :=
  (r.keys.toList.filter fun entry => entry.2 = g).length

def keepingSlots (r : Registry) (g : GroupId) : Nat :=
  (r.slots.toList.filter fun entry => entry.2 = g).length

/-- How many payloads have a destructor that holds a group. -/
def actingPayloads (r : Registry) (g : GroupId) : Nat :=
  (r.payloads.toList.filter fun entry => entry.2.destructor.any fun d => d.target = g).length

/-- Where each value owns at most one share, the shares are the values that own one. -/
theorem sharesIn_eq_length {κ α : Type} {cmp : κ → κ → Ordering} [Std.TransCmp cmp]
    (own : α → List Handle) (m : Std.ExtTreeMap κ α cmp) (h : Handle) (owns : α → Bool)
    (count_own : ∀ a, (own a).count h = if owns a then 1 else 0) :
    sharesIn own m h = (m.toList.filter fun entry => owns entry.2).length := by
  unfold sharesIn valuesOf
  induction m.toList with
  | nil => rfl
  | cons entry entries ih =>
      rw [List.map_cons, List.flatMap_cons, List.count_append, ih, count_own, List.filter_cons]
      cases owns entry.2 <;> simp [Nat.add_comm]

/-- The shares of a group are its keys, the slots that keep it and the destructors that will
act on it. This is the number that the record of a detached key shows. -/
theorem shares_group (r : Registry) (g : GroupId) :
    r.shares (.group g) = r.attachedKeys g + r.keepingSlots g + r.actingPayloads g := by
  have keys := sharesIn_eq_length (fun g => [.group g]) r.keys (.group g) (fun j => j = g)
    (fun j => by by_cases same : j = g <;> simp [same])
  have slots := sharesIn_eq_length (fun g => [.group g]) r.slots (.group g) (fun j => j = g)
    (fun j => by by_cases same : j = g <;> simp [same])
  have payloads := sharesIn_eq_length Payload.handles r.payloads (.group g)
    (fun payload => payload.destructor.any fun d => d.target = g) (fun payload => by
      cases acts : payload.destructor with
      | none => simp [Payload.handles, acts]
      | some d => by_cases same : d.target = g <;> simp [Payload.handles, acts, same])
  have held : sharesIn (fun p => [.payload p]) r.held (.group g) = 0 :=
    Nat.eq_zero_of_not_pos fun pos => by simpa using (sharesIn_pos_iff _ _ _).mp pos
  have groups : sharesIn ObjectGroup.handles r.groups (.group g) = 0 := by
    refine Nat.eq_zero_of_not_pos fun pos => ?_
    obtain ⟨_, _, _, mem⟩ := (sharesIn_pos_iff _ _ _).mp pos
    obtain ⟨_, _, _, _, same⟩ := ObjectGroup.mem_handles.mp mem
    cases same
  rw [shares_eq, keys, slots, payloads, held, groups]
  rfl

/-! ### The events of a group -/

section Events

variable {policy : Policy} {rest tasks : List Task} {r : Registry} {task : Task} {step : Step}
  {gained : List Handle} {operation : Operation} {change : Change} {g : GroupId}

/-- A task destroys a group when it gives up the last share. Its event has the numbers of
objects and payloads of all kinds, and nothing else happens. -/
theorem Effect.of_groupDestroyed (effect : Effect policy rest r task gained step)
    {objects payloads : Nat} (mem : .groupDestroyed g objects payloads ∈ step.journal) :
    task = .release (.group g) ∧ r.sharesWith rest (.group g) = 0 ∧
      step.journal = [.groupDestroyed g objects payloads] ∧ step.registry.has (.group g) = false ∧
      ∃ group, r.groups[g]? = some group ∧ objects = total (ObjectKind.all.map group.count) ∧
        payloads = total (ObjectKind.all.map fun kind => (group.table kind).payloads.size) := by
  cases effect with
  | kept | absent | unanswered | idle => cases mem
  | payloadDestroyed | answered | refused | offered =>
      cases List.mem_singleton.mp mem
  | @attached _ _ _ _ _ name => cases name <;> cases mem
  | fetched => cases mem
  | @groupDestroyed g' group last found =>
      cases List.mem_singleton.mp mem
      refine ⟨rfl, last, rfl, ?_, group, found, group.objectTotal_eq, group.payloadTotal_eq⟩
      simp [has]

/-- The events of a task are about groups that are there: a task has a share of its group
until it is done. -/
theorem Effect.group_there (effect : Effect policy rest r task gained step)
    (accounted : Accounted r (task :: rest)) {entry : Entry} (mem : entry ∈ step.journal)
    (about : entry.group? = some g) : r.has (.group g) := by
  cases effect with
  | kept | absent | unanswered | idle => cases mem
  | payloadDestroyed | offered =>
      cases List.mem_singleton.mp mem
      cases about
  | @attached _ _ _ _ _ name => cases name <;> cases mem
  | fetched => cases mem
  | @groupDestroyed g group last found =>
      cases List.mem_singleton.mp mem
      cases about
      exact has_group_iff.mpr ⟨group, found⟩
  | @answered task ask group out asks found answered =>
      cases List.mem_singleton.mp mem
      cases about
      exact has_group_iff.mpr ⟨group, found⟩
  | @refused issuer g action offer offers unnamed dead =>
      cases List.mem_singleton.mp mem
      cases about
      exact (accounted.has_iff _).mpr (sharesWith_pos_of_mem List.mem_cons_self)

/-- The only group that the own events of an operation are about is a new one. -/
theorem Opening.group_new (opening : Opening r operation gained change) {entry : Entry}
    (mem : entry ∈ change.journal) (about : entry.group? = some g) : ¬ r.Made (.group g) := by
  cases opening with
  | unchanged records =>
      obtain ⟨record, -, rfl⟩ := List.mem_map.mp mem
      cases about
  | created records =>
      rcases List.mem_append.mp mem with noted | made
      · obtain ⟨record, -, rfl⟩ := List.mem_map.mp noted
        cases about
      · cases List.mem_singleton.mp made
        cases about
        exact Nat.lt_irrefl _
  | attached | detached =>
      cases List.mem_singleton.mp mem
      cases about
  | kept | letGo | released | acting => cases mem

/-- Records about keys are made by operations only. -/
theorem Effect.ne_noted (effect : Effect policy rest r task gained step) {entry : Entry}
    (mem : entry ∈ step.journal) (record : Record) : entry ≠ .noted record := by
  cases effect with
  | @attached _ _ _ _ _ name => cases name <;> cases mem
  | kept | absent | unanswered | idle | fetched => cases mem
  | groupDestroyed | payloadDestroyed | answered | refused | offered =>
      cases List.mem_singleton.mp mem
      exact nofun

/-- A task has one event at most, so every event has a moment of its own. -/
theorem Effect.length_journal_le (effect : Effect policy rest r task gained step) :
    step.journal.length ≤ 1 := by
  cases effect with
  | @attached _ _ _ _ _ name => cases name <;> exact Nat.zero_le 1
  | kept | absent | unanswered | idle | fetched => exact Nat.zero_le 1
  | groupDestroyed | payloadDestroyed | answered | refused | offered => exact Nat.le_refl 1

theorem Opening.totals_record (opening : Opening r operation gained change) {entry : Entry}
    (mem : entry ∈ change.journal) : entry.record?.bind Record.totals? = entry.totals? := by
  cases opening with
  | unchanged records other =>
      obtain ⟨record, listed, rfl⟩ := List.mem_map.mp mem
      exact other record listed
  | created records other =>
      rcases List.mem_append.mp mem with noted | made
      · obtain ⟨record, listed, rfl⟩ := List.mem_map.mp noted
        exact other record listed
      · cases List.mem_singleton.mp made
        rfl
  | attached | detached =>
      cases List.mem_singleton.mp mem
      rfl
  | kept | letGo | released | acting => cases mem

end Events

theorem totals_record_of_ne_noted {entry : Entry} (other : ∀ record, entry ≠ .noted record) :
    entry.record?.bind Record.totals? = entry.totals? := by
  cases entry with
  | noted record => exact absurd rfl (other record)
  | performed issuer g kind request answer event => cases event <;> rfl
  | groupMade | payloadMade | payloadRefused | payloadDestroyed | groupDestroyed => rfl

theorem silent_of_short {journal : Journal} (short : journal.length ≤ 1) :
    journal.Pairwise Entry.SilentAfter := by
  cases journal with
  | nil => exact .nil
  | cons entry more =>
      cases more with
      | nil => exact List.pairwise_singleton _ entry
      | cons => simp at short

/-- Events about groups that are there, or that are new, are silent about the destroyed ones:
the books say that those were made and are not there. -/
theorem silent_append {log journal : Journal} {r : Registry} (books : Books log r)
    (silent : log.Pairwise Entry.SilentAfter) (own : journal.Pairwise Entry.SilentAfter)
    (there : ∀ entry ∈ journal, ∀ g, entry.group? = some g →
      r.has (.group g) ∨ ¬ r.Made (.group g)) :
    (log ++ journal).Pairwise Entry.SilentAfter := by
  refine List.pairwise_append.mpr ⟨silent, own, fun entry mem later mem' g destroyed about => ?_⟩
  have listed : .group g ∈ log.destroyed := List.mem_filterMap.mpr ⟨entry, mem, destroyed⟩
  obtain ⟨made, gone⟩ := (books.destroyed_iff _).mp listed
  exact (there later mem' g about).elim gone fun new => new made

namespace Run

variable {settings : Settings} {operations : List Operation} {log : Journal} {r : Registry}
  {tasks : List Task}

/-- Once a group is destroyed, no event is about it. No number of a group is given out twice,
so none can come back either. -/
theorem silent_after_destruction (run : Run settings operations log r tasks) :
    log.Pairwise Entry.SilentAfter := by
  refine (run.invariant (P := fun log r _ => Books log r ∧ log.Pairwise Entry.SilentAfter)
    ⟨books_empty settings, .nil⟩ ?_ ?_).2
  · rintro log r operation gained change ⟨books, silent⟩ accounted opening
    refine ⟨(opening.transfer accounted).books accounted books, ?_⟩
    have own : change.journal.Pairwise Entry.SilentAfter := by
      refine List.pairwise_of_forall_mem_list fun entry mem later _ g destroyed => ?_
      have listed : .group g ∈ change.journal.destroyed :=
        List.mem_filterMap.mpr ⟨entry, mem, destroyed⟩
      rw [opening.destroyed_nil] at listed
      cases listed
    exact silent_append books silent own fun entry mem g about => .inr (opening.group_new mem about)
  · rintro log r task rest policy gained step ⟨books, silent⟩ accounted effect
    refine ⟨(effect.transfer accounted).books accounted books, ?_⟩
    exact silent_append books silent (silent_of_short effect.length_journal_le)
      fun entry mem g about => .inl (effect.group_there accounted mem about)

/-- The records of destroyed groups are those of the events that destroyed them, in the same
order. A reader of the records misses none and sees none twice. -/
theorem totals_records (run : Run settings operations log r tasks) :
    log.records.filterMap Record.totals? = log.filterMap Entry.totals? := by
  have own : ∀ entry ∈ log, entry.record?.bind Record.totals? = entry.totals? := by
    refine run.invariant
      (P := fun log _ _ => ∀ entry ∈ log, entry.record?.bind Record.totals? = entry.totals?)
      (fun _ mem => by cases mem) ?_ ?_
    · rintro log r operation gained change before - opening entry mem
      exact (List.mem_append.mp mem).elim (before entry) fun new => opening.totals_record new
    · rintro log r task rest policy gained step before - effect entry mem
      rcases List.mem_append.mp mem with old | new
      · exact before entry old
      · exact totals_record_of_ne_noted (effect.ne_noted new)
  rw [Journal.records, List.filterMap_filterMap]
  exact List.filterMap_congr own

end Run

/-! ### Operations -/

section Operations

variable {policy : Policy} {r : Registry} {g : GroupId} {key existing : ContextKey}
  {operation : Operation}

/-- Where an operation takes a share of a group from somebody, the group is destroyed next if
that was the last one. Else nothing follows, and the registry is the one that the operation
itself left. -/
theorem perform_of_release (accounted : Accounted r [])
    (releases : (r.change operation).tasks = [.release (.group g)]) :
    ∃ group following,
      (r.change operation).registry.groups[g]? = some group ∧
      (r.perform policy operation).journal = (r.change operation).journal ++ following ∧
      (following.head? = some (.groupDestroyed g group.objectTotal group.payloadTotal) ↔
        (r.change operation).registry.shares (.group g) = 0) ∧
      (0 < (r.change operation).registry.shares (.group g) →
        following = [] ∧
          (r.perform policy operation).registry = (r.change operation).registry) := by
  obtain ⟨gained, opening⟩ := opening_of_change r operation
  have opened := (opening.transfer accounted).accounted accounted
  rw [releases] at opened
  obtain ⟨group, there⟩ := has_group_iff.mp <| (opened.has_iff (.group g)).mpr <| by
    rw [sharesWith_release]
    exact Nat.succ_pos _
  refine ⟨group, _, there, rfl, ?_⟩
  rw [Registry.perform, releases]
  rcases Nat.eq_zero_or_pos ((r.change operation).registry.shares (.group g)) with last | owned
  · obtain ⟨settled, settles⟩ := settle_release_last_group policy last there
    rw [settles]
    exact ⟨iff_of_true rfl last, fun pos => absurd pos (by omega)⟩
  · rw [settle_release_of_owned owned]
    have silent : (⟨(r.change operation).registry, [], []⟩ : Settled).journal.head? ≠
        some (.groupDestroyed g group.objectTotal group.payloadTotal) := by simp
    exact ⟨iff_of_false silent (by omega), fun _ => ⟨rfl, rfl⟩⟩

/-- A detach takes the key out, records how many shares are left and releases the share of the
key. -/
theorem change_detach (found : r.keys[key]? = some g) :
    r.change (.detach key) =
      { reply := .done
        registry := { r with keys := r.keys.erase key }
        tasks := [.release (.group g)]
        journal := [.noted
          (.keyDetached key
            (({ r with keys := r.keys.erase key } : Registry).shares (.group g)))] } := by
  simp only [change, detach, found]
  rfl

/-- The record of a detached key has the number of shares without that of the key. -/
theorem shares_detach (accounted : Accounted r []) (found : r.keys[key]? = some g) :
    r.shares (.group g) = (r.change (.detach key)).registry.shares (.group g) + 1 := by
  have balance := (Opening.detached found).balance accounted.fresh_group (.group g)
  change
    sharesWith [.release (.group g)] { r with keys := r.keys.erase key } (.group g) = _ at balance
  rw [sharesWith_release, sharesWith_nil] at balance
  rw [change_detach found]
  simpa using balance.symm

/-- Attaching a key to the group that it has changes nothing. The share of the key is taken
anew before the old one is released, so the group is not destroyed in between. -/
theorem perform_attach_same (found : r.keys[existing]? = some g) (same : r.keys[key]? = some g) :
    r.perform policy (.attach key existing) =
      ⟨.group g, r, [.noted (.keyAttached key existing)], []⟩ := by
  have owned : 0 < r.shares (.group g) := shares_group_pos_iff.mpr (.inl ⟨key, same⟩)
  have settles : r.settle policy [.release (.group g)] = ⟨r, [], []⟩ :=
    settle_release_of_owned owned
  simp only [Registry.perform, change, attach, found, same, insert_eq_self same, releaseGroup,
    Option.toList_some, List.map_singleton, settles, List.append_nil]

/-- Creating a group for a key changes nothing where the key keeps the group it has. -/
theorem perform_create_reused (reuse : r.settings.onDuplicate = .reuse)
    (same : r.keys[key]? = some g) :
    r.perform policy (.create key) = ⟨.group g, r, [.noted (.keyReused key)], []⟩ := by
  simp only [Registry.perform, change, create, same, reuse, settle_nil, List.append_nil]

/-- Creating a group for a key releases the group that the key had, where it is replaced. The
new group is made first, and its number is a new one. -/
theorem change_create_replaced (replace : r.settings.onDuplicate = .replace)
    (found : r.keys[key]? = some g) :
    (r.change (.create key)).reply = .group r.groupsMade ∧
      (r.change (.create key)).tasks = [.release (.group g)] ∧
      (r.change (.create key)).journal =
        [.noted (.groupReplaced key), .groupMade r.groupsMade key] := by
  simp only [change, create, found, replace, makeGroup]
  exact ⟨trivial, rfl, trivial⟩

end Operations

/-! ### All groups at all moments -/

/-- The groups of a registry at a moment, where `log` is what happened so far and `tasks`
remain to be done. -/
structure GroupsCounted (log : Journal) (r : Registry) (tasks : List Task) : Prop where
  /-- A group is there as long as a key, a slot or the destructor of a payload has a share
  of it, or something that remains to be done. -/
  there_iff : ∀ g, r.has (.group g) ↔
    0 < r.attachedKeys g + r.keepingSlots g + r.actingPayloads g + pending tasks (.group g)
  /-- A group that was made is there or was destroyed. -/
  destroyed_iff : ∀ g, .group g ∈ log.destroyed ↔ r.Made (.group g) ∧ r.has (.group g) = false
  destroyed_once : log.destroyed.Nodup
  /-- The log has one record for every group that was destroyed, with its numbers. -/
  totals_records : log.records.filterMap Record.totals? = log.filterMap Entry.totals?
  /-- No event is about a group that was destroyed before. -/
  silent : log.Pairwise Entry.SilentAfter
  /-- A client reaches only groups that are there. -/
  there_of_find : ∀ ref g, r.find? ref = some g → r.has (.group g)
  /-- What is done next destroys a group exactly if it leaves it without a share. Then it
  does nothing else, and its event has the numbers of all objects and payloads. -/
  next_step : ∀ policy task rest step g group, tasks = task :: rest →
    r.step policy rest task = some step → r.groups[g]? = some group →
      (.group g ∈ step.journal.destroyed ↔
        step.registry.sharesWith (step.tasks ++ rest) (.group g) = 0) ∧
      (.group g ∈ step.journal.destroyed →
        step.registry.has (.group g) = false ∧
        step.journal = [.groupDestroyed g (total (ObjectKind.all.map group.count))
          (total (ObjectKind.all.map fun kind => (group.table kind).payloads.size))])
  /-- The next operation destroys a group exactly if it leaves it without a share. -/
  next_operation : ∀ policy operation g, tasks = [] → r.has (.group g) →
    (.group g ∈ (r.perform policy operation).journal.destroyed ↔
      (r.perform policy operation).registry.sharesWith
        (r.perform policy operation).residual (.group g) = 0)
  /-- Where an operation takes a share from a key or a slot, the group is destroyed right
  after its own records if that was the last share, and else nothing follows. -/
  next_release : ∀ policy operation g, tasks = [] →
    (r.change operation).tasks = [.release (.group g)] →
    ∃ group following,
      (r.change operation).registry.groups[g]? = some group ∧
      (r.perform policy operation).journal = (r.change operation).journal ++ following ∧
      (following.head? = some (.groupDestroyed g group.objectTotal group.payloadTotal) ↔
        (r.change operation).registry.shares (.group g) = 0) ∧
      (0 < (r.change operation).registry.shares (.group g) →
        following = [] ∧ (r.perform policy operation).registry = (r.change operation).registry)
  /-- The record of a detached key has the number of shares that are left. -/
  next_detach : ∀ key g, tasks = [] → r.keys[key]? = some g →
    ∃ others,
      (r.change (.detach key)).tasks = [.release (.group g)] ∧
      (r.change (.detach key)).journal = [.noted (.keyDetached key others)] ∧
      (r.change (.detach key)).registry.shares (.group g) = others ∧
      r.attachedKeys g + r.keepingSlots g + r.actingPayloads g = others + 1
  /-- A key can be attached to the group that it has, also by its own name. -/
  next_attach : ∀ policy key existing g, tasks = [] → r.keys[existing]? = some g →
    r.keys[key]? = some g →
      r.perform policy (.attach key existing) =
        ⟨.group g, r, [.noted (.keyAttached key existing)], []⟩
  /-- A key that has a group keeps it, or gives up its share for that of a new one. -/
  next_create : ∀ policy key g, tasks = [] → r.keys[key]? = some g →
    (r.settings.onDuplicate = .reuse →
      r.perform policy (.create key) = ⟨.group g, r, [.noted (.keyReused key)], []⟩) ∧
    (r.settings.onDuplicate = .replace →
      r.has (.group r.groupsMade) = false ∧
      (r.change (.create key)).reply = .group r.groupsMade ∧
      (r.change (.create key)).tasks = [.release (.group g)] ∧
      (r.change (.create key)).journal =
        [.noted (.groupReplaced key), .groupMade r.groupsMade key])

theorem groupDestroyed_of_mem {journal : Journal} {g : GroupId}
    (mem : .group g ∈ journal.destroyed) :
    ∃ objects payloads, .groupDestroyed g objects payloads ∈ journal := by
  obtain ⟨entry, listed, destroyed⟩ := List.mem_filterMap.mp mem
  cases entry with
  | groupDestroyed g' objects payloads =>
      cases destroyed
      exact ⟨objects, payloads, listed⟩
  | payloadDestroyed | noted | groupMade | payloadMade | performed | payloadRefused =>
      cases destroyed

namespace Run

variable {settings : Settings} {operations : List Operation} {log : Journal} {r : Registry}
  {tasks : List Task}

/-- At every moment of every run the shares of every group are counted exactly. A group is
there as long as the sum is positive; the detachment that leaves none destroys it, and nothing
is heard of it later. -/
theorem group_lifetimes (run : Run settings operations log r tasks) :
    GroupsCounted log r tasks where
  there_iff g := by
    rw [run.accounted.has_iff, sharesWith, shares_group]
  destroyed_iff g := by
    rw [run.books.destroyed_iff, Bool.not_eq_true]
  destroyed_once := run.books.destroyed_nodup
  totals_records := run.totals_records
  silent := run.silent_after_destruction
  there_of_find ref g found :=
    (run.accounted.has_iff _).mpr
      (Nat.lt_of_lt_of_le (shares_pos_of_find found) (Nat.le_add_right _ _))
  next_step policy task rest step g group pending stepped found := by
    subst pending
    refine ⟨run.step_destroyed_iff stepped (has_group_iff.mpr ⟨group, found⟩), fun mem => ?_⟩
    obtain ⟨gained, effect⟩ := effect_of_step stepped
    obtain ⟨objects, payloads, listed⟩ := groupDestroyed_of_mem mem
    obtain ⟨-, -, alone, gone, group', found', rfl, rfl⟩ := effect.of_groupDestroyed listed
    obtain rfl := Option.some.inj (found.symm.trans found')
    exact ⟨gone, alone⟩
  next_operation policy operation g none there := by
    subst none
    exact run.perform_destroyed_iff policy operation ((run.accounted.has_iff _).mp there)
  next_release policy operation g none releases := by
    subst none
    exact perform_of_release run.accounted releases
  next_detach key g none found := by
    subst none
    have counted := shares_detach run.accounted found
    rw [shares_group] at counted
    refine ⟨_, ?_, ?_, rfl, counted⟩
    · rw [change_detach found]
    · rw [change_detach found]
  next_attach policy key existing g _ found same := perform_attach_same found same
  next_create policy key g none found := by
    subst none
    refine ⟨fun reuse => perform_create_reused reuse found, fun replace => ⟨?_, ?_⟩⟩
    · rw [has, Std.ExtTreeMap.contains_eq_isSome_getElem?, run.accounted.fresh_group]
      rfl
    · exact change_create_replaced replace found

/-- A key attached to the group of its own, and a group replaced for one of its two keys:
it is destroyed when the other key is detached. -/
theorem group_lifetimes_of_replaced :
    ∃ log r, Run ⟨.replace, 1⟩
        [.create (.label "a"), .attach (.label "b") (.label "a"),
          .attach (.label "b") (.label "b"), .create (.label "a"), .detach (.label "b")] log r [] ∧
      log = [.groupMade 0 (.label "a"), .noted (.keyAttached (.label "b") (.label "a")),
        .noted (.keyAttached (.label "b") (.label "b")), .noted (.groupReplaced (.label "a")),
        .groupMade 1 (.label "a"), .noted (.keyDetached (.label "b") 0), .groupDestroyed 0 0 0] ∧
      GroupsCounted log r [] := by
  have fresh : Run ⟨.replace, 1⟩ [] [] _ [] := .start
  have run := fresh.performAll .standard
    [.create (.label "a"), .attach (.label "b") (.label "a"), .attach (.label "b") (.label "b"),
      .create (.label "a"), .detach (.label "b")] (by decide)
  exact ⟨_, _, run, by decide, run.group_lifetimes⟩

end Run

end Registry

end SharedNames
