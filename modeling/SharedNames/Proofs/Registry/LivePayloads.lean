import SharedNames.Proofs.Registry.Lifetime
import SharedNames.Proofs.Registry.Soundness

/-!
Payloads are attached to live names only.

The names of a group and the payloads attached to them are two tables. That every payload
belongs to a live name is part of the soundness of a group; here is what follows from it. A
name starts without a payload whichever way it comes to life, also when a destructor brings
it back while its deletion is still going on, and no group has more payloads than objects.

* `Effect.payload_of_step`: a payload that is there after a task was there before, or the
  task attached it.
* `Run.attached_since`: every payload was attached after the last deletion of its name.
* `Run.payloads_on_live_names` puts these together for every moment of every run.
-/

namespace SharedNames

/-! ### Requests -/

/-- Where a payload of a group comes from: the object had it before and was not deleted, or
the name is live and the request attached it. -/
theorem ObjectGroup.payload_of_handle {rule : NameTable.SuccessorRule} {kind other : ObjectKind}
    {request : ObjectTable.Request} {group : ObjectGroup} {out : Outcome} {l : Name}
    {p : PayloadId} (answered : group.handle rule kind request = some out)
    (stored : out.group.payload? other l = some p) :
    (group.payload? other l = some p ∧ (kind = other → request ≠ .delete l)) ∨
      (kind = other ∧ request = .attach l p ∧ out.answer = .attached true ∧
        (group.names other).isLive l = true) := by
  obtain ⟨handled, others⟩ := table_handle answered other
  by_cases same : kind = other
  · subst same
    rcases ObjectTable.payload_of_handle handled stored with ⟨before, kept⟩ | attached
    · exact .inl ⟨before, fun _ => kept⟩
    · exact .inr ⟨rfl, attached⟩
  · rw [payload?, others (Ne.symm same)] at stored
    exact .inl ⟨stored, fun eq => absurd eq same⟩

/-- Payloads are found at live names only, one at each, so there are no more of them than
objects. -/
theorem ObjectTable.Sound.size_payloads_le {t : ObjectTable} (sound : t.Sound) :
    t.payloads.size ≤ t.names.size := by
  have within : t.payloads.keys ⊆ t.names.globals.keys := by
    intro l listed
    rw [Std.ExtTreeMap.mem_keys, Std.ExtTreeMap.mem_iff_isSome_getElem?,
      Option.isSome_iff_exists] at listed
    obtain ⟨p, stored⟩ := listed
    rw [Std.ExtTreeMap.mem_keys]
    exact Std.ExtTreeMap.contains_iff_mem.mp (sound.live_of_payload stored)
  rw [NameTable.size, ← Std.ExtTreeMap.length_keys, ← Std.ExtTreeMap.length_keys]
  exact Std.ExtTreeMap.nodup_keys.length_le_of_subset within

theorem ObjectGroup.Sound.payloadTotal_le {group : ObjectGroup} (sound : group.Sound) :
    group.payloadTotal ≤ group.objectTotal := by
  rw [payloadTotal, payloadShares, objectTotal]
  induction ObjectKind.all with
  | nil => exact Nat.le_refl 0
  | cons kind kinds ih =>
      rw [List.flatMap_cons, List.flatMap_cons, List.length_append, List.length_append,
        length_valuesOf, NameTable.length_toList]
      exact Nat.add_le_add (sound kind).size_payloads_le ih

namespace Registry

variable {policy : Policy} {rest tasks : List Task} {r : Registry} {task : Task} {step : Step}
  {gained : List Handle} {g : GroupId} {kind : ObjectKind} {l : Name} {p : PayloadId}

/-! ### Tasks -/

/-- A payload that is there after a task was there before, and the task did not delete its
name. Or the task attached it to a live name. There is no third way, whatever the task is. -/
theorem Effect.payload_of_step (effect : Effect policy rest r task gained step)
    {after : ObjectGroup} (found : step.registry.groups[g]? = some after)
    (stored : after.payload? kind l = some p) :
    ∃ before, r.groups[g]? = some before ∧
      ((before.payload? kind l = some p ∧ ∀ issuer answer event,
          .performed issuer g kind (.delete l) answer event ∉ step.journal) ∨
        ((before.names kind).isLive l = true ∧ ∃ issuer event,
          step.journal = [.performed issuer g kind (.attach l p) (.attached true) event])) := by
  cases effect with
  | kept | absent | unanswered | idle => exact ⟨after, found, .inl ⟨stored, by simp⟩⟩
  | payloadDestroyed | refused => exact ⟨after, found, .inl ⟨stored, by simp⟩⟩
  | @attached _ _ _ _ _ name =>
      rw [Step.thenTasks, groups_hold] at found
      refine ⟨after, found, .inl ⟨stored, ?_⟩⟩
      cases name <;> simp [Step.thenTasks, hold]
  | fetched =>
      rw [Step.thenTasks, groups_hold] at found
      exact ⟨after, found, .inl ⟨stored, by simp [Step.thenTasks, hold]⟩⟩
  | offered =>
      rw [groups_hold] at found
      exact ⟨after, found, .inl ⟨stored, by simp⟩⟩
  | groupDestroyed =>
      exact ⟨after, getElem?_of_erase found, .inl ⟨stored, by simp⟩⟩
  | @answered task ask group out asks there answered =>
      rw [Std.ExtTreeMap.getElem?_insert] at found
      split at found
      · rename_i same
        obtain rfl : ask.g = g := Std.LawfulEqOrd.compare_eq_iff_eq.mp same
        cases found
        refine ⟨group, there, ?_⟩
        rcases ObjectGroup.payload_of_handle answered stored with ⟨before, kept⟩ |
          ⟨rfl, attaches, success, live⟩
        · refine .inl ⟨before, ?_⟩
          intro issuer answer event deleted
          have same := List.mem_singleton.mp deleted
          simp only [Entry.performed.injEq] at same
          exact kept same.2.2.1.symm same.2.2.2.1.symm
        · exact .inr ⟨live, ask.issuer, out.event, by rw [attaches, success]⟩
      · rename_i other
        refine ⟨after, found, .inl ⟨stored, ?_⟩⟩
        intro issuer answer event deleted
        have same := List.mem_singleton.mp deleted
        simp only [Entry.performed.injEq] at same
        exact other (Std.LawfulEqOrd.compare_eq_iff_eq.mpr same.2.1.symm)

/-! ### The history of a payload -/

/-- A payload was attached to a name that was not deleted since. -/
def AttachedSince (log : Journal) (g : GroupId) (kind : ObjectKind) (l : Name) (p : PayloadId) :
    Prop :=
  ∃ before issuer event after,
    log = before ++ .performed issuer g kind (.attach l p) (.attached true) event :: after ∧
      ∀ issuer answer event, .performed issuer g kind (.delete l) answer event ∉ after

variable {log journal : Journal}

/-- An attachment is carried on by everything but a deletion of the name. -/
theorem AttachedSince.append (attached : AttachedSince log g kind l p)
    (kept : ∀ issuer answer event,
      .performed issuer g kind (.delete l) answer event ∉ journal) :
    AttachedSince (log ++ journal) g kind l p := by
  obtain ⟨before, issuer, event, after, rfl, since⟩ := attached
  refine ⟨before, issuer, event, after ++ journal, by simp, ?_⟩
  intro issuer answer event deleted
  rcases List.mem_append.mp deleted with earlier | now
  · exact since issuer answer event earlier
  · exact kept issuer answer event now

/-- A deletion after which nothing was attached to the name comes after every attachment. So
it leaves no payload that was attached since. -/
theorem AttachedSince.attached_after_deletion (attached : AttachedSince log g kind l p)
    {before after : Journal} {issuer : Issuer} {answer : ObjectTable.Answer}
    {event : Option ObjectTable.Event}
    (split : log = before ++ .performed issuer g kind (.delete l) answer event :: after) :
    ∃ issuer event, .performed issuer g kind (.attach l p) (.attached true) event ∈ after := by
  obtain ⟨before', issuer', event', after', split', since⟩ := attached
  rw [split] at split'
  rcases List.append_eq_append_iff.mp split' with ⟨between, -, rest⟩ | ⟨between, -, rest⟩
  · cases between with
    | nil => cases rest
    | cons first between =>
        obtain ⟨-, rfl⟩ := List.cons.inj rest
        exact ⟨issuer', event', by simp⟩
  · cases between with
    | nil => cases rest
    | cons first between =>
        obtain ⟨-, rfl⟩ := List.cons.inj rest
        exact absurd (by simp) (since issuer answer event)

/-- A group that is there after an operation was there before, or it is new and has no
payloads. -/
theorem Opening.group_of_change {operation : Operation} {change : Change}
    (opening : Opening r operation gained change) {after : ObjectGroup}
    (found : change.registry.groups[g]? = some after) :
    r.groups[g]? = some after ∨
      r.groupsMade ≤ g ∧ ∀ kind l, after.payload? kind l = none := by
  cases opening with
  | unchanged | attached | detached | kept | letGo | released | acting => exact .inl found
  | created =>
      rcases getElem?_of_insert found with ⟨rfl, rfl⟩ | found
      · refine .inr ⟨Nat.le_refl _, fun kind l => ?_⟩
        simp [ObjectGroup.payload?, ObjectGroup.table, Settings.newGroup, ObjectGroup.starting,
          ObjectTable.starting]
      · exact .inl found

theorem Opening.payload_of_change {operation : Operation} {change : Change}
    (opening : Opening r operation gained change) {after : ObjectGroup}
    (found : change.registry.groups[g]? = some after) (stored : after.payload? kind l = some p) :
    r.groups[g]? = some after := by
  rcases opening.group_of_change found with there | ⟨-, empty⟩
  · exact there
  · rw [empty] at stored
    cases stored

/-- The own events of an operation are not those of requests, which are made by tasks. -/
theorem Opening.ne_performed {operation : Operation} {change : Change}
    (opening : Opening r operation gained change) {issuer : Issuer}
    {request : ObjectTable.Request} {answer : ObjectTable.Answer}
    {event : Option ObjectTable.Event} :
    .performed issuer g kind request answer event ∉ change.journal := by
  cases opening <;> simp

namespace Run

variable {settings : Settings} {operations : List Operation}

/-- Every payload of a group was attached to its name at some time, and the name was not
deleted since. By induction over the run: a task that is no deletion of the name carries the
attachment on, and a new group has no payload to account for. -/
theorem attached_since (run : Run settings operations log r tasks) {group : ObjectGroup}
    (found : r.groups[g]? = some group) (stored : group.payload? kind l = some p) :
    AttachedSince log g kind l p := by
  refine run.invariant
    (P := fun log r _ => ∀ {group : ObjectGroup}, r.groups[g]? = some group →
      group.payload? kind l = some p → AttachedSince log g kind l p) ?_ ?_ ?_ found stored
  · intro group found
    simp [empty] at found
  · intro log r operation gained change earlier _ opening group found stored
    have before := opening.payload_of_change found stored
    exact (earlier before stored).append fun _ _ _ => opening.ne_performed
  · intro log r task rest policy gained step earlier _ effect after found stored
    obtain ⟨before, there, ⟨had, kept⟩ | ⟨-, issuer, event, attaches⟩⟩ :=
      effect.payload_of_step found stored
    · exact (earlier there had).append kept
    · exact ⟨log, issuer, event, [], by rw [attaches], by simp⟩

/-- No destroyed group had more payloads than objects. -/
theorem destroyed_payloads_le (run : Run settings operations log r tasks) {objects payloads : Nat}
    (destroyed : .groupDestroyed g objects payloads ∈ log) : payloads ≤ objects := by
  refine (run.invariant (P := fun log r _ => r.Sound ∧
    (.groupDestroyed g objects payloads ∈ log → payloads ≤ objects)) ?_ ?_ ?_).2 destroyed
  · exact ⟨fun g group found => by simp [empty] at found, fun mem => by cases mem⟩
  · rintro log r operation gained change ⟨sound, earlier⟩ - opening
    refine ⟨opening.sound sound, fun mem => ?_⟩
    rcases List.mem_append.mp mem with before | own
    · exact earlier before
    · have listed : .group g ∈ change.journal.destroyed := List.mem_filterMap.mpr ⟨_, own, rfl⟩
      rw [opening.destroyed_nil] at listed
      cases listed
  · rintro log r task rest policy gained step ⟨sound, earlier⟩ - effect
    refine ⟨effect.sound sound, fun mem => ?_⟩
    rcases List.mem_append.mp mem with before | now
    · exact earlier before
    · obtain ⟨-, -, -, -, group, found, rfl, rfl⟩ := effect.of_groupDestroyed now
      rw [← ObjectGroup.objectTotal_eq, ← ObjectGroup.payloadTotal_eq]
      exact (sound g group found).payloadTotal_le

/-- The records of destroyed groups have no more payloads than objects. A client that reads
such a record can rely on it without having seen the group. -/
theorem recorded_payloads_le (run : Run settings operations log r tasks) {objects payloads : Nat}
    (recorded : .groupDestroyed objects payloads ∈ log.records) : payloads ≤ objects := by
  have listed : (objects, payloads) ∈ log.records.filterMap Record.totals? :=
    List.mem_filterMap.mpr ⟨_, recorded, rfl⟩
  rw [run.totals_records] at listed
  obtain ⟨entry, mem, totals⟩ := List.mem_filterMap.mp listed
  cases entry with
  | groupDestroyed g objects' payloads' =>
      cases totals
      exact run.destroyed_payloads_le mem
  | noted | groupMade | payloadMade | performed | payloadRefused | payloadDestroyed => cases totals

end Run

/-! ### All groups at all moments -/

/-- The payloads of groups at a moment, where `log` is what happened so far and `tasks`
remain to be done. -/
structure PayloadsOnLiveNames (log : Journal) (r : Registry) (tasks : List Task) : Prop where
  live_of_payload : ∀ (g : GroupId) (group : ObjectGroup) (kind : ObjectKind) (l : Name)
    (p : PayloadId), r.groups[g]? = some group →
      group.payload? kind l = some p → (group.names kind).isLive l = true
  /-- A name that was deleted has no payload until one is attached to it again, whatever
  brings it back to life. -/
  none_since_deletion : ∀ (g : GroupId) (group : ObjectGroup) (kind : ObjectKind) (l : Name)
    (before : Journal) (issuer : Issuer) (answer : ObjectTable.Answer)
    (event : Option ObjectTable.Event) (after : Journal), r.groups[g]? = some group →
      log = before ++ .performed issuer g kind (.delete l) answer event :: after →
      (∀ p issuer event,
        .performed issuer g kind (.attach l p) (.attached true) event ∉ after) →
      group.payload? kind l = none
  /-- A name that comes to life by what is done next has no payload then. -/
  none_at_birth : ∀ (policy : Policy) (task : Task) (rest : List Task) (step : Step) (g : GroupId)
    (before after : ObjectGroup) (kind : ObjectKind) (l : Name), tasks = task :: rest →
      r.step policy rest task = some step → r.groups[g]? = some before →
      step.registry.groups[g]? = some after → (before.names kind).isLive l = false →
      (after.names kind).isLive l = true → after.payload? kind l = none
  payloadTotal_le : ∀ (g : GroupId) (group : ObjectGroup), r.groups[g]? = some group →
    group.payloadTotal ≤ group.objectTotal
  recorded_le : ∀ objects payloads, .groupDestroyed objects payloads ∈ log.records →
    payloads ≤ objects

namespace Run

variable {settings : Settings} {operations : List Operation}

/-- At every moment of every run only live names have payloads: a name comes to life without
one, and stays so until one is attached. No group has more payloads than objects, and no
record of a destroyed group says so. -/
theorem payloads_on_live_names (run : Run settings operations log r tasks) :
    PayloadsOnLiveNames log r tasks where
  live_of_payload g group kind l p found stored :=
    (run.sound g group found kind).live_of_payload stored
  none_since_deletion g group kind l before issuer answer event after found split unattached := by
    by_contra has
    obtain ⟨p, stored⟩ := Option.ne_none_iff_exists'.mp has
    obtain ⟨issuer, event, attached⟩ :=
      (run.attached_since found stored).attached_after_deletion split
    exact unattached p issuer event attached
  none_at_birth policy task rest step g before after kind l _ stepped there found dead live := by
    by_contra has
    obtain ⟨p, stored⟩ := Option.ne_none_iff_exists'.mp has
    obtain ⟨gained, effect⟩ := effect_of_step stepped
    obtain ⟨before', there', came⟩ := effect.payload_of_step found stored
    obtain rfl := Option.some.inj (there.symm.trans there')
    have wasLive : (before.names kind).isLive l = true := by
      rcases came with ⟨had, -⟩ | ⟨live, -⟩
      · exact (run.sound g before there kind).live_of_payload had
      · exact live
    rw [dead] at wasLive
    cases wasLive
  payloadTotal_le g group found := (run.sound g group found).payloadTotal_le
  recorded_le objects payloads recorded := run.recorded_payloads_le recorded

/-- One name is deleted and brought back by the destructor of its payload, one is requested
again, and one comes back when the counter has gone round. All three are live then, and none
has a payload. -/
theorem payloads_on_live_names_of_returned :
    ∃ log r, Run ⟨.reuse, 0xFFFFFFFF⟩
        [.create (.handle 1), .act (.key (.handle 1)) (.generate .texture [1, 2, 3]),
          .act (.key (.handle 1))
            (.attachActing .texture 1 "a" (.key (.handle 1)) (.rebind .texture 1 9) none),
          .act (.key (.handle 1)) (.attachNew .texture 2 "b" none),
          .act (.key (.handle 1)) (.attachNew .texture 3 "c" none),
          .act (.key (.handle 1)) (.delete .texture 1),
          .act (.key (.handle 1)) (.delete .texture 2),
          .act (.key (.handle 1)) (.generate .texture [2]),
          .act (.key (.handle 1)) (.delete .texture 3),
          .act (.key (.handle 1)) (.generate .texture [0, 0])] log r [] ∧
      log.drops = ["a", "b", "c"] ∧
      (r.groups[0]?.map fun group =>
          (([1, 2, 3] : List Name).map (group.names .texture).isLive, group.payloadTotal)) =
        some ([true, true, true], 0) ∧
      PayloadsOnLiveNames log r [] := by
  have fresh : Run ⟨.reuse, 0xFFFFFFFF⟩ [] [] _ [] := .start
  have run := fresh.performAll .standard
    [.create (.handle 1), .act (.key (.handle 1)) (.generate .texture [1, 2, 3]),
      .act (.key (.handle 1))
        (.attachActing .texture 1 "a" (.key (.handle 1)) (.rebind .texture 1 9) none),
      .act (.key (.handle 1)) (.attachNew .texture 2 "b" none),
      .act (.key (.handle 1)) (.attachNew .texture 3 "c" none),
      .act (.key (.handle 1)) (.delete .texture 1),
      .act (.key (.handle 1)) (.delete .texture 2),
      .act (.key (.handle 1)) (.generate .texture [2]),
      .act (.key (.handle 1)) (.delete .texture 3),
      .act (.key (.handle 1)) (.generate .texture [0, 0])] (by decide)
  exact ⟨_, _, run, by decide, by decide, run.payloads_on_live_names⟩

end Run

end Registry

end SharedNames
