import Mathlib.Algebra.BigOperators.Group.Multiset.Basic
import SharedNames.Proofs.Confluence
import SharedNames.Proofs.Registry.Destructors
import SharedNames.Proofs.Registry.Outline

/-!
Deletions and releases in any order.

Where every destructor deletes an object, what follows from a release are releases and
deletions by destructors. Such a task can do five things, listed in `Fated`: nothing, or
one `Update` of the registry together with the tasks and the events that come of it. Two
updates can be made in either order (`Registry.update_comm`), and what one task does is
what it would have done after another one too (`Fated.persist`): a pending deletion holds
a share of its group, so the group cannot go before.

Hence a machine that carries out such tasks in any order whatsoever, `Move`, has the
diamond property (`diamond_move`). Its registries are outlines, as the order of deletions
may decide who takes over a global name.
-/

namespace SharedNames

def Action.isDelete : Action → Bool
  | delete _ _ => true
  | generate _ _ | rebind _ _ _ | attachHeld _ _ _ _ | attachNew _ _ _ _
  | attachActing _ _ _ _ _ _ | fetch _ _ _ => false

/-- Whether a task is a release, or a deletion by a destructor. -/
def Task.deletes : Task → Bool
  | release _ => true
  | act .destructor _ action => action.isDelete
  | act .client _ _ | store _ _ _ _ _ => false

theorem Task.deletes_iff {task : Task} :
    task.deletes ↔ (∃ handle, task = .release handle) ∨
      ∃ g kind l, task = .act .destructor g (.delete kind l) := by
  cases task with
  | release handle => simp [deletes]
  | store => simp [deletes]
  | act issuer g action => cases issuer <;> cases action <;> simp [deletes, Action.isDelete]

/-! ### Tables without a name -/

/-- A table without one of its names, its latest bindings aside. -/
def ObjectTable.erased (l : Name) (t : ObjectTable) : ObjectTable where
  names := { t.names with globals := t.names.globals.erase l }
  payloads := t.payloads.erase l

def ObjectGroup.erased (kind : ObjectKind) (l : Name) (group : ObjectGroup) : ObjectGroup :=
  ⟨group.tables.set kind ((group.table kind).erased l)⟩

/-- Whatever the rule, a deletion erases the name from the outline. -/
theorem ObjectTable.outline_delete (rule : NameTable.SuccessorRule) (l : Name) (t : ObjectTable) :
    (t.delete rule l).table.outline = t.outline.erased l := by
  have names : (t.names.delete rule l).1.outline =
      { t.names.outline with globals := t.names.globals.erase l } := by
    have counters := NameTable.counters_delete rule t.names l
    simp only [NameTable.outline, counters, NameTable.globals_delete]
  exact congrArg (fun names => ObjectTable.mk names (t.payloads.erase l)) names

theorem erase_comm {κ α : Type} {cmp : κ → κ → Ordering} [Std.TransCmp cmp] [Std.LawfulEqCmp cmp]
    (m : Std.ExtTreeMap κ α cmp) (a b : κ) : (m.erase a).erase b = (m.erase b).erase a := by
  refine Std.ExtTreeMap.ext_getElem? fun {k} => ?_
  simp only [Std.ExtTreeMap.getElem?_erase]
  split <;> split <;> rfl

theorem ObjectTable.erased_comm (t : ObjectTable) (a b : Name) :
    (t.erased a).erased b = (t.erased b).erased a := by
  simp only [erased, erase_comm t.names.globals a b, erase_comm t.payloads a b]

namespace ObjectGroup

theorem table_erased (group : ObjectGroup) (kind other : ObjectKind) (l : Name) :
    (group.erased kind l).table other =
      if kind = other then (group.table other).erased l else group.table other := by
  rw [table, erased, PerKind.get_set]
  by_cases same : kind = other
  · subst same
    rw [if_pos rfl, if_pos rfl]
  · rw [if_neg same, if_neg same, table]

theorem ext_table {group other : ObjectGroup} (same : ∀ kind, group.table kind = other.table kind) :
    group = other :=
  congrArg ObjectGroup.mk (PerKind.ext_get same)

/-- Two deletions in a group can be made in either order. -/
theorem erased_comm (group : ObjectGroup) (kind kind' : ObjectKind) (l l' : Name) :
    (group.erased kind l).erased kind' l' = (group.erased kind' l').erased kind l := by
  refine ext_table fun other => ?_
  simp only [table_erased]
  by_cases first : kind = other <;> by_cases second : kind' = other <;>
    simp [first, second, ObjectTable.erased_comm _ l l']

/-- A deletion leaves the other names alone. What the later of two deletions answers is thus
what it would have answered first. -/
theorem erased_of_ne (group : ObjectGroup) {kind kind' : ObjectKind} {l l' : Name}
    (differ : ¬ (kind = kind' ∧ l = l')) :
    (group.erased kind l).payload? kind' l' = group.payload? kind' l' ∧
      ((group.erased kind l).names kind').globals[l']? = (group.names kind').globals[l']? := by
  simp only [payload?, names, table_erased]
  by_cases same : kind = kind'
  · subst same
    have differ : l ≠ l' := fun same => differ ⟨rfl, same⟩
    simp [ObjectTable.erased, Std.ExtTreeMap.getElem?_erase, differ]
  · simp [same]

/-- What a group answers to a deletion, in terms of its outline. -/
theorem handle_delete {rule : NameTable.SuccessorRule} {kind : ObjectKind} {l : Name}
    {group : ObjectGroup} {out : Outcome}
    (answered : group.handle rule kind (.delete l) = some out) :
    out.group.outline = group.outline.erased kind l ∧ out.answer = .done ∧
      out.event = (group.names kind).globals[l]?.map (fun global => .naming (.removed l global)) ∧
      out.released = group.payload? kind l := by
  cases answered
  refine ⟨ext_table fun other => ?_, rfl, ?_, rfl⟩
  · rw [table_outline, table_erased, table_outline, table, PerKind.get_set]
    by_cases same : kind = other
    · subst same
      rw [if_pos rfl, if_pos rfl]
      exact ObjectTable.outline_delete rule l _
    · rw [if_neg same, if_neg same, table]
  · simp only [ObjectTable.delete, NameTable.delete, names]
    cases (group.table kind).names.globals[l]? <;> rfl

end ObjectGroup

/-! ### Updates -/

/-- What a release or a deletion does to a registry. -/
inductive Update where
  | nothing
  | dropGroup (g : GroupId)
  | dropPayload (p : PayloadId)
  | dropName (g : GroupId) (kind : ObjectKind) (l : Name)

namespace Update

def onGroup (g : GroupId) (group : ObjectGroup) : Update → Option ObjectGroup
  | dropGroup lost => if lost = g then none else some group
  | dropName target kind l => some (if target = g then group.erased kind l else group)
  | nothing | dropPayload _ => some group

def onPayload (p : PayloadId) (payload : Payload) : Update → Option Payload
  | dropPayload lost => if lost = p then none else some payload
  | nothing | dropGroup _ | dropName _ _ _ => some payload

theorem onGroup_comm (u v : Update) (g : GroupId) (group : ObjectGroup) :
    ((u.onGroup g group).bind fun group => v.onGroup g group) =
      (v.onGroup g group).bind fun group => u.onGroup g group := by
  cases u with
  | nothing | dropPayload => simp [onGroup]
  | dropGroup lost =>
      cases v with
      | nothing | dropPayload => simp [onGroup]
      | dropGroup other | dropName other =>
          by_cases lost = g <;> by_cases other = g <;> simp [onGroup, *]
  | dropName target kind l =>
      cases v with
      | nothing | dropPayload => simp [onGroup]
      | dropGroup other => by_cases other = g <;> simp [onGroup, *]
      | dropName other kind' l' =>
          by_cases target = g <;> by_cases other = g <;>
            simp [onGroup, *, ObjectGroup.erased_comm group kind kind' l l']

theorem onPayload_comm (u v : Update) (p : PayloadId) (payload : Payload) :
    ((u.onPayload p payload).bind fun payload => v.onPayload p payload) =
      (v.onPayload p payload).bind fun payload => u.onPayload p payload := by
  cases u with
  | nothing | dropGroup | dropName => simp [onPayload]
  | dropPayload lost =>
      cases v with
      | nothing | dropGroup | dropName => simp [onPayload]
      | dropPayload other => by_cases lost = p <;> by_cases other = p <;> simp [onPayload, *]

end Update

namespace Registry

def update (r : Registry) : Update → Registry
  | .nothing => r
  | .dropGroup g => { r with groups := r.groups.erase g }
  | .dropPayload p => { r with payloads := r.payloads.erase p }
  | .dropName g kind l => { r with groups := r.groups.modify g (ObjectGroup.erased kind l) }

theorem groups_update (r : Registry) (u : Update) (g : GroupId) :
    (r.update u).groups[g]? = r.groups[g]?.bind fun group => u.onGroup g group := by
  cases u with
  | nothing | dropPayload => simp [update, Update.onGroup]
  | dropGroup lost =>
      rw [update, Std.ExtTreeMap.getElem?_erase]
      by_cases same : lost = g <;> simp [Update.onGroup, same]
  | dropName target kind l =>
      rw [update, Std.ExtTreeMap.getElem?_modify]
      by_cases same : target = g
      · simp [Update.onGroup, same, Option.map_eq_bind]
      · simp [Update.onGroup, same]

theorem payloads_update (r : Registry) (u : Update) (p : PayloadId) :
    (r.update u).payloads[p]? = r.payloads[p]?.bind fun payload => u.onPayload p payload := by
  cases u with
  | nothing | dropGroup | dropName => simp [update, Update.onPayload]
  | dropPayload lost =>
      rw [update, Std.ExtTreeMap.getElem?_erase]
      by_cases same : lost = p <;> simp [Update.onPayload, same]

theorem update_eq (r : Registry) (u : Update) :
    r.update u = { r with groups := (r.update u).groups, payloads := (r.update u).payloads } := by
  cases u <;> rfl

/-- Updates can be made in either order, since each of them only takes something away. -/
theorem update_comm (r : Registry) (u v : Update) :
    (r.update u).update v = (r.update v).update u := by
  have groups : ((r.update u).update v).groups = ((r.update v).update u).groups := by
    refine Std.ExtTreeMap.ext_getElem? fun {g} => ?_
    simp only [groups_update, Option.bind_assoc, Update.onGroup_comm u v]
  have payloads : ((r.update u).update v).payloads = ((r.update v).update u).payloads := by
    refine Std.ExtTreeMap.ext_getElem? fun {p} => ?_
    simp only [payloads_update, Option.bind_assoc, Update.onPayload_comm u v]
  rw [update_eq (r.update u) v, update_eq (r.update v) u, groups, payloads, update_eq r u,
    update_eq r v]

theorem update_dropName {r : Registry} {g : GroupId} {group : ObjectGroup}
    (found : r.groups[g]? = some group) (kind : ObjectKind) (l : Name) :
    r.update (.dropName g kind l) =
      { r with groups := r.groups.insert g (group.erased kind l) } := by
  refine congrArg (fun groups => { r with groups }) (Std.ExtTreeMap.ext_getElem? fun {j} => ?_)
  simp only [Std.ExtTreeMap.getElem?_modify, Std.ExtTreeMap.getElem?_insert, found, Option.map_some]

/-! ### What a task does -/

structure Fate where
  update : Update
  tasks : List Task
  journal : Journal

/-- All that a release and a deletion by a destructor can do, where `shares` counts the
shares of everything, pending ones included. -/
inductive Fated (r : Registry) (shares : Handle → Nat) : Task → Fate → Prop where
  /-- Somebody else has a share. -/
  | kept {handle : Handle} : 1 < shares handle → Fated r shares (.release handle) ⟨.nothing, [], []⟩
  | groupDestroyed {g : GroupId} {group : ObjectGroup} :
      shares (.group g) = 1 → r.groups[g]? = some group →
      Fated r shares (.release (.group g))
        { update := .dropGroup g
          tasks := group.payloadShares.map fun p => .release (.payload p)
          journal := [.groupDestroyed g group.objectTotal group.payloadTotal] }
  | payloadDestroyed {p : PayloadId} {payload : Payload} :
      shares (.payload p) = 1 → r.payloads[p]? = some payload →
      Fated r shares (.release (.payload p))
        { update := .dropPayload p
          tasks := afterPayload payload
          journal := [.payloadDestroyed p payload.label] }
  | nameDeleted {g : GroupId} {group : ObjectGroup} {kind : ObjectKind} {l : Name} :
      r.groups[g]? = some group →
      Fated r shares (.act .destructor g (.delete kind l))
        { update := .dropName g kind l
          tasks := ((group.payload? kind l).toList.map fun p => .release (.payload p)) ++
            [.release (.group g)]
          journal := [.performed .destructor g kind (.delete l) .done
            ((group.names kind).globals[l]?.map fun global => .naming (.removed l global))] }

namespace Fated

variable {r : Registry} {shares left : Handle → Nat} {task a b : Task} {fate fate' : Fate}

/-- What a task does is settled by the registry and the shares: nothing but the order is
open. -/
theorem unique (first : Fated r shares task fate) (second : Fated r shares task fate') :
    fate = fate' := by
  cases first with
  | kept several =>
      cases second with
      | kept => rfl
      | groupDestroyed last | payloadDestroyed last => omega
  | groupDestroyed last found =>
      cases second with
      | kept several => omega
      | groupDestroyed _ found' =>
          obtain rfl := Option.some.inj (found.symm.trans found')
          rfl
  | payloadDestroyed last found =>
      cases second with
      | kept several => omega
      | payloadDestroyed _ found' =>
          obtain rfl := Option.some.inj (found.symm.trans found')
          rfl
  | nameDeleted found =>
      cases second with
      | nameDeleted found' =>
          obtain rfl := Option.some.inj (found.symm.trans found')
          rfl

/-- A task moves shares between the registry and the pending tasks, and gives up the one
that it is there to release. -/
theorem balance (fated : Fated r shares task fate) (h : Handle) :
    (r.update fate.update).shares h + pending fate.tasks h + (spent task).count h =
      r.shares h + task.handles.count h := by
  cases fated with
  | kept => rfl
  | groupDestroyed _ found =>
      have erased := shares_eraseGroup h found
      simp only [ObjectGroup.handles] at erased
      simp only [update, pending_releases, spent, Task.handles]
      omega
  | payloadDestroyed _ found =>
      have erased := shares_erasePayload h found
      simp only [update, pending_afterPayload, spent, Task.handles]
      omega
  | @nameDeleted g group kind l found =>
      have written := shares_insertGroup h (group.erased kind l) found
      have handled := ObjectGroup.count_handles_set group kind ((group.table kind).erased l) h
      have erased := ((erased_append_valuesOf_perm (group.table kind).payloads l).map
        Handle.payload).count_eq h
      rw [List.map_append, List.count_append] at erased
      simp only [ObjectTable.handles, ObjectTable.erased] at handled
      simp only [ObjectGroup.erased, ObjectTable.erased] at written
      simp only [update_dropName found, ObjectGroup.erased, ObjectTable.erased, pending_append,
        pending_releases, pending_cons, pending_nil, spent, Task.handles, List.count_nil,
        ObjectGroup.payload?]
      omega

/-- A task without a share of a group leaves the group alone. So two tasks get in each other's
way only where both have a share, and then neither is the last one. -/
theorem onGroup_of_not_mem (fated : Fated r shares task fate) {g : GroupId}
    (without : .group g ∉ task.handles) (group : ObjectGroup) :
    fate.update.onGroup g group = some group := by
  cases fated with
  | kept | payloadDestroyed => rfl
  | @groupDestroyed lost | @nameDeleted lost =>
      have differ : lost ≠ g := fun same => without (same ▸ List.mem_cons_self)
      simp [Update.onGroup, differ]

theorem onPayload_of_not_mem (fated : Fated r shares task fate) {p : PayloadId}
    (without : .payload p ∉ task.handles) (payload : Payload) :
    fate.update.onPayload p payload = some payload := by
  cases fated with
  | kept | groupDestroyed | nameDeleted => rfl
  | @payloadDestroyed lost =>
      have differ : lost ≠ p := fun same => without (same ▸ List.mem_cons_self)
      simp [Update.onPayload, differ]

/-- While a deletion is pending, no other task destroys its group or deletes its name: the
deletion has a share of the group itself. -/
theorem onGroup_of_pending (fated : Fated r shares a fate) {g : GroupId} {kind : ObjectKind}
    {l : Name}
    (differ : a ≠ .act .destructor g (.delete kind l))
    (covered : a.handles.count (.group g) + 1 ≤ shares (.group g)) (group : ObjectGroup) :
    ∃ group', fate.update.onGroup g group = some group' ∧
      group'.payload? kind l = group.payload? kind l ∧
      (group'.names kind).globals[l]? = (group.names kind).globals[l]? := by
  cases fated with
  | kept | payloadDestroyed => exact ⟨group, rfl, rfl, rfl⟩
  | @groupDestroyed lost _ last =>
      have other : lost ≠ g := by
        rintro rfl
        rw [Task.handles, List.count_singleton_self] at covered
        omega
      exact ⟨group, by simp [Update.onGroup, other], rfl, rfl⟩
  | @nameDeleted target _ kind' l' =>
      by_cases same : target = g
      · subst same
        have other : ¬ (kind' = kind ∧ l' = l) := by
          rintro ⟨rfl, rfl⟩
          exact differ rfl
        exact ⟨group.erased kind' l', by simp [Update.onGroup], group.erased_of_ne other⟩
      · exact ⟨group, by simp [Update.onGroup, same], rfl, rfl⟩

theorem count_spent_of_ne {h : Handle} (differ : task ≠ .release h) : (spent task).count h = 0 := by
  cases task with
  | act | store => rfl
  | release handle =>
      refine List.count_eq_zero.mpr fun mem => differ ?_
      rw [List.mem_singleton.mp mem]

/-- What a task does it would also do after another one. If it is a last release, nobody else
has a share, so the other task is about something else. -/
theorem persist (first : Fated r shares a fate) (second : Fated r shares b fate') (differ : a ≠ b)
    (covered : ∀ h, a.handles.count h + b.handles.count h ≤ shares h)
    (spends : ∀ h, left h + (spent a).count h = shares h) :
    Fated (r.update fate.update) left b fate' := by
  have keeps {h : Handle} (same : b = .release h) : left h = shares h := by
    have nothing := count_spent_of_ne (same ▸ differ)
    have counted := spends h
    omega
  -- A last release is the only task with a share.
  have alone {h : Handle} (same : b = .release h) (last : shares h = 1) : h ∉ a.handles := by
    have counted := covered h
    rw [same, Task.handles, List.count_singleton_self, last] at counted
    exact List.count_eq_zero.mp (by omega)
  cases second with
  | kept several => exact .kept ((keeps rfl).symm ▸ several)
  | @groupDestroyed g group last found =>
      refine .groupDestroyed ((keeps rfl).trans last) ?_
      rw [groups_update, found, Option.bind_some, first.onGroup_of_not_mem (alone rfl last)]
  | @payloadDestroyed p payload last found =>
      refine .payloadDestroyed ((keeps rfl).trans last) ?_
      rw [payloads_update, found, Option.bind_some, first.onPayload_of_not_mem (alone rfl last)]
  | @nameDeleted g group kind l found =>
      have several := covered (.group g)
      rw [show (Task.act .destructor g (.delete kind l)).handles = [.group g] from rfl,
        List.count_singleton_self] at several
      obtain ⟨group', there, payload, global⟩ := first.onGroup_of_pending differ several group
      have found' : (r.update fate.update).groups[g]? = some group' := by
        rw [groups_update, found, Option.bind_some, there]
      rw [← payload, ← global]
      exact .nameDeleted found'

end Fated

/-! ### Tasks in any order -/

def owned (tasks : Multiset Task) (h : Handle) : Nat :=
  (tasks.map fun task => task.handles.count h).sum

theorem owned_coe (tasks : List Task) (h : Handle) : owned tasks h = pending tasks h := by
  rw [owned, Multiset.map_coe, Multiset.sum_coe, pending, List.count_flatMap]
  rfl

structure Front where
  registry : Registry
  tasks : Multiset Task

/-- The shares of a handle in all, where `behind` counts those of tasks that have to wait. -/
def Front.shares (behind : Handle → Nat) (front : Front) (h : Handle) : Nat :=
  front.registry.shares h + owned front.tasks h + behind h

/-- Carries out any of the tasks. -/
inductive Move (behind : Handle → Nat) : Front → Multiset Entry → Front → Prop where
  | carry {front : Front} {task : Task} {others : Multiset Task} {fate : Fate} :
      front.tasks = task ::ₘ others → Fated front.registry (front.shares behind) task fate →
      Move behind front fate.journal ⟨front.registry.update fate.update, fate.tasks + others⟩

/-- Carrying out a task changes the shares by what it gives up. Deletions give up nothing
themselves, and what they set free is released by further tasks. -/
theorem Fated.shares_after {behind : Handle → Nat} {front : Front} {task : Task}
    {others : Multiset Task}
    {fate : Fate} (split : front.tasks = task ::ₘ others)
    (fated : Fated front.registry (front.shares behind) task fate) (h : Handle) :
    Front.shares behind ⟨front.registry.update fate.update, fate.tasks + others⟩ h +
      (spent task).count h = front.shares behind h := by
  have balance := fated.balance h
  have tasks := owned_coe fate.tasks h
  simp only [Front.shares, split, owned, Multiset.map_add, Multiset.sum_add, Multiset.map_cons,
    Multiset.sum_cons] at tasks ⊢
  omega

/-- The order of releases and deletions does not matter: after any two of them the other one
leads to the same registry, with the same events in all. -/
theorem diamond_move (behind : Handle → Nat) : Diamond (Move behind) := by
  rintro front t u m n @⟨a, _, fate, split, fated⟩ @⟨b, _, fate', split', fated'⟩
  rcases Multiset.cons_eq_cons.mp (split.symm.trans split') with ⟨rfl, rfl⟩ |
    ⟨differ, rest, rfl, rfl⟩
  · obtain rfl := fated.unique fated'
    exact .inl ⟨rfl, rfl⟩
  · have covered (h : Handle) : a.handles.count h + b.handles.count h ≤ front.shares behind h := by
      simp only [Front.shares, split, owned, Multiset.map_cons, Multiset.sum_cons]
      omega
    have later := fated.persist fated' differ covered (fated.shares_after split)
    have covered' (h : Handle) : b.handles.count h + a.handles.count h ≤ front.shares behind h := by
      rw [Nat.add_comm]
      exact covered h
    have later' := fated'.persist fated differ.symm covered' (fated'.shares_after split')
    refine .inr ⟨_, .carry (Multiset.add_cons b _ _) later, ?_⟩
    have meet : Move behind ⟨front.registry.update fate'.update, fate'.tasks + a ::ₘ rest⟩ _ _ :=
      .carry (Multiset.add_cons a _ _) later'
    rwa [update_comm, add_left_comm] at meet

theorem final_move (behind : Handle → Nat) (r : Registry) : Final (Move behind) ⟨r, 0⟩ := by
  rintro m t ⟨split, _⟩
  exact Multiset.zero_ne_cons split

end Registry

end SharedNames
