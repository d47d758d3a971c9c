import Mathlib.Data.List.Count
import SharedNames.Registry.Operation

/-!
Counting shares.

`Registry.shares` counts the shares of a handle among all owners in a registry. Here
the count is taken apart (`shares_eq`) into one sum for each map, `sharesIn`, and
`sharesIn_insert` and `sharesIn_erase` say what a write and an erasure do to a sum.
Pending tasks own shares too; `sharesWith` counts these as well. It is what decides
whether a release is the last one (`mem_owners_iff`).

`ObjectGroup.count_handles_of_handle` is the law for a request to a group: the shares
that the group has after it, and the one that it gave up, are those from before and
the one that came with the request.
-/

namespace SharedNames

/-! ### Shares in a map -/

section Maps

variable {κ α : Type} {cmp : κ → κ → Ordering} [Std.TransCmp cmp] [Std.LawfulEqCmp cmp]
  (own : α → List Handle) (m : Std.ExtTreeMap κ α cmp) (h : Handle)

/-- The number of shares that the values of a map own. -/
def sharesIn : Nat :=
  ((valuesOf m).flatMap own).count h

/-- The law of counting for an insertion, stated with sums on both sides: what the new value
owns is added and what the old one owned is taken away. With a difference it would be wrong
wherever the subtraction is cut off at zero. -/
theorem sharesIn_insert (k : κ) (a : α) :
    sharesIn own (m.insert k a) h + (m[k]?.toList.flatMap own).count h =
      sharesIn own m h + (own a).count h := by
  have counted := ((replaced_append_valuesOf_perm m k a).flatMap_right own).count_eq h
  simp only [List.flatMap_append, List.flatMap_cons, List.count_append] at counted
  simp only [sharesIn]
  omega

theorem sharesIn_erase (k : κ) :
    sharesIn own (m.erase k) h + (m[k]?.toList.flatMap own).count h = sharesIn own m h := by
  have counted := ((erased_append_valuesOf_perm m k).flatMap_right own).count_eq h
  simp only [List.flatMap_append, List.count_append] at counted
  simp only [sharesIn]
  omega

/-- A map owns a share exactly when one of its values does. All statements about who holds a
group or payload come from this one. -/
theorem sharesIn_pos_iff :
    0 < sharesIn own m h ↔ ∃ (k : κ) (a : α), m[k]? = some a ∧ h ∈ own a := by
  simp only [sharesIn, List.count_pos_iff, List.mem_flatMap, mem_valuesOf]
  constructor
  · rintro ⟨a, ⟨k, found⟩, owned⟩
    exact ⟨k, a, found, owned⟩
  · rintro ⟨k, a, found, owned⟩
    exact ⟨a, ⟨k, found⟩, owned⟩

end Maps

/-! ### Shares in a group -/

def ObjectTable.Request.handles : ObjectTable.Request → List Handle
  | .attach _ p => [.payload p]
  | .generate _ | .delete _ | .rebind _ _ => []

def ObjectTable.handles (t : ObjectTable) : List Handle :=
  (valuesOf t.payloads).map .payload

def ObjectGroup.handles (group : ObjectGroup) : List Handle :=
  group.payloadShares.map .payload

/-- The shares of a table are kept by each request: those that it had and the one that came
with the request are in the table afterwards or given up. -/
theorem ObjectTable.count_handles_of_handle {rule : NameTable.SuccessorRule}
    {request : ObjectTable.Request} {t : ObjectTable} {out : ObjectTable.Outcome}
    (answered : t.handle rule request = some out) (h : Handle) :
    out.table.handles.count h + (out.released.toList.map Handle.payload).count h =
      t.handles.count h + request.handles.count h := by
  have same {l : List PayloadId} {k : List PayloadId} (perm : l.Perm k) :=
    (perm.map Handle.payload).count_eq h
  cases request with
  | generate requested =>
      obtain ⟨_, _, rfl⟩ := Option.map_eq_some_iff.mp answered
      rfl
  | delete l =>
      cases answered
      have counted := same (erased_append_valuesOf_perm t.payloads l)
      simp only [List.map_append, List.count_append] at counted
      simp only [ObjectTable.handles, ObjectTable.delete, ObjectTable.Request.handles,
        List.count_nil]
      omega
  | rebind l g =>
      cases answered
      rfl
  | attach l p =>
      cases answered
      by_cases live : t.names.isLive l = true
      · have counted := same (replaced_append_valuesOf_perm t.payloads l p)
        simp only [List.map_append, List.map_cons, List.count_append, List.count_cons] at counted
        simp only [ObjectTable.handles, ObjectTable.attach, live, if_true,
          ObjectTable.Request.handles, List.count_cons, List.count_nil]
        omega
      · simp only [ObjectTable.handles, ObjectTable.attach, if_neg live,
          ObjectTable.Request.handles, Option.toList_some, List.map_cons, List.map_nil]

namespace ObjectGroup

/-- Putting another table in a group exchanges the shares of the two tables. -/
theorem count_handles_set (group : ObjectGroup) (kind : ObjectKind) (t : ObjectTable) (h : Handle) :
    (ObjectGroup.mk (group.tables.set kind t)).handles.count h +
      (group.table kind).handles.count h =
      group.handles.count h + t.handles.count h := by
  cases kind <;>
    simp only [ObjectGroup.handles, payloadShares, ObjectKind.all, List.flatMap_cons,
      List.flatMap_nil, List.map_append, List.count_append, table, PerKind.get, PerKind.set,
      ObjectTable.handles, List.map_nil, List.count_nil] <;>
    omega

/-- After a request a group has the payload shares that it had, with the one that came with
the request and without the one that it gave up. So no request loses a payload or makes one
up. -/
theorem count_handles_of_handle {rule : NameTable.SuccessorRule} {kind : ObjectKind}
    {request : ObjectTable.Request} {group : ObjectGroup} {out : Outcome}
    (answered : group.handle rule kind request = some out) (h : Handle) :
    out.group.handles.count h + (out.released.toList.map Handle.payload).count h =
      group.handles.count h + request.handles.count h := by
  obtain ⟨inner, handled, rfl⟩ := Option.map_eq_some_iff.mp answered
  have inTable := ObjectTable.count_handles_of_handle handled h
  have inGroup := count_handles_set group kind inner.table h
  simp only at inGroup ⊢
  omega

@[simp] theorem handles_starting (first : Name) : (starting first).handles = [] := by
  simp [handles, payloadShares, ObjectKind.all, starting, table, PerKind.get, PerKind.const,
    ObjectTable.starting]

theorem mem_handles {group : ObjectGroup} {h : Handle} :
    h ∈ group.handles ↔ ∃ kind l p, group.payload? kind l = some p ∧ h = .payload p := by
  simp only [handles, payloadShares, List.mem_map, List.mem_flatMap, mem_valuesOf, payload?]
  constructor
  · rintro ⟨p, ⟨kind, -, l, found⟩, rfl⟩
    exact ⟨kind, l, p, found, rfl⟩
  · rintro ⟨kind, l, p, found, rfl⟩
    exact ⟨p, ⟨kind, kind.mem_all, l, found⟩, rfl⟩

end ObjectGroup

/-! ### Shares in a registry -/

namespace Registry

/-- The shares of a registry, one sum for each of its maps. A change to one map then leaves
the other four sums as they are. -/
theorem shares_eq (r : Registry) (h : Handle) :
    r.shares h =
      sharesIn (fun g => [.group g]) r.keys h + sharesIn (fun g => [.group g]) r.slots h +
        sharesIn (fun p => [.payload p]) r.held h + sharesIn Payload.handles r.payloads h +
        sharesIn ObjectGroup.handles r.groups h := by
  have perGroup : ObjectGroup.handles = fun group => group.payloadShares.map .payload := rfl
  simp only [shares, handles, sharesIn, perGroup, List.count_append, List.map_eq_flatMap]

/-- The number of shares of a handle that pending tasks own. -/
def pending (tasks : List Task) (h : Handle) : Nat :=
  (tasks.flatMap Task.handles).count h

@[simp] theorem pending_nil (h : Handle) : pending [] h = 0 := rfl

theorem pending_cons (task : Task) (tasks : List Task) (h : Handle) :
    pending (task :: tasks) h = task.handles.count h + pending tasks h := by
  simp [pending]

theorem pending_append (tasks others : List Task) (h : Handle) :
    pending (tasks ++ others) h = pending tasks h + pending others h := by
  simp [pending]

@[simp] theorem pending_releases (ps : List PayloadId) (h : Handle) :
    pending (ps.map fun p => .release (.payload p)) h = (ps.map Handle.payload).count h := by
  induction ps with
  | nil => rfl
  | cons p ps ih =>
      rw [List.map_cons, pending_cons, ih, List.map_cons, ← List.count_append]
      rfl

/-- The destructor of a payload gets the share that the payload had, so the group that it acts
on stays there until it is done. -/
@[simp] theorem pending_afterPayload (payload : Payload) (h : Handle) :
    pending (afterPayload payload) h = payload.handles.count h := by
  unfold afterPayload Payload.handles
  cases payload.destructor <;> rfl

/-- The number of shares of a handle, those that pending tasks own included. This number, and
not that of the registry alone, is what a task keeps in balance. -/
def sharesWith (tasks : List Task) (r : Registry) (h : Handle) : Nat :=
  r.shares h + pending tasks h

@[simp] theorem sharesWith_nil (r : Registry) (h : Handle) : r.sharesWith [] h = r.shares h := rfl

/-- A pending release counts for the share that it gives up. -/
theorem sharesWith_release (tasks : List Task) (r : Registry) (h : Handle) :
    r.sharesWith (.release h :: tasks) h = r.sharesWith tasks h + 1 := by
  rw [sharesWith, pending_cons, Task.handles, List.count_singleton_self, sharesWith]
  omega

/-- What the first task owns has a share. So nothing that a task is about can be destroyed
before its turn. -/
theorem sharesWith_pos_of_mem {task : Task} {tasks : List Task} {r : Registry} {h : Handle}
    (mem : h ∈ task.handles) : 0 < r.sharesWith (task :: tasks) h := by
  have counted := List.count_pos_iff.mpr mem
  rw [sharesWith, pending_cons]
  omega

/-- A release is the last one exactly when no share is counted without it. The program looks
for an owner in the registry and among what remains to be done; counting says the same. -/
theorem mem_owners_iff {r : Registry} {tasks : List Task} {h : Handle} :
    h ∈ r.handles ++ tasks.flatMap Task.handles ↔ 0 < r.sharesWith tasks h := by
  rw [← List.count_pos_iff, List.count_append]
  rfl

/-! ### What a write does to the shares -/

section Writes

variable {r : Registry} (h : Handle)

theorem shares_eraseGroup {g : GroupId} {group : ObjectGroup} (found : r.groups[g]? = some group) :
    ({ r with groups := r.groups.erase g } : Registry).shares h + group.handles.count h =
      r.shares h := by
  have erased := sharesIn_erase ObjectGroup.handles r.groups h g
  simp only [found, Option.toList_some, List.flatMap_singleton] at erased
  simp only [shares_eq]
  omega

theorem shares_insertGroup {g : GroupId} {group : ObjectGroup} (after : ObjectGroup)
    (found : r.groups[g]? = some group) :
    ({ r with groups := r.groups.insert g after } : Registry).shares h + group.handles.count h =
      r.shares h + after.handles.count h := by
  have written := sharesIn_insert ObjectGroup.handles r.groups h g after
  simp only [found, Option.toList_some, List.flatMap_singleton] at written
  simp only [shares_eq]
  omega

/-- A payload that goes takes with it the share that its destructor has, and nothing else. -/
theorem shares_erasePayload {p : PayloadId} {payload : Payload}
    (found : r.payloads[p]? = some payload) :
    ({ r with payloads := r.payloads.erase p } : Registry).shares h + payload.handles.count h =
      r.shares h := by
  have erased := sharesIn_erase Payload.handles r.payloads h p
  simp only [found, Option.toList_some, List.flatMap_singleton] at erased
  simp only [shares_eq]
  omega

/-- Holding a payload adds a share of it, if a name is given. The one that was held there is
released by a task of its own, so its share is pending and not lost. -/
theorem sharesWith_hold (name : Option String) (p : PayloadId) :
    (hold name p r).registry.sharesWith (hold name p r).tasks h =
      r.shares h + (name.toList.map fun _ => Handle.payload p).count h := by
  cases name with
  | none => rfl
  | some name =>
      have written := sharesIn_insert (fun p => [Handle.payload p]) r.held h name p
      simp only [← List.map_eq_flatMap] at written
      simp only [hold, sharesWith, shares_eq, pending_releases, Option.toList_some, List.map_cons,
        List.map_nil]
      omega

end Writes

/-! ### Who has the shares -/

/-- A group has a share exactly when a key or a slot refers to it, or the destructor of a
payload. A destructor thus keeps its group alive when no client can reach it any more. -/
theorem shares_group_pos_iff {r : Registry} {g : GroupId} :
    0 < r.shares (.group g) ↔
      (∃ key : ContextKey, r.keys[key]? = some g) ∨ (∃ slot : String, r.slots[slot]? = some g) ∨
        ∃ (p : PayloadId) (payload : Payload) (destructor : Destructor),
          r.payloads[p]? = some payload ∧ payload.destructor = some destructor ∧
            destructor.target = g := by
  have split : 0 < r.shares (.group g) ↔
      0 < sharesIn (fun g => [.group g]) r.keys (.group g) ∨
        0 < sharesIn (fun g => [.group g]) r.slots (.group g) ∨
        0 < sharesIn (fun p => [.payload p]) r.held (.group g) ∨
        0 < sharesIn Payload.handles r.payloads (.group g) ∨
        0 < sharesIn ObjectGroup.handles r.groups (.group g) := by
    rw [shares_eq]
    omega
  simp only [split, sharesIn_pos_iff, ObjectGroup.mem_handles, Payload.handles]
  simp [eq_comm]

/-- A payload has a share exactly when a client holds it or an object has it. -/
theorem shares_payload_pos_iff {r : Registry} {p : PayloadId} :
    0 < r.shares (.payload p) ↔
      (∃ name : String, r.held[name]? = some p) ∨
        ∃ (g : GroupId) (group : ObjectGroup) (kind : ObjectKind) (l : Name),
          r.groups[g]? = some group ∧ group.payload? kind l = some p := by
  have split : 0 < r.shares (.payload p) ↔
      0 < sharesIn (fun g => [.group g]) r.keys (.payload p) ∨
        0 < sharesIn (fun g => [.group g]) r.slots (.payload p) ∨
        0 < sharesIn (fun p => [.payload p]) r.held (.payload p) ∨
        0 < sharesIn Payload.handles r.payloads (.payload p) ∨
        0 < sharesIn ObjectGroup.handles r.groups (.payload p) := by
    rw [shares_eq]
    omega
  simp only [split, sharesIn_pos_iff, ObjectGroup.mem_handles, Payload.handles]
  simp [eq_comm]

end Registry

end SharedNames
