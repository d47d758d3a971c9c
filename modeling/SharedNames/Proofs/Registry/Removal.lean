import SharedNames.Proofs.NameTable.Handover
import SharedNames.Proofs.Registry.Soundness

/-!
What deleting an object does, from end to end.

A deletion goes through four tables: the global names of the objects, the local names that are
remembered for global names, the payloads of the objects, and the shares of the payload. An
object can share its global name with others, or its payload, or both, or neither.

* `ObjectGroup.Removed` lists what a deletion does to its group, and
  `ObjectGroup.removed_of_delete` proves it of sound groups.
* `Registry.Removal` lists what it does beyond: a share of the payload is given up, and the
  payload is destroyed if nobody else has one.
* `Run.delete_removes`: so it is at every moment of a run, whoever deletes the object.
-/

namespace SharedNames

variable {kind : ObjectKind} {l : Name}

/-! ### The group -/

theorem NameTable.size_delete {t : NameTable} (rule : SuccessorRule) (live : t.isLive l) :
    (t.delete rule l).1.size + 1 = t.size := by
  obtain ⟨g, bound⟩ := isLive_iff.mp live
  have counted := (erased_append_valuesOf_perm t.globals l).length_eq
  simp only [List.length_append, length_valuesOf, bound, Option.toList_some,
    List.length_singleton] at counted
  rw [size, globals_delete, Nat.add_comm]
  exact counted

namespace ObjectGroup

variable {group left : ObjectGroup}

/-- All that the deletion of a live name does to its group. -/
structure Removed (kind : ObjectKind) (l : Name) (group left : ObjectGroup) : Prop where
  gone : (left.names kind).isLive l = false ∧ (left.names kind).globalOf l = 0 ∧
    left.payload? kind l = none
  count_eq : left.count kind + 1 = group.count kind
  /-- The other objects keep their global names and their payloads. -/
  kept : ∀ k, k ≠ l → (left.names kind).isLive k = (group.names kind).isLive k ∧
    (left.names kind).globalOf k = (group.names kind).globalOf k ∧
    left.payload? kind k = group.payload? kind k
  /-- Global names are answered as before, except the one of `l` where `l` was the answer. -/
  localOf_eq : ∀ h, h ≠ (group.names kind).globalOf l ∨ (group.names kind).localOf h ≠ l →
    (left.names kind).localOf h = (group.names kind).localOf h
  /-- That one goes over to another name that is bound to it, if there is one. -/
  handedOver : (group.names kind).localOf ((group.names kind).globalOf l) = l →
    NameTable.HandedOver l ((group.names kind).globalOf l) (group.names kind) (left.names kind)
  counters : (left.names kind).nextLocal = (group.names kind).nextLocal ∧
    (left.names kind).nextGlobal = (group.names kind).nextGlobal
  table_of_ne : ∀ other, other ≠ kind → left.table other = group.table other

/-- Deleting a live name of a sound group is always answered, and does to the group what
`Removed` lists. The names are a matter of the name table, where a deletion is a rewrite of
one entry; the payloads are those of the other names. -/
theorem removed_of_delete (sound : group.Sound) (live : (group.names kind).isLive l)
    (rule : NameTable.SuccessorRule) :
    ∃ left event, group.handle rule kind (.delete l) =
        some ⟨left, .done, event, group.payload? kind l⟩ ∧ Removed kind l group left := by
  obtain ⟨left, event, answered, table⟩ : ∃ left event,
      group.handle rule kind (.delete l) = some ⟨left, .done, event, group.payload? kind l⟩ ∧
        left.table kind = ((group.table kind).delete rule l).table :=
    ⟨_, _, rfl, PerKind.get_set_self group.tables kind _⟩
  have names : left.names kind = ((group.names kind).delete rule l).1 :=
    congrArg ObjectTable.names table
  have payloads (k : Name) :
      left.payload? kind k = if k = l then none else group.payload? kind k := by
    rw [payload?, table]
    exact ObjectTable.payloads_getElem?_delete rule (group.table kind) l k
  have index : (group.names kind).Indexed := (sound kind).index
  obtain ⟨g, entry⟩ := NameTable.isLive_iff.mp live
  have named := index.ne_zero_of_globals entry
  have write := NameTable.rewrite_delete rule l index
  have counters := NameTable.counters_delete rule (group.names kind) l
  have size := NameTable.size_delete rule live
  rw [← names] at write counters size
  refine ⟨left, event, answered, ?_⟩
  constructor
  case gone =>
    refine ⟨NameTable.isLive_eq_false_iff.mpr write.globals_self, ?_, ?_⟩
    · rw [NameTable.globalOf, write.globals_self, Option.getD_none]
    · rw [payloads, if_pos rfl]
  case count_eq => exact size
  case kept =>
    intro k other
    exact ⟨write.isLive_of_ne other, write.globalOf_of_ne other, by rw [payloads, if_neg other]⟩
  case localOf_eq =>
    intro h elsewhere
    refine write.localOf_of_ne (by simp) ?_
    rintro answer
    rcases elsewhere with different | notAnswer
    · have bound := NameTable.isLive_and_globalOf_iff.mpr (index.globals_of_localOf named answer)
      exact different bound.2.symm
    · exact notAnswer answer
  case handedOver =>
    intro answer
    exact write.handedOver (write.indexed index fun _ => rfl) named (by simp) answer
  case counters => exact counters
  case table_of_ne => exact fun other ne => (table_handle answered other).2 ne

/-- The objects that are left have the payloads that they had, and no others. -/
theorem Removed.payload?_eq_some_iff (removed : Removed kind l group left) {k : ObjectKind}
    {m : Name} {p : PayloadId} :
    left.payload? k m = some p ↔ group.payload? k m = some p ∧ ¬ (k = kind ∧ m = l) := by
  by_cases own : k = kind
  · subst own
    by_cases same : m = l
    · rw [same, removed.gone.2.2]
      simp
    · rw [(removed.kept m same).2.2]
      simp [same]
  · rw [payload?, removed.table_of_ne k own, ← payload?]
    simp [own]

end ObjectGroup

/-! ### The registry -/

namespace Registry

variable {settings : Settings} {operations : List Operation} {log journal : Journal}
  {rest : List Task} {r after : Registry} {issuer : Issuer} {g : GroupId}
  {group left : ObjectGroup} {p : PayloadId}

/-- Somebody has a share of a payload, apart from the object `l`: a client, another object of any
group, or one of the tasks that are left. -/
def SharedElsewhere (g : GroupId) (kind : ObjectKind) (l : Name) (rest : List Task)
    (r : Registry) (p : PayloadId) : Prop :=
  (∃ name : String, r.held[name]? = some p) ∨
    (∃ (j : GroupId) (other : ObjectGroup) (k : ObjectKind) (m : Name),
      r.groups[j]? = some other ∧ other.payload? k m = some p ∧ ¬ (j = g ∧ k = kind ∧ m = l)) ∨
    ∃ task ∈ rest, .payload p ∈ task.handles

/-- All that the deletion of `l` does, where `rest` is what others have to do after it. -/
structure Removal (g : GroupId) (kind : ObjectKind) (l : Name) (group : ObjectGroup)
    (rest : List Task) (r after : Registry) (journal : Journal) : Prop where
  removed : ∃ left, after.groups[g]? = some left ∧ ObjectGroup.Removed kind l group left
  groups_of_ne : ∀ j, j ≠ g → after.groups[j]? = r.groups[j]?
  /-- One share is given up of the payload, if there is one, and no other share. -/
  shares_eq : ∀ h, after.sharesWith rest h +
    ((group.payload? kind l).toList.map Handle.payload).count h = r.sharesWith rest h
  /-- What is destroyed is the payload, and only if nobody else has a share of it. -/
  destroyed_iff : ∀ h, h ∈ journal.destroyed ↔
    ∃ p, group.payload? kind l = some p ∧ h = .payload p ∧ ¬ SharedElsewhere g kind l rest r p
  payloads : ∀ p : PayloadId, after.payloads[p]? =
    if .payload p ∈ journal.destroyed then none else r.payloads[p]?
  others_eq : after = { r with groups := after.groups, payloads := after.payloads }

/-- Once the object is deleted, the shares of its payload are those that others have. -/
theorem shared_iff_of_removed (rest : List Task) (p : PayloadId) (found : r.groups[g]? = some group)
    (removed : ObjectGroup.Removed kind l group left) :
    0 < ({ r with groups := r.groups.insert g left } : Registry).sharesWith rest (.payload p) ↔
      SharedElsewhere g kind l rest r p := by
  rw [sharesWith, Nat.add_pos_iff_pos_or_pos, shares_payload_pos_iff, pending, List.count_pos_iff,
    List.mem_flatMap, or_assoc, SharedElsewhere]
  refine or_congr Iff.rfl (or_congr ?_ Iff.rfl)
  constructor
  · rintro ⟨j, other, k, m, there, stored⟩
    rcases Decidable.em (j = g) with rfl | ne
    · rw [Std.ExtTreeMap.getElem?_insert_self] at there
      cases there
      obtain ⟨stored, different⟩ := removed.payload?_eq_some_iff.mp stored
      exact ⟨j, group, k, m, found, stored, fun same => different same.2⟩
    · rw [getElem?_insert_of_ne (Ne.symm ne)] at there
      exact ⟨j, other, k, m, there, stored, fun same => ne same.1⟩
  · rintro ⟨j, other, k, m, there, stored, different⟩
    rcases Decidable.em (j = g) with rfl | ne
    · obtain rfl := Option.some.inj (found.symm.trans there)
      refine ⟨j, left, k, m, Std.ExtTreeMap.getElem?_insert_self, ?_⟩
      exact removed.payload?_eq_some_iff.mpr ⟨stored, fun same => different ⟨rfl, same⟩⟩
    · exact ⟨j, other, k, m, (getElem?_insert_of_ne (Ne.symm ne)).trans there, stored⟩

section Parts

variable {rule : NameTable.SuccessorRule} {event : Option ObjectTable.Event}
  (found : r.groups[g]? = some group)
  (answered : group.handle rule kind (.delete l) =
    some ⟨left, .done, event, group.payload? kind l⟩)

include found answered

theorem shares_of_delete (h : Handle) :
    ({ r with groups := r.groups.insert g left } : Registry).shares h +
      ((group.payload? kind l).toList.map Handle.payload).count h = r.shares h := by
  have written := shares_insertGroup h left found
  have counted := ObjectGroup.count_handles_of_handle answered h
  simp only [ObjectTable.Request.handles, List.count_nil] at counted
  omega

variable (removed : ObjectGroup.Removed kind l group left)

include removed

/-- The object has no payload, or not alone: then only the share of the object is gone, and
nothing is destroyed. -/
theorem removal_of_kept (nothing : journal.destroyed = [])
    (shared : ∀ p, group.payload? kind l = some p → SharedElsewhere g kind l rest r p) :
    Removal g kind l group rest r { r with groups := r.groups.insert g left } journal := by
  constructor
  case removed => exact ⟨left, Std.ExtTreeMap.getElem?_insert_self, removed⟩
  case groups_of_ne => exact fun j ne => getElem?_insert_of_ne (Ne.symm ne)
  case shares_eq =>
    intro h
    have shares := shares_of_delete found answered h
    simp only [sharesWith]
    omega
  case destroyed_iff =>
    intro h
    rw [nothing]
    refine iff_of_false List.not_mem_nil ?_
    rintro ⟨p, stored, -, alone⟩
    exact alone (shared p stored)
  case payloads =>
    intro p
    rw [nothing, if_neg List.not_mem_nil]
  case others_eq => rfl

/-- The object alone has the payload: then its share was the last one. -/
theorem removal_of_destroyed {payload : Payload} (stored : group.payload? kind l = some p)
    (there : r.payloads[p]? = some payload) (quiet : payload.destructor = none)
    (destroyed : journal.destroyed = [.payload p]) (alone : ¬ SharedElsewhere g kind l rest r p) :
    Removal g kind l group rest r
      { r with groups := r.groups.insert g left, payloads := r.payloads.erase p } journal := by
  constructor
  case removed => exact ⟨left, Std.ExtTreeMap.getElem?_insert_self, removed⟩
  case groups_of_ne => exact fun j ne => getElem?_insert_of_ne (Ne.symm ne)
  case shares_eq =>
    intro h
    have shares := shares_of_delete found answered h
    have erased := shares_erasePayload (r := { r with groups := r.groups.insert g left }) h there
    have handles : payload.handles = [] := by rw [Payload.handles, quiet]; rfl
    rw [handles, List.count_nil] at erased
    simp only [sharesWith] at erased ⊢
    omega
  case destroyed_iff =>
    intro h
    rw [destroyed, List.mem_singleton]
    constructor
    · intro same
      exact ⟨p, stored, same, alone⟩
    · rintro ⟨q, own, same, -⟩
      rw [same, Option.some.inj (own.symm.trans stored)]
  case payloads =>
    intro q
    by_cases same : q = p
    · have gone : Handle.payload q ∈ journal.destroyed := by simp [destroyed, same]
      rw [if_pos gone, same, Std.ExtTreeMap.getElem?_erase_self]
    · have kept : Handle.payload q ∉ journal.destroyed := by simp [destroyed, same]
      rw [if_neg kept, getElem?_erase_of_ne (Ne.symm same)]
  case others_eq => rfl

end Parts

/-! ### The cascade -/

theorem cascade_of_owned (policy : Policy) {handle : Handle}
    (owned : 0 < r.sharesWith rest handle) :
    Cascade policy r (.release handle :: rest) [] r rest := by
  have stepped : r.step policy rest (.release handle) = some ⟨r, [], []⟩ :=
    congrArg some (release_of_owned owned)
  exact .single stepped

/-- Nothing follows the end of a payload without a destructor. With one, its action would come
next. -/
theorem cascade_of_last_payload (policy : Policy) {payload : Payload}
    (last : r.sharesWith rest (.payload p) = 0) (there : r.payloads[p]? = some payload)
    (quiet : payload.destructor = none) :
    Cascade policy r (.release (.payload p) :: rest) [.payloadDestroyed p payload.label]
      { r with payloads := r.payloads.erase p } rest := by
  have followed : afterPayload payload = [] := by rw [afterPayload, quiet]; rfl
  have released : r.release policy rest (.payload p) = _ := release_last_payload last there
  rw [followed] at released
  have stepped : r.step policy rest (.release (.payload p)) = some _ := congrArg some released
  exact .single stepped

/-- A deletion that is the next task does what it should, and leaves the share of its group to
be released. Where others have a share of the payload, or there is none, nothing else happens.
Where nobody has, the payload is destroyed next, and without a destructor that is all. -/
theorem Accounted.removal (accounted : Accounted r (.act issuer g (.delete kind l) :: rest))
    (sound : r.Sound) (policy : Policy) (found : r.groups[g]? = some group)
    (live : (group.names kind).isLive l)
    (quiet : ∀ p payload, group.payload? kind l = some p → r.payloads[p]? = some payload →
      payload.destructor = none) :
    ∃ journal after,
      Cascade policy r (.act issuer g (.delete kind l) :: rest) journal after
        (.release (.group g) :: rest) ∧
      Removal g kind l group rest r after journal := by
  obtain ⟨left, event, answered, removed⟩ :=
    ObjectGroup.removed_of_delete (sound g group found) live policy.successor
  have effect : Effect policy rest r (.act issuer g (.delete kind l)) []
      { registry := { r with groups := r.groups.insert g left }
        tasks := ((group.payload? kind l).toList.map fun p => .release (.payload p)) ++
          [.release (.group g)]
        journal := [.performed issuer g kind (.delete l) .done event] } :=
    @Effect.answered policy rest r _ ⟨issuer, g, kind, .delete l, [.release (.group g)]⟩ group
      ⟨left, .done, event, group.payload? kind l⟩ rfl found answered
  have accounted := (effect.transfer accounted).accounted accounted
  have first : Cascade policy r (.act issuer g (.delete kind l) :: rest) _ _ _ :=
    .single effect.step_eq
  cases stored : group.payload? kind l with
  | none =>
      rw [stored] at first
      refine ⟨_, _, first, removal_of_kept found answered removed rfl ?_⟩
      intro p own
      rw [stored] at own
      cases own
  | some p =>
      rw [stored] at first accounted
      -- The share of the group that is still to be released is none of the payload.
      have shared := shared_iff_of_removed (.release (.group g) :: rest) p found removed
      have ahead : SharedElsewhere g kind l (.release (.group g) :: rest) r p ↔
          SharedElsewhere g kind l rest r p := by
        simp [SharedElsewhere, Task.handles]
      rw [ahead] at shared
      by_cases elsewhere : SharedElsewhere g kind l rest r p
      · refine ⟨_, _, first.trans (cascade_of_owned policy (shared.mpr elsewhere)),
          removal_of_kept found answered removed rfl ?_⟩
        intro q own
        rw [← Option.some.inj (stored.symm.trans own)]
        exact elsewhere
      · have last := Nat.eq_zero_of_not_pos (mt shared.mp elsewhere)
        have there : ({ r with groups := r.groups.insert g left } : Registry).has (.payload p) :=
          (accounted.has_iff _).mpr (sharesWith_pos_of_mem List.mem_cons_self)
        obtain ⟨payload, there⟩ := has_payload_iff.mp there
        have none := quiet p payload stored there
        exact ⟨_, _, first.trans (cascade_of_last_payload policy last there none),
          removal_of_destroyed found answered removed stored there none rfl elsewhere⟩

theorem change_act {target : GroupRef} {action : Action} (refers : r.find? target = some g) :
    r.change (.act target action) = ⟨.done, r, [.act .client g action], []⟩ := by
  simp only [change, refers]

/-- A client who deletes an object gets all this done, as the client keeps the group alive.
The release of the group that comes last is then never the last one. -/
theorem perform_delete {policy : Policy} {target : GroupRef} (refers : r.find? target = some g)
    (cascade : Cascade policy r [.act .client g (.delete kind l)] journal after
      [.release (.group g)]) :
    r.perform policy (.act target (.delete kind l)) = ⟨.done, after, journal, []⟩ := by
  obtain ⟨keys, slots⟩ := cascade.tables_eq
  have owned : 0 < after.sharesWith [] (.group g) :=
    shares_pos_of_find ((find?_of_tables_eq keys slots target).trans refers)
  have complete := cascade.trans (cascade_of_owned policy owned)
  rw [perform, change_act refers, settle_eq_of_cascade complete trivial, List.append_nil,
    List.nil_append]

namespace Run

/-- At any moment, whoever deletes a live name whose payload, if it has one, has no destructor:
the deletion does all that `Removal` lists and nothing else. What is left to do is to release
the share of the group that it was asked through. For a client nothing follows from that, so
this is the whole operation. -/
theorem delete_removes
    (run : Run settings operations log r (.act issuer g (.delete kind l) :: rest))
    (policy : Policy) (found : r.groups[g]? = some group) (live : (group.names kind).isLive l)
    (quiet : ∀ p payload, group.payload? kind l = some p → r.payloads[p]? = some payload →
      payload.destructor = none) :
    ∃ journal after,
      Cascade policy r (.act issuer g (.delete kind l) :: rest) journal after
        (.release (.group g) :: rest) ∧
      Removal g kind l group rest r after journal ∧
      ∀ target, r.find? target = some g → issuer = .client → rest = [] →
        r.perform policy (.act target (.delete kind l)) = ⟨.done, after, journal, []⟩ := by
  obtain ⟨journal, after, cascade, removal⟩ :=
    run.accounted.removal run.sound policy found live quiet
  refine ⟨journal, after, cascade, removal, ?_⟩
  rintro target refers rfl rfl
  exact perform_delete refers cascade

/-- Three textures share the global name `1`, of which `3` is the latest. The payload `a` is
attached to `2` and `3`, and `b` to `1` alone. When `3` is deleted, `1` is answered for the global
name, and `a` stays. When `1` is deleted instead, `3` is still answered, and `b` is destroyed. -/
theorem delete_removes_of_shared :
    ∃ log r group, Run ⟨.reuse, 1⟩
        [.create (.handle 1), .act (.key (.handle 1)) (.generate .texture [0, 0, 0]),
          .act (.key (.handle 1)) (.rebind .texture 2 1),
          .act (.key (.handle 1)) (.rebind .texture 3 1),
          .act (.key (.handle 1)) (.attachNew .texture 2 "a" (some "held")),
          .act (.key (.handle 1)) (.attachHeld .texture 3 "held" none), .releaseHeld "held",
          .act (.key (.handle 1)) (.attachNew .texture 1 "b" none)] log r [] ∧
      r.groups[0]? = some group ∧
      (∃ journal after,
        r.perform .standard (.act (.key (.handle 1)) (.delete .texture 3)) =
          ⟨.done, after, journal, []⟩ ∧
        journal.drops = [] ∧ Removal 0 .texture 3 group [] r after journal) ∧
      ∃ journal after,
        r.perform .standard (.act (.key (.handle 1)) (.delete .texture 1)) =
          ⟨.done, after, journal, []⟩ ∧
        journal.drops = ["b"] ∧ Removal 0 .texture 1 group [] r after journal := by
  have fresh : Run ⟨.reuse, 1⟩ [] [] _ [] := .start
  have run := fresh.performAll .standard
    [.create (.handle 1), .act (.key (.handle 1)) (.generate .texture [0, 0, 0]),
      .act (.key (.handle 1)) (.rebind .texture 2 1),
      .act (.key (.handle 1)) (.rebind .texture 3 1),
      .act (.key (.handle 1)) (.attachNew .texture 2 "a" (some "held")),
      .act (.key (.handle 1)) (.attachHeld .texture 3 "held" none), .releaseHeld "held",
      .act (.key (.handle 1)) (.attachNew .texture 1 "b" none)] (by decide)
  have reached : ∃ log r, Run ⟨.reuse, 1⟩ _ log r [] ∧
      r.find? (.key (.handle 1)) = some 0 ∧
      (∀ entry ∈ r.payloads.toList, entry.2.destructor = none) ∧
      (r.groups[0]?.map fun group =>
        ((group.names .texture).isLive 3, (group.names .texture).isLive 1)) = some (true, true) ∧
      (r.perform .standard (.act (.key (.handle 1)) (.delete .texture 3))).journal.drops = [] ∧
      (r.perform .standard (.act (.key (.handle 1)) (.delete .texture 1))).journal.drops = ["b"] :=
    ⟨_, _, run, by decide, by decide, by decide, by decide, by decide⟩
  obtain ⟨log, r, run, refers, quiet, lives, kept, one⟩ := reached
  obtain ⟨group, found, both⟩ := Option.map_eq_some_iff.mp lives
  obtain ⟨three, first⟩ := Prod.mk.inj both
  have calm (l : Name) : ∀ p payload, group.payload? .texture l = some p →
      r.payloads[p]? = some payload → payload.destructor = none := by
    intro p payload _ there
    exact quiet (p, payload) (Std.ExtTreeMap.mem_toList_iff_getElem?_eq_some.mpr there)
  have next (l : Name) := run.operate (.act (.key (.handle 1)) (.delete .texture l))
  simp only [change_act refers] at next
  refine ⟨log, r, group, run, found, ?_, ?_⟩
  · obtain ⟨journal, after, -, removal, performed⟩ :=
      (next 3).delete_removes .standard found three (calm 3)
    have performed := performed _ refers rfl rfl
    rw [performed] at kept
    exact ⟨journal, after, performed, kept, removal⟩
  · obtain ⟨journal, after, -, removal, performed⟩ :=
      (next 1).delete_removes .standard found first (calm 1)
    have performed := performed _ refers rfl rfl
    rw [performed] at one
    exact ⟨journal, after, performed, one, removal⟩

end Run

end Registry

end SharedNames
