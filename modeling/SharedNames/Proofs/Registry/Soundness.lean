import SharedNames.Proofs.NameTable.Index
import SharedNames.Proofs.Registry.Run

/-!
The groups of a registry are sound at every moment.

A group is `Sound` if, for each kind, the two maps of its name table agree and only live
names have payloads. Every request keeps this (`ObjectGroup.sound_of_handle`), and only
requests change a group, so it holds at each moment of a run (`Run.sound`), also when a
destructor starts to act. `Run.groups` is this argument for any property of groups.
-/

namespace SharedNames

/-- The two maps of the name table agree, and only live names have payloads. These are the
invariants of one table. -/
structure ObjectTable.Sound (t : ObjectTable) : Prop where
  index : t.names.Indexed
  live_of_payload : ∀ {l : Name} {p : PayloadId}, t.payloads[l]? = some p → t.names.isLive l = true

def ObjectGroup.Sound (group : ObjectGroup) : Prop :=
  ∀ kind, (group.table kind).Sound

/-! ### Requests -/

namespace NameTable

variable {rule : SuccessorRule} {t u : NameTable}

theorem isLive_of_generate {requested l : Name} {withGlobal : Bool} {event : Event}
    (h : t.generate requested withGlobal = some (u, event)) (live : t.isLive l = true) :
    u.isLive l = true := by
  have effect : Effect (.nth 0) t _ (some event) u := effect_of_generate h
  cases effect with
  | kept => exact live
  | made =>
      simp only [isLive, Std.ExtTreeMap.contains_insert, Bool.or_eq_true]
      exact .inr live

theorem isLive_of_rebind {l g k : Name} (live : t.isLive k = true) :
    (t.rebind rule l g).1.isLive k = true := by
  by_cases reserved : l = 0 ∨ g = 0
  · rwa [rebind_of_reserved rule t reserved]
  · obtain ⟨hl, hg⟩ := not_or.mp reserved
    simp only [isLive, globals_rebind rule t hl hg, Std.ExtTreeMap.contains_insert, Bool.or_eq_true]
    exact .inr live

/-- Deleting a name keeps the others live, those that share a global name with it included. -/
theorem isLive_of_delete {l k : Name} (other : k ≠ l) (live : t.isLive k = true) :
    (t.delete rule l).1.isLive k = true := by
  rw [isLive, globals_delete, Std.ExtTreeMap.contains_erase, Bool.and_eq_true]
  refine ⟨?_, live⟩
  simp [Ne.symm other]

end NameTable

theorem ObjectTable.sound_starting (first : Name) : (ObjectTable.starting first).Sound where
  index := NameTable.indexed_starting first
  live_of_payload there := by simp [starting] at there

/-- What a request keeps live: all but a name that it deletes. Hence no payload is left on a
name that is gone. -/
theorem ObjectTable.isLive_of_handle {rule : NameTable.SuccessorRule}
    {request : ObjectTable.Request} {t : ObjectTable} {out : ObjectTable.Outcome} {l : Name}
    (answered : t.handle rule request = some out) (kept : request ≠ .delete l)
    (live : t.names.isLive l = true) : out.table.names.isLive l = true := by
  cases request with
  | generate requested =>
      obtain ⟨⟨names, event⟩, generated, rfl⟩ := Option.map_eq_some_iff.mp answered
      exact NameTable.isLive_of_generate generated live
  | delete k =>
      cases answered
      exact NameTable.isLive_of_delete (fun same => kept (same ▸ rfl)) live
  | rebind k g =>
      cases answered
      exact NameTable.isLive_of_rebind live
  | attach k p =>
      cases answered
      rwa [ObjectTable.names_attach]

/-- Where a payload comes from: the name had it before and was not deleted, or the name is
live and the request attached it. So in a sound table a name that is generated starts without
one. -/
theorem ObjectTable.payload_of_handle {rule : NameTable.SuccessorRule}
    {request : ObjectTable.Request} {t : ObjectTable} {out : ObjectTable.Outcome} {l : Name}
    {p : PayloadId} (answered : t.handle rule request = some out)
    (stored : out.table.payloads[l]? = some p) :
    (t.payloads[l]? = some p ∧ request ≠ .delete l) ∨
      (request = .attach l p ∧ out.answer = .attached true ∧ t.names.isLive l = true) := by
  cases request with
  | generate requested =>
      rw [ObjectTable.payloads_generate answered] at stored
      exact .inl ⟨stored, by simp⟩
  | delete k =>
      cases answered
      rw [ObjectTable.payloads_getElem?_delete] at stored
      split at stored
      · cases stored
      · rename_i other
        refine .inl ⟨stored, ?_⟩
        rintro ⟨rfl⟩
        exact other rfl
  | rebind k g =>
      cases answered
      exact .inl ⟨stored, by simp⟩
  | attach k q =>
      cases answered
      rw [ObjectTable.payloads_getElem?_attach] at stored
      split at stored
      · rename_i here
        obtain ⟨rfl, live⟩ := here
        cases stored
        exact .inr ⟨rfl, by rw [ObjectTable.attach, if_pos live], live⟩
      · exact .inl ⟨stored, by simp⟩

/-- What the calls keep that a request can make on the names, the request keeps. A request to
attach makes none, and no request creates an object without a global name. -/
theorem ObjectTable.names_keep {P : NameTable → Prop} {rule : NameTable.SuccessorRule}
    {request : ObjectTable.Request} {t : ObjectTable} {out : ObjectTable.Outcome}
    (step : ∀ {u : NameTable} {call : NameTable.Call} {event : Option NameTable.Event},
      NameTable.Effect rule t.names call event u → (∀ l, call ≠ .generate l false) → P u)
    (holds : P t.names) (answered : t.handle rule request = some out) : P out.table.names := by
  cases request with
  | generate requested =>
      obtain ⟨⟨names, event⟩, generated, rfl⟩ := Option.map_eq_some_iff.mp answered
      exact step (NameTable.effect_of_generate generated) nofun
  | delete l =>
      cases answered
      exact step (NameTable.effect_of_delete l) nofun
  | rebind l g =>
      cases answered
      exact step (NameTable.effect_of_rebind l g) nofun
  | attach l p =>
      cases answered
      rwa [ObjectTable.names_attach]

/-- Every request keeps a table sound. A deletion takes the payload away together with the
name. -/
theorem ObjectTable.sound_of_handle {rule : NameTable.SuccessorRule} {request : ObjectTable.Request}
    {t : ObjectTable} {out : ObjectTable.Outcome} (sound : t.Sound)
    (answered : t.handle rule request = some out) : out.table.Sound where
  index := ObjectTable.names_keep (fun effect _ => effect.indexed sound.index) sound.index answered
  live_of_payload stored := by
    rcases ObjectTable.payload_of_handle answered stored with ⟨before, kept⟩ | ⟨rfl, -, live⟩
    · exact ObjectTable.isLive_of_handle answered kept (sound.live_of_payload before)
    · exact ObjectTable.isLive_of_handle answered (by simp) live

theorem ObjectGroup.sound_starting (first : Name) : (ObjectGroup.starting first).Sound := by
  intro kind
  simpa [table, starting] using ObjectTable.sound_starting first

/-- What a request keeps of its own table, it keeps of the tables of all kinds, since it
leaves the others as they are. -/
theorem ObjectGroup.tables_keep {P : ObjectTable → Prop} {rule : NameTable.SuccessorRule}
    {kind : ObjectKind} {request : ObjectTable.Request} {group : ObjectGroup}
    {out : ObjectGroup.Outcome}
    (step : ∀ {t : ObjectTable} {after : ObjectTable.Outcome}, P t →
      t.handle rule request = some after → P after.table)
    (holds : ∀ kind, P (group.table kind)) (answered : group.handle rule kind request = some out)
    (other : ObjectKind) : P (out.group.table other) := by
  obtain ⟨handled, others⟩ := ObjectGroup.table_handle answered other
  by_cases same : other = kind
  · subst same
    exact step (holds other) handled
  · rw [others same]
    exact holds other

theorem ObjectGroup.sound_of_handle {rule : NameTable.SuccessorRule} {kind : ObjectKind}
    {request : ObjectTable.Request} {group : ObjectGroup} {out : ObjectGroup.Outcome}
    (sound : group.Sound) (answered : group.handle rule kind request = some out) :
    out.group.Sound :=
  ObjectGroup.tables_keep ObjectTable.sound_of_handle sound answered

/-! ### Runs -/

namespace Registry

variable {policy : Policy} {rest tasks left : List Task} {r after : Registry} {task : Task}
  {step : Step} {gained : List Handle} {operation : Operation} {change : Change} {journal : Journal}

theorem groups_hold (name : Option String) (p : PayloadId) (r : Registry) :
    (hold name p r).registry.groups = r.groups := by
  cases name <;> rfl

/-- Every group is good. -/
def GroupsAre (good : ObjectGroup → Prop) (r : Registry) : Prop :=
  ∀ (g : GroupId) (group : ObjectGroup), r.groups[g]? = some group → good group

section Good

variable {good : ObjectGroup → Prop}

theorem GroupsAre.of_groups_eq (all : r.GroupsAre good) (same : after.groups = r.groups) :
    after.GroupsAre good := by
  intro g group found
  rw [same] at found
  exact all g group found

theorem GroupsAre.insertGroup (all : r.GroupsAre good) (g : GroupId) {group : ObjectGroup}
    (own : good group) :
    ({ r with groups := r.groups.insert g group } : Registry).GroupsAre good := by
  intro j other found
  rcases getElem?_of_insert found with ⟨-, rfl⟩ | found
  · exact own
  · exact all j other found

/-- A task keeps groups good if requests do: groups change by requests only, and those that
are destroyed need not be good any more. -/
theorem Effect.groups (effect : Effect policy rest r task gained step)
    (kept : ∀ {kind request group out}, good group →
      group.handle policy.successor kind request = some out → good out.group)
    (all : r.GroupsAre good) : step.registry.GroupsAre good := by
  cases effect with
  | kept | absent | payloadDestroyed | unanswered | idle | refused => exact all
  | attached | fetched => exact all.of_groups_eq (groups_hold _ _ r)
  | offered => exact all.of_groups_eq (groups_hold _ _ _)
  | groupDestroyed =>
      intro g group found
      exact all g group (getElem?_of_erase found)
  | @answered task ask group out asks found answered =>
      exact all.insertGroup ask.g (kept (all ask.g group found) answered)

/-- An operation keeps groups good if new groups are. -/
theorem Opening.groups (opening : Opening r operation gained change)
    (new : ∀ first, good (.starting first)) (all : r.GroupsAre good) :
    change.registry.GroupsAre good := by
  cases opening with
  | unchanged | attached | detached | kept | letGo | released | acting => exact all
  | created => exact all.insertGroup r.groupsMade (new r.settings.firstName)

/-- All groups are good at each moment of a run if new groups are and requests keep them so.
Every invariant of tables is carried through runs by this one, under any policies. -/
theorem Run.groups {settings : Settings} {operations : List Operation} {log : Journal}
    (run : Run settings operations log r tasks) (new : ∀ first, good (.starting first))
    (kept : ∀ {rule kind request group out}, good group →
      group.handle rule kind request = some out → good out.group) : r.GroupsAre good :=
  run.invariant (P := fun _ r _ => r.GroupsAre good) (fun g group found => by simp [empty] at found)
    (fun all _ opening => opening.groups new all) (fun all _ effect => effect.groups kept all)

end Good

def Sound (r : Registry) : Prop :=
  ∀ (g : GroupId) (group : ObjectGroup), r.groups[g]? = some group → group.Sound

theorem Effect.sound (effect : Effect policy rest r task gained step) (sound : r.Sound) :
    step.registry.Sound :=
  effect.groups ObjectGroup.sound_of_handle sound

theorem Opening.sound (opening : Opening r operation gained change) (sound : r.Sound) :
    change.registry.Sound :=
  opening.groups ObjectGroup.sound_starting sound

theorem Cascade.sound (cascade : Cascade policy r tasks journal after left) (sound : r.Sound) :
    after.Sound := by
  induction cascade with
  | rest => exact sound
  | step stepped _ ih =>
      obtain ⟨gained, effect⟩ := effect_of_step stepped
      exact ih (effect.sound sound)

/-- At each moment of a run every table is sound. -/
theorem Run.sound {settings : Settings} {operations : List Operation} {log : Journal}
    (run : Run settings operations log r tasks) : r.Sound :=
  run.groups ObjectGroup.sound_starting ObjectGroup.sound_of_handle

end Registry

end SharedNames
