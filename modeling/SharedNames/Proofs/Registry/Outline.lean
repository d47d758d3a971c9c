import SharedNames.Proofs.Registry.Soundness

/-!
What does not depend on who takes over a global name.

When a global name loses its latest binding, any sharer may take over, and which one may
depend on the order of deletions. The `outline` of a registry is the registry without
these choices: all of it but the latest bindings. In a sound group the outline decides
which global names are bound, so everything that a request answers, records and releases
is a matter of the outline (`ObjectGroup.handle_alike`), and so is all that a task does
that is not a release (`Effect.alike`). What a release does depends on the shares, and
these too are those of the outline (`shares_outline`).
-/

namespace SharedNames

/-! ### Outlines -/

/-- A name table without its latest bindings: all that does not depend on which sharer takes a
global name over. -/
def NameTable.outline (t : NameTable) : NameTable :=
  { t with latest := ∅ }

def ObjectTable.outline (t : ObjectTable) : ObjectTable :=
  { t with names := t.names.outline }

def ObjectGroup.outline (group : ObjectGroup) : ObjectGroup where
  tables := {
    vertexBuffer := group.tables.vertexBuffer.outline
    texture := group.tables.texture.outline
    renderbuffer := group.tables.renderbuffer.outline
    framebuffer := group.tables.framebuffer.outline
    shader := group.tables.shader.outline
    program := group.tables.program.outline }

def Registry.outline (r : Registry) : Registry :=
  { r with groups := r.groups.map fun _ => ObjectGroup.outline }

theorem NameTable.outline_eq_iff {t u : NameTable} :
    t.outline = u.outline ↔
      t.nextLocal = u.nextLocal ∧ t.nextGlobal = u.nextGlobal ∧ t.globals = u.globals := by
  simp [outline]

theorem ObjectTable.outline_eq_iff {t u : ObjectTable} :
    t.outline = u.outline ↔ t.names.outline = u.names.outline ∧ t.payloads = u.payloads := by
  simp [outline]

namespace ObjectGroup

@[simp] theorem table_outline (group : ObjectGroup) (kind : ObjectKind) :
    group.outline.table kind = (group.table kind).outline := by
  cases kind <;> rfl

theorem outline_eq_iff {group other : ObjectGroup} :
    group.outline = other.outline ↔
      ∀ kind, (group.table kind).outline = (other.table kind).outline := by
  constructor
  · intro same kind
    rw [← table_outline, ← table_outline, same]
  · intro same
    refine congrArg ObjectGroup.mk (PerKind.ext_get fun kind => ?_)
    have tables := same kind
    rwa [← table_outline, ← table_outline] at tables

@[simp] theorem payload?_outline (group : ObjectGroup) (kind : ObjectKind) (l : Name) :
    group.outline.payload? kind l = group.payload? kind l := by
  rw [payload?, table_outline]
  rfl

@[simp] theorem globals_outline (group : ObjectGroup) (kind : ObjectKind) :
    (group.outline.names kind).globals = (group.names kind).globals := by
  rw [names, table_outline]
  rfl

@[simp] theorem isLive_outline (group : ObjectGroup) (kind : ObjectKind) (l : Name) :
    (group.outline.names kind).isLive l = (group.names kind).isLive l := by
  rw [NameTable.isLive, globals_outline, NameTable.isLive]

@[simp] theorem payloadShares_outline (group : ObjectGroup) :
    group.outline.payloadShares = group.payloadShares := by
  simp only [payloadShares, table_outline]
  rfl

@[simp] theorem payloadTotal_outline (group : ObjectGroup) :
    group.outline.payloadTotal = group.payloadTotal := by
  rw [payloadTotal, payloadShares_outline, payloadTotal]

@[simp] theorem objectTotal_outline (group : ObjectGroup) :
    group.outline.objectTotal = group.objectTotal := by
  simp only [objectTotal, NameTable.toList, globals_outline]

end ObjectGroup

/-! ### Requests -/

namespace NameTable

variable {rule rule' : SuccessorRule} {t u : NameTable}

/-- Whether a global name is in use is a matter of the outline. The index is asked for it, but
in a sound table it has an entry exactly for the names that the entries use. -/
theorem isBound_alike (indexT : t.Indexed) (indexU : u.Indexed) (alike : t.globals = u.globals) :
    t.isBound = u.isBound := by
  funext g
  rw [Bool.eq_iff_iff, indexT.isBound_iff_shared, indexU.isBound_iff_shared, alike]

/-- What is generated is a matter of the outline, counters included. -/
theorem generate_alike (indexT : t.Indexed) (indexU : u.Indexed) (alike : t.outline = u.outline)
    {requested : Name} {withGlobal : Bool} {after : NameTable} {event : Event}
    (generated : t.generate requested withGlobal = some (after, event)) :
    ∃ after', u.generate requested withGlobal = some (after', event) ∧
      after.outline = after'.outline := by
  obtain ⟨nextLocal, nextGlobal, globals⟩ := outline_eq_iff.mp alike
  have live : t.isLive = u.isLive := by
    funext l
    rw [isLive, globals, isLive]
  have effect : Effect (.nth 0) t _ (some event) after := effect_of_generate generated
  cases effect with
  | kept nonzero isLive =>
      exact ⟨u, generate_of_isLive withGlobal nonzero (live ▸ isLive), alike⟩
  | @made _ l g _ new hl hg =>
      have hl' : u.newLocal requested = some l := by
        rw [← hl, newLocal, newLocal, live, nextLocal]
      have hg' : u.newGlobal withGlobal = some g := by
        rw [← hg, newGlobal, newGlobal, isBound_alike indexT indexU globals, nextGlobal]
      refine ⟨_, generate_of_not_isLive withGlobal (live ▸ new) hl' hg', ?_⟩
      rw [outline_eq_iff]
      simp [nextLocal, nextGlobal, globals]

/-- A deletion under two rules leaves one outline. The rules differ only in who is the latest
sharer. -/
theorem delete_alike (rule rule' : SuccessorRule) (l : Name) (alike : t.outline = u.outline) :
    (t.delete rule l).1.outline = (u.delete rule' l).1.outline ∧
      (t.delete rule l).2 = (u.delete rule' l).2 := by
  obtain ⟨nextLocal, nextGlobal, globals⟩ := outline_eq_iff.mp alike
  refine ⟨outline_eq_iff.mpr ?_, ?_⟩
  · simp only [counters_delete, globals_delete, nextLocal, nextGlobal, globals, and_self]
  · rw [delete, delete, globals]
    cases u.globals[l]? <;> rfl

theorem rebind_alike (rule rule' : SuccessorRule) (l g : Name) (alike : t.outline = u.outline) :
    (t.rebind rule l g).1.outline = (u.rebind rule' l g).1.outline ∧
      (t.rebind rule l g).2 = (u.rebind rule' l g).2 := by
  by_cases reserved : l = 0 ∨ g = 0
  · rw [rebind_of_reserved rule t reserved, rebind_of_reserved rule' u reserved]
    exact ⟨alike, rfl⟩
  · obtain ⟨nextLocal, nextGlobal, globals⟩ := outline_eq_iff.mp alike
    obtain ⟨hl, hg⟩ := not_or.mp reserved
    refine ⟨outline_eq_iff.mpr ?_, by simp [rebind, reserved]⟩
    simp only [counters_rebind, globals_rebind rule t hl hg, globals_rebind rule' u hl hg,
      nextLocal, nextGlobal, globals, and_self]

end NameTable

theorem ObjectTable.handle_alike {rule : NameTable.SuccessorRule} (rule' : NameTable.SuccessorRule)
    {request : ObjectTable.Request} {t u : ObjectTable} {out : ObjectTable.Outcome}
    (soundT : t.Sound) (soundU : u.Sound) (alike : t.outline = u.outline)
    (answered : t.handle rule request = some out) :
    ∃ out', u.handle rule' request = some out' ∧ out.table.outline = out'.table.outline ∧
      out.answer = out'.answer ∧ out.event = out'.event ∧ out.released = out'.released := by
  obtain ⟨names, payloads⟩ := outline_eq_iff.mp alike
  cases request with
  | generate requested =>
      obtain ⟨⟨after, event⟩, generated, rfl⟩ := Option.map_eq_some_iff.mp answered
      obtain ⟨after', generated', same⟩ :=
        NameTable.generate_alike soundT.index soundU.index names generated
      refine ⟨_, congrArg (Option.map _) generated', ?_, rfl, rfl, rfl⟩
      exact outline_eq_iff.mpr ⟨same, payloads⟩
  | delete l =>
      cases answered
      obtain ⟨same, event⟩ := NameTable.delete_alike rule rule' l names
      refine ⟨_, rfl, outline_eq_iff.mpr ⟨same, ?_⟩, rfl,
        congrArg (fun e => e.map ObjectTable.Event.naming) event, ?_⟩
      · exact congrArg (fun m => m.erase l) payloads
      · exact congrArg (fun m => m[l]?) payloads
  | rebind l g =>
      cases answered
      obtain ⟨same, event⟩ := NameTable.rebind_alike rule rule' l g names
      exact ⟨_, rfl, outline_eq_iff.mpr ⟨same, payloads⟩, rfl,
        congrArg (fun e => some (ObjectTable.Event.naming e)) event, rfl⟩
  | attach l p =>
      cases answered
      have live : t.names.isLive l = u.names.isLive l := by
        rw [NameTable.isLive, (NameTable.outline_eq_iff.mp names).2.2, NameTable.isLive]
      refine ⟨_, rfl, ?_⟩
      cases isLive : u.names.isLive l with
      | true =>
          simp only [ObjectTable.attach, live, isLive, if_true, outline_eq_iff, names, payloads,
            and_self]
      | false =>
          simp [ObjectTable.attach, live, isLive, alike]

/-- What a request to a group does is a matter of the outline: answer, event and payload are
the same, under whatever rule. -/
theorem ObjectGroup.handle_alike {rule : NameTable.SuccessorRule} (rule' : NameTable.SuccessorRule)
    {kind : ObjectKind} {request : ObjectTable.Request} {group other : ObjectGroup}
    {out : ObjectGroup.Outcome} (sound : group.Sound) (soundOther : other.Sound)
    (alike : group.outline = other.outline) (answered : group.handle rule kind request = some out) :
    ∃ out', other.handle rule' kind request = some out' ∧ out.group.outline = out'.group.outline ∧
      out.answer = out'.answer ∧ out.event = out'.event ∧ out.released = out'.released := by
  obtain ⟨inner, handled, rfl⟩ := Option.map_eq_some_iff.mp answered
  obtain ⟨inner', handled', same, answer, event, released⟩ :=
    ObjectTable.handle_alike rule' (sound kind) (soundOther kind)
      (outline_eq_iff.mp alike kind) handled
  refine ⟨_, congrArg (Option.map _) handled', outline_eq_iff.mpr fun k => ?_, answer, event,
    released⟩
  have tables := outline_eq_iff.mp alike k
  simp only [table, PerKind.get_set] at tables ⊢
  by_cases here : kind = k
  · simpa [here] using same
  · simpa [here] using tables

/-! ### Tasks -/

namespace Registry

variable {policy : Policy} (policy' : Policy) {rest : List Task} {r r' : Registry} {task : Task}
  {gained : List Handle} {step : Step}

theorem groups_outline (r : Registry) (g : GroupId) :
    r.outline.groups[g]? = r.groups[g]?.map ObjectGroup.outline :=
  Std.ExtTreeMap.getElem?_map

/-- The shares are a matter of the outline. So the same releases are the last ones. -/
@[simp] theorem shares_outline (r : Registry) (h : Handle) : r.outline.shares h = r.shares h := by
  have groups : valuesOf r.outline.groups = (valuesOf r.groups).map ObjectGroup.outline := by
    simp [valuesOf, outline, Std.ExtTreeMap.toList_map]
  simp only [shares, handles, groups, List.flatMap_map, ObjectGroup.payloadShares_outline]
  rfl

theorem outline_insertGroup (r : Registry) (g : GroupId) (group : ObjectGroup) :
    ({ r with groups := r.groups.insert g group } : Registry).outline =
      { r.outline with groups := r.outline.groups.insert g group.outline } := by
  refine congrArg (fun groups => { r with groups }) (Std.ExtTreeMap.ext_getElem? fun {j} => ?_)
  simp only [outline, Std.ExtTreeMap.getElem?_map, Std.ExtTreeMap.getElem?_insert]
  split <;> rfl

theorem outline_hold (name : Option String) (p : PayloadId) (r : Registry) :
    (hold name p r).registry.outline = (hold name p r.outline).registry ∧
      (hold name p r).tasks = (hold name p r.outline).tasks ∧
      (hold name p r).journal = (hold name p r.outline).journal := by
  cases name <;> exact ⟨rfl, rfl, rfl⟩

theorem hold_alike (alike : r.outline = r'.outline) (name : Option String) (p : PayloadId) :
    (hold name p r).registry.outline = (hold name p r').registry.outline ∧
      (hold name p r).tasks = (hold name p r').tasks ∧
      (hold name p r).journal = (hold name p r').journal := by
  obtain ⟨registry, tasks, journal⟩ := outline_hold name p r
  obtain ⟨registry', tasks', journal'⟩ := outline_hold name p r'
  rw [registry, registry', tasks, tasks', journal, journal', alike]
  exact ⟨rfl, rfl, rfl⟩

section Alike

variable (outlines : r.outline = r'.outline)

include outlines

theorem group_alike {g : GroupId} {group : ObjectGroup} (found : r.groups[g]? = some group) :
    ∃ group', r'.groups[g]? = some group' ∧ group.outline = group'.outline := by
  have same := groups_outline r g
  rw [outlines, groups_outline, found] at same
  obtain ⟨group', found', same⟩ := Option.map_eq_some_iff.mp same
  exact ⟨group', found', same.symm⟩

theorem no_group_alike {g : GroupId} (missing : r.groups[g]? = none) : r'.groups[g]? = none := by
  have same := groups_outline r g
  rw [outlines, groups_outline, missing] at same
  exact Option.map_eq_none_iff.mp same

theorem isLiveIn_alike (g : GroupId) (kind : ObjectKind) (l : Name) :
    r.isLiveIn g kind l = r'.isLiveIn g kind l := by
  cases found : r.groups[g]? with
  | none => simp [isLiveIn, found, no_group_alike outlines found]
  | some group =>
      obtain ⟨group', found', same⟩ := group_alike outlines found
      simp only [isLiveIn, found, found', Option.any_some]
      rw [← ObjectGroup.isLive_outline, same, ObjectGroup.isLive_outline]

theorem payload?_alike (g : GroupId) (kind : ObjectKind) (l : Name) :
    (r.groups[g]?.bind fun group => group.payload? kind l) =
      r'.groups[g]?.bind fun group => group.payload? kind l := by
  cases found : r.groups[g]? with
  | none => simp [no_group_alike outlines found]
  | some group =>
      obtain ⟨group', found', same⟩ := group_alike outlines found
      simp only [found', Option.bind_some]
      rw [← ObjectGroup.payload?_outline, same, ObjectGroup.payload?_outline]

theorem offer?_alike (action : Action) : r.offer? action = r'.offer? action := by
  have outlined (r : Registry) : r.outline.offer? action = r.offer? action := by
    cases action <;> rfl
  rw [← outlined, outlines, outlined]

theorem held_alike : r.held = r'.held := by
  have same : r.outline.held = r'.outline.held := by rw [outlines]
  exact same

theorem idle_alike {g : GroupId} {action : Action} (nothing : r.Idle g action) :
    r'.Idle g action := by
  have held : r.held = r'.held := held_alike outlines
  cases action with
  | generate kind requests => exact nothing
  | attachHeld kind l source name => simpa only [Idle, ← held] using nothing
  | fetch kind l name => simpa only [Idle, ← payload?_alike outlines] using nothing
  | delete | rebind | attachNew | attachActing => cases nothing

/-- What a task does that is not a release is a matter of the outline. Each case finds its
conditions in the other registry as well, since all of them are about the outline. A release
is left out, as the order of the payloads of a group is chosen there. -/
theorem Effect.alike (sound : r.Sound) (sound' : r'.Sound)
    (effect : Effect policy rest r task gained step)
    (plain : ∀ handle, task ≠ .release handle) :
    ∃ step', Effect policy' rest r' task gained step' ∧
      step.registry.outline = step'.registry.outline ∧
      step.tasks = step'.tasks ∧ step.journal = step'.journal := by
  cases effect with
  | kept | absent | groupDestroyed | payloadDestroyed => exact absurd rfl (plain _)
  | @answered task ask group out asks found answered =>
      obtain ⟨group', found', same⟩ := group_alike outlines found
      obtain ⟨out', answered', after, answer, event, released⟩ :=
        ObjectGroup.handle_alike policy'.successor (sound _ _ found)
          (sound' _ _ found') same answered
      refine ⟨_, .answered asks found' answered', ?_, ?_, ?_⟩
      · rw [outline_insertGroup, outline_insertGroup, outlines, after]
      · rw [released]
      · rw [answer, event]
  | unanswered asks missing =>
      exact ⟨_, .unanswered asks (no_group_alike outlines missing), outlines, rfl, rfl⟩
  | idle nothing => exact ⟨_, .idle (idle_alike outlines nothing), outlines, rfl, rfl⟩
  | @attached issuer g kind l source name p found =>
      obtain ⟨registry, tasks, journal⟩ := hold_alike outlines name p
      have held : r.held = r'.held := held_alike outlines
      refine ⟨_, .attached (held ▸ found), registry, congrArg (· ++ _) tasks, journal⟩
  | @fetched issuer g group kind l name p found stored =>
      obtain ⟨registry, tasks, journal⟩ := hold_alike outlines (some name) p
      obtain ⟨group', found', same⟩ := group_alike outlines found
      rw [← ObjectGroup.payload?_outline, same, ObjectGroup.payload?_outline] at stored
      exact ⟨_, .fetched found' stored, registry, congrArg (· ++ _) tasks, journal⟩
  | refused offers unnamed dead =>
      rw [offer?_alike outlines] at offers
      rw [isLiveIn_alike outlines] at dead
      exact ⟨_, .refused offers unnamed dead, outlines, rfl, rfl⟩
  | @offered issuer g action offer offers takes =>
      have next : r.outline.payloadsMade = r'.outline.payloadsMade := by rw [outlines]
      have next : r.payloadsMade = r'.payloadsMade := next
      have taken : (r.take offer.payload).outline = (r'.take offer.payload).outline :=
        congrArg (Registry.take offer.payload) outlines
      obtain ⟨registry, tasks, journal⟩ := hold_alike taken offer.name r.payloadsMade
      rw [offer?_alike outlines] at offers
      rw [isLiveIn_alike outlines] at takes
      rw [next] at registry tasks ⊢
      exact ⟨_, .offered offers takes, registry, congrArg (· ++ _) tasks, rfl⟩

end Alike

end Registry

end SharedNames
