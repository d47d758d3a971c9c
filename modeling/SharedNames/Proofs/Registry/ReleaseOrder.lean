import SharedNames.Proofs.Registry.Deletion

/-!
The order of releases does not show where destructors only delete.

A destroyed group releases its payloads in some order, and their destructors act in that
order. If every destructor deletes an object, two orders end alike: same tables, same live
groups, same names and payloads in every group, and the same events up to their order
(`Run.release_order_irrelevant`). Only who was bound last to a shared global name can
differ, which `Alike` leaves open.

A cascade is taken apart at the tasks that are neither releases nor deletions by
destructors, which belong to the operation itself. What comes between two of them is a
run of `Move`, whatever the order was (`exists_moves`), so both cascades get to the next
one with the same outline; and that one does the same in both, as it depends on the
outline only.
-/

namespace SharedNames

/-- Whether an action creates objects, which fails in a table that is used up. -/
def Action.generates : Action → Bool
  | generate _ _ => true
  | delete _ _ | rebind _ _ _ | attachHeld _ _ _ _ | attachNew _ _ _ _
  | attachActing _ _ _ _ _ _ | fetch _ _ _ => false

def Operation.generates : Operation → Bool
  | act _ action => action.generates
  | create _ | attach _ _ | detach _ | keep _ _ | letGo _ | releaseHeld _ => false

theorem Action.brings_of_isDelete {action : Action} (deletes : action.isDelete) :
    action.brings Action.isDelete := by
  cases action with
  | delete => rfl
  | generate | rebind | attachHeld | attachNew | attachActing | fetch => cases deletes

/-- The greatest sharer takes over, and payloads are released from the last one on. -/
def Policy.reversed : Policy where
  successor := fun names => names.length - 1
  order := fun _ ps => ps.reverse
  order_perm := fun _ ps => ps.reverse_perm

namespace Registry

variable {policy policy' : Policy} {rest tasks left : List Task} {r r' after : Registry}
    {task : Task}
  {step : Step} {gained : List Handle} {journal : Journal}

/-! ### Tasks where destructors delete -/

/-- A registry with tasks where every destructor deletes an object, also those that a task
brings. -/
structure Deleting (r : Registry) (tasks : List Task) : Prop where
  accounted : Accounted r tasks
  sound : r.Sound
  destructors : r.DestructorsAre Action.isDelete
  brings : ∀ task ∈ tasks, task.acts (Action.brings Action.isDelete)

/-- Tasks leave it so, since the actions of destructors bring no payloads. -/
theorem Deleting.after_step (deleting : Deleting r (task :: rest))
    (effect : Effect policy rest r task gained step) :
    Deleting step.registry (step.tasks ++ rest) where
  accounted := (effect.transfer deleting.accounted).accounted deleting.accounted
  sound := effect.sound deleting.sound
  destructors := effect.destructors deleting.destructors (deleting.brings task List.mem_cons_self)
  brings := by
    obtain ⟨own, others⟩ := List.forall_mem_cons.mp deleting.brings
    refine List.forall_mem_append.mpr ⟨?_, others⟩
    exact effect.acts (fun _ _ _ _ => rfl)
      (fun _ => Action.brings_of_isDelete) deleting.destructors own own

theorem Deleting.after_cascade (deleting : Deleting r tasks)
    (cascade : Cascade policy r tasks journal after left) : Deleting after left := by
  induction cascade with
  | rest => exact deleting
  | step stepped _ ih =>
      obtain ⟨gained, effect⟩ := effect_of_step stepped
      exact ih (deleting.after_step effect)

theorem deletes_releases (ps : List PayloadId) :
    ∀ task ∈ ps.map (fun p => Task.release (.payload p)), task.deletes := by
  intro task mem
  obtain ⟨p, -, rfl⟩ := List.mem_map.mp mem
  rfl

/-- A release or a deletion leads to releases and deletions. So a stretch of such tasks at the
front stays one until it is used up. -/
theorem Effect.deletes (effect : Effect policy rest r task gained step) (deletes : task.deletes)
    (destructors : r.DestructorsAre Action.isDelete) : ∀ task ∈ step.tasks, task.deletes := by
  rcases Task.deletes_iff.mp deletes with ⟨handle, rfl⟩ | ⟨g, kind, l, rfl⟩
  · cases effect with
    | kept | absent => exact fun _ mem => by cases mem
    | groupDestroyed => exact deletes_releases _
    | @payloadDestroyed p payload last found =>
        have acts := destructors p payload found
        intro task mem
        obtain ⟨destructor, has, rfl⟩ := List.mem_map.mp mem
        exact (Option.all_eq_true _ _).mp acts destructor (Option.mem_toList.mp has)
    | answered asks | unanswered asks => cases asks
  · cases effect with
    | answered asks _ _ =>
        cases asks
        exact List.forall_mem_append.mpr ⟨deletes_releases _, by simp [Task.deletes]⟩
    | unanswered asks _ =>
        cases asks
        simp [Task.deletes]
    | idle nothing => cases nothing
    | refused offers | offered offers => cases offers

/-- Only the creation of an object can fail. Everything else is answered, if only by nothing. -/
theorem step_of_not_generates (policy : Policy) (rest : List Task) (r : Registry)
    (plain : task.acts fun action => !action.generates) :
    ∃ step, r.step policy rest task = some step := by
  have answers (issuer : Issuer) (g : GroupId) (kind : ObjectKind) (request : ObjectTable.Request)
      (named : ∀ requested, request ≠ .generate requested) :
      ∃ step, r.request policy issuer g kind request = some step := by
    unfold Registry.request
    cases r.groups[g]? with
    | none => exact ⟨_, rfl⟩
    | some group =>
        cases request with
        | generate requested => exact absurd rfl (named requested)
        | delete | rebind | attach => exact ⟨_, rfl⟩
  cases task with
  | release handle => exact ⟨_, rfl⟩
  | store issuer g kind l p =>
      obtain ⟨step, answered⟩ := answers issuer g kind (.attach l p) nofun
      exact ⟨_, congrArg (Option.map _) answered⟩
  | act issuer g action =>
      cases action with
      | generate => cases plain
      | delete kind l =>
          obtain ⟨step, answered⟩ := answers issuer g kind (.delete l) nofun
          exact ⟨_, congrArg (Option.map _) answered⟩
      | rebind kind l global =>
          obtain ⟨step, answered⟩ := answers issuer g kind (.rebind l global) nofun
          exact ⟨_, congrArg (Option.map _) answered⟩
      | attachNew | attachActing => exact ⟨_, rfl⟩
      | attachHeld kind l source name =>
          simp only [Registry.step, act]
          cases r.held[source]? <;> exact ⟨_, rfl⟩
      | fetch kind l name =>
          simp only [Registry.step, act]
          cases r.groups[g]?.bind fun group => group.payload? kind l <;> exact ⟨_, rfl⟩

/-! ### Cascades of releases and deletions -/

/-- What a release or a deletion does is its fate, whatever the policy and the order of the
other tasks. The policy shows in the latest bindings and in the order of the releases that
follow, and neither is part of a fate. -/
theorem Effect.fated (effect : Effect policy rest r task gained step) (deletes : task.deletes)
    (accounted : Accounted r (task :: rest)) :
    ∃ fate, Fated r.outline (r.sharesWith (task :: rest)) task fate ∧
      step.registry.outline = r.outline.update fate.update ∧ step.tasks.Perm fate.tasks ∧
      step.journal = fate.journal := by
  have outlined {g : GroupId} {group : ObjectGroup} (found : r.groups[g]? = some group) :
      r.outline.groups[g]? = some group.outline := by
    rw [groups_outline, found, Option.map_some]
  have there {h : Handle} (mem : h ∈ task.handles) : r.has h :=
    (accounted.has_iff h).mpr (sharesWith_pos_of_mem mem)
  rcases Task.deletes_iff.mp deletes with ⟨handle, rfl⟩ | ⟨g, kind, l, rfl⟩
  · cases effect with
    | kept owned =>
        refine ⟨_, .kept ?_, rfl, .refl _, rfl⟩
        rw [sharesWith_release]
        omega
    | absent last missing => exact absurd (there List.mem_cons_self) (Bool.eq_false_iff.mp missing)
    | @groupDestroyed g group last found =>
        refine ⟨_, .groupDestroyed ?_ (outlined found), ?_, ?_, ?_⟩
        · rw [sharesWith_release, last]
        · refine congrArg (fun groups => { r with groups })
            (Std.ExtTreeMap.ext_getElem? fun {j} => ?_)
          simp only [outline, Std.ExtTreeMap.getElem?_map, Std.ExtTreeMap.getElem?_erase]
          split <;> rfl
        · rw [ObjectGroup.payloadShares_outline]
          exact (policy.order_perm g group.payloadShares).map _
        · rw [ObjectGroup.objectTotal_outline, ObjectGroup.payloadTotal_outline]
    | payloadDestroyed last found =>
        refine ⟨_, .payloadDestroyed ?_ found, rfl, .refl _, rfl⟩
        rw [sharesWith_release, last]
    | answered asks | unanswered asks => cases asks
  · cases effect with
    | @answered _ _ group out asks found answered =>
        cases asks
        obtain ⟨after, answer, event, released⟩ := ObjectGroup.handle_delete answered
        refine ⟨_, .nameDeleted (outlined found), ?_, ?_, ?_⟩
        · rw [outline_insertGroup, after, update_dropName (outlined found)]
        · rw [released, ObjectGroup.payload?_outline]
        · rw [answer, event, ObjectGroup.globals_outline]
    | unanswered asks missing =>
        cases asks
        obtain ⟨group, found⟩ := has_group_iff.mp (there List.mem_cons_self)
        cases missing.symm.trans found
    | idle nothing => cases nothing
    | refused offers | offered offers => cases offers

/-- A release or a deletion is a move of the machine that carries out such tasks in any
order, whatever comes behind them. -/
theorem Effect.move {others behind : List Task}
    (effect : Effect policy (others ++ behind) r task gained step) (deletes : task.deletes)
    (accounted : Accounted r (task :: (others ++ behind))) :
    Move (pending behind) ⟨r.outline, (task :: others : List Task)⟩ step.journal
      ⟨step.registry.outline, (step.tasks ++ others : List Task)⟩ := by
  obtain ⟨fate, fated, registry, tasks, events⟩ := effect.fated deletes accounted
  have counted : r.sharesWith (task :: (others ++ behind)) =
      Front.shares (pending behind) ⟨r.outline, (task :: others : List Task)⟩ := by
    funext h
    rw [Front.shares, owned_coe, shares_outline, sharesWith, ← List.cons_append, pending_append,
      Nat.add_assoc]
  rw [counted] at fated
  have following : (fate.tasks : Multiset Task) + others = (step.tasks ++ others : List Task) := by
    rw [Multiset.coe_add, Multiset.coe_eq_coe]
    exact tasks.symm.append_right others
  rw [registry, ← following, events]
  exact .carry (Multiset.cons_coe task others).symm fated

/-- Releases and deletions that come first are all carried out, and what they do is a run of
moves. They end by the measure, as all tasks do. -/
theorem exists_moves (policy : Policy) {front behind : List Task}
    (deletes : ∀ task ∈ front, task.deletes)
    (deleting : Deleting r (front ++ behind)) :
    ∃ after journal, Cascade policy r (front ++ behind) journal after behind ∧
      Steps (Move (pending behind)) ⟨r.outline, front⟩ journal ⟨after.outline, 0⟩ := by
  induction bound : measure r (front ++ behind) using Nat.strong_induction_on
    generalizing r front with
  | _ bound ih =>
      cases front with
      | nil => exact ⟨r, [], .rest, .done⟩
      | cons task others =>
          rw [List.cons_append] at deleting ⊢
          obtain ⟨own, deletes⟩ := List.forall_mem_cons.mp deletes
          have plain : task.acts fun action => !action.generates := by
            rcases Task.deletes_iff.mp own with ⟨handle, rfl⟩ | ⟨g, kind, l, rfl⟩ <;> rfl
          obtain ⟨step, stepped⟩ := step_of_not_generates policy (others ++ behind) r plain
          obtain ⟨gained, effect⟩ := effect_of_step stepped
          have next := deleting.after_step effect
          have smaller := effect.measure_lt
          rw [← List.append_assoc] at next smaller
          have deletes :=
            List.forall_mem_append.mpr ⟨effect.deletes own deleting.destructors, deletes⟩
          obtain ⟨after, journal, cascade, moves⟩ := ih _ (bound ▸ smaller) deletes next rfl
          rw [List.append_assoc] at cascade
          refine ⟨after, step.journal ++ journal, .step stepped cascade, ?_⟩
          rw [← Multiset.coe_add]
          exact .next (effect.move own deleting.accounted) moves

/-! ### Any cascade -/

/-- Releases and deletions that come first end alike, under any policies: both are runs of one
machine whose moves have the diamond property. -/
theorem front_alike (policy policy' : Policy) {front behind : List Task}
    (deletes : ∀ task ∈ front, task.deletes) (deleting : Deleting r (front ++ behind))
    (deleting' : Deleting r' (front ++ behind)) (outlines : r.outline = r'.outline) :
    ∃ mid mid' journal journal', Cascade policy r (front ++ behind) journal mid behind ∧
      Cascade policy' r' (front ++ behind) journal' mid' behind ∧ mid.outline = mid'.outline ∧
      journal.Perm journal' := by
  obtain ⟨mid, journal, cascade, moves⟩ := exists_moves policy deletes deleting
  obtain ⟨mid', journal', cascade', moves'⟩ := exists_moves policy' deletes deleting'
  rw [← outlines] at moves'
  obtain ⟨fronts, journals⟩ := (diamond_move (pending behind)).unique_end moves
    (final_move _ _) moves' (final_move _ _)
  exact ⟨mid, mid', journal, journal', cascade, cascade', congrArg Front.registry fronts,
    Multiset.coe_eq_coe.mp journals⟩

/-- A task that cannot be carried out cannot be where the outline is the same. So two cascades
are stuck together or not at all. -/
theorem stuck_alike (sound : r.Sound) (sound' : r'.Sound) (outlines : r.outline = r'.outline)
    (other : ∀ handle, task ≠ .release handle) (stuck : r.step policy rest task = none) :
    r'.step policy' rest task = none := by
  refine Option.eq_none_iff_forall_ne_some.mpr fun step' stepped' => ?_
  obtain ⟨gained, effect'⟩ := effect_of_step stepped'
  obtain ⟨step, effect, -⟩ := effect'.alike policy outlines.symm sound' sound other
  cases stuck.symm.trans effect.step_eq

/-- Two cascades that start alike end alike, under any policies. By induction on the measure:
the releases and deletions in front are carried out in both, and leave the same outline behind
in whatever order (`front_alike`). The task that comes next is no release, so it does the same
in both, or is stuck in both. -/
theorem cascades_alike (policy policy' : Policy) (deleting : Deleting r tasks)
    (deleting' : Deleting r' tasks)
    (outlines : r.outline = r'.outline) :
    ∃ after after' journal journal' left, Cascade policy r tasks journal after left ∧
      Halted policy after left ∧ Cascade policy' r' tasks journal' after' left ∧
      Halted policy' after' left ∧ after.outline = after'.outline ∧ journal.Perm journal' := by
  induction bound : measure r tasks using Nat.strong_induction_on generalizing r r' tasks with
  | _ bound ih =>
      -- What comes first up to a task of another kind is taken together.
      have split : tasks.takeWhile Task.deletes ++ tasks.dropWhile Task.deletes = tasks :=
        List.takeWhile_append_dropWhile
      have deletes := List.all_eq_true.mp (List.all_takeWhile (l := tasks) (p := Task.deletes))
      have first := List.head?_dropWhile_not Task.deletes tasks
      generalize tasks.takeWhile Task.deletes = front at split deletes
      generalize tasks.dropWhile Task.deletes = behind at split first
      subst split
      obtain ⟨mid, mid', journal, journal', cascade, cascade', outlines, journals⟩ :=
        front_alike policy policy' deletes deleting deleting' outlines
      have deleting := deleting.after_cascade cascade
      have deleting' := deleting'.after_cascade cascade'
      cases behind with
      | nil =>
          exact ⟨mid, mid', journal, journal', [], cascade, trivial, cascade', trivial, outlines,
            journals⟩
      | cons task rest =>
          have other (handle : Handle) : task ≠ .release handle := by
            rintro rfl
            cases first
          cases stepped : mid.step policy rest task with
          | none =>
              have stuck : mid'.step policy' rest task = none :=
                stuck_alike deleting.sound deleting'.sound outlines other stepped
              exact ⟨mid, mid', journal, journal', task :: rest, cascade, stepped, cascade', stuck,
                outlines, journals⟩
          | some step =>
              obtain ⟨gained, effect⟩ := effect_of_step stepped
              obtain ⟨step', effect', registries, tasks, events⟩ :=
                effect.alike policy' outlines deleting.sound deleting'.sound other
              have next := deleting.after_step effect
              have next' := deleting'.after_step effect'
              rw [← tasks] at next'
              have smaller := Nat.lt_of_lt_of_le effect.measure_lt cascade.measure_le
              obtain ⟨after, after', more, more', left, further, halted, further', halted', same,
                perm⟩ :=
                ih _ (bound ▸ smaller) next next' registries rfl
              rw [tasks] at further'
              refine ⟨after, after', _, _, left, cascade.trans (.step stepped further), halted,
                cascade'.trans (.step effect'.step_eq further'), halted', same, ?_⟩
              rw [events]
              exact journals.append (perm.append_left _)

/-! ### Operations -/

/-- Registries that are the same but for who was bound last to a shared global name. -/
structure Alike (r r' : Registry) : Prop where
  keys : r.keys = r'.keys
  slots : r.slots = r'.slots
  held : r.held = r'.held
  payloads : r.payloads = r'.payloads
  made : ∀ h, r.Made h ↔ r'.Made h
  /-- The live groups are the same. -/
  has_group : ∀ g, r.has (.group g) = r'.has (.group g)
  /-- In every group and for every kind, the local names, the global names that they resolve
  to, the counters and the attached payloads are the same. -/
  tables : ∀ (g : GroupId) (group group' : ObjectGroup), r.groups[g]? = some group →
    r'.groups[g]? = some group' → ∀ kind,
      (group.names kind).globals = (group'.names kind).globals ∧
        (group.names kind).nextLocal = (group'.names kind).nextLocal ∧
        (group.names kind).nextGlobal = (group'.names kind).nextGlobal ∧
        (group.table kind).payloads = (group'.table kind).payloads

/-- What the outlines have in common is what a client can see, but for the latest bindings. -/
theorem alike_of_outline (outlines : r.outline = r'.outline) : Alike r r' where
  keys := show r.outline.keys = r'.outline.keys by rw [outlines]
  slots := show r.outline.slots = r'.outline.slots by rw [outlines]
  held := held_alike outlines
  payloads := show r.outline.payloads = r'.outline.payloads by rw [outlines]
  made h := by
    have same : r.outline.Made h ↔ r'.outline.Made h := by rw [outlines]
    cases h <;> exact same
  has_group g := by
    rw [Bool.eq_iff_iff, has_group_iff, has_group_iff]
    constructor
    · rintro ⟨group, found⟩
      obtain ⟨group', found', -⟩ := group_alike outlines found
      exact ⟨group', found'⟩
    · rintro ⟨group, found⟩
      obtain ⟨group', found', -⟩ := group_alike outlines.symm found
      exact ⟨group', found'⟩
  tables g group group' found found' kind := by
    obtain ⟨other, there, same⟩ := group_alike outlines found
    obtain rfl := Option.some.inj (there.symm.trans found')
    obtain ⟨names, payloads⟩ :=
      ObjectTable.outline_eq_iff.mp (ObjectGroup.outline_eq_iff.mp same kind)
    obtain ⟨nextLocal, nextGlobal, globals⟩ := NameTable.outline_eq_iff.mp names
    exact ⟨globals, nextLocal, nextGlobal, payloads⟩

/-- Where destructors only delete, all that follows from tasks that create no objects is
carried out. -/
theorem Cascade.finished (cascade : Cascade policy r tasks journal after left)
    (halted : Halted policy after left) (deleting : Deleting r tasks)
    (plain : ∀ task ∈ tasks, task.acts fun action => !action.generates) : left = [] := by
  induction cascade with
  | @rest r tasks =>
      cases tasks with
      | nil => rfl
      | cons task rest =>
          obtain ⟨step, stepped⟩ :=
            step_of_not_generates policy rest r (plain task List.mem_cons_self)
          cases halted.symm.trans stepped
  | step stepped _ ih =>
      obtain ⟨gained, effect⟩ := effect_of_step stepped
      obtain ⟨own, others⟩ := List.forall_mem_cons.mp plain
      refine ih halted (deleting.after_step effect) (List.forall_mem_append.mpr ⟨?_, others⟩)
      refine effect.acts (fun _ _ _ kept => kept) (fun action deletes => ?_) deleting.destructors
        (deleting.brings _ List.mem_cons_self) own
      cases action <;> first | rfl | cases deletes

theorem Opening.plain {operation : Operation} {change : Change}
    (opening : Opening r operation gained change)
    (plain : operation.generates = false) :
    ∀ task ∈ change.tasks, task.acts fun action => !action.generates := by
  cases opening with
  | unchanged => exact fun _ mem => by cases mem
  | created | attached | detached | kept | letGo => exact acts_releaseGroup _
  | released => simp [Task.acts]
  | @acting target action g found =>
      intro task mem
      cases List.mem_singleton.mp mem
      have plain : action.generates = false := plain
      simpa [Task.acts] using plain

/-- In every reachable registry where every destructor deletes an object, and for every
operation, it does not matter in which order destroyed groups release their payloads: the
registries end alike, and the events are the same up to their order. Where the operation
creates no objects, everything that follows from it is carried out. The successor rules may
differ as well, which is why only the latest bindings are left out of the comparison. -/
theorem Run.release_order_irrelevant {settings : Settings} {operations : List Operation}
    {log : Journal}
    (run : Run settings operations log r []) (deleting : r.DestructorsAre Action.isDelete)
    (operation : Operation) (brings : operation.brings Action.isDelete) (policy policy' : Policy) :
    let result := r.perform policy operation
    let result' := r.perform policy' operation
    Alike result.registry result'.registry ∧
      result.residual = result'.residual ∧
      (operation.generates = false → result.residual = []) ∧
      result.journal.Perm result'.journal ∧
      result.journal.destroyed.Perm result'.journal.destroyed ∧
      result.journal.drops.Perm result'.journal.drops := by
  intro result result'
  obtain ⟨gained, opening⟩ := opening_of_change r operation
  have ready : Deleting (r.change operation).registry (r.change operation).tasks := {
    accounted := (opening.transfer run.accounted).accounted run.accounted
    sound := opening.sound run.sound
    destructors := opening.destructors deleting
    brings := opening.acts brings }
  obtain ⟨after, after', journal, journal', left, cascade, halted, cascade', halted', outlines,
    perm⟩ :=
    cascades_alike policy policy' ready ready rfl
  have ends : result = _ := perform_eq_of_cascade cascade halted
  have ends' : result' = _ := perform_eq_of_cascade cascade' halted'
  have journals : result.journal.Perm result'.journal := by
    rw [ends, ends']
    exact perm.append_left _
  refine ⟨?_, ?_, fun plain => ?_, journals, journals.filterMap _, journals.filterMap _⟩
  · rw [ends, ends']
    exact alike_of_outline outlines
  · rw [ends, ends']
  · rw [ends]
    exact cascade.finished halted ready (opening.plain plain)

/-- Two payloads of a destroyed group delete one object of another group, and its payload
with it: whichever comes first destroys the payload. -/
theorem Run.release_order_irrelevant_of_race :
    ∃ log r, Run ⟨.reuse, 1⟩
        [.create (.label "a"), .act (.key (.label "a")) (.generate .texture [0]),
          .act (.key (.label "a")) (.attachNew .texture 1 "stored" none),
          .create (.label "b"), .act (.key (.label "b")) (.generate .shader [0, 0]),
          .act (.key (.label "b"))
            (.attachActing .shader 1 "first" (.key (.label "a")) (.delete .texture 1) none),
          .act (.key (.label "b"))
            (.attachActing .shader 2 "second" (.key (.label "a"))
              (.delete .texture 1) none)] log r [] ∧
      (r.perform .standard (.detach (.label "b"))).journal.drops = ["first", "stored", "second"] ∧
      (r.perform .reversed (.detach (.label "b"))).journal.drops = ["second", "stored", "first"] ∧
      Alike (r.perform .standard (.detach (.label "b"))).registry
        (r.perform .reversed (.detach (.label "b"))).registry := by
  have fresh : Run ⟨.reuse, 1⟩ [] [] _ [] := .start
  have run := fresh.performAll .standard
    [.create (.label "a"), .act (.key (.label "a")) (.generate .texture [0]),
      .act (.key (.label "a")) (.attachNew .texture 1 "stored" none),
      .create (.label "b"), .act (.key (.label "b")) (.generate .shader [0, 0]),
      .act (.key (.label "b"))
        (.attachActing .shader 1 "first" (.key (.label "a")) (.delete .texture 1) none),
      .act (.key (.label "b"))
        (.attachActing .shader 2 "second" (.key (.label "a")) (.delete .texture 1) none)]
          (by decide)
  have deleting := (run.destructors (fun _ => Action.brings_of_isDelete) (by decide)).1
  refine ⟨_, _, run, by decide, by decide, ?_⟩
  exact (run.release_order_irrelevant deleting (.detach (.label "b")) rfl .standard .reversed).1

end Registry

end SharedNames
