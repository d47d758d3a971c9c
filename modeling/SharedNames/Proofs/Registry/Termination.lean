import SharedNames.Proofs.NameTable.Generation
import SharedNames.Proofs.Registry.Nested
import SharedNames.Proofs.Registry.ReleaseOrder
import SharedNames.Proofs.Registry.Unfolding

/-!
What follows from an operation comes to an end, and destructors act once.

A destructor can release payloads and groups anywhere, and it can bring a new payload, so
the payloads need not get fewer. The measure does at every moment, as the weight of an
action covers what the payload that it brings can lead to. So an unfolding is finite
whatever is chosen on the way. It stops early in one case: a name has to be generated of a
kind of which all names are live (`step_eq_none_iff`).

* `Moment.Frees`: a payload is destroyed at a moment, as its last share was released or as
  it was refused.
* `Moment.Calls`: a destructor acts next because of a moment. `Unfolds.calls_iff`: the action
  of a destructor is carried out right after a moment that calls it, and only then. That
  rests on `Run.plain_behind`: only the first of the pending tasks can be an action.
* `Run.cascade_ends` puts these together for every operation and every choice.
-/

namespace SharedNames

/-- The tables that cannot generate a name are those of which all names are live. A request
for a name of the client's own choice never fails in this way. -/
theorem ObjectTable.generate_eq_none_iff {t : ObjectTable} (index : t.names.Indexed)
    {requested : Name} :
    t.generate requested = none ↔ requested = 0 ∧ ∀ l, l ≠ 0 → t.names.isLive l = true := by
  rw [generate, Option.map_eq_none_iff, ← Option.not_isSome_iff_eq_none,
    NameTable.isSome_generate_iff, index.searchesEnd_iff, not_or, not_not, not_exists]
  simp only [IsFree, not_and, Bool.not_eq_false]

namespace Registry

variable {policy : Policy} {rest tasks left : List Task} {r after : Registry} {task : Task}
  {step : Step} {gained : List Handle} {g : GroupId} {action : Action} {moments : List Moment}

/-! ### Tasks that cannot be carried out -/

/-- A task is to generate a name of a kind of which all names are live. -/
def UsedUp (r : Registry) (task : Task) : Prop :=
  ∃ ask group, task.ask? = some ask ∧ ask.request = .generate 0 ∧
    r.groups[ask.g]? = some group ∧ ∀ l, l ≠ 0 → (group.names ask.kind).isLive l = true

/-- A task cannot be carried out only if it is to generate a name that is not left. All other
requests are answered, and all other tasks need no answer. -/
theorem step_eq_none_iff (policy : Policy) (rest : List Task) (sound : r.Sound) (task : Task) :
    r.step policy rest task = none ↔ r.UsedUp task := by
  constructor
  · intro stuck
    obtain ⟨ask, requested, asks, request⟩ :
        ∃ ask requested, task.ask? = some ask ∧ ask.request = .generate requested := by
      have generates : ¬ task.acts fun action => !action.generates := by
        intro plain
        obtain ⟨step, stepped⟩ := step_of_not_generates policy rest r plain
        rw [stuck] at stepped
        cases stepped
      cases task with
      | release | store => exact absurd rfl generates
      | act issuer g action =>
          cases action with
          | generate kind requests =>
              cases requests with
              | nil => cases stuck
              | cons requested requests => exact ⟨_, requested, rfl, rfl⟩
          | delete | rebind | attachHeld | attachNew | attachActing | fetch =>
              exact absurd rfl generates
    rw [step_of_ask asks, Option.map_eq_none_iff, Registry.request] at stuck
    cases there : r.groups[ask.g]? with
    | none => simp [there] at stuck
    | some group =>
        simp only [there, Option.map_eq_none_iff, request] at stuck
        obtain ⟨rfl, allLive⟩ := (ObjectTable.generate_eq_none_iff (sound _ _ there ask.kind).index).mp
          (ObjectGroup.handle_eq_none_iff.mp stuck)
        exact ⟨ask, group, asks, request, there, allLive⟩
  · rintro ⟨ask, group, asks, request, there, allLive⟩
    have stuck : (group.table ask.kind).generate 0 = none :=
      (ObjectTable.generate_eq_none_iff (sound _ _ there ask.kind).index).mpr ⟨rfl, allLive⟩
    have unanswered : group.handle policy.successor ask.kind (.generate 0) = none :=
      ObjectGroup.handle_eq_none_iff.mpr stuck
    rw [step_of_ask asks, request, Registry.request, there]
    simp only [unanswered, Option.map_none]

/-! ### Why destructors act -/

/-- A payload is destroyed at a moment: its last share was released, or it was offered to a
name that is not live. -/
inductive Moment.Frees (moment : Moment) : Payload → Prop where
  | destroyed {p : PayloadId} {payload : Payload} : moment.task = .release (.payload p) →
      moment.registry.payloads[p]? = some payload →
      .payloadDestroyed p payload.label ∈ moment.step.journal → Frees moment payload
  | refused {issuer : Issuer} {g : GroupId} {action : Action} {offer : Offer} :
      moment.task = .act issuer g action → moment.registry.offer? action = some offer →
      .payloadRefused issuer g offer.kind offer.l offer.payload.label ∈ moment.step.journal →
      Frees moment offer.payload

/-- A destructor acts because of a moment: its payload was destroyed, or it goes on with a
list of names. -/
inductive Moment.Calls (moment : Moment) : GroupId → Action → Prop where
  | destructor {payload : Payload} {destructor : Destructor} : moment.Frees payload →
      payload.destructor = some destructor → Calls moment destructor.target destructor.action
  | list {g : GroupId} {kind : ObjectKind} {requested : Name} {requests : List Name} :
      moment.task = .act .destructor g (.generate kind (requested :: requests)) →
      Calls moment g (.generate kind requests)

/-- Every event that says that a payload was destroyed is of a moment that frees it. -/
theorem Effect.frees_of_dropped (effect : Effect policy rest r task gained step) {entry : Entry}
    {label : String} (mem : entry ∈ step.journal) (dropped : entry.dropped? = some label) :
    ∃ payload, Moment.Frees ⟨r, task, rest, step⟩ payload ∧ payload.label = label := by
  cases effect with
  | kept | absent | unanswered | idle => cases mem
  | groupDestroyed | answered | offered =>
      cases List.mem_singleton.mp mem
      cases dropped
  | @attached _ _ _ _ _ name => cases name <;> cases mem
  | fetched => cases mem
  | @payloadDestroyed p payload last found =>
      cases List.mem_singleton.mp mem
      exact ⟨payload, .destroyed rfl found mem, Option.some.inj dropped⟩
  | @refused issuer g action offer offers =>
      cases List.mem_singleton.mp mem
      exact ⟨offer.payload, .refused rfl offers mem, Option.some.inj dropped⟩

def Plain (task : Task) : Prop :=
  task.acts fun _ => false

theorem plain_hold (name : Option String) (p : PayloadId) (r : Registry) {last : Task}
    (plain : Plain last) : ∀ task ∈ (hold name p r).tasks ++ [last], Plain task :=
  List.forall_mem_append.mpr ⟨acts_hold name p r, List.forall_mem_singleton.mpr plain⟩

/-- What a task leads to: no action at all, the action of a destructor first, or what remains
of a list of names and nothing else. In each case the other tasks are releases or stores. -/
theorem Effect.tasks_cases (effect : Effect policy rest r task gained step) :
    (∀ other ∈ step.tasks, Plain other) ∨
    (∃ payload destructor others, Moment.Frees ⟨r, task, rest, step⟩ payload ∧
      payload.destructor = some destructor ∧
      step.tasks = .act .destructor destructor.target destructor.action :: others ∧
      ∀ other ∈ others, Plain other) ∨
    ∃ issuer g kind requested requests,
      task = .act issuer g (.generate kind (requested :: requests)) ∧
        step.tasks = [.act issuer g (.generate kind requests)] := by
  cases effect with
  | kept | absent => exact .inl fun _ mem => by cases mem
  | groupDestroyed => exact .inl (acts_releases _)
  | @payloadDestroyed p payload last found =>
      cases has : payload.destructor with
      | none =>
          left
          simp [afterPayload, has]
      | some destructor =>
          refine .inr (.inl ⟨payload, destructor, [], ?_, has, ?_, fun _ mem => by cases mem⟩)
          · exact .destroyed rfl found List.mem_cons_self
          · rw [afterPayload, has]
            rfl
  | answered asks there answered =>
      rcases Task.next_of_ask asks with next | ⟨kind, requested, requests, own, request, next⟩
      · rw [next]
        exact .inl (List.forall_mem_append.mpr
          ⟨acts_releases _, List.forall_mem_singleton.mpr rfl⟩)
      · rw [request] at answered
        refine .inr (.inr ⟨_, _, kind, requested, requests, own, ?_⟩)
        rw [ObjectGroup.released_of_generate answered, next]
        rfl
  | unanswered asks =>
      rcases Task.next_of_ask asks with next | ⟨kind, requested, requests, own, -, next⟩
      · rw [next]
        exact .inl (List.forall_mem_singleton.mpr rfl)
      · exact .inr (.inr ⟨_, _, kind, requested, requests, own, next⟩)
  | idle => exact .inl (List.forall_mem_singleton.mpr rfl)
  | attached | fetched => exact .inl (plain_hold _ _ r rfl)
  | offered => exact .inl (plain_hold _ _ _ rfl)
  | @refused issuer g action offer offers =>
      cases has : offer.payload.destructor with
      | none =>
          rw [afterPayload, has]
          exact .inl (List.forall_mem_singleton.mpr rfl)
      | some destructor =>
          refine .inr (.inl ⟨offer.payload, destructor, [.release (.group g)], ?_, has, ?_, ?_⟩)
          · exact .refused rfl offers List.mem_cons_self
          · rw [afterPayload, has]
            rfl
          · exact List.forall_mem_singleton.mpr rfl

theorem Effect.plain_behind (effect : Effect policy rest r task gained step) :
    ∀ other ∈ step.tasks.tail, Plain other := by
  rcases effect.tasks_cases with plain | ⟨_, _, others, -, -, tasks, plain⟩ |
    ⟨_, _, _, _, _, -, tasks⟩
  · exact fun other mem => plain other (List.mem_of_mem_tail mem)
  · rwa [tasks]
  · rw [tasks]
    exact fun _ mem => by cases mem

/-- What frees a payload lets its destructor act next, before anything else that remains to be
done. -/
theorem Effect.acts_of_frees (effect : Effect policy rest r task gained step) {payload : Payload}
    {destructor : Destructor} (frees : Moment.Frees ⟨r, task, rest, step⟩ payload)
    (has : payload.destructor = some destructor) :
    step.tasks[0]? = some (.act .destructor destructor.target destructor.action) := by
  cases frees with
  | @destroyed p _ released there listed =>
      cases released
      cases effect with
      | kept | absent => cases listed
      | payloadDestroyed _ found =>
          obtain rfl := Option.some.inj (found.symm.trans there)
          rw [afterPayload, has]
          rfl
      | answered asks | unanswered asks => cases asks
  | @refused issuer g action offer acting offers listed =>
      cases acting
      cases effect with
      | answered | offered => cases List.mem_singleton.mp listed
      | unanswered | idle | fetched => cases listed
      | @attached _ _ _ _ _ name => cases name <;> cases listed
      | refused offers' =>
          obtain rfl := Option.some.inj (offers'.symm.trans offers)
          rw [afterPayload, has]
          rfl

theorem Effect.acts_of_list (effect : Effect policy rest r task gained step) {kind : ObjectKind}
    {requested : Name} {requests : List Name}
    (listed : task = .act .destructor g (.generate kind (requested :: requests))) :
    step.tasks[0]? = some (.act .destructor g (.generate kind requests)) := by
  subst listed
  cases effect with
  | answered asks there answered =>
      cases asks
      rw [ObjectGroup.released_of_generate answered]
      rfl
  | unanswered asks =>
      cases asks
      rfl
  | idle nothing => cases nothing
  | refused offers | offered offers => cases offers

/-- A destructor acts next exactly if the moment calls it. -/
theorem Effect.calls_iff (effect : Effect policy rest r task gained step) :
    step.tasks[0]? = some (.act .destructor g action) ↔
      Moment.Calls ⟨r, task, rest, step⟩ g action := by
  constructor
  · intro first
    rcases effect.tasks_cases with plain | ⟨payload, destructor, others, frees, has, tasks, -⟩ |
      ⟨issuer, j, kind, requested, requests, own, tasks⟩
    · cases plain _ (List.mem_of_getElem? first)
    · rw [tasks] at first
      cases first
      exact .destructor frees has
    · rw [tasks] at first
      cases first
      exact .list own
  · intro calls
    cases calls with
    | destructor frees has => exact effect.acts_of_frees frees has
    | list listed => exact effect.acts_of_list listed

/-! ### Unfoldings -/

section Runs

variable {settings : Settings} {operations : List Operation} {log : Journal}
  {operation : Operation}

/-- Of the pending tasks only the first one can be an action: no action ever waits behind
another one. -/
theorem Run.plain_behind (run : Run settings operations log r tasks) :
    ∀ other ∈ tasks.tail, Plain other := by
  induction run with
  | start => exact fun _ mem => by cases mem
  | @operate _ _ r operation =>
      rcases tasks_of_change r operation with tasks | ⟨_, tasks⟩ | ⟨_, _, tasks⟩ <;>
        rw [tasks] <;> exact fun _ mem => by cases mem
  | @step _ _ _ _ _ _ step _ stepped ih =>
      obtain ⟨gained, effect⟩ := effect_of_step stepped
      have own := effect.plain_behind
      cases tasks : step.tasks with
      | nil => exact fun other mem => ih other (List.mem_of_mem_tail mem)
      | cons first others =>
          rw [tasks] at own
          exact List.forall_mem_append.mpr ⟨own, ih⟩

/-- The action of a destructor is carried out right after a moment that calls it, and only
then. So it acts once for each payload that is freed, and never for one that is still there.
Only the first task that an operation leaves is not led to by a moment, and that one is not of
a destructor. -/
theorem Unfolds.calls_iff (run : Run settings operations log r [])
    (unfolds : Unfolds (r.change operation).registry (r.change operation).tasks moments after left)
    (i : Nat) (g : GroupId) (action : Action) :
    (moments.map Moment.task ++ left)[i]? = some (.act .destructor g action) ↔
      ∃ j moment, i = j + 1 ∧ moments[j]? = some moment ∧ moment.Calls g action := by
  have opened := run.operate operation
  have effect_at {j : Nat} {moment : Moment} (here : moments[j]? = some moment) :
      ∃ policy gained, Effect policy moment.rest moment.registry moment.task gained moment.step := by
    obtain ⟨-, policy, stepped⟩ := opened.at_moment unfolds (List.mem_of_getElem? here)
    exact ⟨policy, effect_of_step stepped⟩
  constructor
  · intro acts
    cases i with
    | zero =>
        rw [unfolds.head] at acts
        rcases tasks_of_change r operation with tasks | ⟨_, tasks⟩ | ⟨_, _, tasks⟩ <;>
          rw [tasks] at acts <;> cases acts
    | succ j =>
        cases here : moments[j]? with
        | some moment =>
            obtain ⟨policy, gained, effect⟩ := effect_at here
            rw [unfolds.next here] at acts
            cases tasks : moment.step.tasks with
            | nil =>
                rw [tasks] at acts
                obtain ⟨⟨log', upTo⟩, -⟩ := opened.at_moment unfolds (List.mem_of_getElem? here)
                cases upTo.plain_behind _ (List.mem_of_getElem? acts)
            | cons first others =>
                rw [tasks] at acts
                refine ⟨j, moment, rfl, here, effect.calls_iff.mp ?_⟩
                rw [tasks]
                exact acts
        | none =>
            have beyond : moments.length ≤ j := List.getElem?_eq_none_iff.mp here
            have among : (left.tail)[j - moments.length]? = some (.act .destructor g action) := by
              rw [List.getElem?_append_right (by simp; omega), List.length_map] at acts
              rw [List.getElem?_tail]
              rwa [show j - moments.length + 1 = j + 1 - moments.length by omega]
            have upTo := opened.unfold unfolds
            cases upTo.plain_behind _ (List.mem_of_getElem? among)
  · rintro ⟨j, moment, rfl, here, calls⟩
    obtain ⟨policy, gained, effect⟩ := effect_at here
    have first := effect.calls_iff.mpr calls
    rw [unfolds.next here, List.getElem?_append_left ?_, first]
    exact (List.getElem?_eq_some_iff.mp first).1

/-! ### All operations -/

/-- What follows from an operation, where `log` is what happened before it: `moments` are some
or all of what came of it, and `left` remains to be done in the registry `after`. -/
structure CascadeEnds (log : Journal) (r : Registry) (operation : Operation)
    (moments : List Moment) (after : Registry) (left : List Task) : Prop where
  /-- The measure of all that can still be released and carried out gets smaller at every
  moment, also when a destructor brings new payloads. -/
  measure_lt : ∀ moment ∈ moments, measure moment.step.registry (moment.step.tasks ++ moment.rest) <
    measure moment.registry (moment.task :: moment.rest)
  /-- So the number of moments is bounded, whatever is chosen on the way. -/
  length_le : moments.length ≤ measure (r.change operation).registry (r.change operation).tasks
  /-- The next task can be carried out, unless it has to generate a name that is not left. -/
  goes_on_iff : ∀ task rest, left = task :: rest → ∀ policy,
    ((∃ step, after.step policy rest task = some step) ↔ ¬ after.UsedUp task)
  /-- From here on, whatever the policy is, everything is carried out up to the end, or up to
  a task that has to generate a name that is not left. -/
  ends : ∀ policy, (after.settle policy left).residual = [] ∨
    ∃ task rest, (after.settle policy left).residual = task :: rest ∧
      (after.settle policy left).registry.UsedUp task
  /-- Every payload that is reported as destroyed is freed at a moment. -/
  frees : ∀ entry ∈ happened moments, ∀ label, entry.dropped? = some label →
    ∃ moment ∈ moments, entry ∈ moment.step.journal ∧
      ∃ payload, moment.Frees payload ∧ payload.label = label
  /-- Its destructor acts right after that moment. And no destructor acts otherwise. -/
  calls_iff : ∀ i g action,
    (moments.map Moment.task ++ left)[i]? = some (.act .destructor g action) ↔
      ∃ j moment, i = j + 1 ∧ moments[j]? = some moment ∧ moment.Calls g action
  /-- No payload and no group is destroyed twice, in all that happened so far. -/
  destroyed_nodup :
    (log ++ (r.change operation).journal ++ happened moments).destroyed.Nodup
  /-- At the end what is there are the groups and payloads that have shares, and those without
  any were destroyed. -/
  at_end : left = [] → ∀ h, (after.has h = true ↔ 0 < after.shares h) ∧
    (h ∈ (log ++ (r.change operation).journal ++ happened moments).made → after.shares h = 0 →
      h ∈ (log ++ (r.change operation).journal ++ happened moments).destroyed)

/-- In every reachable registry, what follows from an operation comes to an end under all
choices: the measure falls at every moment, also where destructors bring payloads with
destructors. Every payload's destructor acts once, right after the payload was destroyed, and
nothing is left without a share. Only a name table that is used up can stop it. -/
theorem Run.cascade_ends (run : Run settings operations log r [])
    (unfolds : Unfolds (r.change operation).registry (r.change operation).tasks moments after
      left) :
    CascadeEnds log r operation moments after left := by
  have opened := run.operate operation
  have upTo := opened.unfold unfolds
  constructor
  case measure_lt =>
    intro moment mem
    obtain ⟨-, policy, stepped⟩ := opened.at_moment unfolds mem
    obtain ⟨gained, effect⟩ := effect_of_step stepped
    exact effect.measure_lt
  case length_le => exact Nat.le_of_add_right_le unfolds.length_le
  case goes_on_iff =>
    intro task rest _ policy
    rw [← step_eq_none_iff policy rest upTo.sound task, ← Option.isSome_iff_exists,
      Option.isSome_iff_ne_none]
  case ends =>
    intro policy
    obtain ⟨settles, halted⟩ := settle_ends policy after left
    have stopped := upTo.cascade settles
    cases remains : (after.settle policy left).residual with
    | nil => exact .inl rfl
    | cons task rest =>
        rw [remains] at halted
        exact .inr ⟨task, rest, rfl, (step_eq_none_iff policy rest stopped.sound task).mp halted⟩
  case frees =>
    intro entry mem label dropped
    obtain ⟨moment, among, told⟩ := List.mem_flatMap.mp mem
    obtain ⟨-, policy, stepped⟩ := opened.at_moment unfolds among
    obtain ⟨gained, effect⟩ := effect_of_step stepped
    exact ⟨moment, among, told, effect.frees_of_dropped told dropped⟩
  case calls_iff => exact unfolds.calls_iff run
  case destroyed_nodup => exact upTo.books.destroyed_nodup
  case at_end =>
    rintro rfl h
    have counted := upTo.accounted.has_iff h
    refine ⟨counted, fun made unshared => ?_⟩
    have gone : ¬ after.has h := fun there => by
      have shared := counted.mp there
      rw [sharesWith_nil, unshared] at shared
      exact Nat.lt_irrefl 0 shared
    exact (upTo.books.destroyed_iff h).mpr ⟨(upTo.books.made_iff h).mp made, gone⟩

/-- The deletion of a name frees `a`, which attaches `b` in the group that is being modified,
in place of `x`. That one deletes the name of `b`, and `b` brings the first name back and
generates another one. -/
theorem Run.cascade_ends_of_nested :
    ∃ log r moments after, Run ⟨.reuse, 1⟩
        [.create (.handle 1), .act (.key (.handle 1)) (.generate .texture [0, 0]),
          .act (.key (.handle 1))
            (.attachActing .texture 1 "a" (.key (.handle 1))
              (.attachActing .texture 2 "b" (.key (.handle 1)) (.generate .texture [1, 0]) none)
              none),
          .act (.key (.handle 1))
            (.attachActing .texture 2 "x" (.key (.handle 1)) (.delete .texture 2) none)] log r [] ∧
      Unfolds (r.change (.act (.key (.handle 1)) (.delete .texture 1))).registry
        (r.change (.act (.key (.handle 1)) (.delete .texture 1))).tasks moments after [] ∧
      (happened moments).drops = ["a", "x", "b"] ∧
      (after.groups[0]?.map fun group => (group.names .texture).toList) =
        some [(1, 3), (3, 4)] ∧
      CascadeEnds log r (.act (.key (.handle 1)) (.delete .texture 1)) moments after [] := by
  have fresh : Run ⟨.reuse, 1⟩ [] [] _ [] := .start
  have run := fresh.performAll .standard
    [.create (.handle 1), .act (.key (.handle 1)) (.generate .texture [0, 0]),
      .act (.key (.handle 1))
        (.attachActing .texture 1 "a" (.key (.handle 1))
          (.attachActing .texture 2 "b" (.key (.handle 1)) (.generate .texture [1, 0]) none) none),
      .act (.key (.handle 1))
        (.attachActing .texture 2 "x" (.key (.handle 1)) (.delete .texture 2) none)] (by decide)
  have reached : ∃ log r, Run ⟨.reuse, 1⟩ _ log r [] ∧
      (r.change (.act (.key (.handle 1)) (.delete .texture 1))).journal = [] ∧
      (r.perform .standard (.act (.key (.handle 1)) (.delete .texture 1))).residual = [] ∧
      (r.perform .standard (.act (.key (.handle 1)) (.delete .texture 1))).journal.drops =
        ["a", "x", "b"] ∧
      ((r.perform .standard (.act (.key (.handle 1)) (.delete .texture 1))).registry.groups[0]?.map
        fun group => (group.names .texture).toList) = some [(1, 3), (3, 4)] :=
    ⟨_, _, run, by decide, by decide, by decide, by decide⟩
  obtain ⟨log, r, run, silent, finished, drops, names⟩ := reached
  obtain ⟨_, ⟨moments, unfolds, rfl⟩, told⟩ := settles_of_perform finished
  rw [told, silent] at drops
  exact ⟨log, r, moments, _, run, unfolds, drops, names, run.cascade_ends unfolds⟩

end Runs

end Registry

end SharedNames
