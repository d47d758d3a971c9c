import SharedNames.Proofs.Registry.Soundness
import SharedNames.Proofs.Registry.Teardown

/-!
Groups do not influence each other, and neither do the kinds of objects of a group.

A client reaches a group through any key or slot that names it, and different keys can name
one group. What is asked of the objects of one kind of one group is a subsequence of all
that is done, which `Registry.requestsTo` picks out. `ObjectGroup.handleAll` carries out such
requests on a single group, without any registry.

`performAll_isolated` compares the two: as long as no payload has a destructor, the objects
of one kind of one group are what the requests to them alone make of a new group, and these
requests are answered alike. So neither requests to other groups or about other kinds have
any influence on them, nor do operations on keys and slots, as long as they leave the group
alive. The proof follows both side by side: `Mirrors` is what they have in common after every
task.
-/

namespace SharedNames

/-! ### Requests to one group -/

namespace ObjectGroup

structure Report where
  answer : ObjectTable.Answer
  event : Option ObjectTable.Event
  deriving DecidableEq, Repr

/-- Carries out requests about the objects of one kind one after the other. There is no
result when one of them has no answer. -/
def handleAll (rule : NameTable.SuccessorRule) (kind : ObjectKind) (group : ObjectGroup) :
    List ObjectTable.Request → Option (ObjectGroup × List Report)
  | [] => some (group, [])
  | request :: requests => do
    let out ← group.handle rule kind request
    let (after, reports) ← out.group.handleAll rule kind requests
    return (after, ⟨out.answer, out.event⟩ :: reports)

variable {rule : NameTable.SuccessorRule} {kind : ObjectKind}
  {group other middle after : ObjectGroup}

theorem handleAll_append {requests others : List ObjectTable.Request} {reports more : List Report}
    (first : group.handleAll rule kind requests = some (middle, reports))
    (second : middle.handleAll rule kind others = some (after, more)) :
    group.handleAll rule kind (requests ++ others) = some (after, reports ++ more) := by
  induction requests generalizing group reports with
  | nil =>
      cases first
      exact second
  | cons request requests ih =>
      simp only [handleAll, bind, Option.bind_eq_some_iff, List.cons_append] at first ⊢
      obtain ⟨out, answered, ⟨last, tail⟩, continued, done⟩ := first
      cases done
      exact ⟨out, answered, _, ih continued, rfl⟩

/-- A request is a matter of the objects of its kind. What the group has of other kinds does
not show in the answer, and stays as it is. -/
theorem handle_of_table_eq {request : ObjectTable.Request} {out : Outcome}
    (same : group.table kind = other.table kind)
    (answered : group.handle rule kind request = some out) :
    ∃ after, other.handleAll rule kind [request] = some (after, [⟨out.answer, out.event⟩]) ∧
      out.group.table kind = after.table kind := by
  obtain ⟨handled, -⟩ := table_handle answered kind
  rw [same] at handled
  refine ⟨⟨other.tables.set kind (out.group.table kind)⟩, ?_, ?_⟩
  · simp [handleAll, handle, handled]
  · exact (PerKind.get_set_self other.tables kind _).symm

/-- A payload for a name that is not live is turned down, with the report that a registry
makes when it refuses the payload beforehand. -/
theorem handle_attach_of_dead {l : Name} (p : PayloadId)
    (dead : (other.names kind).isLive l = false) :
    ∃ after, other.handleAll rule kind [.attach l p] =
        some (after, [⟨.attached false, some (.payloadTurnedDown l)⟩]) ∧
      other.table kind = after.table kind := by
  have answered : other.handle rule kind (.attach l p) =
      some ⟨other, .attached false, some (.payloadTurnedDown l), some p⟩ := by
    have turned : (other.table kind).attach l p =
        ⟨other.table kind, .attached false, some (.payloadTurnedDown l), some p⟩ :=
      if_neg (Bool.eq_false_iff.mp dead)
    rw [handle, ObjectTable.handle, turned, Option.map_some, table, PerKind.set_get]
  exact handle_of_table_eq rfl answered

end ObjectGroup

/-! ### The requests and reports of a run -/

def Entry.report? (g : GroupId) (kind : ObjectKind) : Entry → Option ObjectGroup.Report
  | performed _ j k _ answer event => if j = g ∧ k = kind then some ⟨answer, event⟩ else none
  | payloadRefused _ j k l _ =>
    if j = g ∧ k = kind then some ⟨.attached false, some (.payloadTurnedDown l)⟩ else none
  | noted _ | groupMade _ _ | payloadMade _ _ | payloadDestroyed _ _ | groupDestroyed _ _ _ => none

def Journal.reports (g : GroupId) (kind : ObjectKind) (journal : Journal) :
    List ObjectGroup.Report :=
  journal.filterMap (Entry.report? g kind)

theorem Journal.reports_append (g : GroupId) (kind : ObjectKind) (journal more : Journal) :
    (journal ++ more).reports g kind = journal.reports g kind ++ more.reports g kind :=
  List.filterMap_append

def Action.kind : Action → ObjectKind
  | generate kind _ | delete kind _ | rebind kind _ _ | attachHeld kind _ _ _
  | attachNew kind _ _ _ | attachActing kind _ _ _ _ _ | fetch kind _ _ => kind

/-- Whether the requests of an action stand in it, so that nothing has to be looked up. -/
def Action.isDirect : Action → Bool
  | generate _ _ | delete _ _ | rebind _ _ _ => true
  | attachHeld _ _ _ _ | attachNew _ _ _ _ | attachActing _ _ _ _ _ _ | fetch _ _ _ => false

namespace Registry

/-- The requests of an action to its group. Where it attaches a payload, this is the one held
under the given name, or the one that is the next to be taken up. -/
def requestsOf (r : Registry) : Action → List ObjectTable.Request
  | .generate _ requests => requests.map .generate
  | .delete _ l => [.delete l]
  | .rebind _ l global => [.rebind l global]
  | .attachHeld _ l source _ => r.held[source]?.toList.map (.attach l)
  | .attachNew _ l _ _ | .attachActing _ l _ _ _ _ => [.attach l r.payloadsMade]
  | .fetch _ _ _ => []

/-- The requests of an operation to the objects of one kind of a group, through whichever
key or slot. -/
def asks (g : GroupId) (kind : ObjectKind) (r : Registry) : Operation → List ObjectTable.Request
  | .act target action =>
    if r.find? target = some g ∧ action.kind = kind then r.requestsOf action else []
  | .create _ | .attach _ _ | .detach _ | .keep _ _ | .letGo _ | .releaseHeld _ => []

/-- The requests of operations, carried out one after the other, to the objects of one kind
of a group. -/
def requestsTo (policy : Policy) (g : GroupId) (kind : ObjectKind) (r : Registry) :
    List Operation → List ObjectTable.Request
  | [] => []
  | operation :: operations =>
    r.asks g kind operation ++
      (r.perform policy operation).registry.requestsTo policy g kind operations

def bringsDestructor (r : Registry) : Operation → Bool
  | .act target action =>
    (r.find? target).isSome && (r.offer? action).any fun offer => offer.payload.destructor.isSome
  | .create _ | .attach _ _ | .detach _ | .keep _ _ | .letGo _ | .releaseHeld _ => false

/-- Whether no operation, when its turn comes, brings a payload with a destructor. -/
def withoutDestructors (policy : Policy) (r : Registry) : List Operation → Bool
  | [] => true
  | operation :: operations =>
    !r.bringsDestructor operation &&
      (r.perform policy operation).registry.withoutDestructors policy operations

variable {policy : Policy} {rest tasks left : List Task} {r after : Registry} {task : Task}
  {step : Step} {gained : List Handle} {journal : Journal} {g : GroupId} {kind : ObjectKind}
  {fresh : ObjectGroup}

/-! ### The requests of tasks -/

/-- The requests to come from a task to the objects of one kind of a group. A release makes
none, as there is no destructor. -/
def due (g : GroupId) (kind : ObjectKind) (r : Registry) : Task → List ObjectTable.Request
  | .release _ => []
  | .act _ j action => if j = g ∧ action.kind = kind then r.requestsOf action else []
  | .store _ j k l p => if j = g ∧ k = kind then [.attach l p] else []

theorem brings_of_isDirect {good : Action → Bool} (direct : task.acts Action.isDirect) :
    r.Brings good task := by
  cases task with
  | act issuer g action =>
      intro offer offers
      cases action with
      | attachNew | attachActing => cases direct
      | generate | delete | rebind | attachHeld | fetch => cases offers
  | release | store => trivial

theorem isDirect_of_ask (asks : task.ask?.isSome) : task.acts Action.isDirect := by
  cases task with
  | act issuer g action =>
      cases action with
      | generate | delete | rebind => rfl
      | attachHeld | attachNew | attachActing | fetch => cases asks
  | release | store => rfl

/-- The requests to come from a direct task are the same in any registry. For the others it
matters what is held and how many payloads were made when their turn comes. -/
theorem due_of_isDirect (after : Registry) (direct : task.acts Action.isDirect) :
    r.due g kind task = after.due g kind task := by
  cases task with
  | act issuer j action =>
      cases action with
      | generate | delete | rebind => rfl
      | attachHeld | attachNew | attachActing | fetch => cases direct
  | release | store => rfl

theorem flatMap_due_of_isDirect (after : Registry)
    (direct : ∀ task ∈ tasks, task.acts Action.isDirect) :
    tasks.flatMap (r.due g kind) = tasks.flatMap (after.due g kind) :=
  List.flatMap_congr fun task mem => due_of_isDirect after (direct task mem)

@[simp] theorem due_releases (ps : List PayloadId) :
    (ps.map fun p => Task.release (.payload p)).flatMap (r.due g kind) = [] := by
  simp [due]

theorem due_hold (name : Option String) (p : PayloadId) (held : Registry) :
    (hold name p held).tasks.flatMap (r.due g kind) = [] := by
  cases name with
  | none => rfl
  | some name => exact due_releases _

/-- A task that passes a request on has to make this request and those that follow. -/
theorem due_of_ask {ask : Ask} (asks : task.ask? = some ask) (after : Registry) :
    r.due g kind task =
      (if ask.g = g ∧ ask.kind = kind then [ask.request] else []) ++
        ask.next.flatMap (after.due g kind) := by
  cases task with
  | release handle => cases asks
  | store issuer j k l p =>
      cases asks
      simp [due]
  | act issuer j action =>
      cases action with
      | generate k requests =>
          cases requests with
          | nil => cases asks
          | cons requested requests =>
              cases asks
              by_cases here : j = g ∧ k = kind <;> simp [due, Action.kind, requestsOf, here]
      | delete | rebind =>
          cases asks
          exact (List.append_nil _).symm
      | attachHeld | attachNew | attachActing | fetch => cases asks

theorem due_of_idle {issuer : Issuer} {j : GroupId} {action : Action} (idle : r.Idle j action) :
    r.due g kind (.act issuer j action) = [] := by
  have nothing : r.requestsOf action = [] := by
    cases action with
    | generate k requests =>
        obtain rfl : requests = [] := idle
        rfl
    | attachHeld k l source name =>
        have missing : r.held[source]? = none := idle
        simp [requestsOf, missing]
    | fetch => rfl
    | delete | rebind | attachNew | attachActing => cases idle
  rw [due, nothing, ite_self]

theorem due_of_offer {issuer : Issuer} {j : GroupId} {action : Action} {offer : Offer}
    (offers : r.offer? action = some offer) :
    r.due g kind (.act issuer j action) =
      if j = g ∧ offer.kind = kind then [.attach offer.l r.payloadsMade] else [] := by
  cases action with
  | attachNew | attachActing =>
      cases offers
      rfl
  | generate | delete | rebind | attachHeld | fetch => cases offers

theorem afterPayload_eq_nil {payload : Payload} (quiet : payload.acts fun _ => false) :
    afterPayload payload = [] := by
  cases has : payload.destructor with
  | none => rw [afterPayload, has]; rfl
  | some destructor => rw [Payload.acts, has] at quiet; cases quiet

/-! ### One task -/

/-- The objects of one kind of a group, as long as it is there, are those of another group. A
group that is not made yet will be a new one. -/
structure Mirrors (g : GroupId) (kind : ObjectKind) (r : Registry) (fresh : ObjectGroup) :
    Prop where
  table_eq : ∀ group, r.groups[g]? = some group → group.table kind = fresh.table kind
  new : ¬ r.Made (.group g) → fresh = r.settings.newGroup

/-- Whatever leaves the group as it is, or destroys it, keeps the likeness. -/
theorem Mirrors.of_groups (mirrors : r.Mirrors g kind fresh)
    (groups : ∀ group, after.groups[g]? = some group → r.groups[g]? = some group)
    (settings : after.settings = r.settings) (made : after.groupsMade = r.groupsMade) :
    after.Mirrors g kind fresh where
  table_eq group found := mirrors.table_eq group (groups group found)
  new unmade := by
    rw [settings]
    refine mirrors.new ?_
    rwa [Made, made] at unmade

/-- A request to any group, about any kind: the other group is asked for it if it is the one
that is mirrored. -/
theorem Mirrors.answer {rule : NameTable.SuccessorRule} {j : GroupId} {k : ObjectKind}
    {request : ObjectTable.Request} {group : ObjectGroup} {out : ObjectGroup.Outcome}
    (issuer : Issuer) (mirrors : r.Mirrors g kind fresh) (made : r.Made (.group j))
    (found : r.groups[j]? = some group) (answered : group.handle rule k request = some out) :
    ∃ fresh',
      fresh.handleAll rule kind (if j = g ∧ k = kind then [request] else []) = some (fresh',
        Journal.reports g kind [.performed issuer j k request out.answer out.event]) ∧
      ({ r with groups := r.groups.insert j out.group } : Registry).Mirrors g kind fresh' := by
  by_cases here : j = g ∧ k = kind
  · obtain ⟨rfl, rfl⟩ := here
    obtain ⟨after, handled, same⟩ :=
      ObjectGroup.handle_of_table_eq (mirrors.table_eq group found) answered
    refine ⟨after, ?_, ?_, fun unmade => absurd made unmade⟩
    · simpa [Journal.reports, Entry.report?] using handled
    · intro other there
      rw [Std.ExtTreeMap.getElem?_insert_self] at there
      cases there
      exact same
  · refine ⟨fresh, ?_, ?_, mirrors.new⟩
    · simp [Journal.reports, Entry.report?, here, ObjectGroup.handleAll]
    · intro other there
      rcases getElem?_of_insert there with ⟨rfl, rfl⟩ | there
      · have ne : kind ≠ k := fun same => here ⟨rfl, same.symm⟩
        rw [(ObjectGroup.table_handle answered kind).2 ne]
        exact mirrors.table_eq group found
      · exact mirrors.table_eq other there

/-- A payload that is refused would have been turned down by the other group as well: both
look only at whether the name is live. -/
theorem Mirrors.refuse {rule : NameTable.SuccessorRule} {j : GroupId} {k : ObjectKind} {l : Name}
    (issuer : Issuer) (label : String) (p : PayloadId) (mirrors : r.Mirrors g kind fresh)
    (made : r.Made (.group j)) (there : r.has (.group j)) (dead : r.isLiveIn j k l = false) :
    ∃ fresh',
      fresh.handleAll rule kind (if j = g ∧ k = kind then [.attach l p] else []) = some (fresh',
        Journal.reports g kind [.payloadRefused issuer j k l label]) ∧
      r.Mirrors g kind fresh' := by
  by_cases here : j = g ∧ k = kind
  · obtain ⟨rfl, rfl⟩ := here
    obtain ⟨group, found⟩ := has_group_iff.mp there
    have dead : (fresh.names k).isLive l = false := by
      rw [isLiveIn, found, Option.any_some, ObjectGroup.names, mirrors.table_eq group found] at dead
      exact dead
    obtain ⟨after, handled, kept⟩ := ObjectGroup.handle_attach_of_dead p dead
    refine ⟨after, ?_, fun other found => ?_, fun unmade => absurd made unmade⟩
    · simpa [Journal.reports, Entry.report?] using handled
    · rw [mirrors.table_eq other found, kept]
  · refine ⟨fresh, ?_, mirrors⟩
    simp [Journal.reports, Entry.report?, here, ObjectGroup.handleAll]

/-- What a task does to the objects of one kind of a group, the requests that it makes do to
others that are the same. This is one step of the comparison: the requests to come before the
task are those made by it and those to come after it. -/
theorem Effect.mirrors (effect : Effect policy rest r task gained step)
    (accounted : Accounted r (task :: rest)) (quiet : r.DestructorsAre fun _ => false)
    (brings : r.Brings (fun _ => false) task) (mirrors : r.Mirrors g kind fresh) :
    ∃ now fresh', r.due g kind task = now ++ step.tasks.flatMap (step.registry.due g kind) ∧
      fresh.handleAll policy.successor kind now = some (fresh', step.journal.reports g kind) ∧
      step.registry.Mirrors g kind fresh' := by
  obtain ⟨settings, made, -⟩ := effect.makes_no_group
  -- Most tasks make no request themselves, and leave all groups alone.
  have silent (due : r.due g kind task = step.tasks.flatMap (step.registry.due g kind))
      (reports : step.journal.reports g kind = [])
      (groups : ∀ group, step.registry.groups[g]? = some group → r.groups[g]? = some group) :
      ∃ now fresh', r.due g kind task = now ++ step.tasks.flatMap (step.registry.due g kind) ∧
        fresh.handleAll policy.successor kind now = some (fresh', step.journal.reports g kind) ∧
        step.registry.Mirrors g kind fresh' :=
    ⟨[], fresh, due, by rw [reports]; rfl, mirrors.of_groups groups settings made⟩
  cases effect with
  | kept | absent => exact silent rfl rfl fun _ => id
  | groupDestroyed last found =>
      exact silent (due_releases _).symm rfl fun group there => getElem?_of_erase there
  | @payloadDestroyed p payload last found =>
      have nothing := afterPayload_eq_nil (quiet p payload found)
      exact silent (by rw [nothing]; rfl) rfl fun _ => id
  | @answered _ ask group out asks found answered =>
      have made := accounted.made_of_has _ (has_group_iff.mpr ⟨group, found⟩)
      obtain ⟨fresh', handled, after⟩ := mirrors.answer ask.issuer made found answered
      refine ⟨_, fresh', ?_, handled, after⟩
      rw [due_of_ask asks, List.flatMap_append, due_releases, List.nil_append]
  | @unanswered task ask asks missing =>
      -- The task owns a share of the group, so the group is there.
      have owned : 0 < r.sharesWith (task :: rest) (.group ask.g) :=
        sharesWith_pos_of_mem (handles_of_ask asks).2.2
      obtain ⟨group, found⟩ := has_group_iff.mp ((accounted.has_iff _).mpr owned)
      rw [missing] at found
      cases found
  | idle nothing => exact silent (due_of_idle nothing) rfl fun _ => id
  | @attached issuer j k l source name p found =>
      refine silent ?_ ?_ fun group => ?_
      · rw [Step.thenTasks, List.flatMap_append, due_hold, due]
        simp [requestsOf, found, due, Action.kind]
      · cases name <;> rfl
      · rw [Step.thenTasks, groups_hold]
        exact id
  | @fetched issuer j group k l name p found stored =>
      refine silent ?_ rfl fun group => ?_
      · rw [Step.thenTasks, List.flatMap_append, due_hold, due]
        simp [requestsOf, due]
      · rw [Step.thenTasks, groups_hold]
        exact id
  | @refused issuer j action offer offers unnamed dead =>
      have owned : 0 < r.sharesWith (.act issuer j action :: rest) (.group j) :=
        sharesWith_pos_of_mem List.mem_cons_self
      have there := (accounted.has_iff _).mpr owned
      obtain ⟨fresh', handled, after⟩ := mirrors.refuse issuer offer.payload.label r.payloadsMade
        (accounted.made_of_has _ there) there dead
      refine ⟨_, fresh', ?_, handled, after⟩
      rw [due_of_offer offers, afterPayload_eq_nil (brings offer offers)]
      exact (List.append_nil _).symm
  | @offered issuer j action offer offers takes =>
      refine silent ?_ rfl fun group => ?_
      · rw [List.flatMap_append, due_hold, due_of_offer offers]
        simp [due]
      · rw [groups_hold]
        exact id

/-! ### All that follows -/

/-- No payload has a destructor, and the tasks bring none: all but the first one are direct. -/
structure Calm (r : Registry) (tasks : List Task) : Prop where
  accounted : Accounted r tasks
  quiet : r.DestructorsAre fun _ => false
  first : ∀ task ∈ tasks.head?, r.Brings (fun _ => false) task
  direct : ∀ task ∈ tasks.tail, task.acts Action.isDirect

/-- A calm registry stays calm: no destructor comes in, and only the first task may have to
look something up. -/
theorem Effect.calm (effect : Effect policy rest r task gained step)
    (calm : r.Calm (task :: rest)) : step.registry.Calm (step.tasks ++ rest) := by
  have brings : r.Brings (fun _ => false) task := calm.first task rfl
  have follow : ∀ task ∈ step.tasks, task.acts Action.isDirect :=
    effect.acts_of_brings (fun _ _ _ _ => rfl) (fun _ never => by cases never) calm.quiet brings
      isDirect_of_ask
  have all : ∀ task ∈ step.tasks ++ rest, task.acts Action.isDirect :=
    List.forall_mem_append.mpr ⟨follow, calm.direct⟩
  exact {
    accounted := (effect.transfer calm.accounted).accounted calm.accounted
    quiet := effect.destructors_of_brings calm.quiet brings
    first := fun task mem => brings_of_isDirect (all task (List.mem_of_mem_head? mem))
    direct := fun task mem => all task (List.mem_of_mem_tail mem) }

/-- Tasks make the requests that were to come from them, in this order, and the other group
answers them in the same way. -/
theorem Cascade.mirrors (cascade : Cascade policy r tasks journal after left)
    (finished : left = []) (calm : r.Calm tasks) (mirrors : r.Mirrors g kind fresh) :
    ∃ fresh',
      fresh.handleAll policy.successor kind (tasks.flatMap (r.due g kind)) =
        some (fresh', journal.reports g kind) ∧
      after.Mirrors g kind fresh' ∧ after.Calm [] := by
  induction cascade generalizing fresh with
  | rest =>
      subst finished
      exact ⟨fresh, rfl, mirrors, calm⟩
  | @step _ _ _ rest _ step _ stepped _ ih =>
      obtain ⟨gained, effect⟩ := effect_of_step stepped
      have direct : ∀ task ∈ rest, task.acts Action.isDirect := calm.direct
      obtain ⟨now, middle, due, handled, mirrors⟩ :=
        effect.mirrors calm.accounted calm.quiet (calm.first _ rfl) mirrors
      obtain ⟨fresh', continued, mirrors, after⟩ := ih finished (effect.calm calm) mirrors
      refine ⟨fresh', ?_, mirrors, after⟩
      rw [List.flatMap_append] at continued
      rw [List.flatMap_cons, due, flatMap_due_of_isDirect step.registry direct,
        List.append_assoc, Journal.reports_append]
      exact ObjectGroup.handleAll_append handled continued

/-! ### Operations -/

variable {operation : Operation} {operations before : List Operation} {change : Change}

theorem due_releaseGroup (j : Option GroupId) :
    (releaseGroup j).flatMap (r.due g kind) = [] := by
  cases j <;> rfl

/-- The requests to come after the own change of an operation are those that it asks for. A
held payload is looked up when the action starts, and nothing can happen in between. -/
theorem due_of_change (r : Registry) (operation : Operation) :
    (r.change operation).tasks.flatMap ((r.change operation).registry.due g kind) =
      r.asks g kind operation := by
  have nothing {gained : List Handle} {change : Change}
      (opening : Opening r operation gained change)
      (other : ∀ target action, operation ≠ .act target action) :
      change.tasks.flatMap (change.registry.due g kind) = [] := by
    cases opening with
    | unchanged | released => rfl
    | created | attached | detached | kept | letGo => exact due_releaseGroup _
    | acting => exact absurd rfl (other _ _)
  obtain ⟨gained, opening⟩ := opening_of_change r operation
  cases operation with
  | act target action =>
      simp only [Registry.change, asks]
      cases found : r.find? target with
      | none => rfl
      | some j => simp [due]
  | create | attach | detach | keep | letGo | releaseHeld => exact nothing opening (by simp)

/-- The own change of an operation makes no request, and a group that it makes is new. -/
theorem Opening.mirrors (opening : Opening r operation gained change)
    (mirrors : r.Mirrors g kind fresh) :
    change.registry.Mirrors g kind fresh ∧ change.journal.reports g kind = [] := by
  cases opening with
  | unchanged records => exact ⟨mirrors, by simp [Journal.reports, Entry.report?]⟩
  | @created key records =>
      refine ⟨⟨fun group found => ?_, fun unmade => ?_⟩, by simp [Journal.reports, Entry.report?]⟩
      · rcases getElem?_of_insert found with ⟨rfl, rfl⟩ | found
        · rw [mirrors.new (Nat.lt_irrefl _)]
        · exact mirrors.table_eq group found
      · exact mirrors.new fun made => unmade (Nat.lt_succ_of_lt made)
  | attached | detached | kept | letGo | released | acting =>
      exact ⟨⟨mirrors.table_eq, mirrors.new⟩, rfl⟩

theorem Opening.calm (opening : Opening r operation gained change) (calm : r.Calm [])
    (brings : r.bringsDestructor operation = false) : change.registry.Calm change.tasks := by
  have releases (j : Option GroupId) :
      (∀ task ∈ (releaseGroup j).head?, change.registry.Brings (fun _ => false) task) ∧
        ∀ task ∈ (releaseGroup j).tail, task.acts Action.isDirect := by
    cases j <;> simp [releaseGroup, Brings]
  have tasks : (∀ task ∈ change.tasks.head?, change.registry.Brings (fun _ => false) task) ∧
      ∀ task ∈ change.tasks.tail, task.acts Action.isDirect := by
    cases opening with
    | unchanged | released => simp [Brings]
    | created | attached | detached | kept | letGo => exact releases _
    | @acting target action j found =>
        refine ⟨fun task mem => ?_, by simp⟩
        cases mem
        intro offer offers
        simpa [bringsDestructor, found, offers, Payload.acts] using brings
  exact {
    accounted := (opening.transfer calm.accounted).accounted calm.accounted
    quiet := opening.destructors calm.quiet
    first := tasks.1
    direct := tasks.2 }

/-- What an operation does to the objects of one kind of a group, the requests that it asks
for do to others that are the same. -/
theorem Calm.perform (calm : r.Calm []) (brings : r.bringsDestructor operation = false)
    (finished : (r.perform policy operation).residual = []) (mirrors : r.Mirrors g kind fresh) :
    ∃ fresh',
      fresh.handleAll policy.successor kind (r.asks g kind operation) =
        some (fresh', (r.perform policy operation).journal.reports g kind) ∧
      (r.perform policy operation).registry.Mirrors g kind fresh' ∧
      (r.perform policy operation).registry.Calm [] := by
  obtain ⟨gained, opening⟩ := opening_of_change r operation
  obtain ⟨changed, silent⟩ := opening.mirrors mirrors
  have settles := (settle_ends policy (r.change operation).registry (r.change operation).tasks).1
  obtain ⟨fresh', handled, after⟩ :=
    settles.mirrors finished (opening.calm calm brings) changed
  refine ⟨fresh', ?_, after⟩
  rw [due_of_change] at handled
  rw [Registry.perform, Journal.reports_append, silent]
  exact handled

/-- The same of operations one after the other, at each moment between two of them. The
requests of each one are read off the registry in which its turn comes. -/
theorem Calm.performAll (calm : r.Calm []) (initial : before <+: operations)
    (without : r.withoutDestructors policy operations)
    (finished : (r.performAll policy operations).residual = []) (mirrors : r.Mirrors g kind fresh) :
    ∃ fresh',
      fresh.handleAll policy.successor kind (r.requestsTo policy g kind before) =
        some (fresh', (r.performAll policy before).journal.reports g kind) ∧
      (r.performAll policy before).registry.Mirrors g kind fresh' ∧
      (r.performAll policy before).registry.Calm [] := by
  induction operations generalizing r fresh before with
  | nil =>
      obtain rfl := List.prefix_nil.mp initial
      exact ⟨fresh, rfl, mirrors, calm⟩
  | cons operation operations ih =>
      rcases List.prefix_cons_iff.mp initial with rfl | ⟨shorter, rfl, within⟩
      · exact ⟨fresh, rfl, mirrors, calm⟩
      rw [withoutDestructors, Bool.and_eq_true, Bool.not_eq_true'] at without
      rw [Registry.performAll] at finished
      split at finished
      · rename_i settled
        obtain ⟨middle, handled, mirrors, calm⟩ := calm.perform without.1 settled mirrors
        obtain ⟨fresh', continued, after⟩ := ih calm within without.2 finished mirrors
        simp only [Registry.performAll, if_pos settled]
        refine ⟨fresh', ?_, after⟩
        rw [requestsTo, Settled.after, Journal.reports_append]
        exact ObjectGroup.handleAll_append handled continued
      · rename_i stuck
        exact absurd finished stuck

/-! ### What a client reads -/

theorem Calm.group?_eq (calm : r.Calm []) {ref : GroupRef} (found : r.find? ref = some g) :
    ∃ group, r.groups[g]? = some group ∧ r.group? ref = some group := by
  have there := (calm.accounted.has_iff _).mpr (shares_pos_of_find found)
  obtain ⟨group, there⟩ := has_group_iff.mp there
  exact ⟨group, there, by rw [group?, found, Option.bind_some, there]⟩

/-- Fetching the payload of an object holds it, so what clients can fetch are the payloads of
the table. -/
theorem Calm.fetch (calm : r.Calm []) {target : GroupRef} {group : ObjectGroup} {l : Name}
    {p : PayloadId} (found : r.find? target = some g) (there : r.groups[g]? = some group)
    (stored : group.payload? kind l = some p) (policy : Policy) (name : String) :
    (r.perform policy (.act target (.fetch kind l name))).registry.held[name]? = some p := by
  have stepped : r.step policy [] (.act .client g (.fetch kind l name)) =
      some ((r.hold (some name) p).thenTasks [.release (.group g)]) := by
    simp only [Registry.step, act, there, Option.bind_some, stored]
  have quiet : (r.hold (some name) p).registry.DestructorsAre Action.holdsNothing := by
    intro q payload present
    have acts := calm.quiet q payload present
    rw [Payload.acts, Option.all_eq_true] at acts ⊢
    exact fun destructor has => by cases acts destructor has
  have releases : ∀ task ∈ (r.hold (some name) p).tasks ++ [.release (.group g)],
      task.acts Action.holdsNothing :=
    List.forall_mem_append.mpr ⟨acts_hold _ _ r, by simp [Task.acts]⟩
  have settles := (settle_ends policy (r.hold (some name) p).registry
    ((r.hold (some name) p).tasks ++ [.release (.group g)])).1
  have same := (settles.held_eq quiet releases).1
  simp only [Registry.perform, change, found, settle_cons stepped, List.append_nil, Settled.after,
    Step.thenTasks]
  rw [same]
  exact Std.ExtTreeMap.getElem?_insert_self

theorem fetch_of_none {target : GroupRef} {group : ObjectGroup} {l : Name}
    (found : r.find? target = some g) (there : r.groups[g]? = some group)
    (nothing : group.payload? kind l = none) (policy : Policy) (name : String) :
    r.perform policy (.act target (.fetch kind l name)) = ⟨.done, r, [], []⟩ := by
  have stepped : r.step policy [] (.act .client g (.fetch kind l name)) =
      some ⟨r, [.release (.group g)], []⟩ := by
    simp only [Registry.step, act, there, Option.bind_some, nothing]
  simp only [perform, change, found, settle_cons stepped, List.append_nil,
    settle_release_of_owned (shares_pos_of_find found), Settled.after]

/-! ### Isolation -/

/-- The objects of one kind of a group after some operations, compared with `fresh`: a new
group that was asked for nothing but the requests to these objects. -/
structure Isolated (settings : Settings) (policy : Policy) (operations : List Operation)
    (g : GroupId) (kind : ObjectKind) (r : Registry) (journal : Journal) (fresh : ObjectGroup) :
    Prop where
  /-- Each request is answered and reported alike. -/
  replay : settings.newGroup.handleAll policy.successor kind
      ((empty settings).requestsTo policy g kind operations) =
    some (fresh, journal.reports g kind)
  /-- The names with their global names, both counters and the payloads are the same. -/
  table_eq : ∀ group, r.groups[g]? = some group → group.table kind = fresh.table kind
  /-- Whichever key or slot a client uses, it finds these objects. -/
  table_of_find : ∀ ref, r.find? ref = some g →
    (r.group? ref).map (fun group => group.table kind) = some (fresh.table kind)
  /-- Whichever key or slot a client uses, it fetches these payloads. -/
  fetch_of_some : ∀ ref l p name, r.find? ref = some g → fresh.payload? kind l = some p →
    (r.perform policy (.act ref (.fetch kind l name))).registry.held[name]? = some p
  fetch_of_none : ∀ ref l name, r.find? ref = some g → fresh.payload? kind l = none →
    r.perform policy (.act ref (.fetch kind l name)) = ⟨.done, r, [], []⟩

theorem calm_empty (settings : Settings) : (empty settings).Calm [] where
  accounted := accounted_empty settings
  quiet p payload there := by simp [empty] at there
  first task mem := by cases mem
  direct task mem := by cases mem

theorem mirrors_empty (settings : Settings) (g : GroupId) (kind : ObjectKind) :
    (empty settings).Mirrors g kind settings.newGroup where
  table_eq group found := by simp [empty] at found
  new _ := rfl

/-- At each moment of a run under one policy in which no payload gets a destructor, the
objects of one kind of a group are those that the requests to them, and no others, make of a
new group. These requests are answered alike. Other groups, other kinds and operations on keys
and slots may be left out or added without any effect on them. -/
theorem performAll_isolated {settings : Settings}
    (finished : ((empty settings).performAll policy operations).residual = [])
    (without : (empty settings).withoutDestructors policy operations)
    (initial : before <+: operations) (g : GroupId) (kind : ObjectKind) :
    ∃ fresh, Isolated settings policy before g kind
      ((empty settings).performAll policy before).registry
      ((empty settings).performAll policy before).journal fresh := by
  obtain ⟨fresh, replay, mirrors, calm⟩ :=
    (calm_empty settings).performAll initial without finished (mirrors_empty settings g kind)
  have found {ref : GroupRef}
      (refers : ((empty settings).performAll policy before).registry.find? ref = some g) :
      ∃ group, ((empty settings).performAll policy before).registry.groups[g]? = some group ∧
        ((empty settings).performAll policy before).registry.group? ref = some group ∧
        group.table kind = fresh.table kind := by
    obtain ⟨group, there, seen⟩ := calm.group?_eq refers
    exact ⟨group, there, seen, mirrors.table_eq group there⟩
  refine ⟨fresh, replay, mirrors.table_eq, ?_, ?_, ?_⟩
  · intro ref refers
    obtain ⟨group, -, seen, same⟩ := found refers
    rw [seen, Option.map_some, same]
  · intro ref l p name refers stored
    obtain ⟨group, there, -, same⟩ := found refers
    rw [ObjectGroup.payload?, ← same] at stored
    exact calm.fetch refers there stored policy name
  · intro ref l name refers nothing
    obtain ⟨group, there, -, same⟩ := found refers
    rw [ObjectGroup.payload?, ← same] at nothing
    exact fetch_of_none refers there nothing policy name

/-- Keys 1 and 2 and a slot name one group, key 3 names another one. Between the requests to
the textures of the first group, a shader is made there and a texture in the other one, keys
are attached and detached, and key 1 gets a new group. A payload is shared with the other
group, and another one is refused. -/
theorem performAll_isolated_of_shared :
    ∃ operations : List Operation,
      ((empty ⟨.replace, 5⟩).performAll .standard operations).residual = [] ∧
      (empty ⟨.replace, 5⟩).withoutDestructors .standard operations ∧
      (empty ⟨.replace, 5⟩).requestsTo .standard 0 .texture operations =
        [.generate 0, .generate 0, .rebind 8 5, .attach 5 0, .attach 9 1, .delete 5,
          .attach 8 0, .generate 0] ∧
      ((empty ⟨.replace, 5⟩).performAll .standard operations).journal.reports 0 .texture =
        [⟨.name 5, some (.naming (.made 5 5))⟩, ⟨.name 6, some (.naming (.made 6 6))⟩,
          ⟨.done, some (.naming (.rebound 8 5))⟩, ⟨.attached true, none⟩,
          ⟨.attached false, some (.payloadTurnedDown 9)⟩,
          ⟨.done, some (.naming (.removed 5 5))⟩, ⟨.attached true, none⟩,
          ⟨.name 7, some (.naming (.made 7 7))⟩] ∧
      ∃ fresh, Isolated ⟨.replace, 5⟩ .standard operations 0 .texture
        ((empty ⟨.replace, 5⟩).performAll .standard operations).registry
        ((empty ⟨.replace, 5⟩).performAll .standard operations).journal fresh := by
  refine ⟨[.create (.handle 1), .attach (.handle 2) (.handle 1), .create (.handle 3),
    .keep "kept" (.handle 1), .act (.key (.handle 1)) (.generate .texture [0, 0]),
    .act (.key (.handle 3)) (.generate .texture [0]),
    .act (.key (.handle 2)) (.generate .shader [0]),
    .act (.slot "kept") (.rebind .texture 8 5),
    .act (.key (.handle 2)) (.attachNew .texture 5 "first" (some "held")),
    .act (.key (.handle 1)) (.attachNew .texture 9 "second" none),
    .act (.key (.handle 3)) (.attachHeld .texture 5 "held" none),
    .create (.handle 1), .act (.key (.handle 1)) (.generate .texture [0]),
    .act (.key (.handle 2)) (.delete .texture 5), .detach (.handle 2),
    .act (.slot "kept") (.attachHeld .texture 8 "held" none),
    .act (.slot "kept") (.generate .texture [0])], by decide, by decide, by decide, by decide, ?_⟩
  exact performAll_isolated (by decide) (by decide) (List.prefix_refl _) 0 .texture

end Registry

end SharedNames
