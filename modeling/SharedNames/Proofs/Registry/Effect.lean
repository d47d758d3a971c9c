import SharedNames.Proofs.Registry.Shares

/-!
All that one task can do to a registry.

Tasks that pass a request on to a group differ only in the request and in what has to
follow it; `Task.ask?` reads both off a task. The two actions that bring a new payload
differ only in the payload, which `Registry.offer?` makes. So there are eleven cases,
listed in `Effect` with the conditions under which they arise, and `effect_of_step`
says that these are all. Proofs about steps go by these cases.

An effect also lists the shares that it takes in addition to those that were there
before: `Effect.balance` is the exact law by which a step moves shares between the
registry and the pending tasks.
-/

namespace SharedNames

/-! ### What a task asks for -/

/-- A request that a task passes on to a group, and what has to follow the answer. -/
structure Ask where
  issuer : Issuer
  g : GroupId
  kind : ObjectKind
  request : ObjectTable.Request
  next : List Task

/-- The request that a task passes on to its group, if it is about one. -/
def Task.ask? : Task → Option Ask
  | .act issuer g (.generate kind (requested :: requests)) =>
    some ⟨issuer, g, kind, .generate requested, [.act issuer g (.generate kind requests)]⟩
  | .act issuer g (.delete kind l) =>
    some ⟨issuer, g, kind, .delete l, [.release (.group g)]⟩
  | .act issuer g (.rebind kind l global) =>
    some ⟨issuer, g, kind, .rebind l global, [.release (.group g)]⟩
  | .store issuer g kind l p =>
    some ⟨issuer, g, kind, .attach l p, [.release (.group g)]⟩
  | _ => none

/-- A request is followed by the release of the group, or by what remains of a list of names.
In both cases the share of the group that the task owned goes on. -/
theorem Task.next_of_ask {task : Task} {ask : Ask} (asks : task.ask? = some ask) :
    ask.next = [.release (.group ask.g)] ∨
      ∃ kind requested requests,
        task = .act ask.issuer ask.g (.generate kind (requested :: requests)) ∧
          ask.request = .generate requested ∧
          ask.next = [.act ask.issuer ask.g (.generate kind requests)] := by
  cases task with
  | release handle => cases asks
  | store issuer g kind l p =>
      cases asks
      exact .inl rfl
  | act issuer g action =>
      cases action with
      | generate kind requests =>
          cases requests with
          | nil => cases asks
          | cons requested requests =>
              cases asks
              exact .inr ⟨kind, requested, requests, rfl, rfl, rfl⟩
      | delete kind l | rebind kind l global =>
          cases asks
          exact .inl rfl
      | attachHeld | attachNew | attachActing | fetch => cases asks

theorem ObjectGroup.released_of_generate {rule : NameTable.SuccessorRule} {kind : ObjectKind}
    {requested : Name} {group : ObjectGroup} {out : Outcome}
    (answered : group.handle rule kind (.generate requested) = some out) : out.released = none := by
  obtain ⟨inner, generated, rfl⟩ := Option.map_eq_some_iff.mp answered
  obtain ⟨_, _, rfl⟩ := Option.map_eq_some_iff.mp generated
  rfl

/-- A new payload that an action offers to an object, and the slot under which a client wants
to hold it. -/
structure Offer where
  kind : ObjectKind
  l : Name
  payload : Payload
  name : Option String

namespace Registry

/-- The new payload of an action, if it brings one. A destructor holds the group that
its target refers to, and a payload whose target is not found has none. -/
def offer? (r : Registry) : Action → Option Offer
  | .attachNew kind l label name => some ⟨kind, l, ⟨label, none⟩, name⟩
  | .attachActing kind l label target action name =>
    some ⟨kind, l, ⟨label, (r.find? target).map fun target => ⟨target, action⟩⟩, name⟩
  | _ => none

def take (payload : Payload) (r : Registry) : Registry :=
  { r with
    payloads := r.payloads.insert r.payloadsMade payload
    payloadsMade := r.payloadsMade + 1 }

/-- Whether an action leaves everything as it is: no request is left, or it is about a
payload that is not there. -/
def Idle (r : Registry) (g : GroupId) : Action → Prop
  | .generate _ requests => requests = []
  | .attachHeld _ _ source _ => r.held[source]? = none
  | .fetch kind l _ => (r.groups[g]?.bind fun group => group.payload? kind l) = none
  | _ => False

def isLiveIn (r : Registry) (g : GroupId) (kind : ObjectKind) (l : Name) : Bool :=
  r.groups[g]?.any fun group => (group.names kind).isLive l

theorem isLiveIn_of_found {r : Registry} {g : GroupId} {group : ObjectGroup}
    (found : r.groups[g]? = some group) (kind : ObjectKind) (l : Name) :
    r.isLiveIn g kind l = (group.names kind).isLive l := by
  rw [isLiveIn, found]
  rfl

/-- Whether a group or payload is there. -/
def has (r : Registry) : Handle → Bool
  | .group g => r.groups.contains g
  | .payload p => r.payloads.contains p

theorem has_group_iff {r : Registry} {g : GroupId} :
    r.has (.group g) ↔ ∃ group, r.groups[g]? = some group := by
  rw [has, Std.ExtTreeMap.contains_eq_isSome_getElem?, Option.isSome_iff_exists]

theorem has_payload_iff {r : Registry} {p : PayloadId} :
    r.has (.payload p) ↔ ∃ payload, r.payloads[p]? = some payload := by
  rw [has, Std.ExtTreeMap.contains_eq_isSome_getElem?, Option.isSome_iff_exists]

/-! ### What a task can do -/

/-- All that a task can do, where `rest` remains to be done after it: the shares that it
takes, and its step. -/
inductive Effect (policy : Policy) (rest : List Task) (r : Registry) :
    Task → List Handle → Step → Prop where
  /-- Somebody else has a share. -/
  | kept {handle : Handle} : 0 < r.sharesWith rest handle →
      Effect policy rest r (.release handle) [] ⟨r, [], []⟩
  | absent {handle : Handle} : r.sharesWith rest handle = 0 → r.has handle = false →
      Effect policy rest r (.release handle) [] ⟨r, [], []⟩
  | groupDestroyed {g : GroupId} {group : ObjectGroup} :
      r.sharesWith rest (.group g) = 0 → r.groups[g]? = some group →
      Effect policy rest r (.release (.group g)) []
        { registry := { r with groups := r.groups.erase g }
          tasks := (policy.order g group.payloadShares).map fun p => .release (.payload p)
          journal := [.groupDestroyed g group.objectTotal group.payloadTotal] }
  | payloadDestroyed {p : PayloadId} {payload : Payload} :
      r.sharesWith rest (.payload p) = 0 → r.payloads[p]? = some payload →
      Effect policy rest r (.release (.payload p)) []
        { registry := { r with payloads := r.payloads.erase p }
          tasks := afterPayload payload
          journal := [.payloadDestroyed p payload.label] }
  | answered {task : Task} {ask : Ask} {group : ObjectGroup} {out : ObjectGroup.Outcome} :
      task.ask? = some ask → r.groups[ask.g]? = some group →
      group.handle policy.successor ask.kind ask.request = some out →
      Effect policy rest r task []
        { registry := { r with groups := r.groups.insert ask.g out.group }
          tasks := (out.released.toList.map fun p => .release (.payload p)) ++ ask.next
          journal := [.performed ask.issuer ask.g ask.kind ask.request out.answer out.event] }
  | unanswered {task : Task} {ask : Ask} :
      task.ask? = some ask → r.groups[ask.g]? = none →
      Effect policy rest r task [] ⟨r, ask.next, []⟩
  | idle {issuer : Issuer} {g : GroupId} {action : Action} : r.Idle g action →
      Effect policy rest r (.act issuer g action) [] ⟨r, [.release (.group g)], []⟩
  | attached {issuer : Issuer} {g : GroupId} {kind : ObjectKind} {l : Name} {source : String}
      {name : Option String} {p : PayloadId} : r.held[source]? = some p →
      Effect policy rest r (.act issuer g (.attachHeld kind l source name))
        (.payload p :: name.toList.map fun _ => .payload p)
        ((r.hold name p).thenTasks [.store issuer g kind l p])
  | fetched {issuer : Issuer} {g : GroupId} {group : ObjectGroup} {kind : ObjectKind} {l : Name}
      {name : String} {p : PayloadId} :
      r.groups[g]? = some group → group.payload? kind l = some p →
      Effect policy rest r (.act issuer g (.fetch kind l name)) [.payload p]
        ((r.hold (some name) p).thenTasks [.release (.group g)])
  | refused {issuer : Issuer} {g : GroupId} {action : Action} {offer : Offer} :
      r.offer? action = some offer → offer.name = none → r.isLiveIn g offer.kind offer.l = false →
      Effect policy rest r (.act issuer g action) offer.payload.handles
        { registry := r
          tasks := afterPayload offer.payload ++ [.release (.group g)]
          journal := [.payloadRefused issuer g offer.kind offer.l offer.payload.label] }
  | offered {issuer : Issuer} {g : GroupId} {action : Action} {offer : Offer} :
      r.offer? action = some offer →
      offer.name.isSome ∨ r.isLiveIn g offer.kind offer.l = true →
      Effect policy rest r (.act issuer g action)
        (.payload r.payloadsMade ::
          (offer.name.toList.map fun _ => .payload r.payloadsMade) ++ offer.payload.handles)
        { registry := (hold offer.name r.payloadsMade (r.take offer.payload)).registry
          tasks := (hold offer.name r.payloadsMade (r.take offer.payload)).tasks ++
            [.store issuer g offer.kind offer.l r.payloadsMade]
          journal := [.payloadMade r.payloadsMade offer.payload.label] }

variable {policy : Policy} {rest : List Task} {r : Registry} {task : Task} {step : Step}

/-! ### The cases are all -/

/-- A task that passes a request on does nothing else. So each fact about tables is proved for
requests once, and not for each of the four tasks that make them. -/
theorem step_of_ask {ask : Ask} (asks : task.ask? = some ask) :
    r.step policy rest task =
      (r.request policy ask.issuer ask.g ask.kind ask.request).map (·.thenTasks ask.next) := by
  cases task with
  | release handle => cases asks
  | store issuer g kind l p =>
      cases asks
      rfl
  | act issuer g action =>
      cases action with
      | generate kind requests =>
          cases requests <;> cases asks
          rfl
      | delete kind l | rebind kind l global =>
          cases asks
          rfl
      | attachHeld | attachNew | attachActing | fetch => cases asks

/-- An action that brings a new payload does nothing but offer it. -/
theorem step_of_offer {issuer : Issuer} {g : GroupId} {action : Action} {offer : Offer}
    (offers : r.offer? action = some offer) :
    r.step policy rest (.act issuer g action) =
      some (r.offer issuer g offer.kind offer.l offer.payload offer.name) := by
  cases action with
  | attachNew kind l label name =>
      cases offers
      rfl
  | attachActing kind l label target action name =>
      cases offers
      rfl
  | generate | delete | rebind | attachHeld | fetch => cases offers

/-- A request changes its group as the group answers. Where the group is gone it is dropped,
and what follows it is carried out all the same. -/
theorem effect_of_ask {ask : Ask} (asks : task.ask? = some ask)
    (h : r.step policy rest task = some step) : Effect policy rest r task [] step := by
  rw [step_of_ask asks, request] at h
  cases found : r.groups[ask.g]? with
  | none =>
      simp only [found, Option.map_some, Option.some.injEq] at h
      subst h
      exact .unanswered asks found
  | some group =>
      simp only [found, Option.map_map] at h
      obtain ⟨out, answered, rfl⟩ := Option.map_eq_some_iff.mp h
      exact .answered asks found answered

/-- While somebody else has a share, a release only gives up its own. -/
theorem release_of_owned {handle : Handle} (owned : 0 < r.sharesWith rest handle) :
    r.release policy rest handle = ⟨r, [], []⟩ :=
  if_pos (mem_owners_iff.mpr owned)

theorem release_of_absent {handle : Handle} (absent : r.has handle = false) :
    r.release policy rest handle = ⟨r, [], []⟩ := by
  unfold release
  split
  · rfl
  · cases handle <;>
      simp only [has, Std.ExtTreeMap.contains_eq_isSome_getElem?, Option.isSome_eq_false_iff,
        Option.isNone_iff_eq_none] at absent <;>
      simp only [absent]

/-- The last release of a group destroys it, and then releases its payloads in the order that
the policy gives. The record of it has the totals of that moment. -/
theorem release_last_group {g : GroupId} {group : ObjectGroup}
    (last : r.sharesWith rest (.group g) = 0) (found : r.groups[g]? = some group) :
    r.release policy rest (.group g) =
      { registry := { r with groups := r.groups.erase g }
        tasks := (policy.order g group.payloadShares).map fun p => .release (.payload p)
        journal := [.groupDestroyed g group.objectTotal group.payloadTotal] } := by
  have unowned : ¬ Handle.group g ∈ r.handles ++ rest.flatMap Task.handles := by
    rw [mem_owners_iff]
    omega
  simp only [release, if_neg unowned, found]

/-- The last release of a payload frees it, and then has its destructor act with the share
that the payload had. -/
theorem release_last_payload {p : PayloadId} {payload : Payload}
    (last : r.sharesWith rest (.payload p) = 0) (found : r.payloads[p]? = some payload) :
    r.release policy rest (.payload p) =
      { registry := { r with payloads := r.payloads.erase p }
        tasks := afterPayload payload
        journal := [.payloadDestroyed p payload.label] } := by
  have unowned : ¬ Handle.payload p ∈ r.handles ++ rest.flatMap Task.handles := by
    rw [mem_owners_iff]
    omega
  simp only [release, if_neg unowned, found]

/-- A release has four outcomes, by what else has a share and by what is there. -/
theorem effect_of_release (handle : Handle) :
    Effect policy rest r (.release handle) [] (r.release policy rest handle) := by
  rcases Nat.eq_zero_or_pos (r.sharesWith rest handle) with last | owned
  · cases there : r.has handle with
    | false =>
        rw [release_of_absent there]
        exact .absent last there
    | true =>
        cases handle with
        | group g =>
            obtain ⟨group, found⟩ := has_group_iff.mp there
            rw [release_last_group last found]
            exact .groupDestroyed last found
        | payload p =>
            obtain ⟨payload, found⟩ := has_payload_iff.mp there
            rw [release_last_payload last found]
            exact .payloadDestroyed last found
  · rw [release_of_owned owned]
    exact .kept owned

/-- A new payload that nobody would have a share of is not taken up: the object is dead and no
client wants to hold it. Its destructor acts at once. -/
theorem offer_of_refused {issuer : Issuer} {g : GroupId} {offer : Offer}
    (unnamed : offer.name = none)
    (dead : r.isLiveIn g offer.kind offer.l = false) :
    r.offer issuer g offer.kind offer.l offer.payload offer.name =
      { registry := r
        tasks := afterPayload offer.payload ++ [.release (.group g)]
        journal := [.payloadRefused issuer g offer.kind offer.l offer.payload.label] } :=
  if_pos ⟨by rw [unnamed]; rfl, dead⟩

/-- Otherwise it is made, held if a name is given, and stored by a task of its own, which may
still find the object dead. -/
theorem offer_of_taken {issuer : Issuer} {g : GroupId} {offer : Offer}
    (takes : offer.name.isSome ∨ r.isLiveIn g offer.kind offer.l = true) :
    r.offer issuer g offer.kind offer.l offer.payload offer.name =
      { registry := (hold offer.name r.payloadsMade (r.take offer.payload)).registry
        tasks := (hold offer.name r.payloadsMade (r.take offer.payload)).tasks ++
          [.store issuer g offer.kind offer.l r.payloadsMade]
        journal := [.payloadMade r.payloadsMade offer.payload.label] } := by
  refine if_neg fun refuses => ?_
  rcases takes with named | live
  · rw [Option.isSome_iff_ne_none] at named
    exact named (Option.isNone_iff_eq_none.mp refuses.1)
  · exact Bool.false_ne_true (refuses.2.symm.trans live)

theorem effect_of_offer (issuer : Issuer) (g : GroupId) (action : Action) {offer : Offer}
    (offers : r.offer? action = some offer) :
    ∃ gained, Effect policy rest r (.act issuer g action) gained
      (r.offer issuer g offer.kind offer.l offer.payload offer.name) := by
  by_cases takes : offer.name.isSome ∨ r.isLiveIn g offer.kind offer.l = true
  · rw [offer_of_taken takes]
    exact ⟨_, .offered offers takes⟩
  · obtain ⟨unnamed, dead⟩ := not_or.mp takes
    have unnamed := Option.not_isSome_iff_eq_none.mp unnamed
    have dead := Bool.eq_false_iff.mpr dead
    rw [offer_of_refused unnamed dead]
    exact ⟨_, .refused offers unnamed dead⟩

/-- Every step of a task is one of the effects. Later proofs go through them by cases and
never open the step itself. -/
theorem effect_of_step (h : r.step policy rest task = some step) :
    ∃ gained, Effect policy rest r task gained step := by
  cases task with
  | release handle =>
      cases h
      exact ⟨[], effect_of_release handle⟩
  | store issuer g kind l p => exact ⟨[], effect_of_ask rfl h⟩
  | act issuer g action =>
      cases action with
      | generate kind requests =>
          cases requests with
          | nil =>
              cases h
              exact ⟨[], .idle rfl⟩
          | cons requested requests => exact ⟨[], effect_of_ask rfl h⟩
      | delete kind l => exact ⟨[], effect_of_ask rfl h⟩
      | rebind kind l global => exact ⟨[], effect_of_ask rfl h⟩
      | attachNew kind l label name =>
          cases h
          exact effect_of_offer issuer g (.attachNew kind l label name) rfl
      | attachActing kind l label target action name =>
          cases h
          exact effect_of_offer issuer g (.attachActing kind l label target action name) rfl
      | attachHeld kind l source name =>
          simp only [Registry.step, act] at h
          cases found : r.held[source]? with
          | none =>
              simp only [found, Option.some.injEq] at h
              subst h
              exact ⟨[], .idle found⟩
          | some p =>
              simp only [found, Option.some.injEq] at h
              subst h
              exact ⟨_, .attached found⟩
      | fetch kind l name =>
          simp only [Registry.step, act] at h
          cases found : r.groups[g]?.bind fun group => group.payload? kind l with
          | none =>
              simp only [found, Option.some.injEq] at h
              subst h
              exact ⟨[], .idle found⟩
          | some p =>
              simp only [found, Option.some.injEq] at h
              subst h
              obtain ⟨group, there, stored⟩ := Option.bind_eq_some_iff.mp found
              exact ⟨_, .fetched there stored⟩

/-- The effects are what the steps do. Together with `effect_of_step` this makes them another
form of the step, so nothing is lost by arguing from them. -/
theorem Effect.step_eq {gained : List Handle} (effect : Effect policy rest r task gained step) :
    r.step policy rest task = some step := by
  cases effect with
  | kept owned => exact congrArg some (release_of_owned owned)
  | absent last missing => exact congrArg some (release_of_absent missing)
  | groupDestroyed last found => exact congrArg some (release_last_group last found)
  | payloadDestroyed last found => exact congrArg some (release_last_payload last found)
  | answered asks found answered =>
      simp only [step_of_ask asks, request, found, answered]
      rfl
  | unanswered asks missing =>
      simp only [step_of_ask asks, request, missing]
      rfl
  | @idle issuer g action nothing =>
      cases action with
      | generate kind requests =>
          cases requests with
          | nil => rfl
          | cons requested requests => cases nothing
      | attachHeld kind l source name =>
          simp only [Registry.step, act, show r.held[source]? = none from nothing]
      | fetch kind l name =>
          simp only [Registry.step, act,
            show (r.groups[g]?.bind fun group => group.payload? kind l) = none from nothing]
      | delete | rebind | attachNew | attachActing => cases nothing
  | attached found => simp only [Registry.step, act, found]
  | fetched found stored => simp only [Registry.step, act, found, Option.bind_some, stored]
  | refused offers unnamed dead => rw [step_of_offer offers, offer_of_refused unnamed dead]
  | offered offers takes => rw [step_of_offer offers, offer_of_taken takes]

/-- No task changes keys or slots: only operations do, and before their tasks start. -/
theorem Effect.tables_eq (effect : Effect policy rest r task gained step) :
    step.registry.keys = r.keys ∧ step.registry.slots = r.slots := by
  cases effect with
  | kept | absent | groupDestroyed | payloadDestroyed | answered | unanswered | idle | refused
  | fetched =>
      exact ⟨rfl, rfl⟩
  | @attached _ _ _ _ _ name => cases name <;> exact ⟨rfl, rfl⟩
  | @offered _ _ _ offer => cases offer.name <;> exact ⟨rfl, rfl⟩

/-- The keys and slots decide which group a client refers to. -/
theorem find?_of_tables_eq {after : Registry} (keys : after.keys = r.keys)
    (slots : after.slots = r.slots) (target : GroupRef) : after.find? target = r.find? target := by
  cases target with
  | slot name => rw [find?, slots, find?]
  | key key => rw [find?, keys, find?]

theorem Effect.find?_eq (effect : Effect policy rest r task gained step) (target : GroupRef) :
    step.registry.find? target = r.find? target :=
  find?_of_tables_eq effect.tables_eq.1 effect.tables_eq.2 target

/-- A task makes no group and leaves the choices of the registry as they are. Groups come from
operations alone. -/
theorem Effect.makes_no_group {gained : List Handle}
    (effect : Effect policy rest r task gained step) :
    step.registry.settings = r.settings ∧ step.registry.groupsMade = r.groupsMade ∧
      ∀ g key, .groupMade g key ∉ step.journal := by
  cases effect with
  | kept | absent | unanswered | idle | fetched => exact ⟨rfl, rfl, by simp [Step.thenTasks, hold]⟩
  | groupDestroyed | payloadDestroyed | answered | refused => exact ⟨rfl, rfl, by simp⟩
  | @attached _ _ _ _ _ name => cases name <;> exact ⟨rfl, rfl, by simp [Step.thenTasks, hold]⟩
  | @offered _ _ _ offer => cases offer.name <;> exact ⟨rfl, rfl, by simp⟩

/-! ### What a task does to the shares -/

def spent : Task → List Handle
  | .release handle => [handle]
  | .act _ _ _ | .store _ _ _ _ _ => []

/-- A task that passes a request on gives nothing up: it hands its shares over to the
request and to what follows. -/
theorem handles_of_ask {ask : Ask} (asks : task.ask? = some ask) :
    task.handles = ask.next.flatMap Task.handles ++ ask.request.handles ∧ spent task = [] ∧
      .group ask.g ∈ task.handles := by
  cases task with
  | release handle => cases asks
  | store issuer g kind l p =>
      cases asks
      exact ⟨rfl, rfl, List.mem_cons_self⟩
  | act issuer g action =>
      cases action with
      | generate kind requests =>
          cases requests <;> cases asks
          exact ⟨rfl, rfl, List.mem_cons_self⟩
      | delete kind l | rebind kind l global =>
          cases asks
          exact ⟨rfl, rfl, List.mem_cons_self⟩
      | attachHeld | attachNew | attachActing | fetch => cases asks

/-- Taking up a payload adds the share that the payload has. The payload itself has none yet:
that is for the tasks that store or hold it. -/
theorem shares_take (payload : Payload) (fresh : r.payloads[r.payloadsMade]? = none) (h : Handle) :
    (r.take payload).shares h = r.shares h + payload.handles.count h := by
  have written := sharesIn_insert Payload.handles r.payloads h r.payloadsMade payload
  simp only [fresh, Option.toList_none, List.flatMap_nil, List.count_nil] at written
  simp only [shares_eq, take]
  omega

/-- A step moves shares between the registry and the pending tasks. It adds those that its
effect gains, and takes away the one that a release gives up. This is the conservation law for
one task; whole cascades follow by adding up. -/
theorem Effect.balance {gained : List Handle} (effect : Effect policy rest r task gained step)
    (fresh : r.payloads[r.payloadsMade]? = none)
    (there : ∀ h, 0 < r.sharesWith (task :: rest) h → r.has h) (h : Handle) :
    step.registry.sharesWith (step.tasks ++ rest) h + (spent task).count h =
      r.sharesWith (task :: rest) h + gained.count h := by
  have before := pending_cons task rest h
  simp only [sharesWith, pending_append, before]
  cases effect with
  | kept | absent => simp only [pending_nil, Task.handles, spent, List.count_nil]; omega
  | @groupDestroyed g group last found =>
      have erased := shares_eraseGroup h found
      have released := ((policy.order_perm g group.payloadShares).map Handle.payload).count_eq h
      simp only [pending_releases, Task.handles, spent, List.count_nil]
      simp only [ObjectGroup.handles] at erased
      omega
  | payloadDestroyed last found =>
      have erased := shares_erasePayload h found
      simp only [pending_afterPayload, Task.handles, spent, List.count_nil]
      omega
  | @answered task ask group out asks found answered =>
      have written := shares_insertGroup h out.group found
      have handled := ObjectGroup.count_handles_of_handle answered h
      obtain ⟨owned, nothing, -⟩ := handles_of_ask asks
      have counted := congrArg (List.count h) owned
      simp only [List.count_append] at counted
      simp only [pending_append, pending_releases, nothing, List.count_nil]
      simp only [pending] at counted ⊢
      omega
  | @unanswered task ask asks missing =>
      have owned : 0 < r.sharesWith (task :: rest) (.group ask.g) :=
        sharesWith_pos_of_mem (handles_of_ask asks).2.2
      obtain ⟨group, found⟩ := has_group_iff.mp (there _ owned)
      rw [missing] at found
      cases found
  | idle => simp only [pending_cons, pending_nil, Task.handles, spent, List.count_nil]; omega
  | @attached issuer g kind l source name p found =>
      have held := sharesWith_hold (r := r) h name p
      simp only [sharesWith] at held
      simp only [Step.thenTasks, pending_append, pending_cons, pending_nil, Task.handles, spent,
        List.count_cons, List.count_nil]
      omega
  | @fetched issuer g group kind l name p found stored =>
      have held := sharesWith_hold (r := r) h (some name) p
      simp only [sharesWith, Option.toList_some, List.map_cons, List.map_nil] at held
      simp only [Step.thenTasks, pending_append, pending_cons, pending_nil, Task.handles, spent,
        List.count_nil]
      omega
  | refused offers unnamed dead =>
      simp only [pending_append, pending_afterPayload, pending_cons, pending_nil, Task.handles,
        spent, List.count_nil]
      omega
  | @offered issuer g action offer offers takes =>
      have taken := shares_take offer.payload fresh h
      have held := sharesWith_hold (r := r.take offer.payload) h offer.name r.payloadsMade
      simp only [sharesWith] at held
      simp only [pending_append, pending_cons, pending_nil, Task.handles, spent, List.count_cons,
        List.count_append, List.count_nil]
      omega

end Registry

end SharedNames
