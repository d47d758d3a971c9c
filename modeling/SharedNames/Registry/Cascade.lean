import SharedNames.Registry.Journal

/-!
What follows from the release of a share.

Releasing the last share of a payload destroys it and lets its destructor act;
releasing the last share of a group destroys it and releases its payloads. So one
release can lead to many, in any groups. Here this is a list of tasks: the first one
is carried out, and what it leads to comes before the rest. A task owns the shares
that it is about until it is done.

`settle` carries out tasks until none is left. It stops early in one case only: a
name has to be generated in a table that is used up. The tasks that could not be
carried out are then its `residual`.
-/

namespace SharedNames

/-! ### Choices -/

/-- The choices that the registry leaves open: which sharer takes over a global name,
and in which order a destroyed group releases its payloads. -/
structure Policy where
  successor : NameTable.SuccessorRule
  order : GroupId → List PayloadId → List PayloadId
  order_perm : ∀ g ps, (order g ps).Perm ps

def Policy.standard : Policy where
  successor := fun _ => 0
  order := fun _ ps => ps
  order_perm := fun _ ps => .refl ps

/-! ### Tasks -/

inductive Task where
  /-- Give up a share. -/
  | release (handle : Handle)
  /-- Carry out an action on a group, and then give up a share of it. -/
  | act (issuer : Issuer) (g : GroupId) (action : Action)
  /-- Offer a payload to an object, and then give up a share of its group. -/
  | store (issuer : Issuer) (g : GroupId) (kind : ObjectKind) (l : Name) (p : PayloadId)
  deriving DecidableEq, Repr

def Task.handles : Task → List Handle
  | release handle => [handle]
  | act _ g _ => [.group g]
  | store _ g _ _ p => [.group g, .payload p]

/-- What one task did: the registry it left, what has to follow, and its events. -/
structure Step where
  registry : Registry
  tasks : List Task
  journal : Journal

def Step.thenTasks (step : Step) (tasks : List Task) : Step :=
  { step with tasks := step.tasks ++ tasks }

namespace Registry

/-! ### Giving up shares -/

/-- What follows the destruction of a payload: its destructor acts. The share of the
target goes over to that task. -/
def afterPayload (payload : Payload) : List Task :=
  payload.destructor.toList.map fun destructor =>
    .act .destructor destructor.target destructor.action

/-- Gives up a share, where `rest` is what remains to be done. Without any other share
the group or payload is destroyed. -/
def release (policy : Policy) (rest : List Task) (handle : Handle) (r : Registry) : Step :=
  if handle ∈ r.handles ++ rest.flatMap Task.handles then ⟨r, [], []⟩
  else
    match handle with
    | .group g =>
      match r.groups[g]? with
      | none => ⟨r, [], []⟩
      | some group => {
          registry := { r with groups := r.groups.erase g }
          tasks := (policy.order g group.payloadShares).map fun p => .release (.payload p)
          journal := [.groupDestroyed g group.objectTotal group.payloadTotal] }
    | .payload p =>
      match r.payloads[p]? with
      | none => ⟨r, [], []⟩
      | some payload => {
          registry := { r with payloads := r.payloads.erase p }
          tasks := afterPayload payload
          journal := [.payloadDestroyed p payload.label] }

/-! ### Acting on a group -/

/-- Passes a request on to a group, and releases the payload share that it gave up.
There is no answer when the group cannot answer the request. -/
def request (policy : Policy) (issuer : Issuer) (g : GroupId) (kind : ObjectKind)
    (request : ObjectTable.Request) (r : Registry) : Option Step :=
  match r.groups[g]? with
  | none => some ⟨r, [], []⟩
  | some group =>
    (group.handle policy.successor kind request).map fun out => {
      registry := { r with groups := r.groups.insert g out.group }
      tasks := out.released.toList.map fun p => .release (.payload p)
      journal := [.performed issuer g kind request out.answer out.event] }

/-- Holds a payload under a name, if one is given, in place of what was held there. -/
def hold (name : Option String) (p : PayloadId) (r : Registry) : Step :=
  match name with
  | none => ⟨r, [], []⟩
  | some name => {
      registry := { r with held := r.held.insert name p }
      tasks := r.held[name]?.toList.map fun p => .release (.payload p)
      journal := [] }

/-- Takes up a new payload, holds it if a name is given, and offers it to an object. A
payload that nobody would have a share of is not taken up but destroyed at once. -/
def offer (issuer : Issuer) (g : GroupId) (kind : ObjectKind) (l : Name) (payload : Payload)
    (name : Option String) (r : Registry) : Step :=
  let live := r.groups[g]?.any fun group => (group.names kind).isLive l
  if name.isNone ∧ live = false then {
    registry := r
    tasks := afterPayload payload ++ [.release (.group g)]
    journal := [.payloadRefused issuer g kind l payload.label] }
  else
    let p := r.payloadsMade
    let held := hold name p
      { r with payloads := r.payloads.insert p payload, payloadsMade := p + 1 }
    { registry := held.registry
      tasks := held.tasks ++ [.store issuer g kind l p]
      journal := [.payloadMade p payload.label] }

/-- Carries out an action on a group, as far as one task goes. -/
def act (policy : Policy) (issuer : Issuer) (g : GroupId) (r : Registry) :
    Action → Option Step
  | .generate _ [] => some ⟨r, [.release (.group g)], []⟩
  | .generate kind (requested :: requests) =>
    (r.request policy issuer g kind (.generate requested)).map
      (·.thenTasks [.act issuer g (.generate kind requests)])
  | .delete kind l =>
    (r.request policy issuer g kind (.delete l)).map (·.thenTasks [.release (.group g)])
  | .rebind kind l global =>
    (r.request policy issuer g kind (.rebind l global)).map (·.thenTasks [.release (.group g)])
  | .attachHeld kind l source name =>
    match r.held[source]? with
    | none => some ⟨r, [.release (.group g)], []⟩
    | some p => some ((r.hold name p).thenTasks [.store issuer g kind l p])
  | .attachNew kind l label name => some (r.offer issuer g kind l ⟨label, none⟩ name)
  | .attachActing kind l label target action name =>
    let destructor := (r.find? target).map fun target => ⟨target, action⟩
    some (r.offer issuer g kind l ⟨label, destructor⟩ name)
  | .fetch kind l name =>
    match r.groups[g]?.bind fun group => group.payload? kind l with
    | none => some ⟨r, [.release (.group g)], []⟩
    | some p => some ((r.hold (some name) p).thenTasks [.release (.group g)])

/-! ### Carrying out tasks -/

def step (policy : Policy) (rest : List Task) (r : Registry) : Task → Option Step
  | .release handle => some (r.release policy rest handle)
  | .act issuer g action => r.act policy issuer g action
  | .store issuer g kind l p =>
    (r.request policy issuer g kind (.attach l p)).map (·.thenTasks [.release (.group g)])

structure Settled where
  registry : Registry
  journal : Journal
  /-- The tasks that could not be carried out. -/
  residual : List Task

def Settled.after (journal : Journal) (settled : Settled) : Settled :=
  { settled with journal := journal ++ settled.journal }

/-- Carries out tasks in order, each followed by what it leads to, for at most so many
steps. -/
def settleWithin (policy : Policy) : Nat → Registry → List Task → Settled
  | _, r, [] => ⟨r, [], []⟩
  | 0, r, tasks => ⟨r, [], tasks⟩
  | bound + 1, r, task :: rest =>
    match r.step policy rest task with
    | none => ⟨r, [], task :: rest⟩
    | some step =>
      (settleWithin policy bound step.registry (step.tasks ++ rest)).after step.journal

/-! ### How many steps suffice -/

def total (numbers : List Nat) : Nat :=
  numbers.foldr (· + ·) 0

/-- The most steps that an action can lead to, apart from what it releases. -/
def actionWeight : Action → Nat
  | .generate _ requests => requests.length + 2
  | .delete _ _ | .rebind _ _ _ => 2
  | .fetch _ _ _ => 3
  | .attachHeld _ _ _ _ | .attachNew _ _ _ _ => 5
  | .attachActing _ _ _ _ action _ => actionWeight action + 5

/-- The most steps that a task can lead to, apart from what it releases. -/
def taskWeight : Task → Nat
  | .release _ => 1
  | .act _ _ action => actionWeight action
  | .store _ _ _ _ _ => 3

/-- The steps that the destruction of a payload can lead to. -/
def payloadWeight (payload : Payload) : Nat :=
  total ((afterPayload payload).map taskWeight)

/-- The steps that all releases to come can lead to. -/
def weight (r : Registry) : Nat :=
  r.held.size + total ((valuesOf r.payloads).map payloadWeight) +
    total ((valuesOf r.groups).map fun group => group.payloadTotal + 1)

/-- Carries out tasks and all that they lead to. -/
def settle (policy : Policy) (r : Registry) (tasks : List Task) : Settled :=
  settleWithin policy (r.weight + total (tasks.map taskWeight)) r tasks

end Registry

end SharedNames
