import SharedNames.Registry.Cascade

/-!
What clients can ask of a registry.

An operation first makes its own change and then settles what follows from it: the
share that it took away from somebody is released last. So whatever a destructor
does, it finds the operation complete.
-/

namespace SharedNames

inductive RegistryError where
  /-- No group is attached to the key with this text. -/
  | noGroup (keyText : String)
  deriving DecidableEq, Repr

namespace RegistryError

def message : RegistryError → String
  | noGroup keyText => "no share group attached to key " ++ keyText

/-- The text that shows an error with its cause. -/
def text : RegistryError → String
  | noGroup keyText => "GroupNotFound(" ++ Text.quote keyText ++ ")"

end RegistryError

inductive Operation where
  /-- Attach a key to a new group; an attached key is dealt with by the settings. -/
  | create (key : ContextKey)
  /-- Attach a key to the group of another one. -/
  | attach (key existing : ContextKey)
  /-- Detach a key from its group. -/
  | detach (key : ContextKey)
  /-- Keep the group of a key in a slot, in place of what was there. -/
  | keep (slot : String) (key : ContextKey)
  /-- Give up what a slot keeps. -/
  | letGo (slot : String)
  /-- Give up the payload that is held under a name. -/
  | releaseHeld (name : String)
  /-- Act on a group. -/
  | act (target : GroupRef) (action : Action)
  deriving DecidableEq, Repr

/-- What a client is told about an operation. The answers to the requests of an action
are in the journal. -/
inductive Reply where
  /-- The group that a key is attached to. -/
  | group (g : GroupId)
  | failed (error : RegistryError)
  /-- The operation is about something that is not there, and nothing was done. -/
  | absent
  | done
  deriving DecidableEq, Repr

namespace Registry

/-- The own change of an operation: what it replies, the registry it leaves, the tasks
that have to follow and its events. -/
structure Change where
  reply : Reply
  registry : Registry
  tasks : List Task
  journal : Journal

def releaseGroup (g : Option GroupId) : List Task :=
  g.toList.map fun g => .release (.group g)

/-- Creates a group and attaches a key to it. The group that the key was attached to
is released afterwards. -/
def makeGroup (key : ContextKey) (r : Registry) : Change :=
  let g := r.groupsMade
  { reply := .group g
    registry :=
      { r with
        keys := r.keys.insert key g
        groups := r.groups.insert g r.settings.newGroup
        groupsMade := g + 1 }
    tasks := releaseGroup r.keys[key]?
    journal := [.groupMade g key] }

/-- Creates a group for a key. A key that has one keeps it or gets a new one, as the
settings say. -/
def create (key : ContextKey) (r : Registry) : Change :=
  match r.keys[key]?, r.settings.onDuplicate with
  | none, _ => r.makeGroup key
  | some g, .reuse => ⟨.group g, r, [], [.noted (.keyReused key)]⟩
  | some _, .replace =>
    let change := r.makeGroup key
    { change with journal := .noted (.groupReplaced key) :: change.journal }

def attach (key existing : ContextKey) (r : Registry) : Change :=
  match r.keys[existing]? with
  | none => {
      reply := .failed (.noGroup existing.text)
      registry := r
      tasks := []
      journal := [.noted (.attachRefused key existing)] }
  | some g => {
      reply := .group g
      registry := { r with keys := r.keys.insert key g }
      tasks := releaseGroup r.keys[key]?
      journal := [.noted (.keyAttached key existing)] }

def detach (key : ContextKey) (r : Registry) : Change :=
  match r.keys[key]? with
  | none => ⟨.absent, r, [], []⟩
  | some g =>
    let left := { r with keys := r.keys.erase key }
    { reply := .done
      registry := left
      tasks := releaseGroup (some g)
      journal := [.noted (.keyDetached key (left.shares (.group g)))] }

def keep (slot : String) (key : ContextKey) (r : Registry) : Change :=
  match r.keys[key]? with
  | none => ⟨.absent, r, [], []⟩
  | some g => {
      reply := .group g
      registry := { r with slots := r.slots.insert slot g }
      tasks := releaseGroup r.slots[slot]?
      journal := [] }

def letGo (slot : String) (r : Registry) : Change :=
  match r.slots[slot]? with
  | none => ⟨.absent, r, [], []⟩
  | some g => ⟨.done, { r with slots := r.slots.erase slot }, releaseGroup (some g), []⟩

def releaseHeld (name : String) (r : Registry) : Change :=
  match r.held[name]? with
  | none => ⟨.absent, r, [], []⟩
  | some p => ⟨.done, { r with held := r.held.erase name }, [.release (.payload p)], []⟩

/-- The own change of an operation. An action is all a task, which owns a share of the
group until it is done. -/
def change (r : Registry) : Operation → Change
  | .create key => r.create key
  | .attach key existing => r.attach key existing
  | .detach key => r.detach key
  | .keep slot key => r.keep slot key
  | .letGo slot => r.letGo slot
  | .releaseHeld name => r.releaseHeld name
  | .act target action =>
    match r.find? target with
    | none => ⟨.absent, r, [], []⟩
    | some g => ⟨.done, r, [.act .client g action], []⟩

structure Result where
  reply : Reply
  registry : Registry
  journal : Journal
  /-- What could not be carried out because a name table is used up. -/
  residual : List Task

/-- Carries out an operation with all that follows from it. -/
def perform (policy : Policy) (r : Registry) (operation : Operation) : Result :=
  let change := r.change operation
  let settled := change.registry.settle policy change.tasks
  ⟨change.reply, settled.registry, change.journal ++ settled.journal, settled.residual⟩

/-- Carries out operations one after the other, up to one that cannot be finished. -/
def performAll (policy : Policy) (r : Registry) : List Operation → Settled
  | [] => ⟨r, [], []⟩
  | operation :: operations =>
    let result := r.perform policy operation
    if result.residual = [] then
      (performAll policy result.registry operations).after result.journal
    else ⟨result.registry, result.journal, result.residual⟩

/-- The operations that give up every handle of a client: what is held and then the
slots, both by name, and then the keys, in order. -/
def closing (r : Registry) (keys : List ContextKey) : List Operation :=
  r.held.keys.map .releaseHeld ++ r.slots.keys.map .letGo ++
    (keys.mergeSort fun a b => (compare a b).isLE).map .detach

end Registry

end SharedNames
