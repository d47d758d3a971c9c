import Std.Data.ExtTreeMap
import SharedNames.Name

/-!
The name table of one kind of object.

A table resolves every live local name to a global name. An entry may be bound to
`0`, which means that the object has no global name yet. Several local names can
share one global name; of these the table remembers the one bound most recently.
When that one is deleted or bound to another global name, one of the remaining
sharers takes its place, and a `SuccessorRule` says which.

Every operation answers the table it leaves and an `Event` that says what it did.
-/

namespace SharedNames

/-- The local and global names of one kind of object. -/
structure NameTable where
  /-- The next candidate for a generated local name. It may be in use, or `0`. -/
  nextLocal : Name
  /-- The next candidate for a generated global name. It may be in use, or `0`. -/
  nextGlobal : Name
  /-- The global name of every live local name, `0` for one without. -/
  globals : Std.ExtTreeMap Name Name
  /-- The local name most recently bound to every bound global name. -/
  latest : Std.ExtTreeMap Name Name
  deriving DecidableEq

namespace NameTable

/-! ### Views -/

/-- The empty table whose generated names start at `first`; `0` acts as `1`. -/
def starting (first : Name) : NameTable where
  nextLocal := max first 1
  nextGlobal := max first 1
  globals := ∅
  latest := ∅

def isLive (t : NameTable) (l : Name) : Bool :=
  t.globals.contains l

def isBound (t : NameTable) (g : Name) : Bool :=
  t.latest.contains g

/-- The global name of a local name, `0` if it is not live or has none. -/
def globalOf (t : NameTable) (l : Name) : Name :=
  t.globals[l]?.getD 0

/-- The local name most recently bound to a global name, `0` if there is none. -/
def localOf (t : NameTable) (g : Name) : Name :=
  if g = 0 then 0 else t.latest[g]?.getD 0

def size (t : NameTable) : Nat :=
  t.globals.size

def toList (t : NameTable) : List (Name × Name) :=
  t.globals.toList

def sharers (t : NameTable) (g : Name) : List Name :=
  (t.toList.filter fun entry => entry.2 = g).map Prod.fst

/-! ### Giving up a binding -/

/-- Which of the remaining sharers takes over a global name that lost its latest
binding: a position among them, counted modulo their number. -/
abbrev SuccessorRule := List Name → Nat

def SuccessorRule.pick (rule : SuccessorRule) (names : List Name) : Option Name :=
  names[rule names % names.length]?

/-- Ends the binding of `l` to `g`, whose entry is already gone or replaced. If `l`
was the latest one bound to `g`, another sharer takes over, or else `g` is unbound. -/
def release (rule : SuccessorRule) (l g : Name) (t : NameTable) : NameTable :=
  if g = 0 ∨ t.latest[g]? ≠ some l then t
  else
    match rule.pick (t.sharers g) with
    | some successor => { t with latest := t.latest.insert g successor }
    | none => { t with latest := t.latest.erase g }

/-! ### Operations -/

inductive Event where
  /-- The requested name was live already, and its binding stays. -/
  | kept (l : Name)
  /-- A local name was created with a global name, or with `0`. -/
  | made (l g : Name)
  /-- A live local name with this global name was deleted. -/
  | removed (l g : Name)
  /-- A local name was bound to a global name. -/
  | rebound (l g : Name)
  /-- A binding was turned down because one of its names is reserved. -/
  | turnedDown (l g : Name)
  deriving DecidableEq, Repr

def Event.name : Event → Name
  | kept l | made l _ | removed l _ | rebound l _ | turnedDown l _ => l

/-- The local name of a new entry: the requested one, or for `0` the next unused one. -/
def newLocal (requested : Name) (t : NameTable) : Option Name :=
  if requested = 0 then nextFree t.isLive t.nextLocal else some requested

/-- The global name of a new entry: the next unbound one, or `0` for one without. -/
def newGlobal (withGlobal : Bool) (t : NameTable) : Option Name :=
  if withGlobal then nextFree t.isBound t.nextGlobal else some 0

/-- Creates a local name: the requested one, or for `0` the next unused one. With
`withGlobal` it is bound to the next unbound global name, and otherwise to `0`. A
counter that was searched is left behind the name it found. A requested name that is
live keeps its binding. There is no answer exactly when a name has to be generated
and none is left. -/
def generate (requested : Name) (withGlobal : Bool) (t : NameTable) :
    Option (NameTable × Event) :=
  if requested ≠ 0 ∧ t.isLive requested then some (t, .kept requested)
  else
    match t.newLocal requested, t.newGlobal withGlobal with
    | some l, some g =>
      some (
        { nextLocal := if requested = 0 then l + 1 else t.nextLocal
          nextGlobal := if withGlobal then g + 1 else t.nextGlobal
          globals := t.globals.insert l g
          latest := if g = 0 then t.latest else t.latest.insert g l },
        .made l g)
    | _, _ => none

/-- Deletes a local name. A name that is not live is ignored. -/
def delete (rule : SuccessorRule) (l : Name) (t : NameTable) : NameTable × Option Event :=
  match t.globals[l]? with
  | none => (t, none)
  | some g => (release rule l g { t with globals := t.globals.erase l }, some (.removed l g))

/-- Binds a local name to a given global name, creating it if it is not live. A
previous binding to another global name ends. Reserved names are turned down. -/
def rebind (rule : SuccessorRule) (l g : Name) (t : NameTable) : NameTable × Event :=
  if l = 0 ∨ g = 0 then (t, .turnedDown l g)
  else
    let moved := { t with globals := t.globals.insert l g }
    let freed :=
      match t.globals[l]? with
      | none => moved
      | some previous => if previous = g then moved else release rule l previous moved
    ({ freed with latest := freed.latest.insert g l }, .rebound l g)

/-! ### Calls as data -/

inductive Call where
  | generate (requested : Name) (withGlobal : Bool)
  | delete (l : Name)
  | rebind (l g : Name)
  deriving DecidableEq, Repr

/-- There is no answer when a name that has to be generated cannot be. -/
def call (rule : SuccessorRule) (t : NameTable) : Call → Option (NameTable × Option Event)
  | .generate requested withGlobal =>
    (t.generate requested withGlobal).map fun (t, event) => (t, some event)
  | .delete l => some (t.delete rule l)
  | .rebind l g =>
    let (t, event) := t.rebind rule l g
    some (t, some event)

def callAll (rule : SuccessorRule) (t : NameTable) : List Call → Option (NameTable × List Event)
  | [] => some (t, [])
  | call :: calls => do
    let (t, event) ← t.call rule call
    let (t, events) ← t.callAll rule calls
    return (t, event.toList ++ events)

end NameTable

end SharedNames
