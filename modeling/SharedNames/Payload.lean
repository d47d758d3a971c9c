import SharedNames.ContextKey
import SharedNames.ObjectKind
import SharedNames.ObjectTable

/-!
Payloads, and what they do to a share group when they are destroyed.

A payload can have a destructor: it then holds a share of one group, and carries out
one action on that group when it is destroyed. An action can attach a new payload
with a destructor of its own, so actions nest; every nesting is finite.
-/

namespace SharedNames

abbrev GroupId := Nat

/-- How a client refers to a group: by a slot that keeps it, or by a key attached to it. -/
inductive GroupRef where
  | slot (name : String)
  | key (key : ContextKey)
  deriving DecidableEq, Repr

/-- What can be done to a share group, by a client or by a destructor. Where an action
holds a payload, it does so in the entry of that name, in place of what was there. -/
inductive Action where
  /-- Create objects with these names one after the other, `0` for an unused one. -/
  | generate (kind : ObjectKind) (requests : List Name)
  /-- Delete an object. -/
  | delete (kind : ObjectKind) (l : Name)
  /-- Let a local name resolve to a given global name. -/
  | rebind (kind : ObjectKind) (l g : Name)
  /-- Attach the payload that is held under the name `source`. -/
  | attachHeld (kind : ObjectKind) (l : Name) (source : String) (hold : Option String)
  /-- Attach a new payload without a destructor. -/
  | attachNew (kind : ObjectKind) (l : Name) (label : String) (hold : Option String)
  /-- Attach a new payload that acts on a group when it is destroyed. -/
  | attachActing (kind : ObjectKind) (l : Name) (label : String) (target : GroupRef)
      (action : Action) (hold : Option String)
  /-- Hold the payload of an object. -/
  | fetch (kind : ObjectKind) (l : Name) (hold : String)
  deriving DecidableEq, Repr

/-- What a payload does when it is destroyed, and the group of which it holds a share
until then. -/
structure Destructor where
  target : GroupId
  action : Action
  deriving DecidableEq, Repr

/-- Something attached to objects. Its label is for reports only. -/
structure Payload where
  label : String
  destructor : Option Destructor
  deriving DecidableEq, Repr

inductive Handle where
  | group (g : GroupId)
  | payload (p : PayloadId)
  deriving DecidableEq, Repr

def Payload.handles (payload : Payload) : List Handle :=
  payload.destructor.toList.map fun destructor => .group destructor.target

end SharedNames
