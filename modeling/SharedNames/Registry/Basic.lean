import SharedNames.Payload
import SharedNames.Settings

/-!
The registry: which context is attached to which group, and who holds what.

A group lives as long as somebody holds a share of it: a key attached to it, a slot
that keeps it, or the destructor of a payload. A payload lives as long as an object
or a held entry has a share of it. Shares are not counted along the way: `handles`
lists them all, and `shares` counts there.
-/

namespace SharedNames

/-- Contexts, groups and payloads, and the shares that there are of them. -/
structure Registry where
  settings : Settings
  /-- The group that every attached key is attached to. -/
  keys : Std.ExtTreeMap ContextKey GroupId
  /-- Group handles that clients keep, by name. -/
  slots : Std.ExtTreeMap String GroupId
  /-- Payload handles that clients keep, by name. -/
  held : Std.ExtTreeMap String PayloadId
  /-- The groups that were created and not destroyed. -/
  groups : Std.ExtTreeMap GroupId ObjectGroup
  /-- The payloads that were taken up and not destroyed. -/
  payloads : Std.ExtTreeMap PayloadId Payload
  /-- How many groups were created so far: the identity of the next one. -/
  groupsMade : GroupId
  /-- How many payloads were taken up so far: the identity of the next one. -/
  payloadsMade : PayloadId
  deriving DecidableEq

namespace Registry

def empty (settings : Settings) : Registry where
  settings := settings
  keys := ∅
  slots := ∅
  held := ∅
  groups := ∅
  payloads := ∅
  groupsMade := 0
  payloadsMade := 0

/-! ### Views -/

def find? (r : Registry) : GroupRef → Option GroupId
  | .slot name => r.slots[name]?
  | .key key => r.keys[key]?

def group? (r : Registry) (ref : GroupRef) : Option ObjectGroup :=
  (r.find? ref).bind fun g => r.groups[g]?

def size (r : Registry) : Nat :=
  r.keys.size

def contains (r : Registry) (key : ContextKey) : Bool :=
  r.keys.contains key

/-- An attached key, if there is one: a group to share initial state with. -/
def someKey? (r : Registry) : Option ContextKey :=
  r.keys.keys.head?

/-- The names of the held entries that hold a payload, ascending. -/
def holders (r : Registry) (p : PayloadId) : List String :=
  (r.held.toList.filter fun entry => entry.2 = p).map Prod.fst

/-! ### Shares -/

/-- Every share that there is, once for each of its owners. -/
def handles (r : Registry) : List Handle :=
  (valuesOf r.keys).map .group ++ (valuesOf r.slots).map .group ++
    (valuesOf r.held).map .payload ++ (valuesOf r.payloads).flatMap Payload.handles ++
    (valuesOf r.groups).flatMap fun group => group.payloadShares.map .payload

def shares (r : Registry) (handle : Handle) : Nat :=
  r.handles.count handle

end Registry

end SharedNames
