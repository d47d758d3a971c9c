import SharedNames.ObjectGroup
import SharedNames.Text.Fields

/-!
What can be chosen about a registry when it is set up.
-/

namespace SharedNames

/-- What creating a group does for a key that already has one. -/
inductive OnDuplicate where
  /-- The key keeps the group that it has. -/
  | reuse
  /-- The key gets a new group. -/
  | replace
  deriving DecidableEq, Repr

def OnDuplicate.label : OnDuplicate → String
  | reuse => "ReturnExisting"
  | replace => "Replace"

structure Settings where
  onDuplicate : OnDuplicate := .reuse
  /-- The first candidate for generated names in a new group; `0` acts as `1`. -/
  firstName : Name := 1
  deriving DecidableEq, Repr

namespace Settings

def newGroup (settings : Settings) : ObjectGroup :=
  .starting settings.firstName

/-- The fields by which settings are described. -/
def fields (settings : Settings) : Text.Fields where
  name := "NameManagerConfig"
  fields := [
    ("duplicate_key_policy", settings.onDuplicate.label),
    ("first_name", toString settings.firstName.toNat)]

end Settings

end SharedNames
