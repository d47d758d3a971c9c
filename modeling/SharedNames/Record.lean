import SharedNames.ContextKey
import SharedNames.ObjectGroup

/-!
The records of the log, their severities and their texts.

A record is made as data by the operation that it is about; its text is a matter of
this module alone. A `Verbosity` says which records a log keeps.
-/

namespace SharedNames

def version : String := "0.1.0"

/-! ### Severities -/

inductive Severity where
  | error
  | warn
  | info
  | debug
  | trace
  deriving DecidableEq, Repr

namespace Severity

def label : Severity → String
  | error => "ERROR"
  | warn => "WARN"
  | info => "INFO"
  | debug => "DEBUG"
  | trace => "TRACE"

def rank : Severity → Nat
  | error => 0
  | warn => 1
  | info => 2
  | debug => 3
  | trace => 4

end Severity

/-- The least important severity that a log keeps, if it keeps any. -/
abbrev Verbosity := Option Severity

def Verbosity.keeps (verbosity : Verbosity) (severity : Severity) : Bool :=
  match verbosity with
  | none => false
  | some least => severity.rank ≤ least.rank

/-! ### Records -/

/-- What the log can tell. -/
inductive Record where
  /-- The library was set up. -/
  | started
  /-- Something was done about the objects of a kind. -/
  | object (kind : ObjectKind) (event : ObjectTable.Event)
  | keyReused (key : ContextKey)
  | groupReplaced (key : ContextKey)
  | groupCreated (key : ContextKey)
  | attachRefused (key existing : ContextKey)
  | keyAttached (key existing : ContextKey)
  /-- A key was detached from a group that has so many shares left. -/
  | keyDetached (key : ContextKey) (others : Nat)
  /-- A group with so many objects and attached payloads lost its last share. -/
  | groupDestroyed (objects payloads : Nat)
  deriving DecidableEq, Repr

namespace Record

def severity : Record → Severity
  | started => .info
  | object _ (.naming (.kept _)) | object _ (.naming (.turnedDown _ _)) => .warn
  | object _ (.naming (.made _ _)) | object _ (.naming (.removed _ _))
  | object _ (.naming (.rebound _ _)) => .trace
  | object _ (.payloadTurnedDown _) => .warn
  | keyReused _ | groupReplaced _ | groupCreated _ => .debug
  | attachRefused _ _ => .warn
  | keyAttached _ _ | keyDetached _ _ | groupDestroyed _ _ => .debug

def bindingText (l g : Name) : String :=
  toString l.toNat ++ " -> " ++ toString g.toNat

def namingText (kind : ObjectKind) : NameTable.Event → String
  | .kept l =>
    kind.label ++ " name " ++ toString l.toNat ++ " already exists, keeping its current mapping"
  | .made l g => "gen " ++ kind.label ++ " " ++ bindingText l g
  | .removed l g =>
    "delete " ++ kind.label ++ " " ++ toString l.toNat ++ " (was " ++ toString g.toNat ++ ")"
  | .rebound l g => "alias " ++ kind.label ++ " " ++ bindingText l g
  | .turnedDown l g =>
    "ignoring " ++ kind.label ++ " alias " ++ bindingText l g ++ ": name 0 is reserved"

def text : Record → String
  | started => "GL Namespace v" ++ version ++ " initialized"
  | object kind (.naming event) => namingText kind event
  | object kind (.payloadTurnedDown l) =>
    "cannot attach data to unknown " ++ kind.label ++ " " ++ toString l.toNat
  | keyReused key => "Key " ++ key.text ++ " already has a share group, reusing it"
  | groupReplaced key => "Replacing share group of key " ++ key.text
  | groupCreated key => "Created share group for key " ++ key.text
  | attachRefused key existing =>
    "Cannot attach " ++ key.text ++ ": no share group for " ++ existing.text
  | keyAttached key existing =>
    "Attached key " ++ key.text ++ " to share group of " ++ existing.text
  | keyDetached key others =>
    "Detached key " ++ key.text ++ " from share group (" ++ toString others ++ " other shares)"
  | groupDestroyed objects payloads =>
    "Destroying share group (" ++ toString objects ++ " objects, " ++ toString payloads ++
      " payloads)"

def line (record : Record) : String :=
  record.severity.label ++ " " ++ record.text

/-- The lines that a log of some verbosity keeps. -/
def lines (verbosity : Verbosity) (records : List Record) : List String :=
  (records.filter fun record => verbosity.keeps record.severity).map line

end Record

end SharedNames
