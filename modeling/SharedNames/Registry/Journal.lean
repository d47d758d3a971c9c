import SharedNames.Record
import SharedNames.Registry.Basic

/-!
The journal of what happened in a registry.

Every entry is one event, in the order in which they happened, also where one led to
another. The log, the labels of the destroyed payloads and the answers to a client
are projections of the journal.
-/

namespace SharedNames

inductive Issuer where
  | client
  | destructor
  deriving DecidableEq, Repr

inductive Entry where
  /-- Something happened to a key. -/
  | noted (record : Record)
  /-- A group was created for a key. -/
  | groupMade (g : GroupId) (key : ContextKey)
  /-- A payload was taken up. -/
  | payloadMade (p : PayloadId) (label : String)
  /-- A group carried out a request. -/
  | performed (issuer : Issuer) (g : GroupId) (kind : ObjectKind) (request : ObjectTable.Request)
      (answer : ObjectTable.Answer) (event : Option ObjectTable.Event)
  /-- A new payload was offered to a name that is not live and destroyed at once. -/
  | payloadRefused (issuer : Issuer) (g : GroupId) (kind : ObjectKind) (l : Name)
      (label : String)
  /-- A payload lost its last share. -/
  | payloadDestroyed (p : PayloadId) (label : String)
  /-- A group with so many objects and attached payloads lost its last share. -/
  | groupDestroyed (g : GroupId) (objects payloads : Nat)
  deriving DecidableEq, Repr

namespace Entry

def record? : Entry → Option Record
  | noted record => some record
  | groupMade _ key => some (.groupCreated key)
  | payloadMade _ _ => none
  | performed _ _ kind _ _ event => event.map (.object kind)
  | payloadRefused _ _ kind l _ => some (.object kind (.payloadTurnedDown l))
  | payloadDestroyed _ _ => none
  | groupDestroyed _ objects payloads => some (.groupDestroyed objects payloads)

/-- The label of the payload that an event destroyed. -/
def dropped? : Entry → Option String
  | payloadRefused _ _ _ _ label | payloadDestroyed _ label => some label
  | _ => none

/-- What an event answered to a client. -/
def answer? : Entry → Option ObjectTable.Answer
  | performed .client _ _ _ answer _ => some answer
  | payloadRefused .client _ _ _ _ => some (.attached false)
  | _ => none

end Entry

abbrev Journal := List Entry

namespace Journal

def records (journal : Journal) : List Record :=
  journal.filterMap Entry.record?

/-- The labels of the destroyed payloads. -/
def drops (journal : Journal) : List String :=
  journal.filterMap Entry.dropped?

/-- What a client was answered. -/
def answers (journal : Journal) : List ObjectTable.Answer :=
  journal.filterMap Entry.answer?

end Journal

end SharedNames
