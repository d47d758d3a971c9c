import SharedNames.ObjectKind
import SharedNames.ObjectTable
import SharedNames.Text.Fields
import SharedNames.Values

/-!
Share groups: the named objects of one set of contexts that share them.

A group holds one object table for each kind. A request goes to the table of its
kind and leaves the others alone (`table_handle`).
-/

namespace SharedNames

/-- The objects of contexts that share them, by kind. -/
structure ObjectGroup where
  tables : PerKind ObjectTable
  deriving DecidableEq

namespace ObjectGroup

def starting (first : Name) : ObjectGroup :=
  ⟨.const (.starting first)⟩

/-! ### Views -/

def table (g : ObjectGroup) (kind : ObjectKind) : ObjectTable :=
  g.tables.get kind

def names (g : ObjectGroup) (kind : ObjectKind) : NameTable :=
  (g.table kind).names

def count (g : ObjectGroup) (kind : ObjectKind) : Nat :=
  (g.names kind).size

def counts (g : ObjectGroup) : List Nat :=
  ObjectKind.all.map g.count

def payload? (g : ObjectGroup) (kind : ObjectKind) (l : Name) : Option PayloadId :=
  (g.table kind).payloads[l]?

/-- The payloads of all objects: kinds in index order, local names ascending, a
payload once for every object that it is attached to. -/
def payloadShares (g : ObjectGroup) : List PayloadId :=
  ObjectKind.all.flatMap fun kind => valuesOf (g.table kind).payloads

def objectTotal (g : ObjectGroup) : Nat :=
  (ObjectKind.all.flatMap fun kind => (g.names kind).toList).length

/-- The number of attached payloads over all kinds, each counted once per object. -/
def payloadTotal (g : ObjectGroup) : Nat :=
  g.payloadShares.length

/-- The fields by which a group is described: its numbers of live objects. -/
def fields (g : ObjectGroup) : Text.Fields where
  name := "ShareGroup"
  fields := ObjectKind.all.map fun kind => (kind.label, toString (g.count kind))

/-! ### Requests -/

structure Outcome where
  group : ObjectGroup
  answer : ObjectTable.Answer
  event : Option ObjectTable.Event
  /-- The payload of which the request gave up a share. -/
  released : Option PayloadId
  deriving DecidableEq

def handle (rule : NameTable.SuccessorRule) (kind : ObjectKind) (request : ObjectTable.Request)
    (g : ObjectGroup) : Option Outcome :=
  ((g.table kind).handle rule request).map fun out =>
    ⟨⟨g.tables.set kind out.table⟩, out.answer, out.event, out.released⟩

/-- A request changes the table of its kind as it would on its own, and no other one. So a law
about one table carries over to the groups, and the kinds cannot disturb each other. -/
theorem table_handle {rule : NameTable.SuccessorRule} {kind : ObjectKind}
    {request : ObjectTable.Request} {g : ObjectGroup} {out : Outcome}
    (h : g.handle rule kind request = some out) (other : ObjectKind) :
    (g.table kind).handle rule request =
        some ⟨out.group.table kind, out.answer, out.event, out.released⟩ ∧
      (other ≠ kind → out.group.table other = g.table other) := by
  obtain ⟨inner, handled, rfl⟩ := Option.map_eq_some_iff.1 h
  refine ⟨?_, fun ne => PerKind.get_set_of_ne _ _ (Ne.symm ne)⟩
  simpa [table] using handled

/-- A group fails to answer exactly where the table does. There is no other way to fail: the
tables of the other kinds are not asked. -/
theorem handle_eq_none_iff {rule : NameTable.SuccessorRule} {kind : ObjectKind}
    {request : ObjectTable.Request} {g : ObjectGroup} :
    g.handle rule kind request = none ↔ (g.table kind).handle rule request = none := by
  simp [handle]

end ObjectGroup

end SharedNames
