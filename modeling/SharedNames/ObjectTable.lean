import SharedNames.NameTable.Basic

/-!
The objects of one kind: their names, and the payloads attached to them.

A table holds one share of every payload attached to a name. A request that ends
such a share answers the payload in `Outcome.released`: whoever carries out the
request has to release that share. What becomes of the payload is not decided here.

Main statements: `payloads_getElem?_delete` and `payloads_getElem?_attach` say what
the two requests about payloads do to every entry; `handle` leaves payloads alone
otherwise.
-/

namespace SharedNames

/-- The identity of a payload: two payloads with one label are still two. -/
abbrev PayloadId := Nat

/-- The names of one kind of object and the payloads attached to them. -/
structure ObjectTable where
  names : NameTable
  /-- The payload attached to a local name. -/
  payloads : Std.ExtTreeMap Name PayloadId
  deriving DecidableEq

namespace ObjectTable

def starting (first : Name) : ObjectTable :=
  ⟨.starting first, ∅⟩

/-! ### Requests -/

inductive Request where
  /-- Create an object with a name of its own choice, or with the next unused one for `0`. -/
  | generate (requested : Name)
  /-- Delete an object together with its payload. -/
  | delete (l : Name)
  /-- Let a local name resolve to a given global name. -/
  | rebind (l g : Name)
  /-- Attach a payload in place of the previous one. The share of the payload that
  the request holds goes over to the table. -/
  | attach (l : Name) (payload : PayloadId)
  deriving DecidableEq, Repr

inductive Answer where
  | name (l : Name)
  | done
  /-- Whether a payload was attached. -/
  | attached (success : Bool)
  deriving DecidableEq, Repr

/-- What is recorded of a request. -/
inductive Event where
  | naming (event : NameTable.Event)
  /-- A payload was turned down because the name is not live. -/
  | payloadTurnedDown (l : Name)
  deriving DecidableEq, Repr

structure Outcome where
  table : ObjectTable
  answer : Answer
  event : Option Event
  /-- The payload of which the request gave up a share. -/
  released : Option PayloadId
  deriving DecidableEq

/-- Creates an object bound to a new global name. There is no answer when a name has
to be generated and none is left. -/
def generate (requested : Name) (t : ObjectTable) : Option Outcome :=
  (t.names.generate requested true).map fun (names, event) =>
    ⟨{ t with names }, .name event.name, some (.naming event), none⟩

/-- Deletes an object and gives up the share of its payload. -/
def delete (rule : NameTable.SuccessorRule) (l : Name) (t : ObjectTable) : Outcome :=
  let (names, event) := t.names.delete rule l
  ⟨⟨names, t.payloads.erase l⟩, .done, event.map .naming, t.payloads[l]?⟩

def rebind (rule : NameTable.SuccessorRule) (l g : Name) (t : ObjectTable) : Outcome :=
  let (names, event) := t.names.rebind rule l g
  ⟨{ t with names }, .done, some (.naming event), none⟩

/-- Attaches a payload to a live name and gives up the share of the previous one. For
a name that is not live it gives up the offered share instead. -/
def attach (l : Name) (payload : PayloadId) (t : ObjectTable) : Outcome :=
  if t.names.isLive l then
    ⟨{ t with payloads := t.payloads.insert l payload }, .attached true, none, t.payloads[l]?⟩
  else ⟨t, .attached false, some (.payloadTurnedDown l), some payload⟩

def handle (rule : NameTable.SuccessorRule) (t : ObjectTable) : Request → Option Outcome
  | .generate requested => t.generate requested
  | .delete l => some (t.delete rule l)
  | .rebind l g => some (t.rebind rule l g)
  | .attach l payload => some (t.attach l payload)

/-! ### What the requests do to payloads -/

/-- Deleting takes the payload with the name, and leaves those of all other names, also of the
names that share its global name. -/
theorem payloads_getElem?_delete (rule : NameTable.SuccessorRule) (t : ObjectTable) (l k : Name) :
    (t.delete rule l).table.payloads[k]? = if k = l then none else t.payloads[k]? := by
  simp only [delete, Std.ExtTreeMap.getElem?_erase, Std.LawfulEqOrd.compare_eq_iff_eq]
  by_cases h : k = l
  · simp [h]
  · simp [h, Ne.symm h]

/-- Attaching writes one entry, and only if the name is live. A payload follows the local
name: no global name is looked at. -/
theorem payloads_getElem?_attach (t : ObjectTable) (l k : Name) (payload : PayloadId) :
    (t.attach l payload).table.payloads[k]? =
      if k = l ∧ t.names.isLive l then some payload else t.payloads[k]? := by
  by_cases live : t.names.isLive l
  · simp only [attach, live, if_true, and_true, Std.ExtTreeMap.getElem?_insert,
      Std.LawfulEqOrd.compare_eq_iff_eq]
    by_cases h : k = l
    · simp [h]
    · simp [h, Ne.symm h]
  · simp [attach, live]

theorem names_attach (t : ObjectTable) (l : Name) (payload : PayloadId) :
    (t.attach l payload).table.names = t.names := by
  by_cases live : t.names.isLive l <;> simp [attach, live]

/-- Creating an object moves no payload, neither to the new name nor away from a live name
that was requested. -/
theorem payloads_generate {t : ObjectTable} {requested : Name} {out : Outcome}
    (h : t.generate requested = some out) : out.table.payloads = t.payloads := by
  obtain ⟨_, _, rfl⟩ := Option.map_eq_some_iff.1 h
  rfl

end ObjectTable

end SharedNames
