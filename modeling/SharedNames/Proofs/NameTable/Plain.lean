import Mathlib.Data.List.Forall2
import SharedNames.Proofs.NameTable.Index
import SharedNames.Record

/-!
The latest bindings of a name table do not show.

A table could do without them: it could scan its entries whenever it has to know whether a
global name is bound, and whenever it is asked for a local name of it. `PlainTable` is such a
table, and a scan may go through the entries in any order.

`index_invisible` compares the two over all sequences of calls, whichever sharers take over.
They answer the same names, record the same, and have the same counters and entries after
every call, up to one that is never answered, which is the same call for both. What a table
answers about a global name is what some scan finds, and what every scan finds where at most
one local name is bound to it. `call_plain` is the simulation step.
-/

namespace SharedNames

open NameTable (Call Event SuccessorRule Turn)

/-! ### A table without latest bindings -/

/-- A name table that remembers nothing but its entries and its counters. -/
structure PlainTable where
  nextLocal : Name
  nextGlobal : Name
  globals : Std.ExtTreeMap Name Name

namespace PlainTable

def starting (first : Name) : PlainTable :=
  ⟨max first 1, max first 1, ∅⟩

def isLive (p : PlainTable) (l : Name) : Bool :=
  p.globals.contains l

def toList (p : PlainTable) : List (Name × Name) :=
  p.globals.toList

def size (p : PlainTable) : Nat :=
  p.globals.size

def isBound (p : PlainTable) (g : Name) : Bool :=
  p.toList.any fun entry => entry.2 = g

/-- The first local name among the entries that is bound to `g`, `0` if there is none. -/
def scan (entries : List (Name × Name)) (g : Name) : Name :=
  if g = 0 then 0 else ((entries.find? fun entry => entry.2 = g).map Prod.fst).getD 0

def newLocal (requested : Name) (p : PlainTable) : Option Name :=
  if requested = 0 then nextFree p.isLive p.nextLocal else some requested

def newGlobal (withGlobal : Bool) (p : PlainTable) : Option Name :=
  if withGlobal then nextFree p.isBound p.nextGlobal else some 0

def generate (requested : Name) (withGlobal : Bool) (p : PlainTable) :
    Option (PlainTable × Event) :=
  if requested ≠ 0 ∧ p.isLive requested then some (p, .kept requested)
  else do
    let l ← p.newLocal requested
    let g ← p.newGlobal withGlobal
    return (
      { nextLocal := if requested = 0 then l + 1 else p.nextLocal
        nextGlobal := if withGlobal then g + 1 else p.nextGlobal
        globals := p.globals.insert l g },
      .made l g)

def delete (l : Name) (p : PlainTable) : PlainTable × Option Event :=
  match p.globals[l]? with
  | none => (p, none)
  | some g => ({ p with globals := p.globals.erase l }, some (.removed l g))

def rebind (l g : Name) (p : PlainTable) : PlainTable × Event :=
  if l = 0 ∨ g = 0 then (p, .turnedDown l g)
  else ({ p with globals := p.globals.insert l g }, .rebound l g)

def call (p : PlainTable) : Call → Option (PlainTable × Option Event)
  | .generate requested withGlobal =>
    (p.generate requested withGlobal).map fun (p, event) => (p, some event)
  | .delete l => some (p.delete l)
  | .rebind l g => some ((p.rebind l g).1, some (p.rebind l g).2)

/-- Carries out calls up to one without an answer, and tells after each what it did and the
table it left. -/
def course (p : PlainTable) : List Call → List (Turn × PlainTable)
  | [] => []
  | c :: calls =>
    match p.call c with
    | none => []
    | some (q, event) => (⟨c, event⟩, q) :: q.course calls

/-- A scan finds a local name that is bound to the global name, or there is none. -/
theorem scan_cases (entries : List (Name × Name)) {g : Name} (nonzero : g ≠ 0) :
    (scan entries g, g) ∈ entries ∨ (scan entries g = 0 ∧ ∀ l, (l, g) ∉ entries) := by
  rw [scan, if_neg nonzero]
  cases found : entries.find? fun entry => entry.2 = g with
  | none =>
      refine .inr ⟨rfl, ?_⟩
      intro l listed
      exact List.find?_eq_none.mp found (l, g) listed (by simp)
  | some entry =>
      obtain ⟨l, h⟩ := entry
      obtain rfl : h = g := by simpa using List.find?_some found
      exact .inl (List.mem_of_find?_eq_some found)

/-- A scan finds the entry that it comes to first. -/
theorem scan_cons (l g : Name) (entries : List (Name × Name)) (nonzero : g ≠ 0) :
    scan ((l, g) :: entries) g = l := by
  simp [scan, nonzero]

end PlainTable

namespace NameTable

variable {t : NameTable}

/-! ### What can be seen of a table -/

/-- Carries out calls up to one without an answer, each with a successor rule of its own, and
tells after each what it did and the table it left. -/
def course (t : NameTable) : List (SuccessorRule × Call) → List (Turn × NameTable)
  | [] => []
  | (rule, c) :: calls =>
    match t.call rule c with
    | none => []
    | some (u, event) => (⟨c, event⟩, u) :: u.course calls

def Turn.answer? (turn : Turn) : Option Name :=
  match turn.call with
  | .generate _ _ => turn.event.map Event.name
  | .delete _ | .rebind _ _ => none

def Turn.record? (kind : ObjectKind) (turn : Turn) : Option Record :=
  turn.event.map fun event => .object kind (.naming event)

/-- What can be seen of a table is what can be seen of a plain one. -/
structure LooksLike (t : NameTable) (p : PlainTable) : Prop where
  nextLocal_eq : t.nextLocal = p.nextLocal
  nextGlobal_eq : t.nextGlobal = p.nextGlobal
  size_eq : t.size = p.size
  toList_eq : t.toList = p.toList
  /-- What the table answers about a global name is what some scan finds. -/
  localOf_found : ∀ g, ∃ entries : List (Name × Name),
    entries.Perm p.toList ∧ t.localOf g = PlainTable.scan entries g
  /-- It is what every scan finds if at most one local name is bound to the global name. -/
  localOf_eq : ∀ g, (∀ l k, (l, g) ∈ p.toList → (k, g) ∈ p.toList → l = k) →
    ∀ entries : List (Name × Name), entries.Perm p.toList → t.localOf g = PlainTable.scan entries g

def plain (t : NameTable) : PlainTable :=
  ⟨t.nextLocal, t.nextGlobal, t.globals⟩

/-- What a table answers about a global name is bound to it, or there is no such name. A scan
says the same of itself, and this is all that is needed to compare the two. -/
theorem Indexed.localOf_cases (index : t.Indexed) {g : Name} (nonzero : g ≠ 0) :
    (t.localOf g, g) ∈ t.toList ∨ (t.localOf g = 0 ∧ ∀ l, (l, g) ∉ t.toList) := by
  by_cases answered : t.localOf g = 0
  · refine .inr ⟨answered, ?_⟩
    intro l listed
    have bound := mem_toList.mp listed
    exact index.localOf_ne_zero_iff.mpr
      ⟨nonzero, l, isLive_iff.mpr ⟨g, bound⟩, by rw [globalOf, bound]; rfl⟩ answered
  · have remembered := (index.localOf_eq_iff answered).mp rfl
    exact .inl (mem_toList.mpr (index.globals_of_latest remembered))

/-- A table looks like its plain form. That the answer for a shared global name is what some
scan finds is by a scan that comes to the answer first. -/
theorem Indexed.looksLike_plain (index : t.Indexed) : t.LooksLike t.plain where
  nextLocal_eq := rfl
  nextGlobal_eq := rfl
  size_eq := rfl
  toList_eq := rfl
  localOf_found g := by
    by_cases zero : g = 0
    · exact ⟨t.toList, .refl _, by rw [localOf, if_pos zero, PlainTable.scan, if_pos zero]⟩
    · rcases index.localOf_cases zero with listed | ⟨none, unbound⟩
      · refine ⟨_, (List.perm_cons_erase listed).symm, ?_⟩
        rw [PlainTable.scan_cons _ _ _ zero]
      · refine ⟨t.toList, .refl _, ?_⟩
        rcases PlainTable.scan_cases t.toList zero with listed | ⟨nothing, -⟩
        · exact absurd listed (unbound _)
        · rw [none, nothing]
  localOf_eq g single entries perm := by
    by_cases zero : g = 0
    · rw [localOf, if_pos zero, PlainTable.scan, if_pos zero]
    · rcases PlainTable.scan_cases entries zero with listed | ⟨nothing, unbound⟩
      · have listed := perm.mem_iff.mp listed
        rcases index.localOf_cases zero with answer | ⟨-, unbound⟩
        · exact single _ _ answer listed
        · exact absurd listed (unbound _)
      · rcases index.localOf_cases zero with answer | ⟨none, -⟩
        · exact absurd (perm.mem_iff.mpr answer) (unbound _)
        · rw [none, nothing]

/-! ### One call -/

/-- A search does not tell apart two ways to decide whether a name other than `0` is used. The
plain table decides it by its entries, the other one by its index. -/
theorem nextFree_congr {used used' : Name → Bool} (same : ∀ n, n ≠ 0 → used n = used' n)
    (start : Name) : nextFree used start = nextFree used' start := by
  have free : ∀ n, IsFree used n ↔ IsFree used' n :=
    fun n => and_congr_right fun nonzero => by rw [same n nonzero]
  apply Option.ext
  intro n
  simp only [nextFree, firstFree_eq_some_iff, free]

theorem Indexed.isBound_plain (index : t.Indexed) {g : Name} (nonzero : g ≠ 0) :
    t.isBound g = t.plain.isBound g := by
  rw [Bool.eq_iff_iff, index.isBound_iff_shared, PlainTable.isBound, List.any_eq_true]
  constructor
  · rintro ⟨-, l, bound⟩
    exact ⟨(l, g), mem_toList.mpr bound, by simp⟩
  · rintro ⟨⟨l, h⟩, listed, same⟩
    obtain rfl : h = g := by simpa using same
    exact ⟨nonzero, l, mem_toList.mp listed⟩

theorem Indexed.generate_plain (index : t.Indexed) (requested : Name) (withGlobal : Bool) :
    (t.generate requested withGlobal).map (fun (u, event) => (u.plain, event)) =
      t.plain.generate requested withGlobal := by
  have live : t.plain.isLive requested = t.isLive requested := rfl
  have newLocal : t.plain.newLocal requested = t.newLocal requested := rfl
  have newGlobal : t.plain.newGlobal withGlobal = t.newGlobal withGlobal := by
    rw [PlainTable.newGlobal, NameTable.newGlobal,
      nextFree_congr (fun g nonzero => index.isBound_plain nonzero)]
    rfl
  rw [generate, PlainTable.generate, newLocal, newGlobal, live]
  by_cases keeps : requested ≠ 0 ∧ t.isLive requested = true
  · rw [if_pos keeps, if_pos keeps, Option.map_some]
  · rw [if_neg keeps, if_neg keeps]
    cases t.newLocal requested with
    | none => rfl
    | some l => cases t.newGlobal withGlobal <;> rfl

theorem delete_plain (rule : SuccessorRule) (l : Name) (t : NameTable) :
    ((t.delete rule l).1.plain, (t.delete rule l).2) = t.plain.delete l := by
  have entries : t.plain.globals[l]? = t.globals[l]? := rfl
  rw [PlainTable.delete, entries]
  cases bound : t.globals[l]? with
  | none => rw [delete_of_not_isLive rule (isLive_eq_false_iff.mpr bound)]
  | some g => simp [delete, bound, plain]

theorem rebind_plain (rule : SuccessorRule) (l g : Name) (t : NameTable) :
    ((t.rebind rule l g).1.plain, (t.rebind rule l g).2) = t.plain.rebind l g := by
  by_cases reserved : l = 0 ∨ g = 0
  · rw [rebind_of_reserved rule t reserved, PlainTable.rebind, if_pos reserved]
  · obtain ⟨hl, hg⟩ := not_or.mp reserved
    have event : (t.rebind rule l g).2 = .rebound l g := by simp [rebind, reserved]
    have counters := counters_rebind rule t l g
    rw [event, plain, counters.1, counters.2, globals_rebind rule t hl hg, PlainTable.rebind,
      if_neg reserved]
    rfl

/-- Every call does to a table what it does to the plain one, and tells the same. The rule
appears on the left side only: a plain table has nothing to hand over. -/
theorem Indexed.call_plain (index : t.Indexed) (rule : SuccessorRule) (c : Call) :
    (t.call rule c).map (fun (u, event) => (u.plain, event)) = t.plain.call c := by
  cases c with
  | generate requested withGlobal =>
      rw [call, PlainTable.call, ← index.generate_plain, Option.map_map, Option.map_map]
      rfl
  | delete l => exact congrArg some (delete_plain rule l t)
  | rebind l g =>
      rw [PlainTable.call, ← rebind_plain rule]
      rfl

/-! ### All sequences of calls -/

/-- Calls one after the other, from any table whose maps agree on. -/
theorem Indexed.course_plain (index : t.Indexed) (calls : List (SuccessorRule × Call)) :
    List.Forall₂ (fun now plain => now.1 = plain.1 ∧ now.2.LooksLike plain.2)
      (t.course calls) (t.plain.course (calls.map Prod.snd)) := by
  induction calls generalizing t with
  | nil => exact .nil
  | cons call calls ih =>
      obtain ⟨rule, c⟩ := call
      have same := index.call_plain rule c
      rw [course, List.map_cons, PlainTable.course, ← same]
      cases called : t.call rule c with
      | none => exact .nil
      | some after =>
          obtain ⟨u, event⟩ := after
          have kept := (effect_of_call called).indexed index
          exact .cons ⟨rfl, kept.looksLike_plain⟩ (ih kept)

/-- A table and a plain one that start alike answer the same names, record the same, and look
alike after each of any calls, whichever sharers take over. If one of them does not answer a
call, neither does the other. So the index is only there for speed: nothing that a client can
see is decided by it, except which of several sharers is answered. -/
theorem index_invisible (first : Name) (kind : ObjectKind) (calls : List (SuccessorRule × Call)) :
    (starting first).LooksLike (.starting first) ∧
    List.Forall₂ (fun now plain =>
        now.1.answer? = plain.1.answer? ∧ now.1.record? kind = plain.1.record? kind ∧
          now.2.LooksLike plain.2)
      ((starting first).course calls)
      ((PlainTable.starting first).course (calls.map Prod.snd)) := by
  have index := indexed_starting first
  refine ⟨index.looksLike_plain, (index.course_plain calls).imp ?_⟩
  rintro ⟨turn, now⟩ ⟨turn', plain⟩ ⟨rfl, alike⟩
  exact ⟨rfl, rfl, alike⟩

end NameTable

end SharedNames
