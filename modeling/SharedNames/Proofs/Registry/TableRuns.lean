import SharedNames.Proofs.NameTable.Cycle
import SharedNames.Proofs.Registry.Soundness

/-!
Every name table of a registry makes a run of its own.

What clients and destructors ask of one kind of objects of one group is spread over the
journal. `Journal.turns` collects the calls to the name table that carry it out. They are a
run of this table (`Run.tableRun`), from the moment on at which the group is made and beyond
its end, whatever happens in the registry in between. So what holds of all runs of a name
table holds of every group.

`Run.generated_names_cycle` is such a result: where names are only generated and deleted, the
names that are generated are known in advance.
-/

namespace SharedNames

/-! ### The calls to a name table -/

/-- The call to the name table that carries out a request. No call attaches a payload. -/
def ObjectTable.Request.call? : ObjectTable.Request → Option NameTable.Call
  | generate requested => some (.generate requested true)
  | delete l => some (.delete l)
  | rebind l g => some (.rebind l g)
  | attach _ _ => none

def ObjectTable.Event.naming? : ObjectTable.Event → Option NameTable.Event
  | naming event => some event
  | payloadTurnedDown _ => none

def ObjectTable.turn? (request : ObjectTable.Request) (event : Option ObjectTable.Event) :
    Option NameTable.Turn :=
  request.call?.map fun call => ⟨call, event.bind (·.naming?)⟩

/-- The answer to a request that creates an object, and its new global name. -/
def ObjectTable.generated? (request : ObjectTable.Request) (answer : ObjectTable.Answer)
    (event : Option ObjectTable.Event) : Option (Name × Name) :=
  match request, answer, event with
  | .generate _, .name l, some (.naming (.made _ global)) => some (l, global)
  | _, _, _ => none

def Entry.turn? (g : GroupId) (kind : ObjectKind) : Entry → Option NameTable.Turn
  | performed _ j k request _ event =>
    if j = g ∧ k = kind then ObjectTable.turn? request event else none
  | noted _ | groupMade _ _ | payloadMade _ _ | payloadRefused _ _ _ _ _ | payloadDestroyed _ _
  | groupDestroyed _ _ _ => none

def Entry.generated? (g : GroupId) (kind : ObjectKind) : Entry → Option (Name × Name)
  | performed _ j k request answer event =>
    if j = g ∧ k = kind then ObjectTable.generated? request answer event else none
  | noted _ | groupMade _ _ | payloadMade _ _ | payloadRefused _ _ _ _ _ | payloadDestroyed _ _
  | groupDestroyed _ _ _ => none

def Journal.turns (g : GroupId) (kind : ObjectKind) (journal : Journal) : List NameTable.Turn :=
  journal.filterMap (Entry.turn? g kind)

/-- The names with which objects of one kind of a group were created, in order: what was answered,
and the new global name. -/
def Journal.generated (g : GroupId) (kind : ObjectKind) (journal : Journal) : List (Name × Name) :=
  journal.filterMap (Entry.generated? g kind)

theorem Journal.turns_append (g : GroupId) (kind : ObjectKind) (journal more : Journal) :
    (journal ++ more).turns g kind = journal.turns g kind ++ more.turns g kind :=
  List.filterMap_append

theorem Journal.generated_append (g : GroupId) (kind : ObjectKind) (journal more : Journal) :
    (journal ++ more).generated g kind = journal.generated g kind ++ more.generated g kind :=
  List.filterMap_append

theorem Journal.turns_single (g : GroupId) (kind : ObjectKind) (entry : Entry) :
    Journal.turns g kind [entry] = (entry.turn? g kind).toList := by
  cases told : entry.turn? g kind <;> simp [turns, told]

theorem Journal.generated_single (g : GroupId) (kind : ObjectKind) (entry : Entry) :
    Journal.generated g kind [entry] = (entry.generated? g kind).toList := by
  cases told : entry.generated? g kind <;> simp [generated, told]

section Requests

variable {rule : NameTable.SuccessorRule} {request : ObjectTable.Request} {t : ObjectTable}
  {out : ObjectTable.Outcome}

/-- A request does to the names what its call does to them. So a table in a registry is one of
the name tables about which everything is known already. -/
theorem ObjectTable.names_of_handle (answered : t.handle rule request = some out) :
    match request.call? with
    | some call => t.names.call rule call = some (out.table.names, out.event.bind (·.naming?))
    | none => out.table.names = t.names := by
  cases request with
  | generate requested =>
      obtain ⟨⟨names, event⟩, generated, rfl⟩ := Option.map_eq_some_iff.mp answered
      simp only [Request.call?, NameTable.call, generated]
      rfl
  | delete l =>
      cases answered
      simp only [Request.call?, NameTable.call, delete, Option.bind_map]
      generalize t.names.delete rule l = deleted
      obtain ⟨names, event⟩ := deleted
      cases event <;> rfl
  | rebind l g =>
      cases answered
      rfl
  | attach l p =>
      cases answered
      exact names_attach t l p

/-- What a request answers is the name that its call created, and nothing is answered
otherwise. -/
theorem ObjectTable.generated?_of_handle (answered : t.handle rule request = some out) :
    generated? request out.answer out.event =
      (turn? request out.event).bind NameTable.Turn.created? := by
  cases request with
  | generate requested =>
      obtain ⟨⟨names, event⟩, generated, rfl⟩ := Option.map_eq_some_iff.mp answered
      cases event <;> rfl
  | delete | rebind | attach => rfl

/-- What the journal tells about a request is the call that carried it out. -/
theorem Entry.generated?_of_handle (answered : t.handle rule request = some out)
    (issuer : Issuer) (g j : GroupId) (kind k : ObjectKind) :
    (performed issuer j k request out.answer out.event).generated? g kind =
      ((performed issuer j k request out.answer out.event).turn? g kind).bind
        NameTable.Turn.created? := by
  simp only [generated?, turn?]
  split
  · exact ObjectTable.generated?_of_handle answered
  · rfl

end Requests

/-! ### The run of a name table -/

namespace Registry

variable {settings : Settings} {operations : List Operation} {log journal : Journal}
  {policy : Policy} {rest tasks : List Task} {r after : Registry} {task : Task} {step : Step}
  {gained : List Handle} {operation : Operation} {change : Change} {g : GroupId}
  {kind : ObjectKind} {t : NameTable}

/-- The calls in the journal are a run of the name table of one kind of objects of a group. It
leads to `t`, which is this table as long as the group is there, and what it will be like
before the group is made. -/
structure TableRun (settings : Settings) (g : GroupId) (kind : ObjectKind) (log : Journal)
    (r : Registry) (t : NameTable) : Prop where
  run : NameTable.Run (.starting settings.firstName) (log.turns g kind) t
  generated_eq : log.generated g kind = NameTable.entriesCreated (log.turns g kind)
  names_eq : ∀ group, r.groups[g]? = some group → group.names kind = t
  new : ¬ r.Made (.group g) → t = .starting settings.firstName

theorem tableRun_empty (settings : Settings) (g : GroupId) (kind : ObjectKind) :
    TableRun settings g kind [] (empty settings) (.starting settings.firstName) where
  run := .start
  generated_eq := rfl
  names_eq group found := by simp [empty] at found
  new _ := rfl

namespace TableRun

variable (tableRun : TableRun settings g kind log r t)

include tableRun

/-- Nothing is asked of the table, and the group, if it is there, is as before or new. So the
run of the table stays where it is. -/
theorem silent (turns : journal.turns g kind = []) (generated : journal.generated g kind = [])
    (groups : ∀ group, after.groups[g]? = some group → r.groups[g]? = some group ∨
      ¬ r.Made (.group g) ∧ group = settings.newGroup)
    (made : r.groupsMade ≤ after.groupsMade) :
    TableRun settings g kind (log ++ journal) after t where
  run := by
    rw [Journal.turns_append, turns, List.append_nil]
    exact tableRun.run
  generated_eq := by
    rw [Journal.turns_append, Journal.generated_append, turns, generated, List.append_nil,
      List.append_nil]
    exact tableRun.generated_eq
  names_eq group found := by
    rcases groups group found with before | ⟨unmade, rfl⟩
    · exact tableRun.names_eq group before
    · rw [tableRun.new unmade]
      simp [Settings.newGroup, ObjectGroup.names, ObjectGroup.table, ObjectGroup.starting,
        ObjectTable.starting]
  new unmade := tableRun.new fun before => unmade (Nat.lt_of_lt_of_le before made)

/-- A request to any group, about any kind, is a call at most. If it is to this table then the
run of the table goes on with the call; requests to other groups, or about other kinds, are
none, and leave the run where it is. -/
theorem answer {rule : NameTable.SuccessorRule} {j : GroupId} {k : ObjectKind}
    {request : ObjectTable.Request} {group : ObjectGroup} {out : ObjectGroup.Outcome}
    (issuer : Issuer) (made : r.Made (.group j))
    (found : r.groups[j]? = some group) (answered : group.handle rule k request = some out) :
    ∃ u, TableRun settings g kind
      (log ++ [.performed issuer j k request out.answer out.event])
      { r with groups := r.groups.insert j out.group } u := by
  obtain ⟨handled, others⟩ := ObjectGroup.table_handle answered kind
  have created := Entry.generated?_of_handle handled issuer g j kind k
  have generated_eq :
      Journal.generated g kind (log ++ [.performed issuer j k request out.answer out.event]) =
        NameTable.entriesCreated
          (Journal.turns g kind (log ++ [.performed issuer j k request out.answer out.event])) := by
    rw [Journal.generated_append, Journal.turns_append, Journal.generated_single, created,
      Journal.turns_single, tableRun.generated_eq, NameTable.entriesCreated,
      NameTable.entriesCreated, List.filterMap_append]
    cases turned : Entry.turn? g kind (.performed issuer j k request out.answer out.event) with
    | none => rfl
    | some turn => cases last : turn.created? <;> simp [last]
  by_cases here : j = g ∧ k = kind
  · obtain ⟨rfl, rfl⟩ := here
    refine ⟨out.group.names k, ?_, generated_eq, ?_, fun unmade => absurd made unmade⟩
    · have told : Entry.turn? j k (.performed issuer j k request out.answer out.event) =
          ObjectTable.turn? request out.event := if_pos ⟨rfl, rfl⟩
      have same : (group.table k).names = t := tableRun.names_eq group found
      have names := ObjectTable.names_of_handle handled
      rw [Journal.turns_append, Journal.turns_single, told, ObjectTable.turn?]
      cases called : request.call? with
      | none =>
          simp only [called, same] at names
          rw [Option.map_none, Option.toList_none, List.append_nil, ObjectGroup.names, names]
          exact tableRun.run
      | some call =>
          simp only [called, same] at names
          exact tableRun.run.step names
    · intro other there
      rw [Std.ExtTreeMap.getElem?_insert_self] at there
      cases there
      rfl
  · refine ⟨t, ?_, generated_eq, ?_, tableRun.new⟩
    · have told : Entry.turn? g kind (.performed issuer j k request out.answer out.event) = none :=
        if_neg here
      rw [Journal.turns_append, Journal.turns_single, told, Option.toList_none, List.append_nil]
      exact tableRun.run
    · intro other there
      rcases getElem?_of_insert there with ⟨rfl, rfl⟩ | there
      · have ne : kind ≠ k := fun same => here ⟨rfl, same.symm⟩
        rw [ObjectGroup.names, others ne]
        exact tableRun.names_eq group found
      · exact tableRun.names_eq other there

end TableRun

/-- A task is a call of the run at most: it makes one request, or none. -/
theorem Effect.tableRun (effect : Effect policy rest r task gained step)
    (accounted : Accounted r (task :: rest))
    (tableRun : TableRun settings g kind log r t) :
    ∃ u, TableRun settings g kind (log ++ step.journal) step.registry u := by
  have made := effect.makes_no_group.2.1
  -- Most tasks ask for nothing, and leave all groups alone.
  have silent (turns : step.journal.turns g kind = [])
      (generated : step.journal.generated g kind = [])
      (groups : ∀ group, step.registry.groups[g]? = some group → r.groups[g]? = some group) :
      ∃ u, TableRun settings g kind (log ++ step.journal) step.registry u :=
    ⟨t, tableRun.silent turns generated (fun group found => .inl (groups group found))
      (Nat.le_of_eq made.symm)⟩
  cases effect with
  | kept | absent | payloadDestroyed | unanswered | idle | refused =>
      exact silent rfl rfl fun _ => id
  | groupDestroyed => exact silent rfl rfl fun group there => getElem?_of_erase there
  | @answered _ ask group out asks found answered =>
      have made := accounted.made_of_has _ (has_group_iff.mpr ⟨group, found⟩)
      exact tableRun.answer ask.issuer made found answered
  | @attached _ _ _ _ _ name =>
      refine silent ?_ ?_ fun group => ?_
      · cases name <;> rfl
      · cases name <;> rfl
      · rw [Step.thenTasks, groups_hold]
        exact id
  | fetched =>
      refine silent rfl rfl fun group => ?_
      rw [Step.thenTasks, groups_hold]
      exact id
  | offered =>
      refine silent rfl rfl fun group => ?_
      rw [groups_hold]
      exact id

/-- The own change of an operation is no call, and a group that it makes is where the run
starts. -/
theorem Opening.tableRun (opening : Opening r operation gained change)
    (settled : r.settings = settings) (tableRun : TableRun settings g kind log r t) :
    TableRun settings g kind (log ++ change.journal) change.registry t := by
  have noted (records : List Record) : Journal.turns g kind (records.map .noted) = [] ∧
      Journal.generated g kind (records.map .noted) = [] := by
    simp [Journal.turns, Journal.generated, Entry.turn?, Entry.generated?]
  cases opening with
  | unchanged records =>
      exact tableRun.silent (noted records).1 (noted records).2 (fun _ => .inl) (Nat.le_refl _)
  | @created key records =>
      refine tableRun.silent ?_ ?_ (fun group found => ?_) (Nat.le_succ _)
      · rw [Journal.turns_append, (noted records).1]
        rfl
      · rw [Journal.generated_append, (noted records).2]
        rfl
      · rcases getElem?_of_insert found with ⟨rfl, rfl⟩ | before
        · exact .inr ⟨Nat.lt_irrefl _, by rw [settled]⟩
        · exact .inl before
  | attached | detached | kept | letGo | released | acting =>
      exact tableRun.silent rfl rfl (fun _ => .inl) (Nat.le_refl _)

/-- At each moment of a run, every name table was led there by a run of its own, of which the
journal tells. With it, what is proved of all runs of a name table holds inside of any
registry. -/
theorem Run.tableRun (run : Run settings operations log r tasks) (g : GroupId)
    (kind : ObjectKind) : ∃ t, TableRun settings g kind log r t := by
  induction run with
  | start => exact ⟨_, tableRun_empty settings g kind⟩
  | @operate _ _ r operation run ih =>
      obtain ⟨t, tableRun⟩ := ih
      obtain ⟨gained, opening⟩ := opening_of_change r operation
      exact ⟨t, opening.tableRun run.settings_eq tableRun⟩
  | step run taken ih =>
      obtain ⟨t, tableRun⟩ := ih
      obtain ⟨gained, effect⟩ := effect_of_step taken
      exact effect.tableRun run.accounted tableRun

/-! ### Generated names -/

/-- The names that are generated for one kind of objects of a group are those of the cycle from
`first` on, in its order, and each one is its own global name. -/
structure GeneratesCycle (first : Name) (g : GroupId) (kind : ObjectKind) (log : Journal)
    (r : Registry) : Prop where
  /-- The `k`-th name that was answered, and its global name. -/
  nth : ∀ k < 2 ^ 32 - 1, ∀ l global, (log.generated g kind)[k]? = some (l, global) →
    l.toNat = ((max first 1).toNat - 1 + k) % (2 ^ 32 - 1) + 1 ∧ global = l
  /-- Until the cycle is complete, the next name of it is answered to the next request. -/
  next : (log.generated g kind).length < 2 ^ 32 - 1 → ∀ group, r.groups[g]? = some group →
    ∀ rule, ∃ after name, name = cycleName first (log.generated g kind).length ∧
      group.handle rule kind (.generate 0) =
        some ⟨after, .name name, some (.naming (.made name name)), none⟩
  /-- When it is complete, every name but `0` was generated once in it. -/
  all : 2 ^ 32 - 1 ≤ (log.generated g kind).length → ∀ n : Name, n ≠ 0 →
    ∃! k, k < 2 ^ 32 - 1 ∧ (log.generated g kind)[k]? = some (n, n)
  /-- The live names are their own global names. -/
  own : (log.generated g kind).length ≤ 2 ^ 32 - 1 → ∀ group, r.groups[g]? = some group →
    ∀ l, (group.names kind).isLive l → (group.names kind).globalOf l = l

/-- Where names are only generated and deleted, in any order and by anybody, the names that
are generated are known in advance: they depend on the first name alone, and not on what was
deleted. -/
theorem Run.generated_names_cycle (run : Run settings operations log r tasks) (g : GroupId)
    (kind : ObjectKind)
    (follows : ∀ turn ∈ log.turns g kind, turn.call.followsCounters) :
    GeneratesCycle settings.firstName g kind log r := by
  obtain ⟨t, tableRun⟩ := run.tableRun g kind
  obtain ⟨ordered, cycle⟩ := tableRun.run.inCycle follows
  rw [NameTable.FollowsCycle] at ordered
  rw [← tableRun.generated_eq] at ordered cycle
  constructor
  case nth =>
    intro k within l global created
    obtain ⟨rfl, rfl⟩ := Prod.mk.inj (ordered k within _ created)
    exact ⟨toNat_cycleName settings.firstName k, rfl⟩
  case next =>
    intro within group found rule
    have names : (group.table kind).names = t := tableRun.names_eq group found
    obtain ⟨u, generated, -⟩ := (cycle (Nat.le_of_lt within)).generate within
    refine ⟨⟨group.tables.set kind { group.table kind with names := u }⟩, _, rfl, ?_⟩
    rw [ObjectGroup.handle, ObjectTable.handle, ObjectTable.generate, names, generated]
    rfl
  case all =>
    intro complete n named
    obtain ⟨k, ⟨within, place⟩, unique⟩ := existsUnique_cycleName settings.firstName named
    have there := List.getElem?_eq_getElem (Nat.lt_of_lt_of_le within complete)
    refine ⟨k, ⟨within, ?_⟩, ?_⟩
    · rw [there, ordered k within _ there, place]
    · rintro j ⟨jWithin, created⟩
      exact unique j ⟨jWithin, (Prod.mk.inj (ordered j jWithin _ created)).1.symm⟩
  case own =>
    intro within group found l live
    rw [tableRun.names_eq group found] at live ⊢
    exact ((cycle within).own (NameTable.isLive_and_globalOf_iff.mp ⟨live, rfl⟩)).1

/-- The cycle starts below the largest name and goes round past `0`. In between names are deleted,
with a payload and also in vain, and a shader gets a name, which does not count. -/
theorem Run.generated_names_cycle_past_the_largest :
    ∃ log r, Run ⟨.reuse, 0xFFFFFFFE⟩
        [.create (.handle 1), .act (.key (.handle 1)) (.generate .texture [0, 0]),
          .act (.key (.handle 1)) (.attachNew .texture 0xFFFFFFFE "a" none),
          .act (.key (.handle 1)) (.generate .shader [5, 0]),
          .act (.key (.handle 1)) (.delete .texture 0xFFFFFFFE),
          .act (.key (.handle 1)) (.delete .texture 9),
          .act (.key (.handle 1)) (.generate .texture [0]),
          .act (.key (.handle 1)) (.delete .texture 1),
          .act (.key (.handle 1)) (.generate .texture [0])] log r [] ∧
      log.generated 0 .texture =
        [(0xFFFFFFFE, 0xFFFFFFFE), (0xFFFFFFFF, 0xFFFFFFFF), (1, 1), (2, 2)] ∧
      GeneratesCycle 0xFFFFFFFE 0 .texture log r := by
  have fresh : Run ⟨.reuse, 0xFFFFFFFE⟩ [] [] _ [] := .start
  have run := fresh.performAll .standard
    [.create (.handle 1), .act (.key (.handle 1)) (.generate .texture [0, 0]),
      .act (.key (.handle 1)) (.attachNew .texture 0xFFFFFFFE "a" none),
      .act (.key (.handle 1)) (.generate .shader [5, 0]),
      .act (.key (.handle 1)) (.delete .texture 0xFFFFFFFE),
      .act (.key (.handle 1)) (.delete .texture 9),
      .act (.key (.handle 1)) (.generate .texture [0]),
      .act (.key (.handle 1)) (.delete .texture 1),
      .act (.key (.handle 1)) (.generate .texture [0])] (by decide)
  exact ⟨_, _, run, by decide, run.generated_names_cycle 0 .texture (by decide)⟩

end Registry

end SharedNames
