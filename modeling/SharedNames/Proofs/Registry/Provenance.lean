import Mathlib.Data.Set.Card
import SharedNames.Proofs.Registry.Soundness

/-!
Where the group of a key comes from.

Every group was made by one operation, so the group of a key can be told by the operation
that made it: the `root` of the key. Roots can be followed without a registry, by the
operations alone. A key that gets a new group is rooted in the operation that creates it; a
key that is attached to another one takes over the root which that one has at the time, and
what becomes of the other one later does not matter; a key that is detached has none.

`Provenance` is this account. `Run.keys_follow_roots` says that at every moment of every
run, under either choice for duplicate keys, the table of keys is what the account says.
-/

namespace SharedNames

/-! ### Following the roots -/

/-- The roots of keys after some operations. Groups are told apart here by the operations that
made them, and nothing in it is taken from a registry. -/
structure Provenance where
  /-- How many operations there were: the number of the next one. -/
  operations : Nat
  /-- The operations that made a group, by number, the first one first. -/
  makers : List Nat
  /-- The operation that made the group of a key. -/
  root : ContextKey → Option Nat

namespace Provenance

def start : Provenance :=
  ⟨0, [], fun _ => none⟩

/-- The roots after one more operation. -/
def next (onDuplicate : OnDuplicate) (p : Provenance) : Operation → Provenance
  | .create key =>
    if p.root key = none ∨ onDuplicate = .replace then
      ⟨p.operations + 1, p.makers ++ [p.operations],
        Function.update p.root key (some p.operations)⟩
    else { p with operations := p.operations + 1 }
  | .attach key existing =>
    if p.root existing = none then { p with operations := p.operations + 1 }
    else ⟨p.operations + 1, p.makers, Function.update p.root key (p.root existing)⟩
  | .detach key => ⟨p.operations + 1, p.makers, Function.update p.root key none⟩
  | .keep _ _ | .letGo _ | .releaseHeld _ | .act _ _ => { p with operations := p.operations + 1 }

def after (onDuplicate : OnDuplicate) (operations : List Operation) : Provenance :=
  operations.foldl (next onDuplicate) start

theorem after_snoc (onDuplicate : OnDuplicate) (operations : List Operation)
    (operation : Operation) :
    after onDuplicate (operations ++ [operation]) =
      (after onDuplicate operations).next onDuplicate operation := by
  rw [after, List.foldl_append]
  rfl

end Provenance

def Operation.key? : Operation → Option ContextKey
  | create key | attach key _ | detach key => some key
  | keep _ _ | letGo _ | releaseHeld _ | act _ _ => none

/-- Only operations on a key change its root. -/
theorem Provenance.root_next_of_ne {onDuplicate : OnDuplicate} {p : Provenance}
    {operation : Operation} {key : ContextKey} (other : operation.key? ≠ some key) :
    (p.next onDuplicate operation).root key = p.root key := by
  cases operation with
  | create k =>
      have ne : key ≠ k := fun same => other (same ▸ rfl)
      simp only [next]
      split
      · exact Function.update_of_ne ne _ _
      · rfl
  | attach k existing =>
      have ne : key ≠ k := fun same => other (same ▸ rfl)
      simp only [next]
      split
      · rfl
      · exact Function.update_of_ne ne _ _
  | detach k =>
      have ne : key ≠ k := fun same => other (same ▸ rfl)
      exact Function.update_of_ne ne _ _
  | keep | letGo | releaseHeld | act => rfl

theorem Provenance.root_foldl_of_ne {onDuplicate : OnDuplicate} {p : Provenance}
    {operations : List Operation} {key : ContextKey}
    (others : ∀ operation ∈ operations, operation.key? ≠ some key) :
    (operations.foldl (next onDuplicate) p).root key = p.root key := by
  induction operations generalizing p with
  | nil => rfl
  | cons operation operations ih =>
      obtain ⟨other, others⟩ := List.forall_mem_cons.mp others
      rw [List.foldl_cons, ih others, root_next_of_ne other]

/-- The root of a key that was attached to another one, and on which there was no operation
since, is the one that the other key had then. What became of the other key does not matter. -/
theorem Provenance.root_of_attached {onDuplicate : OnDuplicate} {before after : List Operation}
    {key existing : ContextKey}
    (attached : (Provenance.after onDuplicate before).root existing ≠ none)
    (others : ∀ operation ∈ after, operation.key? ≠ some key) :
    (Provenance.after onDuplicate (before ++ .attach key existing :: after)).root key =
      (Provenance.after onDuplicate before).root existing := by
  rw [Provenance.after, List.foldl_append, List.foldl_cons, root_foldl_of_ne others]
  simp only [Provenance.after] at attached
  rw [next, if_neg attached]
  exact Function.update_self ..

theorem Provenance.isPrefix_makers_next (onDuplicate : OnDuplicate) (p : Provenance)
    (operation : Operation) : p.makers <+: (p.next onDuplicate operation).makers := by
  cases operation with
  | create key =>
      simp only [next]
      split
      · exact List.prefix_append _ _
      · exact List.prefix_refl _
  | attach key existing =>
      simp only [next]
      split <;> exact List.prefix_refl _
  | detach | keep | letGo | releaseHeld | act => exact List.prefix_refl _

theorem Provenance.isPrefix_makers_foldl (onDuplicate : OnDuplicate) (p : Provenance)
    (operations : List Operation) :
    p.makers <+: (operations.foldl (next onDuplicate) p).makers := by
  induction operations generalizing p with
  | nil => exact List.prefix_refl _
  | cons operation operations ih =>
      exact (p.isPrefix_makers_next onDuplicate operation).trans (ih (p.next onDuplicate operation))

namespace Registry

variable {settings : Settings} {operations : List Operation} {log journal : Journal} {r : Registry}
  {tasks rest : List Task} {policy : Policy} {task : Task} {step : Step} {gained : List Handle}

/-! ### The table of keys follows the roots -/

/-- The table of keys agrees with an account of the roots: the groups were made by the
operations listed there, in order, and the group of a key by its root. -/
structure Traced (p : Provenance) (operations : List Operation) (log : Journal) (r : Registry) :
    Prop where
  operations_eq : p.operations = operations.length
  length_makers : p.makers.length = r.groupsMade
  makers_lt : ∀ call ∈ p.makers, call < p.operations
  makers_nodup : p.makers.Nodup
  root_eq : ∀ key, p.root key = r.keys[key]?.bind fun g => p.makers[g]?
  made_of_key : ∀ (key : ContextKey) (g : GroupId), r.keys[key]? = some g → g < r.groupsMade
  logged_iff : ∀ g key, .groupMade g key ∈ log ↔
    ∃ call, p.makers[g]? = some call ∧ operations[call]? = some (.create key)

namespace Traced

variable {p : Provenance}

/-- A key with a group has a root, and the account lists it. -/
theorem root_of_key (traced : Traced p operations log r) {key : ContextKey} {g : GroupId}
    (found : r.keys[key]? = some g) :
    ∃ call, p.makers[g]? = some call ∧ p.root key = some call := by
  have within : g < p.makers.length := by
    rw [traced.length_makers]
    exact traced.made_of_key key g found
  refine ⟨p.makers[g], List.getElem?_eq_getElem within, ?_⟩
  rw [traced.root_eq, found, Option.bind_some, List.getElem?_eq_getElem within]

/-- Keys without a root are those without a group. -/
theorem root_eq_none_iff (traced : Traced p operations log r) {key : ContextKey} :
    p.root key = none ↔ r.keys[key]? = none := by
  cases found : r.keys[key]? with
  | none => simp [traced.root_eq, found]
  | some g =>
      obtain ⟨call, -, root⟩ := traced.root_of_key found
      simp [root]

/-- A key has the group that its root made. That it has no other one is where it is used that
every operation made one group at most. -/
theorem get_iff (traced : Traced p operations log r) {key : ContextKey} {g : GroupId} :
    r.keys[key]? = some g ↔ ∃ call, p.root key = some call ∧ p.makers[g]? = some call := by
  constructor
  · intro found
    obtain ⟨call, listed, root⟩ := traced.root_of_key found
    exact ⟨call, root, listed⟩
  · rintro ⟨call, root, listed⟩
    cases found : r.keys[key]? with
    | none =>
        rw [traced.root_eq_none_iff.mpr found] at root
        cases root
    | some other =>
        obtain ⟨call', listed', root'⟩ := traced.root_of_key found
        obtain rfl : call = call' := Option.some.inj (root.symm.trans root')
        -- No operation is listed twice, so it made one group only.
        have within := (List.getElem?_eq_some_iff.mp listed').1
        rw [(List.getElem?_inj within traced.makers_nodup).mp (listed'.trans listed.symm)]

/-- Two keys have the same group exactly if they have the same root, or both have none. -/
theorem same_iff (traced : Traced p operations log r) (key other : ContextKey) :
    r.keys[key]? = r.keys[other]? ↔ p.root key = p.root other := by
  constructor
  · intro same
    rw [traced.root_eq, traced.root_eq, same]
  · intro same
    cases found : r.keys[key]? with
    | none => rw [traced.root_eq_none_iff.mp (same ▸ traced.root_eq_none_iff.mpr found)]
    | some g =>
        rw [eq_comm, traced.get_iff, ← same, ← traced.get_iff]
        exact found

theorem contains_iff (traced : Traced p operations log r) (key : ContextKey) :
    r.contains key ↔ p.root key ≠ none := by
  rw [ne_eq, traced.root_eq_none_iff, contains, Std.ExtTreeMap.contains_eq_isSome_getElem?,
    Option.isSome_iff_ne_none]

/-- The size of the table is the number of keys with a root. It is stated for a set of keys,
as the account has no list of them. -/
theorem size_eq (traced : Traced p operations log r) :
    {key | p.root key ≠ none}.encard = r.size := by
  have keys : {key | p.root key ≠ none} = (r.keys.keys.toFinset : Set ContextKey) := by
    ext key
    rw [Set.mem_ofPred_eq, ← traced.contains_iff, Finset.mem_coe, List.mem_toFinset,
      Std.ExtTreeMap.mem_keys, contains, Std.ExtTreeMap.mem_iff_contains]
  rw [keys, Set.encard_coe_eq_coe_finsetCard,
    List.toFinset_card_of_nodup Std.ExtTreeMap.nodup_keys, Std.ExtTreeMap.length_keys, size]

theorem keys_eq_nil_iff (traced : Traced p operations log r) :
    r.keys.keys = [] ↔ ∀ key, p.root key = none := by
  rw [List.eq_nil_iff_forall_not_mem]
  refine forall_congr' fun key => ?_
  rw [Std.ExtTreeMap.mem_keys, Std.ExtTreeMap.mem_iff_contains]
  exact (not_congr (traced.contains_iff key)).trans not_not

/-- Tasks do not touch the keys and make no group, so they need no account. -/
theorem of_keys_eq (traced : Traced p operations log r) {after : Registry}
    (keys : after.keys = r.keys) (made : after.groupsMade = r.groupsMade)
    (silent : ∀ g key, .groupMade g key ∉ journal) :
    Traced p operations (log ++ journal) after where
  operations_eq := traced.operations_eq
  length_makers := by rw [made, traced.length_makers]
  makers_lt := traced.makers_lt
  makers_nodup := traced.makers_nodup
  root_eq := by rw [keys]; exact traced.root_eq
  made_of_key := by rw [keys, made]; exact traced.made_of_key
  logged_iff g key := by
    rw [List.mem_append, or_iff_left (silent g key)]
    exact traced.logged_iff g key

/-- The account of one more operation that makes no group. Attaching, detaching and all that
leaves the keys alone are cases of it. -/
theorem extend (traced : Traced p operations log r) {q : Provenance} {after : Registry}
    {operation : Operation} (number : q.operations = p.operations + 1)
    (makers : q.makers = p.makers) (made : after.groupsMade = r.groupsMade)
    (silent : ∀ g key, .groupMade g key ∉ journal)
    (root_eq : ∀ key, q.root key = after.keys[key]?.bind fun g => p.makers[g]?)
    (made_of_key : ∀ (key : ContextKey) (g : GroupId), after.keys[key]? = some g →
      g < r.groupsMade) :
    Traced q (operations ++ [operation]) (log ++ journal) after where
  operations_eq := by
    rw [number, traced.operations_eq, List.length_append, List.length_singleton]
  length_makers := by rw [makers, made, traced.length_makers]
  makers_lt call mem := by
    rw [makers] at mem
    have earlier := traced.makers_lt call mem
    omega
  makers_nodup := makers ▸ traced.makers_nodup
  root_eq key := by rw [root_eq, makers]
  made_of_key key g found := by
    rw [made]
    exact made_of_key key g found
  logged_iff g key := by
    have earlier := traced.logged_iff g key
    rw [List.mem_append, or_iff_left (silent g key), earlier, makers]
    refine exists_congr fun call => and_congr_right fun listed => ?_
    have before := traced.makers_lt call (List.mem_of_getElem? listed)
    rw [traced.operations_eq] at before
    rw [List.getElem?_append_left before]

/-- The account of one more operation that makes a group for a key. The number of the
operation is larger than those of all earlier ones, so it is new among the makers, and the new
group is the next in their list. -/
theorem make (traced : Traced p operations log r) (key : ContextKey) (records : List Record) :
    Traced
      ⟨p.operations + 1, p.makers ++ [p.operations],
        Function.update p.root key (some p.operations)⟩
      (operations ++ [.create key])
      (log ++ (records.map .noted ++ [.groupMade r.groupsMade key]))
      (r.makeGroup key).registry where
  operations_eq := by
    simp [traced.operations_eq]
  length_makers := by
    simp [traced.length_makers, makeGroup]
  makers_lt call mem := by
    rcases List.mem_append.mp mem with earlier | now
    · exact Nat.lt_succ_of_lt (traced.makers_lt call earlier)
    · rw [List.mem_singleton.mp now]
      exact Nat.lt_succ_self _
  makers_nodup := by
    refine List.nodup_append.mpr ⟨traced.makers_nodup, List.nodup_singleton _, ?_⟩
    intro call mem other same
    rw [List.mem_singleton.mp same]
    exact Nat.ne_of_lt (traced.makers_lt call mem)
  root_eq k := by
    simp only [makeGroup, Std.ExtTreeMap.getElem?_insert, Std.LawfulEqOrd.compare_eq_iff_eq]
    by_cases same : key = k
    · subst same
      rw [Function.update_self, if_pos rfl, Option.bind_some, ← traced.length_makers,
        List.getElem?_concat_length]
    · rw [Function.update_of_ne (Ne.symm same), if_neg same, traced.root_eq]
      refine Option.bind_congr fun g found => ?_
      have within := traced.made_of_key k g found
      rw [← traced.length_makers] at within
      rw [List.getElem?_append_left within]
  made_of_key k g found := by
    rcases getElem?_of_insert found with ⟨-, rfl⟩ | found
    · exact Nat.lt_succ_self _
    · exact Nat.lt_succ_of_lt (traced.made_of_key k g found)
  logged_iff g k := by
    have silent : .groupMade g k ∉ records.map Entry.noted := by simp
    rw [List.mem_append, List.mem_append, or_iff_right silent, List.mem_singleton,
      traced.logged_iff g k]
    simp only [getElem?_snoc_iff, traced.operations_eq, traced.length_makers]
    constructor
    · rintro (⟨call, listed, asked⟩ | made)
      · exact ⟨call, .inl listed, .inl asked⟩
      · cases made
        exact ⟨operations.length, .inr ⟨rfl, rfl⟩, .inr ⟨rfl, rfl⟩⟩
    · rintro ⟨call, listed | ⟨rfl, rfl⟩, asked | ⟨last, same⟩⟩
      · exact .inl ⟨call, listed, asked⟩
      · -- The number of this operation is not one of an earlier one.
        have before := traced.makers_lt _ (List.mem_of_getElem? listed)
        rw [traced.operations_eq, last] at before
        exact absurd before (Nat.lt_irrefl _)
      · exact absurd (List.getElem?_eq_some_iff.mp asked).1 (Nat.lt_irrefl _)
      · cases same
        exact .inr rfl

/-- The account follows every operation, under either choice for duplicate keys. A case for
each operation: a group is made (`make`), a key is moved or taken out (`extend`), or the keys
stay as they are and only the count of the operations goes on. -/
theorem operate (traced : Traced p operations log r) (operation : Operation) :
    Traced (p.next r.settings.onDuplicate operation) (operations ++ [operation])
      (log ++ (r.change operation).journal) (r.change operation).registry := by
  have unchanged {q : Provenance} {operation : Operation} {journal : Journal}
      (next : q = { p with operations := p.operations + 1 })
      (silent : ∀ g key, .groupMade g key ∉ journal) :
      Traced q (operations ++ [operation]) (log ++ journal) r := by
    subst next
    exact traced.extend rfl rfl rfl silent traced.root_eq traced.made_of_key
  cases operation with
  | create key =>
      simp only [Provenance.next, traced.root_eq_none_iff, change, create]
      cases found : r.keys[key]? with
      | none =>
          rw [if_pos (.inl rfl)]
          exact traced.make key []
      | some g =>
          cases choice : r.settings.onDuplicate with
          | reuse =>
              rw [if_neg (by simp)]
              exact unchanged rfl (by simp)
          | replace =>
              rw [if_pos (.inr rfl)]
              exact traced.make key [.groupReplaced key]
  | attach key existing =>
      simp only [Provenance.next, traced.root_eq_none_iff, change, attach]
      cases found : r.keys[existing]? with
      | none =>
          rw [if_pos rfl]
          exact unchanged rfl (by simp)
      | some g =>
          rw [if_neg (by simp)]
          refine traced.extend rfl rfl rfl (by simp) (fun k => ?_) (fun k h => ?_)
          · by_cases same : key = k
            · subst same
              simp [traced.root_eq, found]
            · simp [Function.update_of_ne (Ne.symm same), Std.ExtTreeMap.getElem?_insert, same,
                traced.root_eq]
          · intro there
            rcases getElem?_of_insert there with ⟨-, rfl⟩ | there
            · exact traced.made_of_key existing g found
            · exact traced.made_of_key k h there
  | detach key =>
      simp only [Provenance.next, change, detach]
      cases found : r.keys[key]? with
      | none =>
          refine traced.extend rfl rfl rfl (by simp) (fun k => ?_) traced.made_of_key
          by_cases same : key = k
          · subst same
            simp [found]
          · simp [Function.update_of_ne (Ne.symm same), traced.root_eq]
      | some g =>
          refine traced.extend rfl rfl rfl (by simp) (fun k => ?_) (fun k h => ?_)
          · by_cases same : key = k
            · subst same
              simp
            · simp [Function.update_of_ne (Ne.symm same), Std.ExtTreeMap.getElem?_erase, same,
                traced.root_eq]
          · intro found
            exact traced.made_of_key k h (getElem?_of_erase found)
  | keep slot key =>
      simp only [change, keep]
      split
      · exact unchanged rfl (by simp)
      · exact traced.extend rfl rfl rfl (by simp) traced.root_eq traced.made_of_key
  | letGo slot =>
      simp only [change, letGo]
      split
      · exact unchanged rfl (by simp)
      · exact traced.extend rfl rfl rfl (by simp) traced.root_eq traced.made_of_key
  | releaseHeld name =>
      simp only [change, releaseHeld]
      split
      · exact unchanged rfl (by simp)
      · exact traced.extend rfl rfl rfl (by simp) traced.root_eq traced.made_of_key
  | act target action =>
      simp only [change]
      split <;> exact unchanged rfl (by simp)

end Traced

/-- At each moment of a run the table of keys agrees with the account of its operations. -/
theorem Run.traced (run : Run settings operations log r tasks) :
    Traced (.after settings.onDuplicate operations) operations log r := by
  induction run with
  | start =>
      exact {
        operations_eq := rfl
        length_makers := rfl
        makers_lt := by simp [Provenance.after, Provenance.start]
        makers_nodup := List.nodup_nil
        root_eq := by simp [Provenance.after, Provenance.start, empty]
        made_of_key := by simp [empty]
        logged_iff := by simp [Provenance.after, Provenance.start] }
  | operate operation run ih =>
      rw [Provenance.after_snoc, ← run.settings_eq]
      rw [← run.settings_eq] at ih
      exact ih.operate operation
  | step run stepped ih =>
      obtain ⟨gained, effect⟩ := effect_of_step stepped
      obtain ⟨-, made, silent⟩ := effect.makes_no_group
      exact ih.of_keys_eq effect.tables_eq.1 made silent

/-! ### Runs of operations on keys -/

theorem payloadShares_starting (first : Name) :
    (ObjectGroup.starting first).payloadShares = [] := by
  simpa [ObjectGroup.handles] using ObjectGroup.handles_starting first

theorem totals_starting (first : Name) :
    (ObjectGroup.starting first).objectTotal = 0 ∧
      (ObjectGroup.starting first).payloadTotal = 0 := by
  refine ⟨?_, by rw [ObjectGroup.payloadTotal, payloadShares_starting, List.length_nil]⟩
  simp [ObjectGroup.objectTotal, ObjectGroup.names, ObjectGroup.table, ObjectGroup.starting,
    ObjectTable.starting, NameTable.starting, NameTable.size, ObjectKind.all]

/-- Where there were operations on keys only, all groups are new, and what remains to be done
is to release some. So there is nothing that could act. -/
theorem Run.groups_new (run : Run settings operations log r tasks)
    (plain : ∀ operation ∈ operations, operation.key? ≠ none) :
    (r.GroupsAre fun group => group = .starting settings.firstName) ∧
      ∀ task ∈ tasks, ∃ g, task = .release (.group g) := by
  have releases (g : Option GroupId) :
      ∀ task ∈ releaseGroup g, ∃ g, task = .release (.group g) := by
    intro task mem
    obtain ⟨g, -, rfl⟩ := List.mem_map.mp mem
    exact ⟨g, rfl⟩
  induction run with
  | start => exact ⟨fun g group found => by simp [empty] at found, fun _ mem => by cases mem⟩
  | @operate operations log r operation run ih =>
      obtain ⟨before, own⟩ := List.forall_mem_append.mp plain
      obtain ⟨all, -⟩ := ih before
      have own := own operation List.mem_cons_self
      obtain ⟨gained, opening⟩ := opening_of_change r operation
      have new : r.settings.newGroup = .starting settings.firstName := by
        rw [run.settings_eq]
        rfl
      generalize r.change operation = change at opening
      cases opening with
      | unchanged => exact ⟨all, fun _ mem => by cases mem⟩
      | created => exact ⟨all.insertGroup _ new, releases _⟩
      | attached | detached => exact ⟨all, releases _⟩
      | kept | letGo | released | acting => exact absurd rfl own
  | @step _ _ _ _ _ policy _ run stepped ih =>
      obtain ⟨all, only⟩ := ih plain
      obtain ⟨⟨g, rfl⟩, others⟩ := List.forall_mem_cons.mp only
      obtain ⟨gained, effect⟩ := effect_of_step stepped
      cases effect with
      | kept | absent => exact ⟨all, others⟩
      | @groupDestroyed g group last found =>
          refine ⟨?_, ?_⟩
          · intro j other there
            exact all j other (getElem?_of_erase there)
          · have nothing := policy.order_perm g group.payloadShares
            rw [all g group found, payloadShares_starting] at nothing
            rw [all g group found, payloadShares_starting, List.perm_nil.mp nothing]
            exact others
      | answered asks | unanswered asks => cases asks

/-- Operations on keys can always be finished where there were no others, as no name has to be
generated. -/
theorem Run.finished_of_plain (run : Run settings operations log r [])
    (plain : ∀ operation ∈ operations, operation.key? ≠ none) (policy : Policy)
    {operation : Operation} (own : operation.key? ≠ none) :
    (r.perform policy operation).residual = [] := by
  have longer := run.perform policy operation
  have all : ∀ other ∈ operations ++ [operation], other.key? ≠ none :=
    List.forall_mem_append.mpr ⟨plain, List.forall_mem_singleton.mpr own⟩
  have only := (longer.groups_new all).2
  have halted := (settle_ends policy (r.change operation).registry (r.change operation).tasks).2
  change Halted policy (r.perform policy operation).registry
    (r.perform policy operation).residual at halted
  cases left : (r.perform policy operation).residual with
  | nil => rfl
  | cons task rest =>
      rw [left] at only halted
      obtain ⟨g, rfl⟩ := only task List.mem_cons_self
      cases halted

/-! ### The table of keys -/

/-- The table of keys at a moment, after some operations of which `p` is the account, where
`log` is what happened so far and `tasks` remain to be done. -/
structure KeysFollowRoots (settings : Settings) (p : Provenance) (operations : List Operation)
    (log : Journal) (r : Registry) (tasks : List Task) : Prop where
  /-- A group was made by the operation that the account lists for it, and by no other one. -/
  made_iff : ∀ g key, .groupMade g key ∈ log ↔
    ∃ call, p.makers[g]? = some call ∧ operations[call]? = some (.create key)
  made_once : p.makers.Nodup
  /-- A key has the group that its root made. -/
  get_iff : ∀ (key : ContextKey) (g : GroupId), r.keys[key]? = some g ↔
    ∃ call, p.root key = some call ∧ p.makers[g]? = some call
  there_of_get : ∀ (key : ContextKey) (g : GroupId), r.keys[key]? = some g → r.has (.group g)
  same_iff : ∀ key other : ContextKey, r.keys[key]? = r.keys[other]? ↔ p.root key = p.root other
  contains_iff : ∀ key, r.contains key ↔ p.root key ≠ none
  size_eq : {key | p.root key ≠ none}.encard = r.size
  size_eq_zero_iff : r.size = 0 ↔ ∀ key, p.root key = none
  someKey_eq_none_iff : r.someKey? = none ↔ ∀ key, p.root key = none
  root_of_someKey : ∀ key, r.someKey? = some key → p.root key ≠ none
  /-- A key that was attached to another one, and on which there was no operation since, has
  the group that the other one had, whatever became of the other one. -/
  attached_stays : ∀ before key existing after,
    operations = before ++ .attach key existing :: after →
    (∀ later ∈ after, later.key? ≠ some key) →
    ∀ log' earlier tasks', Run settings before log' earlier tasks' →
      earlier.keys[existing]? ≠ none → r.keys[key]? = earlier.keys[existing]?
  /-- What an operation on a key replies is the group that the key has then. -/
  next_get : ∀ operation key g, operation.key? = some key →
    (r.change operation).reply = .group g → (r.change operation).registry.keys[key]? = some g
  /-- A key cannot be attached to one without a root, and nothing changes then. -/
  next_refused : ∀ key existing, p.root existing = none →
    r.change (.attach key existing) =
      ⟨.failed (.noGroup existing.text), r, [], [.noted (.attachRefused key existing)]⟩
  /-- A group that is created was never made before, and it is empty. -/
  next_made : ∀ key, p.root key = none ∨ settings.onDuplicate = .replace →
    ∃ (g : GroupId) (group : ObjectGroup), (r.change (.create key)).reply = .group g ∧
      ¬ r.Made (.group g) ∧ (∀ other, .groupMade g other ∉ log) ∧
      (r.change (.create key)).registry.groups[g]? = some group ∧
      group = .starting settings.firstName ∧ group.objectTotal = 0 ∧ group.payloadTotal = 0
  /-- Where there were operations on keys only, all groups are empty, and the next operation
  on a key can be finished. -/
  plain : (∀ operation ∈ operations, operation.key? ≠ none) →
    (∀ (g : GroupId) (group : ObjectGroup), r.groups[g]? = some group →
      group = .starting settings.firstName ∧ group.objectTotal = 0 ∧ group.payloadTotal = 0) ∧
    ∀ policy operation, tasks = [] → operation.key? ≠ none →
      (r.perform policy operation).residual = []

/-- A key that was attached to another one keeps the group that it got there, as long as no
operation is about the key itself. The other key may be detached or get another group
meanwhile. -/
theorem Traced.attached_stays {before after : List Operation} {key existing : ContextKey}
    {log' : Journal} {earlier : Registry} {onDuplicate : OnDuplicate}
    (now : Traced (.after onDuplicate (before ++ .attach key existing :: after))
      (before ++ .attach key existing :: after) log r)
    (past : Traced (.after onDuplicate before) before log' earlier)
    (others : ∀ later ∈ after, later.key? ≠ some key)
    (attached : earlier.keys[existing]? ≠ none) : r.keys[key]? = earlier.keys[existing]? := by
  obtain ⟨g, found⟩ := Option.ne_none_iff_exists'.mp attached
  obtain ⟨call, listed, root⟩ := past.root_of_key found
  have longer : (Provenance.after onDuplicate before).makers <+:
      (Provenance.after onDuplicate (before ++ .attach key existing :: after)).makers := by
    rw [Provenance.after, Provenance.after, List.foldl_append]
    exact Provenance.isPrefix_makers_foldl _ _ _
  obtain ⟨more, longer⟩ := longer
  have rooted := Provenance.root_of_attached (root ▸ Option.some_ne_none call) others
  rw [found, now.get_iff]
  refine ⟨call, rooted.trans root, ?_⟩
  rw [← longer, List.getElem?_append_left (List.getElem?_eq_some_iff.mp listed).1]
  exact listed

theorem Traced.not_logged {p : Provenance} (traced : Traced p operations log r)
    (key : ContextKey) : .groupMade r.groupsMade key ∉ log := by
  intro logged
  obtain ⟨call, listed, -⟩ := (traced.logged_iff _ _).mp logged
  have within := (List.getElem?_eq_some_iff.mp listed).1
  rw [traced.length_makers] at within
  exact Nat.lt_irrefl _ within

/-- Creating makes a group for a key that has none, and for any key if groups are replaced. -/
theorem change_create_makes {key : ContextKey}
    (makes : r.keys[key]? = none ∨ r.settings.onDuplicate = .replace) :
    (r.change (.create key)).reply = .group r.groupsMade ∧
      (r.change (.create key)).registry = (r.makeGroup key).registry := by
  simp only [change, create]
  rcases makes with unattached | replaces
  · rw [unattached]
    exact ⟨rfl, rfl⟩
  · rw [replaces]
    cases r.keys[key]? <;> exact ⟨rfl, rfl⟩

/-- The reply to an operation on a key is the group that the key has afterwards. So a client
that keeps the reply knows the group without asking again. -/
theorem get_of_reply {operation : Operation} {key : ContextKey} {g : GroupId}
    (own : operation.key? = some key) (replied : (r.change operation).reply = .group g) :
    (r.change operation).registry.keys[key]? = some g := by
  cases operation with
  | create k =>
      cases own
      simp only [change, create] at replied ⊢
      split at replied
      · cases replied
        simp [makeGroup]
      · rename_i found _
        cases replied
        exact found
      · cases replied
        simp [makeGroup]
  | attach k existing =>
      cases own
      simp only [change, attach] at replied ⊢
      split at replied
      · cases replied
      · cases replied
        simp
  | detach k =>
      simp only [change, detach] at replied
      split at replied <;> cases replied
  | keep | letGo | releaseHeld | act => cases own

/-- At every moment of every run, under either choice for duplicate keys, the table of keys
follows the roots of the operations so far. Destructors have no part in it: they act on groups
and never on keys. -/
theorem Run.keys_follow_roots (run : Run settings operations log r tasks) :
    KeysFollowRoots settings (.after settings.onDuplicate operations) operations log r tasks where
  made_iff := run.traced.logged_iff
  made_once := run.traced.makers_nodup
  get_iff _ _ := run.traced.get_iff
  there_of_get key g found := by
    have refers : r.find? (.key key) = some g := found
    rw [run.accounted.has_iff, sharesWith]
    exact Nat.add_pos_left (shares_pos_of_find refers) _
  same_iff := run.traced.same_iff
  contains_iff := run.traced.contains_iff
  size_eq := run.traced.size_eq
  size_eq_zero_iff := by
    rw [← run.traced.keys_eq_nil_iff, size, ← Std.ExtTreeMap.length_keys, List.length_eq_zero_iff]
  someKey_eq_none_iff := by
    rw [someKey?, List.head?_eq_none_iff, run.traced.keys_eq_nil_iff]
  root_of_someKey key some := by
    have listed := List.mem_of_mem_head? some
    rw [Std.ExtTreeMap.mem_keys, Std.ExtTreeMap.mem_iff_contains] at listed
    exact (run.traced.contains_iff key).mp listed
  attached_stays before key existing after ends others log' earlier tasks' run' attached := by
    have now := run.traced
    rw [ends] at now
    exact now.attached_stays run'.traced others attached
  next_get operation key g own replied := get_of_reply own replied
  next_refused key existing unattached := by
    rw [run.traced.root_eq_none_iff] at unattached
    simp only [change, attach, unattached]
  next_made key makes := by
    rw [run.traced.root_eq_none_iff, ← run.settings_eq] at makes
    obtain ⟨replied, made⟩ := change_create_makes makes
    refine ⟨r.groupsMade, settings.newGroup, replied, Nat.lt_irrefl _, run.traced.not_logged, ?_,
      rfl, totals_starting settings.firstName⟩
    rw [made, makeGroup, run.settings_eq]
    exact Std.ExtTreeMap.getElem?_insert_self
  plain only := by
    refine ⟨fun g group found => ?_, fun policy operation finished own => ?_⟩
    · have new := (run.groups_new only).1 g group found
      subst new
      exact ⟨rfl, totals_starting settings.firstName⟩
    · subst finished
      exact run.finished_of_plain only policy own

/-- Key 3 is attached through key 2 to the first group of key 1. Then key 1 gets another
group, key 2 is detached and cannot be attached to key 9, and key 1 is attached to itself. -/
theorem Run.keys_follow_roots_of_replaced :
    ∃ log r, Run ⟨.replace, 1⟩
        [.create (.handle 1), .attach (.handle 2) (.handle 1), .attach (.handle 3) (.handle 2),
          .create (.handle 1), .detach (.handle 2), .attach (.handle 2) (.handle 9),
          .attach (.handle 1) (.handle 1)] log r [] ∧
      r.keys.toList = [(.handle 1, 1), (.handle 3, 0)] ∧
      ∃ p : Provenance, p.makers = [0, 3] ∧ p.root (.handle 1) = some 3 ∧
        p.root (.handle 2) = none ∧ p.root (.handle 3) = some 0 ∧
        KeysFollowRoots ⟨.replace, 1⟩ p
          [.create (.handle 1), .attach (.handle 2) (.handle 1), .attach (.handle 3) (.handle 2),
            .create (.handle 1), .detach (.handle 2), .attach (.handle 2) (.handle 9),
            .attach (.handle 1) (.handle 1)] log r [] := by
  have fresh : Run ⟨.replace, 1⟩ [] [] _ [] := .start
  have run := fresh.performAll .standard
    [.create (.handle 1), .attach (.handle 2) (.handle 1), .attach (.handle 3) (.handle 2),
      .create (.handle 1), .detach (.handle 2), .attach (.handle 2) (.handle 9),
      .attach (.handle 1) (.handle 1)] (by decide)
  exact ⟨_, _, run, by decide, _, by decide, by decide, by decide, by decide,
    run.keys_follow_roots⟩

end Registry

end SharedNames
