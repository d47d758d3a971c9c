import Mathlib.Algebra.BigOperators.Group.Finset.Piecewise
import SharedNames.Proofs.NameTable.FreeNames
import SharedNames.Proofs.Registry.Lifetime
import SharedNames.Proofs.Registry.Soundness

/-!
Clients that share a group at the same time.

Each client of a `Crowd` attaches a key of its own to one group, generates some names there,
looks each of them up, and leaves. A call is carried out as a whole, but the calls of
different clients come in any order: a schedule says whose call is next, and `Crowd.play`
carries the calls out.

`Shared` is what every call keeps: where each client stands (`Stands`), and what the group has
become (`Grown`). No schedule can tell the clients apart by it, as the names generated so far
are an initial part of the free names (`Grown.order`) whoever asked for them.
`Run.interleaving_independent` is the statement about all schedules.
-/

namespace SharedNames

open scoped BigOperators

/-! ### Clients and schedules -/

inductive ClientCall where
  /-- Attach a key to the group, and keep the group. -/
  | attach
  /-- Generate a name in the group. -/
  | generate
  /-- Ask whether the name that was generated last is an object. -/
  | check
  /-- Detach the key. -/
  | detach
  /-- Give up the group. -/
  | letGo
  deriving DecidableEq, Repr

/-- A client with a key and a slot of its own. -/
structure Client where
  key : ContextKey
  slot : String
  /-- How many names it generates. -/
  wanted : Nat

/-- The calls by which an attached client generates so many names and leaves. -/
def ClientCall.work : Nat → List ClientCall
  | 0 => [detach, letGo]
  | left + 1 => generate :: check :: work left

def Client.calls (client : Client) : List ClientCall :=
  .attach :: ClientCall.work client.wanted

inductive Told where
  | replied (reply : Reply)
  | answered (answers : List ObjectTable.Answer)
  | checked (live : Bool)
  deriving DecidableEq, Repr

def Told.names : Told → List Name
  | answered answers => answers.filterMap fun
    | .name l => some l
    | _ => none
  | _ => []

structure Exchange (m : Nat) where
  caller : Fin m
  call : ClientCall
  told : Told
  deriving DecidableEq, Repr

/-- What a client still calls, and the name that it generated last. -/
structure Session where
  todo : List ClientCall
  latest : Name

/-- A registry with its clients, and their calls so far. -/
structure Scene (m : Nat) where
  registry : Registry
  sessions : Fin m → Session
  exchanges : List (Exchange m)

namespace Scene

variable {m : Nat}

def names (s : Scene m) : List Name :=
  s.exchanges.flatMap fun exchange => exchange.told.names

def callsOf (s : Scene m) (i : Fin m) : List ClientCall :=
  (s.exchanges.filter fun exchange => exchange.caller = i).map Exchange.call

def after (s : Scene m) (i : Fin m) (call : ClientCall) (todo : List ClientCall) (told : Told)
    (registry : Registry) : Scene m where
  registry := registry
  sessions := Function.update s.sessions i ⟨todo, told.names.getLast?.getD (s.sessions i).latest⟩
  exchanges := s.exchanges ++ [⟨i, call, told⟩]

section After

variable {s : Scene m} {i j : Fin m} {call : ClientCall} {todo : List ClientCall} {told : Told}
  {registry : Registry}

theorem names_after : (s.after i call todo told registry).names = s.names ++ told.names := by
  simp [names, after]

theorem sessions_after_self : (s.after i call todo told registry).sessions i =
    ⟨todo, told.names.getLast?.getD (s.sessions i).latest⟩ :=
  Function.update_self ..

theorem sessions_after_of_ne (other : j ≠ i) :
    (s.after i call todo told registry).sessions j = s.sessions j :=
  Function.update_of_ne other ..

/-- What a client has called and what it still calls stay the same together. So no schedule
makes a client skip or repeat a call. -/
theorem callsOf_after (todo_eq : (s.sessions i).todo = call :: todo) (j : Fin m) :
    (s.after i call todo told registry).callsOf j ++
        ((s.after i call todo told registry).sessions j).todo =
      s.callsOf j ++ (s.sessions j).todo := by
  by_cases same : j = i
  · subst same
    simp [callsOf, after, todo_eq]
  · rw [sessions_after_of_ne same]
    simp [callsOf, after, Ne.symm same]

/-- One call less is left to all clients together. The sum bounds how many names are still to
be generated. -/
theorem sum_count_after (todo_eq : (s.sessions i).todo = call :: todo) (told : Told)
    (registry : Registry) (c : ClientCall) :
    ∑ j, ((s.after i call todo told registry).sessions j).todo.count c + [call].count c =
      ∑ j, (s.sessions j).todo.count c := by
  have counts : (fun j => ((s.after i call todo told registry).sessions j).todo.count c) =
      Function.update (fun j => (s.sessions j).todo.count c) i (todo.count c) := by
    funext j
    by_cases same : j = i
    · subst same
      rw [sessions_after_self, Function.update_self]
    · rw [sessions_after_of_ne same, Function.update_of_ne same]
  have cut : (call :: todo).count c = [call].count c + todo.count c := by
    rw [← List.count_append, List.singleton_append]
  rw [counts, Finset.sum_update_of_mem (Finset.mem_univ i),
    Finset.sum_eq_add_sum_sdiff_singleton_of_mem (Finset.mem_univ i)
      (fun j => (s.sessions j).todo.count c), todo_eq, cut]
  omega

end After

end Scene

/-- Clients that share the group of a key to generate names of one kind. -/
structure Crowd (m : Nat) where
  root : ContextKey
  kind : ObjectKind
  clients : Fin m → Client

namespace Crowd

variable {m : Nat}

/-- The operations of a call. A check has none: it only looks, and its answer is part of what
the client is told. -/
def operations (crowd : Crowd m) (client : Client) : ClientCall → List Operation
  | .attach => [.attach client.key crowd.root, .keep client.slot client.key]
  | .generate => [.act (.slot client.slot) (.generate crowd.kind [0])]
  | .check => []
  | .detach => [.detach client.key]
  | .letGo => [.letGo client.slot]

/-- What a client is told about a call, given what the call did. -/
def told (crowd : Crowd m) (client : Client) (latest : Name) (r : Registry) (journal : Journal) :
    ClientCall → Told
  | .attach => .replied (r.change (.attach client.key crowd.root)).reply
  | .generate => .answered journal.answers
  | .check => .checked <| (r.group? (.slot client.slot)).any fun group =>
      (group.names crowd.kind).isLive latest
  | .detach => .replied (r.change (.detach client.key)).reply
  | .letGo => .replied (r.change (.letGo client.slot)).reply

/-- Carries out the next call of a client. There is no answer when it has none left, or when
the call cannot be finished; so a schedule that is played to its end is one in which every
call was. -/
def next (crowd : Crowd m) (policy : Policy) (s : Scene m) (i : Fin m) : Option (Scene m) :=
  match (s.sessions i).todo with
  | [] => none
  | call :: todo =>
    let done := s.registry.performAll policy (crowd.operations (crowd.clients i) call)
    let told := crowd.told (crowd.clients i) (s.sessions i).latest s.registry done.journal call
    if done.residual = [] then
      some (s.after i call todo told done.registry)
    else none

def play (crowd : Crowd m) (policy : Policy) (schedule : List (Fin m)) (s : Scene m) :
    Option (Scene m) :=
  schedule.foldlM (crowd.next policy) s

def gather (crowd : Crowd m) (r : Registry) : Scene m where
  registry := r
  sessions i := ⟨(crowd.clients i).calls, 0⟩
  exchanges := []

/-- The clients can come together at a group: their keys and slots are new, and the group has
names left for all of them. -/
structure Fits (crowd : Crowd m) (r : Registry) (g : GroupId) (group : ObjectGroup) : Prop where
  root_eq : r.keys[crowd.root]? = some g
  group_eq : r.groups[g]? = some group
  keys_injective : Function.Injective fun i => (crowd.clients i).key
  unattached : ∀ i, r.keys[(crowd.clients i).key]? = none
  slots_injective : Function.Injective fun i => (crowd.clients i).slot
  unused : ∀ i, r.slots[(crowd.clients i).slot]? = none
  room : group.count crowd.kind + ∑ i, (crowd.clients i).wanted ≤ 2 ^ 32 - 1

end Crowd

namespace Registry

variable {policy : Policy} {r : Registry} {g : GroupId} {key root : ContextKey} {slot : String}
  {kind : ObjectKind} {group : ObjectGroup}

/-! ### What the calls do -/

theorem performAll_cons {operation : Operation} {after : Registry} {reply : Reply}
    {journal : Journal}
    (performed : r.perform policy operation = ⟨reply, after, journal, []⟩)
    (more : List Operation) :
    r.performAll policy (operation :: more) = (after.performAll policy more).after journal := by
  rw [performAll, performed]
  rfl

theorem performAll_singleton {operation : Operation} {after : Registry} {reply : Reply}
    {journal : Journal}
    (performed : r.perform policy operation = ⟨reply, after, journal, []⟩) :
    r.performAll policy [operation] = ⟨after, journal, []⟩ := by
  rw [performAll_cons performed, performAll, Settled.after, List.append_nil]

/-- Attaching a new key takes a share for it, and nothing follows. -/
theorem perform_attach_new (policy : Policy) (found : r.keys[root]? = some g)
    (unattached : r.keys[key]? = none) :
    r.perform policy (.attach key root) =
      ⟨.group g, { r with keys := r.keys.insert key g }, [.noted (.keyAttached key root)], []⟩ := by
  simp [perform, change, attach, found, unattached, releaseGroup]

/-- So does keeping the group in a new slot. -/
theorem perform_keep_new (policy : Policy) (found : r.keys[key]? = some g)
    (unused : r.slots[slot]? = none) :
    r.perform policy (.keep slot key) =
      ⟨.group g, { r with slots := r.slots.insert slot g }, [], []⟩ := by
  simp [perform, change, keep, found, unused, releaseGroup]

/-- Nothing but the key goes where others have shares of its group. The slot of the client is
such a share. -/
theorem perform_detach_owned (policy : Policy) (found : r.keys[key]? = some g)
    (owned : 0 < ({ r with keys := r.keys.erase key } : Registry).shares (.group g)) :
    ∃ journal, r.perform policy (.detach key) =
      ⟨.done, { r with keys := r.keys.erase key }, journal, []⟩ := by
  rw [perform, change_detach found, settle_release_of_owned owned]
  exact ⟨_, rfl⟩

/-- Nothing but the slot goes where others have shares of its group. The key that the clients
came by is such a share. -/
theorem perform_letGo_owned (policy : Policy) (found : r.slots[slot]? = some g)
    (owned : 0 < ({ r with slots := r.slots.erase slot } : Registry).shares (.group g)) :
    r.perform policy (.letGo slot) =
      ⟨.done, { r with slots := r.slots.erase slot }, [], []⟩ := by
  simp only [perform, change, letGo, found, releaseGroup, Option.toList_some, List.map_singleton,
    settle_release_of_owned owned, List.append_nil]

/-- A generated name is all that changes: the share that the action had of the group is given
up again, and the slot keeps it. -/
theorem perform_generate {out : ObjectGroup.Outcome} (found : r.slots[slot]? = some g)
    (there : r.groups[g]? = some group)
    (handled : group.handle policy.successor kind (.generate 0) = some out)
    (kept : out.released = none) :
    r.perform policy (.act (.slot slot) (.generate kind [0])) =
      ⟨.done, { r with groups := r.groups.insert g out.group },
        [.performed .client g kind (.generate 0) out.answer out.event], []⟩ := by
  have owned :
      0 < ({ r with groups := r.groups.insert g out.group } : Registry).shares (.group g) :=
    shares_group_pos_iff.mpr (.inr (.inl ⟨slot, found⟩))
  have asked : r.step policy [] (.act .client g (.generate kind [0])) = some
      ⟨{ r with groups := r.groups.insert g out.group }, [.act .client g (.generate kind [])],
        [.performed .client g kind (.generate 0) out.answer out.event]⟩ := by
    simp [step, act, request, there, handled, kept, Step.thenTasks]
  have rest : ({ r with groups := r.groups.insert g out.group } : Registry).step policy []
      (.act .client g (.generate kind [])) = some ⟨_, [.release (.group g)], []⟩ := rfl
  have refers : r.find? (.slot slot) = some g := found
  simp only [perform, change, refers, settle_cons asked, List.append_nil, settle_cons rest,
    settle_release_of_owned owned, Settled.after, List.nil_append]

end Registry

/-! ### What every call keeps -/

namespace ObjectGroup

/-- The objects of a group after names of one kind were generated, and nothing else was asked.
Which client asked for which name is not part of it, and this is why the order does not
matter. -/
structure Grown (kind : ObjectKind) (issued : List Name) (group now : ObjectGroup) : Prop where
  table_eq : ∀ other, other ≠ kind → now.table other = group.table other
  payloads_eq : (now.table kind).payloads = (group.table kind).payloads
  index : (now.names kind).Indexed
  count_eq : now.count kind = group.count kind + issued.length
  isLive : ∀ l ∈ issued, (now.names kind).isLive l
  /-- The names are the first of the free ones, and the others are left. -/
  order : issued ++ freeNames (now.names kind).isLive (now.names kind).nextLocal =
    freeNames (group.names kind).isLive (group.names kind).nextLocal

/-- One more name is generated as long as there is room. It is the first of the free ones that
are left, so which client asks has no influence on which names there will be. -/
theorem Grown.generate {kind : ObjectKind} {group now : ObjectGroup} {issued : List Name}
    (grown : group.Grown kind issued now) (room : now.count kind + 1 < 2 ^ 32)
    (rule : NameTable.SuccessorRule) :
    ∃ l out, now.handle rule kind (.generate 0) = some out ∧ out.answer = .name l ∧
      out.released = none ∧ group.Grown kind (issued ++ [l]) out.group := by
  obtain ⟨l, h, after, generated, first, written, size_eq, index⟩ :=
    grown.index.generate_first room
  have handled : (now.table kind).handle rule (.generate 0) =
      some ⟨⟨after, (now.table kind).payloads⟩, .name l, some (.naming (.made l h)), none⟩ := by
    rw [names] at generated
    simp [ObjectTable.handle, ObjectTable.generate, generated, NameTable.Event.name]
  have self :
      (⟨now.tables.set kind ⟨after, (now.table kind).payloads⟩⟩ : ObjectGroup).table kind =
        ⟨after, (now.table kind).payloads⟩ := PerKind.get_set_self ..
  refine ⟨l, ⟨⟨now.tables.set kind ⟨after, (now.table kind).payloads⟩⟩, .name l, _, none⟩,
    by rw [handle, handled, Option.map_some], rfl, rfl, ?_⟩
  constructor
  case table_eq =>
    intro other differs
    exact (PerKind.get_set_of_ne _ _ (Ne.symm differs)).trans (grown.table_eq other differs)
  case payloads_eq => rw [self, grown.payloads_eq]
  case index => rwa [names, self]
  case count_eq =>
    have before := grown.count_eq
    rw [count] at before
    rw [count, names, self, size_eq, before, List.length_append, List.length_singleton,
      Nat.add_assoc]
  case isLive =>
    intro k mem
    rw [names, self, NameTable.isLive, written, Std.ExtTreeMap.contains_insert]
    rcases List.mem_append.mp mem with earlier | new
    · have live := grown.isLive k earlier
      rw [NameTable.isLive] at live
      rw [live, Bool.or_true]
    · rw [List.mem_singleton.mp new]
      simp
  case order => rw [names, self, ← grown.order, first, List.append_assoc, List.singleton_append]

end ObjectGroup

/-- Where a client stands: which of its calls are left, and what it has of the group. One case
for each stretch of its calls. -/
inductive Stands (g : GroupId) (r : Registry) (names : List Name) (client : Client) :
    Session → Prop where
  | ready {latest : Name} : r.keys[client.key]? = none → r.slots[client.slot]? = none →
      Stands g r names client ⟨client.calls, latest⟩
  | working {left : Nat} {latest : Name} :
      r.keys[client.key]? = some g → r.slots[client.slot]? = some g →
      Stands g r names client ⟨ClientCall.work left, latest⟩
  | checking {left : Nat} {latest : Name} :
      r.keys[client.key]? = some g → r.slots[client.slot]? = some g → latest ∈ names →
      Stands g r names client ⟨.check :: ClientCall.work left, latest⟩
  | detached {latest : Name} : r.keys[client.key]? = none → r.slots[client.slot]? = some g →
      Stands g r names client ⟨[.letGo], latest⟩
  | gone {latest : Name} : r.keys[client.key]? = none → r.slots[client.slot]? = none →
      Stands g r names client ⟨[], latest⟩

/-- What another client does leaves a client where it stands, as they have no key and no slot
in common. -/
theorem Stands.mono {g : GroupId} {r after : Registry} {names more : List Name} {client : Client}
    {session : Session} (stands : Stands g r names client session)
    (key_eq : after.keys[client.key]? = r.keys[client.key]?)
    (slot_eq : after.slots[client.slot]? = r.slots[client.slot]?) :
    Stands g after (names ++ more) client session := by
  cases stands with
  | ready key slot => exact .ready (key_eq.trans key) (slot_eq.trans slot)
  | working key slot => exact .working (key_eq.trans key) (slot_eq.trans slot)
  | checking key slot generated =>
      exact .checking (key_eq.trans key) (slot_eq.trans slot) (List.mem_append_left _ generated)
  | detached key slot => exact .detached (key_eq.trans key) (slot_eq.trans slot)
  | gone key slot => exact .gone (key_eq.trans key) (slot_eq.trans slot)

theorem Stands.gone_of_done {g : GroupId} {r : Registry} {names : List Name} {client : Client}
    {session : Session} (stands : Stands g r names client session) (done : session.todo = []) :
    r.keys[client.key]? = none ∧ r.slots[client.slot]? = none := by
  cases stands with
  | ready | checking | detached => cases done
  | @working left => cases left <;> cases done
  | gone key slot => exact ⟨key, slot⟩

/-- The client got the group, and found its name. -/
def Exchange.Succeeds {m : Nat} (g : GroupId) (exchange : Exchange m) : Prop :=
  (exchange.call = .attach → exchange.told = .replied (.group g)) ∧
    (exchange.call = .check → exchange.told = .checked true)

namespace Crowd

variable {m : Nat} {crowd : Crowd m} {policy : Policy} {r after : Registry} {g : GroupId}
  {group now later : ObjectGroup} {s : Scene m} {i : Fin m}

/-- What the calls keep of a registry `r` in which the group was `group` and is now `now`. It
is the invariant of the schedule: only the keys and slots of the clients and the one group
differ from `r`. -/
structure Shared (crowd : Crowd m) (r : Registry) (g : GroupId) (group now : ObjectGroup)
    (s : Scene m) : Prop where
  registry_eq : s.registry = { r with
    keys := s.registry.keys, slots := s.registry.slots, groups := r.groups.insert g now }
  key_eq : ∀ key, (∀ i, (crowd.clients i).key ≠ key) → s.registry.keys[key]? = r.keys[key]?
  slot_eq : ∀ slot, (∀ i, (crowd.clients i).slot ≠ slot) →
    s.registry.slots[slot]? = r.slots[slot]?
  stands : ∀ i, Stands g s.registry s.names (crowd.clients i) (s.sessions i)
  grown : group.Grown crowd.kind s.names now
  succeeds : ∀ exchange ∈ s.exchanges, exchange.Succeeds g
  calls_eq : ∀ i, s.callsOf i ++ (s.sessions i).todo = (crowd.clients i).calls
  wanted_eq : s.names.length + ∑ i, (s.sessions i).todo.count .generate =
    ∑ i, (crowd.clients i).wanted

theorem count_generate_work (left : Nat) :
    (ClientCall.work left).count .generate = left := by
  induction left with
  | zero => rfl
  | succ left ih => simp [ClientCall.work, ih]

/-- It holds before the first call. -/
theorem Fits.shared (fits : crowd.Fits r g group) (index : (group.names crowd.kind).Indexed) :
    crowd.Shared r g group group (crowd.gather r) where
  registry_eq := by
    rw [insert_eq_self fits.group_eq]
    rfl
  key_eq _ _ := rfl
  slot_eq _ _ := rfl
  stands i := .ready (fits.unattached i) (fits.unused i)
  grown := ⟨fun _ _ => rfl, rfl, index, rfl, (fun _ mem => by cases mem), List.nil_append _⟩
  succeeds := nofun
  calls_eq _ := rfl
  wanted_eq := by
    have names : (crowd.gather r).names = [] := rfl
    rw [names, List.length_nil, Nat.zero_add]
    apply Finset.sum_congr rfl
    intro i _
    simp [gather, Client.calls, count_generate_work]

/-- A call that is finished and answered as it should leaves the clients where they should be.
What is left to show for each of the five calls is then the call itself. -/
theorem Shared.advance {call : ClientCall} {todo : List ClientCall} {journal : Journal}
    (shared : crowd.Shared r g group now s) (fits : crowd.Fits r g group) (told : Told)
    (todo_eq : (s.sessions i).todo = call :: todo)
    (performed : s.registry.performAll policy (crowd.operations (crowd.clients i) call) =
      ⟨after, journal, []⟩)
    (told_eq : crowd.told (crowd.clients i) (s.sessions i).latest s.registry journal call = told)
    (registry_eq : after = { r with
      keys := after.keys, slots := after.slots, groups := r.groups.insert g later })
    (otherKeys : ∀ key, (crowd.clients i).key ≠ key → after.keys[key]? = s.registry.keys[key]?)
    (otherSlots : ∀ slot, (crowd.clients i).slot ≠ slot →
      after.slots[slot]? = s.registry.slots[slot]?)
    (stands : Stands g after (s.names ++ told.names) (crowd.clients i)
      ⟨todo, told.names.getLast?.getD (s.sessions i).latest⟩)
    (grown : group.Grown crowd.kind (s.names ++ told.names) later)
    (succeeds : (⟨i, call, told⟩ : Exchange m).Succeeds g)
    (counted : told.names.length = [call].count .generate) :
    ∃ s', crowd.next policy s i = some s' ∧ crowd.Shared r g group later s' ∧
      ∀ j, (s'.sessions j).todo = if j = i then todo else (s.sessions j).todo := by
  refine ⟨s.after i call todo told after, ?_, ?_, ?_⟩
  · simp only [Crowd.next, todo_eq, performed, told_eq, if_true]
  · constructor
    case registry_eq => exact registry_eq
    case key_eq =>
      intro key others
      rw [← shared.key_eq key others]
      exact otherKeys key (others i)
    case slot_eq =>
      intro slot others
      rw [← shared.slot_eq slot others]
      exact otherSlots slot (others i)
    case stands =>
      intro j
      rw [Scene.names_after]
      by_cases same : j = i
      · subst same
        rw [Scene.sessions_after_self]
        exact stands
      · rw [Scene.sessions_after_of_ne same]
        exact (shared.stands j).mono (otherKeys _ (fits.keys_injective.ne (Ne.symm same)))
          (otherSlots _ (fits.slots_injective.ne (Ne.symm same)))
    case grown => rwa [Scene.names_after]
    case succeeds =>
      intro exchange mem
      rcases List.mem_append.mp mem with earlier | new
      · exact shared.succeeds exchange earlier
      · rw [List.mem_singleton.mp new]
        exact succeeds
    case calls_eq =>
      exact fun j => (Scene.callsOf_after todo_eq j).trans (shared.calls_eq j)
    case wanted_eq =>
      have left := Scene.sum_count_after todo_eq told after .generate
      have wanted := shared.wanted_eq
      rw [Scene.names_after, List.length_append]
      omega
  · intro j
    by_cases same : j = i
    · subst same
      simp [Scene.sessions_after_self]
    · simp [Scene.sessions_after_of_ne same, same]

theorem Shared.root_eq (shared : crowd.Shared r g group now s) (fits : crowd.Fits r g group) :
    s.registry.keys[crowd.root]? = some g := by
  rw [shared.key_eq crowd.root ?_, fits.root_eq]
  intro i same
  have := fits.unattached i
  rw [same, fits.root_eq] at this
  cases this

theorem Shared.group_eq (shared : crowd.Shared r g group now s) :
    s.registry.groups[g]? = some now := by
  rw [shared.registry_eq]
  exact Std.ExtTreeMap.getElem?_insert_self

/-- As long as a client has names to generate, the group has one: those that exist and those
still wanted are fewer than all. -/
theorem Shared.room (shared : crowd.Shared r g group now s) (fits : crowd.Fits r g group)
    {todo : List ClientCall} (todo_eq : (s.sessions i).todo = .generate :: todo) :
    now.count crowd.kind + 1 < 2 ^ 32 := by
  have ahead : 1 ≤ ∑ j, (s.sessions j).todo.count .generate := by
    rw [Finset.sum_eq_add_sum_sdiff_singleton_of_mem (Finset.mem_univ i), todo_eq,
      List.count_cons_self]
    omega
  have room := fits.room
  have wanted := shared.wanted_eq
  have counted := shared.grown.count_eq
  omega

theorem Shared.registry_with (shared : crowd.Shared r g group now s)
    (keys : Std.ExtTreeMap ContextKey GroupId) (slots : Std.ExtTreeMap String GroupId) :
    { s.registry with keys := keys, slots := slots } =
      { r with keys := keys, slots := slots, groups := r.groups.insert g now } :=
  congrArg (fun registry : Registry => { registry with keys := keys, slots := slots })
    shared.registry_eq

/-- Every call of a client succeeds, whoever called before it, and takes one call off its list
and off no other. The cases are those of `Stands`: where the client stands says which call is
next and what it has of the group, and `Shared.advance` does the rest. -/
theorem Shared.call (shared : crowd.Shared r g group now s) (fits : crowd.Fits r g group)
    (policy : Policy) {call : ClientCall} {todo : List ClientCall}
    (todo_eq : (s.sessions i).todo = call :: todo) :
    ∃ later s', crowd.next policy s i = some s' ∧ crowd.Shared r g group later s' ∧
      ∀ j, (s'.sessions j).todo = if j = i then todo else (s.sessions j).todo := by
  have stands := shared.stands i
  have grown := shared.grown
  rw [← List.append_nil s.names] at grown
  generalize here : s.sessions i = session at stands
  have call_eq := todo_eq
  rw [here] at call_eq
  cases stands with
  | ready key slot =>
      cases call_eq
      have attached := Registry.perform_attach_new policy (shared.root_eq fits) key
      have kept := Registry.perform_keep_new policy
        (r := { s.registry with keys := s.registry.keys.insert (crowd.clients i).key g })
        Std.ExtTreeMap.getElem?_insert_self slot
      have performed := Registry.performAll_cons attached
        [.keep (crowd.clients i).slot (crowd.clients i).key]
      rw [Registry.performAll_singleton kept] at performed
      refine ⟨now, shared.advance fits (.replied (.group g)) todo_eq performed
        (congrArg (fun result : Registry.Result => Told.replied result.reply) attached)
        (shared.registry_with _ _) ?_ ?_ ?_ grown (by simp [Exchange.Succeeds]) rfl⟩
      · exact fun other differs => getElem?_insert_of_ne differs
      · exact fun other differs => getElem?_insert_of_ne differs
      · exact .working Std.ExtTreeMap.getElem?_insert_self Std.ExtTreeMap.getElem?_insert_self
  | @working left latest key slot =>
      cases left with
      | zero =>
          cases call_eq
          obtain ⟨journal, detached⟩ := Registry.perform_detach_owned policy key
            (Registry.shares_group_pos_iff.mpr (.inr (.inl ⟨_, slot⟩)))
          refine ⟨now, shared.advance fits (.replied .done) todo_eq
            (Registry.performAll_singleton detached)
            (congrArg (fun result : Registry.Result => Told.replied result.reply) detached)
            (shared.registry_with _ _) ?_ (fun _ _ => rfl) ?_ grown (by simp [Exchange.Succeeds])
            rfl⟩
          · exact fun other differs => getElem?_erase_of_ne differs
          · exact .detached Std.ExtTreeMap.getElem?_erase_self slot
      | succ left =>
          cases call_eq
          obtain ⟨l, out, handled, answer, nothing, grown⟩ :=
            shared.grown.generate (shared.room fits todo_eq) policy.successor
          have generated := Registry.perform_generate slot shared.group_eq handled nothing
          refine ⟨out.group, shared.advance fits (.answered [.name l]) todo_eq
            (Registry.performAll_singleton generated) ?_ ?_ (fun _ _ => rfl) (fun _ _ => rfl) ?_
            grown (by simp [Exchange.Succeeds]) rfl⟩
          · simp [told, Journal.answers, Entry.answer?, answer]
          · have written := congrArg (fun registry : Registry =>
              { registry with groups := registry.groups.insert g out.group }) shared.registry_eq
            dsimp only at written
            rwa [insert_insert_eq_insert] at written
          · exact .checking key slot (List.mem_append_right _ (List.mem_singleton_self l))
  | @checking left latest key slot generated =>
      cases call_eq
      have live := shared.grown.isLive latest generated
      refine ⟨now, shared.advance fits (.checked true) todo_eq rfl ?_
        shared.registry_eq (fun _ _ => rfl) (fun _ _ => rfl) ?_ grown (by simp [Exchange.Succeeds])
        rfl⟩
      · have refers : s.registry.find? (.slot (crowd.clients i).slot) = some g := slot
        have seen : s.registry.group? (.slot (crowd.clients i).slot) = some now := by
          rw [Registry.group?, refers, Option.bind_some, shared.group_eq]
        rw [here, told, seen, Option.any_some, live]
      · exact .working key slot
  | detached key slot =>
      cases call_eq
      have given := Registry.perform_letGo_owned policy slot
        (Registry.shares_group_pos_iff.mpr (.inl ⟨crowd.root, shared.root_eq fits⟩))
      refine ⟨now, shared.advance fits (.replied .done) todo_eq
        (Registry.performAll_singleton given)
        (congrArg (fun result : Registry.Result => Told.replied result.reply) given)
        (shared.registry_with _ _) (fun _ _ => rfl) ?_ ?_ grown (by simp [Exchange.Succeeds]) rfl⟩
      · exact fun other differs => getElem?_erase_of_ne differs
      · exact .gone key Std.ExtTreeMap.getElem?_erase_self
  | gone => cases call_eq

/-- Once all clients are gone, the keys and slots are what they were. The registries are then
equal as a whole, apart from the group that has new names. -/
theorem Shared.registry_of_done (shared : crowd.Shared r g group now s)
    (fits : crowd.Fits r g group) (done : ∀ i, (s.sessions i).todo = []) :
    s.registry = { r with groups := r.groups.insert g now } := by
  have keys : s.registry.keys = r.keys := by
    apply Std.ExtTreeMap.ext_getElem?
    intro key
    by_cases client : ∃ i, (crowd.clients i).key = key
    · obtain ⟨i, rfl⟩ := client
      rw [((shared.stands i).gone_of_done (done i)).1, fits.unattached i]
    · exact shared.key_eq key (not_exists.mp client)
  have slots : s.registry.slots = r.slots := by
    apply Std.ExtTreeMap.ext_getElem?
    intro slot
    by_cases client : ∃ i, (crowd.clients i).slot = slot
    · obtain ⟨i, rfl⟩ := client
      rw [((shared.stands i).gone_of_done (done i)).2, fits.unused i]
    · exact shared.slot_eq slot (not_exists.mp client)
  have same := shared.registry_eq
  rwa [keys, slots] at same

/-- Every schedule that gives each client all its calls is carried out to the end, by
induction on the schedule. -/
theorem Shared.play (shared : crowd.Shared r g group now s) (fits : crowd.Fits r g group)
    (policy : Policy) {schedule : List (Fin m)}
    (whole : ∀ i, schedule.count i = (s.sessions i).todo.length) :
    ∃ later final, crowd.play policy schedule s = some final ∧
      crowd.Shared r g group later final ∧ ∀ i, (final.sessions i).todo = [] := by
  induction schedule generalizing now s with
  | nil => exact ⟨now, s, rfl, shared, fun i => List.length_eq_zero_iff.mp (whole i).symm⟩
  | cons i schedule ih =>
      have mine := whole i
      rw [List.count_cons_self] at mine
      obtain ⟨call, todo, todo_eq⟩ := List.exists_cons_of_length_eq_add_one mine.symm
      obtain ⟨later, s', called, shared', left⟩ := shared.call fits policy todo_eq
      have whole' : ∀ j, schedule.count j = (s'.sessions j).todo.length := by
        intro j
        rw [left j]
        by_cases same : j = i
        · subst same
          rw [todo_eq, List.length_cons] at mine
          rw [if_pos rfl]
          exact Nat.succ.inj mine
        · rw [if_neg same, ← whole j, List.count_cons_of_ne (Ne.symm same)]
      obtain ⟨last, final, played, done⟩ := ih shared' whole'
      refine ⟨last, final, ?_, done⟩
      rw [Crowd.play, List.foldlM_cons, called]
      exact played

end Crowd

namespace Registry

variable {m : Nat} {crowd : Crowd m} {settings : Settings} {operations : List Operation}
  {log : Journal} {r : Registry} {g : GroupId} {group : ObjectGroup}

/-- In whatever order the calls of the clients come, each client gets the group and finds its
names. The names are the first free ones, so they are new and all different, and which ones
they are does not depend on the order. In the end they are all that is new. -/
theorem Run.interleaving_independent (run : Run settings operations log r [])
    (fits : crowd.Fits r g group) (policy : Policy) (schedule : List (Fin m))
    (whole : ∀ i, schedule.count i = (crowd.clients i).calls.length) :
    ∃ final now, crowd.play policy schedule (crowd.gather r) = some final ∧
      (∀ i, final.callsOf i = (crowd.clients i).calls) ∧
      (∀ exchange ∈ final.exchanges, exchange.Succeeds g) ∧
      final.names = (freeNames (group.names crowd.kind).isLive
        (group.names crowd.kind).nextLocal).take (∑ i, (crowd.clients i).wanted) ∧
      final.names.length = ∑ i, (crowd.clients i).wanted ∧
      final.names.Nodup ∧
      (∀ l ∈ final.names, l ≠ 0 ∧ (group.names crowd.kind).isLive l = false) ∧
      final.registry = { r with groups := r.groups.insert g now } ∧
      now.count crowd.kind = group.count crowd.kind + ∑ i, (crowd.clients i).wanted ∧
      ∀ other, other ≠ crowd.kind → now.table other = group.table other := by
  have index := (run.sound g group fits.group_eq crowd.kind).index
  obtain ⟨now, final, played, shared, done⟩ := (fits.shared index).play fits policy whole
  have issued : final.names.length = ∑ i, (crowd.clients i).wanted := by
    have wanted := shared.wanted_eq
    simpa [done] using wanted
  have first : final.names = (freeNames (group.names crowd.kind).isLive
      (group.names crowd.kind).nextLocal).take (∑ i, (crowd.clients i).wanted) := by
    rw [← shared.grown.order, ← issued, List.take_left]
  have free : ∀ l ∈ final.names, IsFree (group.names crowd.kind).isLive l := by
    intro l mem
    rw [first] at mem
    exact mem_freeNames.mp (List.mem_of_mem_take mem)
  refine ⟨final, now, played, ?_, shared.succeeds, first, issued, ?_, free, ?_, ?_,
    shared.grown.table_eq⟩
  · intro i
    have calls := shared.calls_eq i
    rwa [done, List.append_nil] at calls
  · rw [first]
    exact nodup_freeNames.sublist (List.take_sublist _ _)
  · exact shared.registry_of_done fits done
  · rw [shared.grown.count_eq, issued]

/-- Two clients that generate textures. -/
def pair : Crowd 2 where
  root := .handle 0
  kind := .texture
  clients
    | 0 => ⟨.handle 1, "first", 2⟩
    | 1 => ⟨.handle 2, "second", 1⟩

/-- The counter of the group goes round and finds `2` in use; the calls of the two clients take
turns. -/
theorem Run.interleaving_independent_past_the_largest :
    ∃ operations log r group final now,
      Run ⟨.reuse, 0xFFFFFFFF⟩ operations log r [] ∧ pair.Fits r 0 group ∧
      pair.play .standard [0, 1, 1, 0, 0, 1, 0, 1, 0, 1, 0, 0] (pair.gather r) = some final ∧
      final.names = [1, 3, 4] ∧ final.names.Nodup ∧
      (∀ exchange ∈ final.exchanges, exchange.Succeeds 0) ∧
      final.registry = { r with groups := r.groups.insert 0 now } := by
  have fresh : Run ⟨.reuse, 0xFFFFFFFF⟩ [] [] _ [] := .start
  have run := fresh.performAll .standard
    [.create (.handle 0), .act (.key (.handle 0)) (.generate .texture [0]),
      .act (.key (.handle 0)) (.rebind .texture 2 7)] (by decide)
  generalize reached :
    (Registry.performAll .standard (empty ⟨.reuse, 0xFFFFFFFF⟩) _).registry = r at run
  have there : (r.groups[0]?).isSome := by
    rw [← reached]
    decide
  obtain ⟨group, there⟩ := Option.isSome_iff_exists.mp there
  have fits : pair.Fits r 0 group := by
    constructor
    case group_eq => exact there
    case keys_injective => decide
    case slots_injective => decide
    case room =>
      have room : r.groups[0]?.all fun group =>
          group.count pair.kind + ∑ i, (pair.clients i).wanted ≤ 2 ^ 32 - 1 := by
        rw [← reached]
        decide
      simpa [there] using room
    all_goals
      rw [← reached]
      decide
  obtain ⟨final, now, played, -, succeeds, -, -, distinct, -, registry_eq, -⟩ :=
    run.interleaving_independent fits .standard [0, 1, 1, 0, 0, 1, 0, 1, 0, 1, 0, 0] (by decide)
  refine ⟨_, _, r, group, final, now, run, fits, played, ?_, distinct, succeeds, registry_eq⟩
  have names : (pair.play .standard [0, 1, 1, 0, 0, 1, 0, 1, 0, 1, 0, 0] (pair.gather r)).map
      Scene.names = some [1, 3, 4] := by
    rw [← reached]
    decide
  rw [played] at names
  exact Option.some.inj names

end Registry

end SharedNames
