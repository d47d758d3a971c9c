import Mathlib.Logic.Relation
import Mathlib.Order.WellFounded
import Mathlib.Order.WellFoundedSet
import SharedNames.Proofs.Registry.Destructors

/-!
What is left when every client has given up everything.

A payload lives as long as something refers to it, at every moment of every run, and no
payload is lost from the books. So after a teardown, which empties the tables of the
clients, only payloads can hold groups, and only groups payloads: what is still there
hangs on a cycle of groups, each of which stores a payload that holds the next one.

A teardown can only empty the held entries if no destructor makes one. A destructor
that carries out one request on its group does not.

* `Run.labels`: the destroyed payloads and those that are there are those offered.
* `performAll_closing`: what closing operations leave in the tables of the clients.
* `exists_cycle_behind`: going back from owner to owner among finitely many ends in a
  cycle.
* `Run.conservation` puts these together.
-/

namespace SharedNames

/-- The label of a payload that somebody offered, when it was taken up or refused. -/
def Entry.offered? : Entry → Option String
  | payloadMade _ label | payloadRefused _ _ _ _ label => some label
  | noted _ | groupMade _ _ | performed _ _ _ _ _ _ | payloadDestroyed _ _ | groupDestroyed _ _ _ =>
    none

def Journal.offers (journal : Journal) : List String :=
  journal.filterMap Entry.offered?

/-! ### What destructors do to held entries -/

/-- Whether an action makes no held entry, and brings no payload whose destructor does. -/
def Action.holdsNothing : Action → Bool
  | generate _ _ | delete _ _ | rebind _ _ _ => true
  | attachHeld _ _ _ hold | attachNew _ _ _ hold => hold.isNone
  | attachActing _ _ _ _ action hold => hold.isNone && action.holdsNothing
  | fetch _ _ _ => false

theorem Action.brings_of_holdsNothing {action : Action} (quiet : action.holdsNothing) :
    action.brings holdsNothing := by
  cases action with
  | attachActing kind l label target action hold =>
      simp only [holdsNothing, Bool.and_eq_true] at quiet
      exact quiet.2
  | generate | delete | rebind | attachHeld | attachNew | fetch => rfl

def Operation.attaches? : Operation → Option ContextKey
  | create key | attach key _ => some key
  | detach _ | keep _ _ | letGo _ | releaseHeld _ | act _ _ => none

def passedKeys (operations : List Operation) : List ContextKey :=
  operations.filterMap Operation.attaches?

def Operation.closes : Operation → Bool
  | detach _ | letGo _ | releaseHeld _ => true
  | create _ | attach _ _ | keep _ _ | act _ _ => false

namespace Registry

variable {policy : Policy} {rest tasks : List Task} {r after : Registry} {task : Task} {step : Step}
  {gained : List Handle} {journal : Journal}

/-- A task that makes no held entry leaves those that there are. Only fetching, and attaching
under a name, make one. -/
theorem Effect.held_eq (effect : Effect policy rest r task gained step)
    (quiet : task.acts Action.holdsNothing) : step.registry.held = r.held := by
  cases effect with
  | kept | absent | groupDestroyed | payloadDestroyed | answered | unanswered | idle | refused =>
      rfl
  | @attached issuer g kind l source name p found =>
      obtain rfl := Option.isNone_iff_eq_none.mp quiet
      rfl
  | fetched => cases quiet
  | @offered issuer g action offer offers takes =>
      cases action with
      | attachNew kind l label name =>
          cases offers
          obtain rfl := Option.isNone_iff_eq_none.mp quiet
          rfl
      | attachActing kind l label target action name =>
          cases offers
          simp only [Task.acts, Action.holdsNothing, Bool.and_eq_true] at quiet
          obtain rfl := Option.isNone_iff_eq_none.mp quiet.1
          rfl
      | generate | delete | rebind | attachHeld | fetch => cases offers

/-! ### Cascades and runs without holders -/

/-- What follows from releases leaves the held entries alone where destructors do. -/
theorem Cascade.held_eq {left : List Task} (cascade : Cascade policy r tasks journal after left)
    (quiet : r.DestructorsAre Action.holdsNothing)
    (silent : ∀ task ∈ tasks, task.acts Action.holdsNothing) :
    after.held = r.held ∧ after.DestructorsAre Action.holdsNothing := by
  induction cascade with
  | rest => exact ⟨rfl, quiet⟩
  | @step r after task rest left step journal stepped _ ih =>
      obtain ⟨gained, effect⟩ := effect_of_step stepped
      obtain ⟨own, others⟩ := List.forall_mem_cons.mp silent
      have brings : task.acts (Action.brings Action.holdsNothing) := by
        cases task with
        | act issuer g action => exact Action.brings_of_holdsNothing own
        | release | store => rfl
      have following : ∀ task ∈ step.tasks, task.acts Action.holdsNothing :=
        effect.acts (fun _ _ _ _ => rfl) (fun _ => id) quiet brings own
      obtain ⟨same, still⟩ := ih (effect.destructors quiet brings)
        (List.forall_mem_append.mpr ⟨following, others⟩)
      exact ⟨same.trans (effect.held_eq own), still⟩

variable {operation : Operation} {change : Change}

/-- An operation attaches only the key that it is given. So a client that remembers the keys
it passed knows all that can be attached. -/
theorem Opening.attaches (opening : Opening r operation gained change) {key : ContextKey}
    {g : GroupId}
    (found : change.registry.keys[key]? = some g) :
    r.keys[key]? = some g ∨ operation.attaches? = some key := by
  cases opening with
  | unchanged | kept | letGo | released | acting => exact .inl found
  | @created given | @attached given =>
      rcases getElem?_of_insert found with ⟨rfl, -⟩ | found
      · exact .inr rfl
      · exact .inl found
  | @detached given =>
      exact .inl (getElem?_of_erase found)

namespace Run

variable {settings : Settings} {operations : List Operation} {log : Journal}

/-- Only keys that were passed to an operation are attached. -/
theorem mem_passedKeys (run : Run settings operations log r tasks) {key : ContextKey} {g : GroupId}
    (found : r.keys[key]? = some g) : key ∈ passedKeys operations := by
  induction run with
  | start => simp [empty] at found
  | @operate operations log r operation run ih =>
      rw [passedKeys, List.filterMap_append, List.mem_append]
      obtain ⟨gained, opening⟩ := opening_of_change r operation
      refine (opening.attaches found).imp ih fun given => ?_
      exact List.mem_filterMap.mpr ⟨operation, List.mem_cons_self, given⟩
  | step run stepped ih =>
      obtain ⟨gained, effect⟩ := effect_of_step stepped
      rw [effect.tables_eq.1] at found
      exact ih found

end Run

/-! ### Closing operations -/

/-- The registry without the entry that a closing operation is about. -/
def without (r : Registry) : Operation → Registry
  | .detach key => { r with keys := r.keys.erase key }
  | .letGo slot => { r with slots := r.slots.erase slot }
  | .releaseHeld name => { r with held := r.held.erase name }
  | .create _ | .attach _ _ | .keep _ _ | .act _ _ => r

/-- A closing operation takes out its entry, if it is there, and releases a share. -/
theorem change_closing (closes : operation.closes) :
    (r.change operation).registry = r.without operation ∧
      ∀ task ∈ (r.change operation).tasks, task.acts Action.holdsNothing := by
  cases operation with
  | create | attach | keep | act => cases closes
  | detach key =>
      cases found : r.keys[key]? <;>
        simp [change, detach, found, without, erase_eq_self, releaseGroup, Task.acts]
  | letGo slot =>
      cases found : r.slots[slot]? <;>
        simp [change, letGo, found, without, erase_eq_self, releaseGroup, Task.acts]
  | releaseHeld name =>
      cases found : r.held[name]? <;>
        simp [change, releaseHeld, found, without, erase_eq_self, Task.acts]

def Open (r : Registry) : Operation → Prop
  | .detach key => key ∈ r.keys
  | .letGo slot => slot ∈ r.slots
  | .releaseHeld name => name ∈ r.held
  | .create _ | .attach _ _ | .keep _ _ | .act _ _ => False

theorem open_congr (keys : after.keys = r.keys) (slots : after.slots = r.slots)
    (held : ∀ name, operation = .releaseHeld name → after.held = r.held) :
    after.Open operation ↔ r.Open operation := by
  cases operation with
  | releaseHeld name => simp only [Open, held name rfl]
  | create | attach | detach | keep | letGo | act => simp only [Open, keys, slots]

theorem open_of_without {other : Operation} (still : (r.without operation).Open other) :
    r.Open other ∧ other ≠ operation := by
  refine ⟨?_, ?_⟩
  · cases operation <;> cases other <;>
      first
      | exact still
      | exact Std.ExtTreeMap.mem_of_mem_erase still
  · rintro rfl
    cases other with
    | create | attach | keep | act => exact still
    | detach | letGo | releaseHeld => simp [Open, without] at still

/-- After closing operations the entries that they are about are not there. Those of held
payloads could be made again by a destructor, so for them destructors have to leave held
entries alone. -/
theorem performAll_closing {closing : List Operation}
    (quiet : ∀ name, operation = .releaseHeld name → r.DestructorsAre Action.holdsNothing)
    (closes : ∀ operation ∈ closing, operation.closes)
    (finished : (r.performAll policy closing).residual = [])
    (still : (r.performAll policy closing).registry.Open operation) :
    r.Open operation ∧ operation ∉ closing := by
  induction closing generalizing r with
  | nil => exact ⟨still, List.not_mem_nil⟩
  | cons first closing ih =>
      obtain ⟨own, others⟩ := List.forall_mem_cons.mp closes
      obtain ⟨changes, silent⟩ := change_closing (r := r) own
      rw [performAll] at finished still
      split at finished
      case isFalse stuck => exact absurd finished stuck
      case isTrue settled =>
        rw [if_pos settled] at still
        have settles := (settle_ends policy (r.change first).registry (r.change first).tasks).1
        have held name (same : operation = .releaseHeld name) :=
          settles.held_eq
            ((opening_of_change r first).choose_spec.destructors (quiet name same)) silent
        obtain ⟨before, absent⟩ := ih (fun name same => (held name same).2) others finished still
        have here := (open_congr settles.tables_eq.1 settles.tables_eq.2
          fun name same => (held name same).1).mp before
        rw [changes] at here
        obtain ⟨there, differ⟩ := open_of_without here
        exact ⟨there, List.not_mem_cons_of_ne_of_not_mem differ absent⟩

theorem closes_of_mem_closing {keys : List ContextKey} (mem : operation ∈ r.closing keys) :
    operation.closes := by
  simp only [closing, List.mem_append, List.mem_map] at mem
  obtain (⟨_, -, rfl⟩ | ⟨_, -, rfl⟩) | ⟨_, -, rfl⟩ := mem <;> rfl

/-- The teardown is about every entry that is there. The keys come from the client and the
other two kinds of entries from the registry itself. -/
theorem mem_closing {keys : List ContextKey} (passed : ∀ key ∈ r.keys, key ∈ keys)
    (there : r.Open operation) : operation ∈ r.closing keys := by
  simp only [closing, List.mem_append, List.mem_map, List.mem_mergeSort, Std.ExtTreeMap.mem_keys]
  cases operation with
  | create | attach | keep | act => cases there
  | detach key => exact .inr ⟨key, passed key there, rfl⟩
  | letGo slot => exact .inl (.inr ⟨slot, there, rfl⟩)
  | releaseHeld name => exact .inl (.inl ⟨name, there, rfl⟩)

/-- A teardown leaves no keys and slots, and no held entries where destructors make none. -/
theorem Run.tables_empty {settings : Settings} {operations : List Operation} {log : Journal}
    (run : Run settings operations log r [])
    (finished : (r.performAll policy (r.closing (passedKeys operations))).residual = []) :
    let final := (r.performAll policy (r.closing (passedKeys operations))).registry
    final.keys = ∅ ∧ final.slots = ∅ ∧
      ((∀ operation ∈ operations, operation.brings Action.holdsNothing) → final.held = ∅) := by
  intro final
  have closed (operation : Operation)
      (quiet : ∀ name, operation = .releaseHeld name → r.DestructorsAre Action.holdsNothing) :
      ¬ final.Open operation := by
    intro still
    obtain ⟨there, absent⟩ :=
      performAll_closing quiet (fun _ => closes_of_mem_closing) finished still
    refine absent (mem_closing (fun key attached => ?_) there)
    obtain ⟨g, found⟩ :=
      Option.isSome_iff_exists.mp (Std.ExtTreeMap.isSome_getElem?_iff_mem.mpr attached)
    exact run.mem_passedKeys found
  refine ⟨?_, ?_, fun brings => ?_⟩ <;>
    refine Std.ExtTreeMap.eq_empty_iff_forall_not_mem.mpr fun k mem => ?_
  · exact closed (.detach k) (fun _ => nofun) mem
  · exact closed (.letGo k) (fun _ => nofun) mem
  · exact closed (.releaseHeld k)
      (fun _ _ => (run.destructors (fun _ => Action.brings_of_holdsNothing) brings).1) mem

/-! ### Payloads on the books -/

def labels (r : Registry) : List String :=
  (valuesOf r.payloads).map Payload.label

/-- A task destroys what was there, or refuses what was just offered. Labels need not be
different, so they are compared as multisets. -/
theorem Effect.labels (effect : Effect policy rest r task gained step)
    (fresh : r.payloads[r.payloadsMade]? = none) :
    (step.journal.drops ++ step.registry.labels).Perm (r.labels ++ step.journal.offers) := by
  have silent (journal : Journal) (after : Registry) (drops : journal.drops = [])
      (offers : journal.offers = []) (same : after.payloads = r.payloads) :
      (journal.drops ++ after.labels).Perm (r.labels ++ journal.offers) := by
    simp [drops, offers, Registry.labels, same]
  cases effect with
  | kept | absent | groupDestroyed | answered | unanswered | idle => exact silent _ _ rfl rfl rfl
  | @attached _ _ _ _ _ name => cases name <;> exact silent _ _ rfl rfl rfl
  | fetched => exact silent _ _ rfl rfl rfl
  | @payloadDestroyed p payload last found =>
      have erased := (valuesOf_perm_of_getElem? found).map Payload.label
      refine erased.symm.trans ?_
      rw [show Journal.offers [.payloadDestroyed p payload.label] = [] from rfl, List.append_nil]
      exact .refl _
  | refused => exact List.perm_append_comm
  | @offered issuer g action offer offers takes =>
      have written :=
        (valuesOf_insert_perm r.payloads r.payloadsMade offer.payload).map Payload.label
      rw [erase_eq_self fresh, List.map_cons] at written
      simp only [Registry.labels, payloads_hold, take]
      exact written.trans (List.perm_append_singleton _ _).symm

/-- The records of an operation destroy no payload, and its other events neither. -/
theorem Opening.labels (opening : Opening r operation gained change) :
    (change.journal.drops ++ change.registry.labels).Perm (r.labels ++ change.journal.offers) := by
  have noted (records : List Record) : Journal.drops (records.map .noted) = [] ∧
      Journal.offers (records.map .noted) = [] := by
    simp [Journal.drops, Journal.offers, Entry.dropped?, Entry.offered?]
  have silent (journal : Journal) (after : Registry)
      (nothing : journal.drops = [] ∧ journal.offers = [])
      (same : after.payloads = r.payloads) :
      (journal.drops ++ after.labels).Perm (r.labels ++ journal.offers) := by
    simp [nothing, Registry.labels, same]
  cases opening with
  | unchanged records => exact silent _ _ (noted records) rfl
  | @created key records =>
      have one : Journal.drops (records.map .noted ++ [.groupMade r.groupsMade key]) = [] ∧
          Journal.offers (records.map .noted ++ [.groupMade r.groupsMade key]) = [] := by
        simp [Journal.drops, Journal.offers, Entry.dropped?, Entry.offered?]
      exact silent _ _ one rfl
  | attached | detached | kept | letGo | released | acting => exact silent _ _ ⟨rfl, rfl⟩ rfl

theorem labels_append {log journal : Journal} (before : (log.drops ++ r.labels).Perm log.offers)
    (own : (journal.drops ++ after.labels).Perm (r.labels ++ journal.offers)) :
    (Journal.drops (log ++ journal) ++ after.labels).Perm (Journal.offers (log ++ journal)) := by
  simp only [Journal.drops, Journal.offers, List.filterMap_append,
    List.append_assoc] at own before ⊢
  refine (own.append_left _).trans ?_
  rw [← List.append_assoc]
  exact before.append_right _

/-- The labels of the destroyed payloads and of those that are there are those offered. So no
payload is lost without a record, and none is recorded twice. -/
theorem Run.labels {settings : Settings} {operations : List Operation} {log : Journal}
    (run : Run settings operations log r tasks) : (log.drops ++ r.labels).Perm log.offers := by
  refine run.invariant (P := fun log r _ => (log.drops ++ r.labels).Perm log.offers) ?_ ?_ ?_
  · simp [Journal.drops, Journal.offers, Registry.labels, empty]
  · exact fun before _ opening => labels_append before opening.labels
  · exact fun before accounted effect => labels_append before
      (effect.labels accounted.fresh_payload)

/-! ### Cycles of owners -/

/-- Going back from owner to owner among finitely many, one comes to a cycle. There is no need
for the start to be part of it. -/
theorem exists_cycle_behind {α : Type} {there : α → Prop} {owns : α → α → Prop}
    (finite : {a | there a}.Finite) (owned : ∀ a, there a → ∃ b, there b ∧ owns b a) {a : α}
    (start : there a) : ∃ c, Relation.ReflTransGen owns c a ∧ Relation.TransGen owns c c := by
  by_contra acyclic
  push Not at acyclic
  let Behind := {b // there b ∧ Relation.ReflTransGen owns b a}
  have : Finite Behind := finite.subset fun _ behind => behind.1
  let before (b c : Behind) : Prop := Relation.TransGen owns b.1 c.1
  have : IsTrans Behind before := ⟨fun _ _ _ => Relation.TransGen.trans⟩
  have : Std.Irrefl before := ⟨fun b => acyclic b.1 b.2.2⟩
  -- Among those behind `a` there is one without an owner among them.
  obtain ⟨first, -, least⟩ :=
    (Finite.wellFounded_of_trans_of_irrefl before).has_min Set.univ ⟨⟨a, start, .refl⟩, trivial⟩
  obtain ⟨owner, alive, owns⟩ := owned first.1 first.2.1
  exact least ⟨owner, alive, .head owns first.2.2⟩ trivial (.single owns)

/-- Whether a group stores a payload whose destructor holds another one. -/
def Holds (r : Registry) (owner g : GroupId) : Prop :=
  ∃ (group : ObjectGroup) (kind : ObjectKind) (l : Name) (p : PayloadId) (payload : Payload)
    (destructor : Destructor),
    r.groups[owner]? = some group ∧ group.payload? kind l = some p ∧ r.payloads[p]? = some payload ∧
      payload.destructor = some destructor ∧ destructor.target = g

/-- Where clients have nothing, only a group can hold another one: its share belongs to the
destructor of a payload, and that payload is stored in a group. -/
theorem exists_holder (accounted : Accounted r []) (keys : r.keys = ∅) (slots : r.slots = ∅)
    (held : r.held = ∅) {g : GroupId} (there : r.has (.group g)) :
    ∃ owner, r.has (.group owner) ∧ r.Holds owner g := by
  have shared := (accounted.has_iff _).mp there
  rw [sharesWith_nil, shares_group_pos_iff, keys, slots] at shared
  obtain ⟨_, none⟩ | ⟨_, none⟩ | ⟨p, payload, destructor, found, acts, same⟩ := shared
  · simp at none
  · simp at none
  · have stored := (accounted.has_iff (.payload p)).mp (has_payload_iff.mpr ⟨payload, found⟩)
    rw [sharesWith_nil, shares_payload_pos_iff, held] at stored
    obtain ⟨_, none⟩ | ⟨owner, group, kind, l, alive, entry⟩ := stored
    · simp at none
    · exact ⟨owner, has_group_iff.mpr ⟨group, alive⟩,
        group, kind, l, p, payload, destructor, alive, entry, found, acts, same⟩

/-- Where clients have nothing and no group is there, nothing is: payloads without a group to
store them have no share. -/
theorem has_nothing (accounted : Accounted r []) (held : r.held = ∅)
    (none : ∀ g, ¬ r.has (.group g)) (h : Handle) : ¬ r.has h := by
  cases h with
  | group g => exact none g
  | payload p =>
      intro there
      have stored := (accounted.has_iff (.payload p)).mp there
      rw [sharesWith_nil, shares_payload_pos_iff, held] at stored
      obtain ⟨_, absent⟩ | ⟨owner, group, _, _, alive, _⟩ := stored
      · simp at absent
      · exact none owner (has_group_iff.mpr ⟨group, alive⟩)

/-! ### Conservation -/

def Referred (r : Registry) (p : PayloadId) : Prop :=
  (∃ name : String, r.held[name]? = some p) ∨
    ∃ (g : GroupId) (group : ObjectGroup) (kind : ObjectKind) (l : Name),
      r.groups[g]? = some group ∧ group.payload? kind l = some p

/-- The payloads of a registry at a moment, where `log` is what happened so far and
`tasks` remain to be done. -/
structure PayloadsCounted (log : Journal) (r : Registry) (tasks : List Task) : Prop where
  /-- A payload is there as long as something refers to it, or remains to be done with it. -/
  there_iff : ∀ p, r.has (.payload p) ↔
    r.Referred p ∨ ∃ task ∈ tasks, .payload p ∈ task.handles
  /-- A payload that was taken up is there or was destroyed. -/
  destroyed_iff : ∀ p, .payload p ∈ log.destroyed ↔
    .payload p ∈ log.made ∧ r.has (.payload p) = false
  destroyed_once : log.destroyed.Nodup
  /-- The same by labels, with the payloads that were refused. -/
  labels : (log.drops ++ r.labels).Perm log.offers
  /-- What is done next destroys a payload exactly if it leaves it without a share. Nothing
  refers to it then, also not before. -/
  next_step : ∀ policy task rest step p, tasks = task :: rest →
    r.step policy rest task = some step → r.has (.payload p) →
      (.payload p ∈ step.journal.destroyed ↔
        ¬ step.registry.Referred p ∧ ∀ task ∈ step.tasks ++ rest, .payload p ∉ task.handles) ∧
      (.payload p ∈ step.journal.destroyed → ¬ r.Referred p)
  /-- The next operation destroys a payload exactly if it leaves it without a share. -/
  next_operation : ∀ policy operation p, tasks = [] → r.has (.payload p) →
    (r.perform policy operation).residual = [] →
      (.payload p ∈ (r.perform policy operation).journal.destroyed ↔
        ¬ (r.perform policy operation).registry.Referred p)

/-- What is left of groups and payloads when the clients have nothing. -/
structure TornDown (log : Journal) (r : Registry) : Prop where
  /-- Behind every group that is left there is a cycle of groups that hold one another. -/
  cycle_of_group : ∀ g, r.has (.group g) →
    ∃ h, Relation.ReflTransGen r.Holds h g ∧ Relation.TransGen r.Holds h h
  /-- Without a cycle everything that was made was destroyed once. -/
  destroyed_of_acyclic : (∀ g, ¬ Relation.TransGen r.Holds g g) →
    (∀ h ∈ log.made, log.destroyed.count h = 1) ∧ log.drops.Perm log.offers ∧
      r.groups = ∅ ∧ r.payloads = ∅

theorem sharesWith_payload_pos_iff {p : PayloadId} :
    0 < r.sharesWith tasks (.payload p) ↔
      r.Referred p ∨ ∃ task ∈ tasks, .payload p ∈ task.handles := by
  have owned : 0 < pending tasks (.payload p) ↔ ∃ task ∈ tasks, .payload p ∈ task.handles := by
    rw [pending, List.count_pos_iff, List.mem_flatMap]
  rw [Referred, ← shares_payload_pos_iff, ← owned, sharesWith]
  omega

theorem sharesWith_payload_eq_zero_iff {p : PayloadId} :
    r.sharesWith tasks (.payload p) = 0 ↔
      ¬ r.Referred p ∧ ∀ task ∈ tasks, .payload p ∉ task.handles := by
  have pos : 0 < r.sharesWith tasks (.payload p) ↔ _ := sharesWith_payload_pos_iff
  rw [Nat.pos_iff_ne_zero] at pos
  rw [← not_iff_not, ← ne_eq, pos]
  simp only [not_and_or, not_not, not_forall, exists_prop]

/-- A task destroys a payload when it releases it and nothing else has a share. No other task,
and no request, takes a payload out of the registry. -/
theorem Effect.of_payloadDestroyed (effect : Effect policy rest r task gained step) {p : PayloadId}
    (mem : .payload p ∈ step.journal.destroyed) : r.sharesWith rest (.payload p) = 0 := by
  cases effect with
  | kept | absent | unanswered | idle | fetched => cases mem
  | @attached _ _ _ _ _ name => cases name <;> cases mem
  | answered | refused | offered | groupDestroyed =>
      simp [Journal.destroyed, Entry.destroyed?] at mem
  | @payloadDestroyed p payload last found =>
      cases List.mem_singleton.mp mem
      exact last

namespace Run

variable {settings : Settings} {operations : List Operation} {log : Journal}

/-- The payloads of a run are counted exactly, at the moments within an operation as well. -/
theorem payloads_counted (run : Run settings operations log r tasks) :
    PayloadsCounted log r tasks where
  there_iff p := by rw [run.accounted.has_iff, sharesWith_payload_pos_iff]
  destroyed_iff p := by rw [run.books.destroyed_iff, run.books.made_iff, Bool.not_eq_true]
  destroyed_once := run.books.destroyed_nodup
  labels := run.labels
  next_step policy task rest step p pending stepped there := by
    subst pending
    refine ⟨?_, fun destroyed => ?_⟩
    · rw [run.step_destroyed_iff stepped there, sharesWith_payload_eq_zero_iff]
    · obtain ⟨gained, effect⟩ := effect_of_step stepped
      exact (sharesWith_payload_eq_zero_iff.mp (effect.of_payloadDestroyed destroyed)).1
  next_operation policy operation p none there finished := by
    subst none
    have shared := (run.accounted.has_iff _).mp there
    rw [run.perform_destroyed_iff policy operation shared, finished, sharesWith_payload_eq_zero_iff]
    simp

/-- What is left when the clients have nothing hangs on cycles: going back from holder to
holder never ends outside of one, as every group that is left has a holder among the finitely
many that are. -/
theorem torn_down (run : Run settings operations log r []) (keys : r.keys = ∅) (slots : r.slots = ∅)
    (held : r.held = ∅) : TornDown log r where
  cycle_of_group g there := by
    have finite : {g | r.has (.group g)}.Finite :=
      (Set.finite_Iio r.groupsMade).subset fun g alive => run.accounted.made_of_has (.group g) alive
    exact exists_cycle_behind finite
      (fun g alive => exists_holder run.accounted keys slots held alive) there
  destroyed_of_acyclic acyclic := by
    have finite : {g | r.has (.group g)}.Finite :=
      (Set.finite_Iio r.groupsMade).subset fun g alive => run.accounted.made_of_has (.group g) alive
    have nothing := has_nothing run.accounted held fun g there =>
      have ⟨h, _, cycle⟩ := exists_cycle_behind finite
        (fun g alive => exists_holder run.accounted keys slots held alive) there
      acyclic h cycle
    have groups : r.groups = ∅ := Std.ExtTreeMap.eq_empty_iff_forall_not_mem.mpr fun g mem =>
      nothing (.group g) (Std.ExtTreeMap.contains_iff_mem.mpr mem)
    have payloads : r.payloads = ∅ := Std.ExtTreeMap.eq_empty_iff_forall_not_mem.mpr fun p mem =>
      nothing (.payload p) (Std.ExtTreeMap.contains_iff_mem.mpr mem)
    refine ⟨fun h made => ?_, ?_, groups, payloads⟩
    · refine List.count_eq_one_of_mem run.books.destroyed_nodup ?_
      exact (run.books.destroyed_iff h).mpr ⟨(run.books.made_iff h).mp made, nothing h⟩
    · simpa [Registry.labels, payloads] using run.labels

/-- At every moment of every run the payloads are conserved: each one is there as long as
something refers to it, and is destroyed by the release that leaves it without a reference. A
teardown leaves the clients nothing, and of the rest only what hangs on a cycle of groups.
Without cycles everything that was made is destroyed, once. -/
theorem conservation (run : Run settings operations log r tasks) :
    PayloadsCounted log r tasks ∧
      (tasks = [] → ∀ policy,
        let torn := r.performAll policy (r.closing (passedKeys operations))
        torn.residual = [] →
          PayloadsCounted (log ++ torn.journal) torn.registry [] ∧
          torn.registry.keys = ∅ ∧ torn.registry.slots = ∅ ∧
          ((∀ operation ∈ operations, operation.brings Action.holdsNothing) →
            torn.registry.held = ∅) ∧
          (torn.registry.held = ∅ → TornDown (log ++ torn.journal) torn.registry)) := by
  refine ⟨run.payloads_counted, ?_⟩
  rintro rfl policy torn finished
  have longer := run.performAll policy (r.closing (passedKeys operations)) finished
  obtain ⟨keys, slots, held⟩ := run.tables_empty finished
  exact ⟨longer.payloads_counted, keys, slots, held, longer.torn_down keys slots⟩

/-- One group stores a payload that holds it, and another one stores a payload that holds
the first and is destroyed with it. -/
theorem conservation_of_cycle :
    ∃ log r, Run ⟨.reuse, 1⟩
        [.create (.label "a"), .act (.key (.label "a")) (.generate .texture [0]),
          .act (.key (.label "a"))
            (.attachActing .texture 1 "self" (.key (.label "a")) (.delete .texture 1) none),
          .create (.label "b"), .act (.key (.label "b")) (.generate .shader [0]),
          .act (.key (.label "b"))
            (.attachActing .shader 1 "other" (.key (.label "a"))
              (.delete .texture 2) none)] log r [] ∧
      (r.performAll .standard [.detach (.label "a"), .detach (.label "b")]).journal.drops =
        ["other"] ∧
      ∃ h, Relation.ReflTransGen
          (r.performAll .standard [.detach (.label "a"), .detach (.label "b")]).registry.Holds h 0 ∧
        Relation.TransGen
          (r.performAll .standard
            [.detach (.label "a"), .detach (.label "b")]).registry.Holds h h := by
  have fresh : Run ⟨.reuse, 1⟩ [] [] _ [] := .start
  have run := fresh.performAll .standard
    [.create (.label "a"), .act (.key (.label "a")) (.generate .texture [0]),
      .act (.key (.label "a"))
        (.attachActing .texture 1 "self" (.key (.label "a")) (.delete .texture 1) none),
      .create (.label "b"), .act (.key (.label "b")) (.generate .shader [0]),
      .act (.key (.label "b"))
        (.attachActing .shader 1 "other" (.key (.label "a")) (.delete .texture 2) none)] (by decide)
  refine ⟨_, _, run, by decide, ?_⟩
  have teardown := run.conservation.2 rfl .standard
  have sorted : [ContextKey.label "a", .label "b"].mergeSort (fun a b => (compare a b).isLE) =
      [.label "a", .label "b"] := List.mergeSort_of_pairwise (by decide)
  rw [closing, show passedKeys _ = [ContextKey.label "a", .label "b"] from rfl, sorted] at teardown
  obtain ⟨-, -, -, held, torn⟩ := teardown (by decide)
  exact (torn (held (by decide))).cycle_of_group 0 (by decide)

end Run

end Registry

end SharedNames
