import Mathlib.Data.List.Infix
import SharedNames.Proofs.Registry.Soundness

/-!
Destructors that act inside of what destroyed their payload.

A registry carries out what follows from an operation flat, as one list of tasks. A
program with counted references does it nested: giving up the last reference destroys a
group or payload there and then, the destructor carries out its whole action before the
call returns that gave the reference up, and so on inside of that action. `Nested` is
this semantics. It knows nothing of tasks: a `Heap` counts references, and a `Call`
returns after all the calls that it makes.

* `Nested.simulates`: a nested call does what the flat tasks do, in the same order, and at
  the start of every destructor the flat tasks are at the same point.
* `exists_nested`: where the flat tasks come to an end, the nested call returns.
* `Nested.complete`: a destructor starts when the request that gave its payload up has
  made its whole change and its record.
* `Performs.keys_of_start`: it finds the key of the operation attached or detached.
* `Run.nested_iff_flat` puts these together for every operation.
-/

namespace SharedNames.Registry

/-! ### Counted references -/

/-- A registry with a count of the references to every group and payload, and the events so
far. The counts are kept up step by step and never looked up, as a program keeps them. -/
structure Heap where
  registry : Registry
  count : Handle → Nat
  log : Journal

namespace Heap

def less (handle : Handle) (heap : Heap) : Handle → Nat :=
  fun h => if h = handle then heap.count h - 1 else heap.count h

def more (handles : List Handle) (heap : Heap) : Handle → Nat :=
  fun h => heap.count h + handles.count h

/-- The heap after a request to a group, which moves references but does not count. -/
def answered (issuer : Issuer) (g : GroupId) (kind : ObjectKind) (request : ObjectTable.Request)
    (out : ObjectGroup.Outcome) (heap : Heap) : Heap where
  registry := { heap.registry with groups := heap.registry.groups.insert g out.group }
  count := heap.count
  log := heap.log ++ [.performed issuer g kind request out.answer out.event]

def withoutGroup (g : GroupId) (group : ObjectGroup) (heap : Heap) : Heap where
  registry := { heap.registry with groups := heap.registry.groups.erase g }
  count := heap.less (.group g)
  log := heap.log ++ [.groupDestroyed g group.objectTotal group.payloadTotal]

def withoutPayload (p : PayloadId) (payload : Payload) (heap : Heap) : Heap where
  registry := { heap.registry with payloads := heap.registry.payloads.erase p }
  count := heap.less (.payload p)
  log := heap.log ++ [.payloadDestroyed p payload.label]

def holding (name : Option String) (p : PayloadId) (taken : List Handle) (heap : Heap) : Heap where
  registry := (hold name p heap.registry).registry
  count := heap.more taken
  log := heap.log

def refusing (issuer : Issuer) (g : GroupId) (offer : Offer) (heap : Heap) : Heap where
  registry := heap.registry
  count := heap.more offer.payload.handles
  log := heap.log ++ [.payloadRefused issuer g offer.kind offer.l offer.payload.label]

def taking (offer : Offer) (heap : Heap) : Heap where
  registry :=
    (hold offer.name heap.registry.payloadsMade (heap.registry.take offer.payload)).registry
  count := heap.more (.payload heap.registry.payloadsMade ::
    (offer.name.toList.map fun _ => .payload heap.registry.payloadsMade) ++ offer.payload.handles)
  log := heap.log ++ [.payloadMade heap.registry.payloadsMade offer.payload.label]

end Heap

/-- Why a reference is given up. -/
inductive Cause where
  /-- A client gives up what it has. -/
  | client
  /-- A request to a group, which made an outcome of a state, gives up a payload. -/
  | request (issuer : Issuer) (g : GroupId) (kind : ObjectKind) (request : ObjectTable.Request)
      (before : ObjectGroup) (out : ObjectGroup.Outcome)
  /-- A new payload is turned down, and the registry stays as it was. -/
  | refusal (issuer : Issuer) (g : GroupId) (kind : ObjectKind) (l : Name) (before : Registry)
  /-- Something else is held under the name. -/
  | replaced
  /-- The group that stored the payload is destroyed. -/
  | destroyed (g : GroupId)
  /-- An action on the group is over. -/
  | ended

/-- A call that returns when everything that follows from it is done. -/
inductive Call where
  /-- Give up a reference. -/
  | drop (cause : Cause) (handle : Handle)
  /-- Give up references to payloads one after the other. -/
  | dropAll (cause : Cause) (ps : List PayloadId)
  /-- Run the destructor of a payload that was destroyed. -/
  | finish (cause : Cause) (payload : Payload)
  /-- Ask something of a group, and give up the payload that this releases. -/
  | request (issuer : Issuer) (g : GroupId) (kind : ObjectKind) (request : ObjectTable.Request)
  /-- Carry out an action on a group. -/
  | act (issuer : Issuer) (g : GroupId) (action : Action)

structure Start where
  cause : Cause
  heap : Heap
  destructor : Destructor

def replaced (name : Option String) (r : Registry) : List PayloadId :=
  (name.bind fun name => r.held[name]?).toList

/-! ### The nested semantics -/

/-- `Nested policy heap call after starts`: a call returns with the heap `after`, and
`starts` are the moments when destructors started inside of it, in order. -/
inductive Nested (policy : Policy) : Heap → Call → Heap → List Start → Prop where
  /-- Somebody else has a reference. -/
  | shared {heap : Heap} {cause : Cause} {handle : Handle} : 1 < heap.count handle →
      Nested policy heap (.drop cause handle) { heap with count := heap.less handle } []
  /-- The last reference to a group: it is destroyed, and then its payloads are dropped. -/
  | lastOfGroup {heap after : Heap} {cause : Cause} {g : GroupId} {group : ObjectGroup}
      {starts : List Start} :
      heap.count (.group g) = 1 → heap.registry.groups[g]? = some group →
      Nested policy (heap.withoutGroup g group)
        (.dropAll (.destroyed g) (policy.order g group.payloadShares)) after starts →
      Nested policy heap (.drop cause (.group g)) after starts
  /-- The last reference to a payload: it is destroyed, and then its destructor runs. -/
  | lastOfPayload {heap after : Heap} {cause : Cause} {p : PayloadId} {payload : Payload}
      {starts : List Start} :
      heap.count (.payload p) = 1 → heap.registry.payloads[p]? = some payload →
      Nested policy (heap.withoutPayload p payload) (.finish cause payload) after starts →
      Nested policy heap (.drop cause (.payload p)) after starts
  | dropNone {heap : Heap} {cause : Cause} : Nested policy heap (.dropAll cause []) heap []
  | dropNext {heap mid after : Heap} {cause : Cause} {p : PayloadId} {ps : List PayloadId}
      {starts more : List Start} :
      Nested policy heap (.drop cause (.payload p)) mid starts →
      Nested policy mid (.dropAll cause ps) after more →
      Nested policy heap (.dropAll cause (p :: ps)) after (starts ++ more)
  | plain {heap : Heap} {cause : Cause} {payload : Payload} : payload.destructor = none →
      Nested policy heap (.finish cause payload) heap []
  /-- A destructor acts, and then gives up the group that the payload held. -/
  | acting {heap mid after : Heap} {cause : Cause} {payload : Payload} {destructor : Destructor}
      {starts more : List Start} :
      payload.destructor = some destructor →
      Nested policy heap (.act .destructor destructor.target destructor.action) mid starts →
      Nested policy mid (.drop .ended (.group destructor.target)) after more →
      Nested policy heap (.finish cause payload) after (⟨cause, heap, destructor⟩ :: starts ++ more)
  /-- The group makes its whole change, and then what it released is dropped. -/
  | requested {heap after : Heap} {issuer : Issuer} {g : GroupId} {kind : ObjectKind}
      {request : ObjectTable.Request} {group : ObjectGroup} {out : ObjectGroup.Outcome}
      {p : PayloadId} {starts : List Start} :
      heap.registry.groups[g]? = some group →
      group.handle policy.successor kind request = some out → out.released = some p →
      Nested policy (heap.answered issuer g kind request out)
        (.drop (.request issuer g kind request group out) (.payload p)) after starts →
      Nested policy heap (.request issuer g kind request) after starts
  | requestedOnly {heap : Heap} {issuer : Issuer} {g : GroupId} {kind : ObjectKind}
      {request : ObjectTable.Request} {group : ObjectGroup} {out : ObjectGroup.Outcome} :
      heap.registry.groups[g]? = some group →
      group.handle policy.successor kind request = some out → out.released = none →
      Nested policy heap (.request issuer g kind request)
        (heap.answered issuer g kind request out) []
  | idle {heap : Heap} {issuer : Issuer} {g : GroupId} {action : Action} :
      heap.registry.Idle g action → Nested policy heap (.act issuer g action) heap []
  | generate {heap mid after : Heap} {issuer : Issuer} {g : GroupId} {kind : ObjectKind}
      {requested : Name} {requests : List Name} {starts more : List Start} :
      Nested policy heap (.request issuer g kind (.generate requested)) mid starts →
      Nested policy mid (.act issuer g (.generate kind requests)) after more →
      Nested policy heap (.act issuer g (.generate kind (requested :: requests))) after
        (starts ++ more)
  | delete {heap after : Heap} {issuer : Issuer} {g : GroupId} {kind : ObjectKind} {l : Name}
      {starts : List Start} :
      Nested policy heap (.request issuer g kind (.delete l)) after starts →
      Nested policy heap (.act issuer g (.delete kind l)) after starts
  | rebind {heap after : Heap} {issuer : Issuer} {g : GroupId} {kind : ObjectKind} {l global : Name}
      {starts : List Start} :
      Nested policy heap (.request issuer g kind (.rebind l global)) after starts →
      Nested policy heap (.act issuer g (.rebind kind l global)) after starts
  /-- A reference to a held payload is taken, held if a name is given, and stored. -/
  | attachHeld {heap mid after : Heap} {issuer : Issuer} {g : GroupId} {kind : ObjectKind}
      {l : Name}
      {source : String} {name : Option String} {p : PayloadId} {starts more : List Start} :
      heap.registry.held[source]? = some p →
      Nested policy (heap.holding name p (.payload p :: name.toList.map fun _ => .payload p))
        (.dropAll .replaced (heap.registry.replaced name)) mid starts →
      Nested policy mid (.request issuer g kind (.attach l p)) after more →
      Nested policy heap (.act issuer g (.attachHeld kind l source name)) after (starts ++ more)
  /-- A reference to the payload of an object is taken and held. -/
  | fetch {heap after : Heap} {issuer : Issuer} {g : GroupId} {group : ObjectGroup}
      {kind : ObjectKind}
      {l : Name} {name : String} {p : PayloadId} {starts : List Start} :
      heap.registry.groups[g]? = some group → group.payload? kind l = some p →
      Nested policy (heap.holding (some name) p [.payload p])
        (.dropAll .replaced (heap.registry.replaced (some name))) after starts →
      Nested policy heap (.act issuer g (.fetch kind l name)) after starts
  /-- A new payload is turned down and destroyed, since it is not held either. -/
  | refused {heap after : Heap} {issuer : Issuer} {g : GroupId} {action : Action} {offer : Offer}
      {starts : List Start} :
      heap.registry.offer? action = some offer → offer.name = none →
      heap.registry.isLiveIn g offer.kind offer.l = false →
      Nested policy (heap.refusing issuer g offer)
        (.finish (.refusal issuer g offer.kind offer.l heap.registry) offer.payload) after starts →
      Nested policy heap (.act issuer g action) after starts
  /-- A new payload is taken up, held if a name is given, and stored. -/
  | offered {heap mid after : Heap} {issuer : Issuer} {g : GroupId} {action : Action}
      {offer : Offer}
      {starts more : List Start} :
      heap.registry.offer? action = some offer →
      offer.name.isSome ∨ heap.registry.isLiveIn g offer.kind offer.l = true →
      Nested policy (heap.taking offer)
        (.dropAll .replaced (heap.registry.replaced offer.name)) mid starts →
      Nested policy mid (.request issuer g offer.kind (.attach offer.l heap.registry.payloadsMade))
        after more →
      Nested policy heap (.act issuer g action) after (starts ++ more)

/-! ### Calls as flat tasks -/

/-- The tasks that do what a call does, and what is left of them when it returns. -/
inductive Flat : Call → List Task → List Task → Prop where
  | drop (cause : Cause) {handle : Handle} : Flat (.drop cause handle) [.release handle] []
  | dropAll (cause : Cause) {ps : List PayloadId} :
      Flat (.dropAll cause ps) (ps.map fun p => .release (.payload p)) []
  | finish {cause : Cause} {payload : Payload} :
      Flat (.finish cause payload) (afterPayload payload) []
  | request {task : Task} {issuer : Issuer} {g : GroupId} {kind : ObjectKind}
      {request : ObjectTable.Request} {next : List Task} :
      task.ask? = some ⟨issuer, g, kind, request, next⟩ →
        Flat (.request issuer g kind request) [task] next
  | act {issuer : Issuer} {g : GroupId} {action : Action} :
      Flat (.act issuer g action) [.act issuer g action] [.release (.group g)]

def Start.task (start : Start) : Task :=
  .act .destructor start.destructor.target start.destructor.action

/-- What is there has references, and the counts are those of all owners, pending tasks
included. Where it holds, the last reference by count is the last share by search. -/
structure Counted (heap : Heap) (tasks : List Task) : Prop where
  accounted : Accounted heap.registry tasks
  count_eq : ∀ h, heap.count h = heap.registry.sharesWith tasks h

variable {policy : Policy} {rest tasks left : List Task} {task : Task} {step : Step}
  {gained : List Handle} {heap next after : Heap} {call : Call} {starts : List Start}

/-- A step keeps the counts exact where the heap counts what it gives up and takes. So each
rule of `Nested` only has to be held against the effect of its task. -/
theorem Counted.of_effect (counted : Counted heap (task :: rest))
    (effect : Effect policy rest heap.registry task gained step)
    (registry : next.registry = step.registry)
    (count : ∀ h, next.count h + (spent task).count h = heap.count h + gained.count h) :
    Counted next (step.tasks ++ rest) where
  accounted := by
    rw [registry]
    exact (effect.transfer counted.accounted).accounted counted.accounted
  count_eq h := by
    have balance := effect.balance counted.accounted.fresh_payload
      (fun h => (counted.accounted.has_iff h).mpr) h
    have counts := count h
    rw [counted.count_eq] at counts
    rw [registry]
    omega

theorem Counted.count_release {handle : Handle} (counted : Counted heap (.release handle :: rest)) :
    heap.count handle = heap.registry.sharesWith rest handle + 1 := by
  rw [counted.count_eq, sharesWith_release]

/-- Giving up a reference is counted as it is spent. -/
theorem less_add_count {handle : Handle} (pos : 0 < heap.count handle) (h : Handle) :
    heap.less handle h + [handle].count h = heap.count h + [].count h := by
  unfold Heap.less
  by_cases same : h = handle
  · subst same
    rw [if_pos rfl, List.count_singleton_self, List.count_nil]
    omega
  · rw [if_neg same, List.count_cons_of_ne (Ne.symm same)]

theorem tasks_hold (name : Option String) (p : PayloadId) (r : Registry) :
    (hold name p r).tasks = (r.replaced name).map fun p => .release (.payload p) := by
  cases name <;> rfl

theorem log_holding (name : Option String) (p : PayloadId) (taken : List Handle) (heap : Heap) :
    (heap.holding name p taken).log = heap.log ++ (hold name p heap.registry).journal := by
  cases name <;> exact (List.append_nil _).symm

/-- Flat tasks lead from one heap to another one, and the counts are exact then. -/
structure Leads (policy : Policy) (heap : Heap) (tasks : List Task) (after : Heap)
    (left : List Task) : Prop where
  cascade : ∃ journal, after.log = heap.log ++ journal ∧
    Cascade policy heap.registry tasks journal after.registry left
  counted : Counted after left

/-- Flat tasks do the same, and pass every start of a destructor when its task is next. That
is what makes the two semantics agree in between and not only at the end. -/
structure Simulates (policy : Policy) (heap : Heap) (tasks : List Task) (after : Heap)
    (left : List Task) (starts : List Start) : Prop where
  leads : Leads policy heap tasks after left
  passes : ∀ start ∈ starts, ∃ others, Leads policy heap tasks start.heap (start.task :: others)

theorem Leads.trans {mid : Heap} {others : List Task} (first : Leads policy heap tasks mid others)
    (second : Leads policy mid others after left) : Leads policy heap tasks after left where
  cascade := by
    obtain ⟨journal, log, cascade⟩ := first.cascade
    obtain ⟨more, logMore, cascadeMore⟩ := second.cascade
    exact ⟨journal ++ more, by rw [logMore, log, List.append_assoc], cascade.trans cascadeMore⟩
  counted := second.counted

theorem Counted.leads_refl (counted : Counted heap tasks) : Leads policy heap tasks heap tasks where
  cascade := ⟨[], (List.append_nil _).symm, .rest⟩
  counted := counted

namespace Simulates

theorem refl (counted : Counted heap tasks) : Simulates policy heap tasks heap tasks [] where
  leads := counted.leads_refl
  passes _ mem := by cases mem

/-- What follows one another in calls follows one another in tasks, with all the starts. -/
theorem trans {mid : Heap} {others : List Task} {more : List Start}
    (first : Simulates policy heap tasks mid others starts)
    (second : Simulates policy mid others after left more) :
    Simulates policy heap tasks after left (starts ++ more) where
  leads := first.leads.trans second.leads
  passes start mem := by
    rcases List.mem_append.mp mem with own | later
    · exact first.passes start own
    · obtain ⟨rest, leads⟩ := second.passes start later
      exact ⟨rest, first.leads.trans leads⟩

/-- One task and the change of the heap that belongs to it. No destructor starts by that
alone: destructors are tasks of their own. -/
theorem single (counted : Counted heap (task :: rest))
    (effect : Effect policy rest heap.registry task gained step)
    (registry : next.registry = step.registry) (log : next.log = heap.log ++ step.journal)
    (count : ∀ h, next.count h + (spent task).count h = heap.count h + gained.count h) :
    Simulates policy heap (task :: rest) next (step.tasks ++ rest) [] where
  leads := {
    cascade := ⟨step.journal, log, by rw [registry]; exact .single effect.step_eq⟩
    counted := counted.of_effect effect registry count }
  passes _ mem := by cases mem

/-- A destructor that starts is the next task, so this start is passed right here. Those
inside of its action are passed later on. -/
theorem start (cause : Cause) {destructor : Destructor} {others : List Task}
    (simulates : Simulates policy heap
      (.act .destructor destructor.target destructor.action :: others) after left starts)
    (counted : Counted heap (.act .destructor destructor.target destructor.action :: others)) :
    Simulates policy heap
      (.act .destructor destructor.target destructor.action :: others) after left
      (⟨cause, heap, destructor⟩ :: starts) where
  leads := simulates.leads
  passes start mem := by
    rcases List.mem_cons.mp mem with rfl | later
    · exact ⟨others, counted.leads_refl⟩
    · exact simulates.passes start later

end Simulates

/-- A request to a group is one task and leaves the release of what it gave up. -/
theorem simulates_request {issuer : Issuer} {g : GroupId} {kind : ObjectKind}
    {request : ObjectTable.Request} {following : List Task} {group : ObjectGroup}
    {out : ObjectGroup.Outcome} (counted : Counted heap ([task] ++ rest))
    (asks : task.ask? = some ⟨issuer, g, kind, request, following⟩)
    (found : heap.registry.groups[g]? = some group)
    (answered : group.handle policy.successor kind request = some out) :
    Simulates policy heap ([task] ++ rest) (heap.answered issuer g kind request out)
      ((out.released.toList.map fun p => .release (.payload p)) ++ (following ++ rest)) [] := by
  rw [← List.append_assoc]
  refine .single counted (.answered asks found answered) rfl rfl fun h => ?_
  rw [(handles_of_ask asks).2.1]
  rfl

/-- What a nested call does is what its tasks do, one after the other. By induction on the
call: the tasks that it leads to come before the rest, as the calls that it makes return
before it does. -/
theorem Nested.simulates (nested : Nested policy heap call after starts)
    {before left rest : List Task}
    (flat : Flat call before left) (counted : Counted heap (before ++ rest)) :
    Simulates policy heap (before ++ rest) after (left ++ rest) starts := by
  induction nested generalizing before left rest with
  | @shared heap cause handle owned =>
      cases flat
      have count := counted.count_release
      refine .single counted (.kept ?_) rfl (List.append_nil _).symm (less_add_count ?_)
      · omega
      · omega
  | @lastOfGroup heap after cause g group starts last found _ ih =>
      cases flat
      have count := counted.count_release
      have destroyed : Simulates policy heap _ (heap.withoutGroup g group) _ [] :=
        .single counted (.groupDestroyed (by omega) found) rfl rfl (less_add_count (by omega))
      exact destroyed.trans (ih (.dropAll _) destroyed.leads.counted)
  | @lastOfPayload heap after cause p payload starts last found _ ih =>
      cases flat
      have count := counted.count_release
      have destroyed : Simulates policy heap _ (heap.withoutPayload p payload) _ [] :=
        .single counted (.payloadDestroyed (by omega) found) rfl rfl (less_add_count (by omega))
      exact destroyed.trans (ih .finish destroyed.leads.counted)
  | dropNone =>
      cases flat
      exact .refl counted
  | dropNext _ _ first others =>
      cases flat
      have one := first (.drop _) counted
      exact one.trans (others (.dropAll _) one.leads.counted)
  | @plain heap cause payload none =>
      cases flat
      rw [afterPayload, none] at counted ⊢
      exact .refl counted
  | @acting heap mid after cause payload destructor starts more acts _ _ action release =>
      cases flat
      rw [afterPayload, acts] at counted ⊢
      have acted := (action .act counted).start cause counted
      exact acted.trans (release (.drop _) acted.leads.counted)
  | @requested heap after issuer g kind request group out p starts found answered released _ ih =>
      cases flat with
      | @request task _ _ _ _ next asks =>
          have change := simulates_request counted asks found answered
          rw [released, Option.toList_some, List.map_singleton] at change
          exact change.trans (ih (.drop _) change.leads.counted)
  | requestedOnly found answered released =>
      cases flat with
      | request asks =>
          have change := simulates_request counted asks found answered
          rwa [released, Option.toList_none, List.map_nil] at change
  | idle nothing =>
      cases flat
      exact .single counted (.idle nothing) rfl (List.append_nil _).symm (fun _ => rfl)
  | generate _ _ first others =>
      cases flat
      have one := first (.request rfl) counted
      exact one.trans (others .act one.leads.counted)
  | delete _ ih | rebind _ ih =>
      cases flat
      exact ih (.request rfl) counted
  | @attachHeld heap mid after issuer g kind l source name p starts more found _ _ drops stores =>
      cases flat
      have held : Simulates policy heap _ (heap.holding name p _) _ [] :=
        .single counted (.attached found) rfl (log_holding name p _ heap) (fun _ => rfl)
      rw [Step.thenTasks, tasks_hold, List.append_assoc] at held
      have dropped := held.trans (drops (.dropAll _) held.leads.counted)
      exact dropped.trans (stores (.request rfl) dropped.leads.counted)
  | @fetch heap after issuer g group kind l name p starts found stored _ drops =>
      cases flat
      have held : Simulates policy heap _ (heap.holding (some name) p _) _ [] :=
        .single counted (.fetched found stored) rfl (log_holding (some name) p _ heap)
          (fun _ => rfl)
      rw [Step.thenTasks, tasks_hold, List.append_assoc] at held
      exact held.trans (drops (.dropAll _) held.leads.counted)
  | @refused heap after issuer g action offer starts offers unnamed dead _ ih =>
      cases flat
      have turnedDown : Simulates policy heap _ (heap.refusing issuer g offer) _ [] :=
        .single counted (.refused offers unnamed dead) rfl rfl (fun _ => rfl)
      rw [List.append_assoc] at turnedDown
      exact turnedDown.trans (ih .finish turnedDown.leads.counted)
  | @offered heap mid after issuer g action offer starts more offers takes _ _ drops stores =>
      cases flat
      have taken : Simulates policy heap _ (heap.taking offer) _ [] :=
        .single counted (.offered offers takes) rfl rfl (fun _ => rfl)
      rw [tasks_hold, List.append_assoc] at taken
      have dropped := taken.trans (drops (.dropAll _) taken.leads.counted)
      exact dropped.trans (stores (.request rfl) dropped.leads.counted)

/-! ### Where the tasks come to an end, the call returns -/

def Finishes (policy : Policy) (r : Registry) (tasks : List Task) : Prop :=
  (r.settle policy tasks).residual = []

theorem Leads.finishes (leads : Leads policy heap tasks after left)
    (finishes : Finishes policy heap.registry tasks) : Finishes policy after.registry left := by
  obtain ⟨journal, -, cascade⟩ := leads.cascade
  obtain ⟨settles, halted⟩ := settle_ends policy after.registry left
  rw [Finishes, settle_eq_of_cascade (cascade.trans settles) halted] at finishes
  exact finishes

theorem Leads.measure_le (leads : Leads policy heap tasks after left) :
    measure after.registry left ≤ measure heap.registry tasks := by
  obtain ⟨journal, -, cascade⟩ := leads.cascade
  exact cascade.measure_le

theorem Leads.measure_lt (leads : Leads policy heap tasks after left) (moved : tasks ≠ left) :
    measure after.registry left < measure heap.registry tasks := by
  obtain ⟨journal, -, cascade⟩ := leads.cascade
  exact cascade.measure_lt moved

/-- The first of tasks that come to an end can be carried out, so no request of a call is
without an answer. -/
theorem Finishes.step_isSome {r : Registry} (finishes : Finishes policy r (task :: rest)) :
    ∃ step, r.step policy rest task = some step := by
  by_contra stuck
  have halted : Halted policy r (task :: rest) := by
    rw [Halted, Option.eq_none_iff_forall_ne_some]
    exact fun step stepped => stuck ⟨step, stepped⟩
  rw [Finishes, settle_eq_of_cascade .rest halted] at finishes
  cases finishes

/-- Every call returns whose tasks come to an end within a number of steps. The induction that
shows that calls return is on this number. -/
def ReturnsBelow (policy : Policy) (bound : Nat) : Prop :=
  ∀ {heap : Heap} {call : Call} {before left rest : List Task}, Flat call before left →
    Counted heap (before ++ rest) → Finishes policy heap.registry (before ++ rest) →
    measure heap.registry (before ++ rest) < bound →
      ∃ after starts, Nested policy heap call after starts

section Returns

variable {bound : Nat} (below : ReturnsBelow policy bound)

include below

/-- Giving up a reference returns: what it leads to has a smaller measure. -/
theorem returns_drop (cause : Cause) {handle : Handle}
    (counted : Counted heap (.release handle :: rest))
    (finishes : Finishes policy heap.registry (.release handle :: rest))
    (small : measure heap.registry (.release handle :: rest) ≤ bound) :
    ∃ after starts, Nested policy heap (.drop cause handle) after starts := by
  have count := counted.count_release
  rcases Nat.eq_zero_or_pos (heap.registry.sharesWith rest handle) with last | owned
  · have there := (counted.accounted.has_iff handle).mpr (by rw [sharesWith_release]; omega)
    cases handle with
    | group g =>
        obtain ⟨group, found⟩ := has_group_iff.mp there
        have effect : Effect policy rest heap.registry _ _ _ := .groupDestroyed last found
        have destroyed : Simulates policy heap _ (heap.withoutGroup g group) _ [] :=
          .single counted effect rfl rfl (less_add_count (by omega))
        obtain ⟨after, starts, nested⟩ := below (.dropAll (.destroyed g)) destroyed.leads.counted
          (destroyed.leads.finishes finishes) (Nat.lt_of_lt_of_le effect.measure_lt small)
        exact ⟨after, starts, .lastOfGroup (by omega) found nested⟩
    | payload p =>
        obtain ⟨payload, found⟩ := has_payload_iff.mp there
        have effect : Effect policy rest heap.registry _ _ _ := .payloadDestroyed last found
        have destroyed : Simulates policy heap _ (heap.withoutPayload p payload) _ [] :=
          .single counted effect rfl rfl (less_add_count (by omega))
        obtain ⟨after, starts, nested⟩ := below .finish destroyed.leads.counted
          (destroyed.leads.finishes finishes) (Nat.lt_of_lt_of_le effect.measure_lt small)
        exact ⟨after, starts, .lastOfPayload (by omega) found nested⟩
  · exact ⟨_, _, .shared (by omega)⟩

/-- So does a request to a group, with the payload that it gives up. -/
theorem returns_request {issuer : Issuer} {g : GroupId} {kind : ObjectKind}
    {request : ObjectTable.Request} {following : List Task}
    (asks : task.ask? = some ⟨issuer, g, kind, request, following⟩)
    (counted : Counted heap (task :: rest))
    (finishes : Finishes policy heap.registry (task :: rest))
    (small : measure heap.registry (task :: rest) ≤ bound) :
    ∃ after starts, Nested policy heap (.request issuer g kind request) after starts := by
  have owned : 0 < heap.registry.sharesWith (task :: rest) (.group g) :=
    sharesWith_pos_of_mem (handles_of_ask asks).2.2
  obtain ⟨group, found⟩ := has_group_iff.mp ((counted.accounted.has_iff _).mpr owned)
  obtain ⟨step, stepped⟩ := finishes.step_isSome
  simp only [step_of_ask asks, Registry.request, found, Option.map_map] at stepped
  obtain ⟨out, answered, -⟩ := Option.map_eq_some_iff.mp stepped
  cases released : out.released with
  | none => exact ⟨_, _, .requestedOnly found answered released⟩
  | some p =>
      have change := simulates_request counted asks found answered
      have effect : Effect policy rest heap.registry task _ _ := .answered asks found answered
      have smaller := effect.measure_lt
      rw [released, Option.toList_some, List.map_singleton] at change smaller
      obtain ⟨after, starts, nested⟩ :=
        below (.drop (.request issuer g kind request group out)) change.leads.counted
        (change.leads.finishes finishes) (Nat.lt_of_lt_of_le smaller small)
      exact ⟨after, starts, .requested found answered released nested⟩

/-- So does an action that brings a new payload, taken up or not. -/
theorem returns_offer {issuer : Issuer} {g : GroupId} {action : Action} {offer : Offer}
    (offers : heap.registry.offer? action = some offer)
    (counted : Counted heap (.act issuer g action :: rest))
    (finishes : Finishes policy heap.registry (.act issuer g action :: rest))
    (small : measure heap.registry (.act issuer g action :: rest) ≤ bound) :
    ∃ after starts, Nested policy heap (.act issuer g action) after starts := by
  by_cases takes : offer.name.isSome ∨ heap.registry.isLiveIn g offer.kind offer.l = true
  · have effect : Effect policy rest heap.registry (.act issuer g action) _ _ :=
      .offered offers takes
    have taken : Simulates policy heap _ (heap.taking offer) _ [] :=
      .single counted effect rfl rfl (fun _ => rfl)
    have smaller := Nat.lt_of_lt_of_le effect.measure_lt small
    rw [tasks_hold, List.append_assoc] at taken smaller
    obtain ⟨mid, starts, drops⟩ := below (.dropAll .replaced) taken.leads.counted
      (taken.leads.finishes finishes) smaller
    have dropped := drops.simulates (.dropAll _) taken.leads.counted
    obtain ⟨after, more, stores⟩ := below (.request rfl) dropped.leads.counted
      (dropped.leads.finishes (taken.leads.finishes finishes))
      (Nat.lt_of_le_of_lt dropped.leads.measure_le smaller)
    exact ⟨after, _, .offered offers takes drops stores⟩
  · obtain ⟨unnamed, dead⟩ := not_or.mp takes
    have unnamed := Option.not_isSome_iff_eq_none.mp unnamed
    have dead := Bool.eq_false_iff.mpr dead
    have effect : Effect policy rest heap.registry (.act issuer g action) _ _ :=
      .refused offers unnamed dead
    have turnedDown : Simulates policy heap _ (heap.refusing issuer g offer) _ [] :=
      .single counted effect rfl rfl (fun _ => rfl)
    have smaller := Nat.lt_of_lt_of_le effect.measure_lt small
    rw [List.append_assoc] at turnedDown smaller
    obtain ⟨after, starts, nested⟩ := below .finish turnedDown.leads.counted
      (turnedDown.leads.finishes finishes) smaller
    exact ⟨after, starts, .refused offers unnamed dead nested⟩

/-- So does an action, by the calls that it is made of. Each of them starts from the heap that
the one before it left, with a smaller measure, and whatever else is pending plays no part. -/
theorem returns_act {issuer : Issuer} {g : GroupId} {action : Action}
    (counted : Counted heap (.act issuer g action :: rest))
    (finishes : Finishes policy heap.registry (.act issuer g action :: rest))
    (small : measure heap.registry (.act issuer g action :: rest) ≤ bound) :
    ∃ after starts, Nested policy heap (.act issuer g action) after starts := by
  cases action with
  | generate kind requests =>
      cases requests with
      | nil => exact ⟨_, _, .idle rfl⟩
      | cons requested requests =>
          obtain ⟨mid, starts, first⟩ := returns_request below rfl counted finishes small
          have one := first.simulates (.request rfl) counted
          obtain ⟨after, more, others⟩ := below .act one.leads.counted (one.leads.finishes finishes)
            (Nat.lt_of_lt_of_le (one.leads.measure_lt (by simp)) small)
          exact ⟨after, _, .generate first others⟩
  | delete kind l =>
      obtain ⟨after, starts, nested⟩ := returns_request below rfl counted finishes small
      exact ⟨after, starts, .delete nested⟩
  | rebind kind l global =>
      obtain ⟨after, starts, nested⟩ := returns_request below rfl counted finishes small
      exact ⟨after, starts, .rebind nested⟩
  | attachHeld kind l source name =>
      cases found : heap.registry.held[source]? with
      | none => exact ⟨_, _, .idle found⟩
      | some p =>
          have effect : Effect policy rest heap.registry
              (.act issuer g (.attachHeld kind l source name)) _ _ := .attached found
          have held : Simulates policy heap _ (heap.holding name p _) _ [] :=
            .single counted effect rfl (log_holding name p _ heap) (fun _ => rfl)
          have smaller := Nat.lt_of_lt_of_le effect.measure_lt small
          rw [Step.thenTasks, tasks_hold, List.append_assoc] at held smaller
          obtain ⟨mid, starts, drops⟩ := below (.dropAll .replaced) held.leads.counted
            (held.leads.finishes finishes) smaller
          have dropped := drops.simulates (.dropAll _) held.leads.counted
          obtain ⟨after, more, stores⟩ := below (.request rfl) dropped.leads.counted
            (dropped.leads.finishes (held.leads.finishes finishes))
            (Nat.lt_of_le_of_lt dropped.leads.measure_le smaller)
          exact ⟨after, _, .attachHeld found drops stores⟩
  | fetch kind l name =>
      cases found : heap.registry.groups[g]?.bind fun group => group.payload? kind l with
      | none => exact ⟨_, _, .idle found⟩
      | some p =>
          obtain ⟨group, there, stored⟩ := Option.bind_eq_some_iff.mp found
          have effect : Effect policy rest heap.registry (.act issuer g (.fetch kind l name)) _ _ :=
            .fetched there stored
          have held : Simulates policy heap _ (heap.holding (some name) p _) _ [] :=
            .single counted effect rfl (log_holding (some name) p _ heap) (fun _ => rfl)
          have smaller := Nat.lt_of_lt_of_le effect.measure_lt small
          rw [Step.thenTasks, tasks_hold, List.append_assoc] at held smaller
          obtain ⟨after, starts, drops⟩ := below (.dropAll .replaced) held.leads.counted
            (held.leads.finishes finishes) smaller
          exact ⟨after, starts, .fetch there stored drops⟩
  | attachNew kind l label name => exact returns_offer below rfl counted finishes small
  | attachActing kind l label target action name =>
      exact returns_offer below rfl counted finishes small

theorem returns_finish {cause : Cause} {payload : Payload}
    (counted : Counted heap (afterPayload payload ++ rest))
    (finishes : Finishes policy heap.registry (afterPayload payload ++ rest))
    (small : measure heap.registry (afterPayload payload ++ rest) ≤ bound) :
    ∃ after starts, Nested policy heap (.finish cause payload) after starts := by
  cases acts : payload.destructor with
  | none => exact ⟨_, _, .plain acts⟩
  | some destructor =>
      rw [afterPayload, acts] at counted finishes small
      obtain ⟨mid, starts, acted⟩ := returns_act below counted finishes small
      have done := acted.simulates .act counted
      obtain ⟨after, more, released⟩ := below (.drop .ended) done.leads.counted
        (done.leads.finishes finishes)
        (Nat.lt_of_lt_of_le (done.leads.measure_lt (by simp)) small)
      exact ⟨after, _, .acting acts acted released⟩

theorem returns_dropAll {cause : Cause} {ps : List PayloadId}
    (counted : Counted heap ((ps.map fun p => .release (.payload p)) ++ rest))
    (finishes : Finishes policy heap.registry ((ps.map fun p => .release (.payload p)) ++ rest))
    (small : measure heap.registry ((ps.map fun p => .release (.payload p)) ++ rest) ≤ bound) :
    ∃ after starts, Nested policy heap (.dropAll cause ps) after starts := by
  cases ps with
  | nil => exact ⟨_, _, .dropNone⟩
  | cons p ps =>
      obtain ⟨mid, starts, first⟩ := returns_drop below cause counted finishes small
      have one := first.simulates (.drop _) counted
      obtain ⟨after, more, others⟩ := below (.dropAll cause) one.leads.counted
        (one.leads.finishes finishes)
        (Nat.lt_of_lt_of_le (one.leads.measure_lt (by simp)) small)
      exact ⟨after, _, .dropNext first others⟩

end Returns

/-- Every call returns whose tasks come to an end. The induction is on the measure of the
tasks; within one measure the calls build on one another in the order of the lemmas. -/
theorem returnsBelow (policy : Policy) (bound : Nat) : ReturnsBelow policy bound := by
  induction bound with
  | zero => exact fun _ _ _ small => absurd small (Nat.not_lt_zero _)
  | succ bound below =>
      intro heap call before left rest flat counted finishes small
      have small := Nat.lt_succ_iff.mp small
      cases flat with
      | drop cause => exact returns_drop below cause counted finishes small
      | dropAll => exact returns_dropAll below counted finishes small
      | finish => exact returns_finish below counted finishes small
      | request asks => exact returns_request below asks counted finishes small
      | act => exact returns_act below counted finishes small

/-- Every call returns whose tasks come to an end. With `Nested.simulates` this makes the two
semantics the same, not one a part of the other. -/
theorem exists_nested {before left : List Task} (flat : Flat call before left)
    (counted : Counted heap (before ++ rest))
    (finishes : Finishes policy heap.registry (before ++ rest)) :
    ∃ after starts, Nested policy heap call after starts :=
  returnsBelow policy _ flat counted finishes (Nat.lt_succ_self _)

/-! ### What is complete when a destructor starts -/

/-- What has happened before a reference is given up for a cause. -/
def Cause.Precedes (policy : Policy) (heap : Heap) (handle : Handle) : Cause → Prop
  | .request issuer g kind asked before out =>
      before.handle policy.successor kind asked = some out ∧
        heap.registry.groups[g]? = some out.group ∧
        (∃ log, heap.log = log ++ [.performed issuer g kind asked out.answer out.event]) ∧
        ∃ p, out.released = some p ∧ handle = .payload p
  | .destroyed g => heap.registry.has (.group g) = false
  | .refusal _ _ _ _ _ => False
  | .client | .replaced | .ended => True

/-- What has happened before the destructor of a payload runs that was given up for a
cause: the request has changed the group and made its record, the refusal has changed
nothing, the group is not there any more. -/
def Cause.Complete (policy : Policy) (heap : Heap) : Cause → Prop
  | .request issuer g kind asked before out =>
      before.handle policy.successor kind asked = some out ∧
        heap.registry.groups[g]? = some out.group ∧
        ∃ log p label, out.released = some p ∧ heap.log =
          log ++ [.performed issuer g kind asked out.answer out.event, .payloadDestroyed p label]
  | .refusal issuer g kind l before =>
      heap.registry = before ∧ heap.registry.isLiveIn g kind l = false ∧
        ∃ log label, heap.log = log ++ [.payloadRefused issuer g kind l label]
  | .destroyed g => heap.registry.has (.group g) = false
  | .client | .replaced | .ended => True

/-- What has happened before a call. Only one reference is given up for a request. -/
def Call.Ready (policy : Policy) (heap : Heap) : Call → Prop
  | .drop cause handle => cause.Precedes policy heap handle
  | .dropAll cause _ =>
      cause = .replaced ∨ ∃ g, cause = .destroyed g ∧ heap.registry.has (.group g) = false
  | .finish cause _ => cause.Complete policy heap
  | .request _ _ _ _ | .act _ _ _ => True

/-- No group comes into being while something is carried out. So a group that was destroyed
before a call is not there at any start inside of it. -/
theorem Nested.has_group (nested : Nested policy heap call after starts) {g : GroupId}
    (there : after.registry.has (.group g)) : heap.registry.has (.group g) := by
  induction nested with
  | shared | dropNone | plain | idle => exact there
  | lastOfGroup _ _ _ ih => exact (has_eraseGroup.mp (ih there)).1
  | lastOfPayload _ _ _ ih => exact (has_erasePayload.mp (ih there)).1
  | dropNext _ _ first others => exact first (others there)
  | acting _ _ _ action release => exact action (release there)
  | requested found _ _ _ ih =>
      rcases has_insertGroup.mp (ih there) with old | new
      · exact old
      · cases new
        exact has_group_iff.mpr ⟨_, found⟩
  | requestedOnly found =>
      rcases has_insertGroup.mp there with old | new
      · exact old
      · cases new
        exact has_group_iff.mpr ⟨_, found⟩
  | generate _ _ first others => exact first (others there)
  | delete _ ih | rebind _ ih => exact ih there
  | attachHeld _ _ _ drops stores =>
      have held := drops (stores there)
      rwa [Heap.holding, has_hold] at held
  | fetch _ _ _ drops =>
      have held := drops there
      rwa [Heap.holding, has_hold] at held
  | refused _ _ _ _ ih => exact ih there
  | offered _ _ _ _ drops stores =>
      have held := drops (stores there)
      rw [Heap.taking, has_hold] at held
      exact (has_take.mp held).resolve_right nofun

/-- The destructor of a payload finds what gave up its last reference complete. -/
theorem Cause.complete_withoutPayload {cause : Cause} {p : PayloadId} (payload : Payload)
    (precedes : cause.Precedes policy heap (.payload p)) :
    cause.Complete policy (heap.withoutPayload p payload) := by
  cases cause with
  | client | replaced | ended => trivial
  | refusal => cases precedes
  | destroyed g => exact precedes
  | request issuer g kind request before out =>
      obtain ⟨handled, found, ⟨log, same⟩, q, released, ⟨⟩⟩ := precedes
      refine ⟨handled, found, log, p, payload.label, released, ?_⟩
      rw [Heap.withoutPayload, same, List.append_assoc]
      rfl

/-- Every destructor finds what gave up the last reference to its payload complete. The cause
is part of the call, so this holds however deep the destructors are nested. -/
theorem Nested.complete (nested : Nested policy heap call after starts)
    (ready : call.Ready policy heap) :
    ∀ start ∈ starts, start.cause.Complete policy start.heap := by
  induction nested with
  | shared | dropNone | plain | idle | requestedOnly => exact fun _ mem => by cases mem
  | @lastOfGroup heap after cause g group starts last found _ ih =>
      refine ih (.inr ⟨g, rfl, ?_⟩)
      simp [Heap.withoutGroup, has]
  | @lastOfPayload _ _ _ _ payload _ _ _ _ ih =>
      exact ih (Cause.complete_withoutPayload payload ready)
  | @dropNext heap mid after cause p ps starts more dropped _ first others =>
      rcases ready with rfl | ⟨g, rfl, gone⟩
      · exact List.forall_mem_append.mpr ⟨first trivial, others (.inl rfl)⟩
      · refine List.forall_mem_append.mpr ⟨first gone, others (.inr ⟨g, rfl, ?_⟩)⟩
        rw [← Bool.not_eq_true] at gone ⊢
        exact fun there => gone (dropped.has_group there)
  | acting _ _ _ action release =>
      rw [List.cons_append, List.forall_mem_cons, List.forall_mem_append]
      exact ⟨ready, action trivial, release trivial⟩
  | @requested heap after issuer g kind request group out p starts found answered released _ ih =>
      refine ih ⟨answered, ?_, ⟨heap.log, rfl⟩, p, released, rfl⟩
      simp [Heap.answered]
  | generate _ _ first others => exact List.forall_mem_append.mpr ⟨first trivial, others trivial⟩
  | delete _ ih | rebind _ ih => exact ih trivial
  | attachHeld _ _ _ drops stores | offered _ _ _ _ drops stores =>
      exact List.forall_mem_append.mpr ⟨drops (.inl rfl), stores trivial⟩
  | fetch _ _ _ drops => exact drops (.inl rfl)
  | refused _ _ dead _ ih => exact ih ⟨rfl, dead, _, _, rfl⟩

/-- A group that deleted a name has neither the name nor its payload, and the payload that it
gave up is the one of that name. -/
theorem gone_of_delete {rule : NameTable.SuccessorRule} {kind : ObjectKind} {l : Name}
    {before : ObjectGroup} {out : ObjectGroup.Outcome}
    (answered : before.handle rule kind (.delete l) = some out) :
    (out.group.names kind).isLive l = false ∧ out.group.payload? kind l = none ∧
      out.answer = .done ∧
      out.released = before.payload? kind l := by
  have own := (ObjectGroup.table_handle answered kind).1
  simp only [ObjectTable.handle, ObjectTable.delete, Option.some.injEq,
    ObjectTable.Outcome.mk.injEq] at own
  obtain ⟨table, answer, -, released⟩ := own
  refine ⟨?_, ?_, answer.symm, released.symm⟩
  · rw [ObjectGroup.names, ← table, NameTable.isLive_eq_false_iff, NameTable.globals_delete]
    exact Std.ExtTreeMap.getElem?_erase_self
  · rw [ObjectGroup.payload?, ← table]
    exact Std.ExtTreeMap.getElem?_erase_self

/-- A group that was offered a payload has it, and released the one from before. Or it
turned it down, and nothing changed. -/
theorem stored_of_attach {rule : NameTable.SuccessorRule} {kind : ObjectKind} {l : Name}
    {q : PayloadId}
    {before : ObjectGroup} {out : ObjectGroup.Outcome}
    (answered : before.handle rule kind (.attach l q) = some out) :
    (out.answer = .attached true ∧ (out.group.names kind).isLive l = true ∧
        out.group.payload? kind l = some q ∧ out.released = before.payload? kind l) ∨
      (out.answer = .attached false ∧ (out.group.names kind).isLive l = false ∧ out.group = before ∧
        out.released = some q) := by
  have own := (ObjectGroup.table_handle answered kind).1
  cases live : (before.table kind).names.isLive l with
  | true =>
      simp only [ObjectTable.handle, ObjectTable.attach, live, if_true, Option.some.injEq,
        ObjectTable.Outcome.mk.injEq] at own
      obtain ⟨table, answer, -, released⟩ := own
      refine .inl ⟨answer.symm, ?_, ?_, released.symm⟩
      · rw [ObjectGroup.names, ← table]
        exact live
      · rw [ObjectGroup.payload?, ← table]
        exact Std.ExtTreeMap.getElem?_insert_self
  | false =>
      simp only [ObjectTable.handle, ObjectTable.attach, live, if_false, Bool.false_eq_true,
        Option.some.injEq, ObjectTable.Outcome.mk.injEq] at own
      obtain ⟨table, answer, -, released⟩ := own
      have same : out.group = before := by
        refine congrArg ObjectGroup.mk (PerKind.ext_get fun other => ?_)
        by_cases here : other = kind
        · rw [here]
          exact table.symm
        · exact (ObjectGroup.table_handle answered other).2 here
      refine .inr ⟨answer.symm, ?_, same, released.symm⟩
      rw [same]
      exact live

/-! ### Operations -/

/-- The heap after the own change of an operation. The reference that the operation took
away from somebody is counted until it is given up. -/
def opened (r : Registry) (operation : Operation) : Heap where
  registry := (r.change operation).registry
  count := (r.change operation).registry.sharesWith (r.change operation).tasks
  log := (r.change operation).journal

/-- `Performs policy r operation reply after starts`: an operation returns, with all that
is nested in it. Its own change comes first. -/
inductive Performs (policy : Policy) (r : Registry) (operation : Operation) :
    Reply → Heap → List Start → Prop where
  | alone : (r.change operation).tasks = [] →
      Performs policy r operation (r.change operation).reply (opened r operation) []
  | gaveUp {handle : Handle} {after : Heap} {starts : List Start} :
      (r.change operation).tasks = [.release handle] →
      Nested policy (opened r operation) (.drop .client handle) after starts →
      Performs policy r operation (r.change operation).reply after starts
  | acted {g : GroupId} {action : Action} {mid after : Heap} {starts more : List Start} :
      (r.change operation).tasks = [.act .client g action] →
      Nested policy (opened r operation) (.act .client g action) mid starts →
      Nested policy mid (.drop .ended (.group g)) after more →
      Performs policy r operation (r.change operation).reply after (starts ++ more)

/-- What holds when a destructor starts inside of an operation whose own change is `own`. -/
structure Start.Orderly (policy : Policy) (own : Change) (start : Start) : Prop where
  /-- The tables of the clients are those that the operation left. -/
  tables : start.heap.registry.keys = own.registry.keys ∧
    start.heap.registry.slots = own.registry.slots
  /-- The operation has made its records. -/
  events : own.journal <+: start.heap.log
  /-- A request that deleted a name has deleted the payload too, and made its record. -/
  deleted : ∀ issuer g kind l before out,
    start.cause = .request issuer g kind (.delete l) before out →
    ∃ group log p label, start.heap.registry.groups[g]? = some group ∧
      (group.names kind).isLive l = false ∧ group.payload? kind l = none ∧
      before.payload? kind l = some p ∧ start.heap.log =
        log ++ [.performed issuer g kind (.delete l) .done out.event, .payloadDestroyed p label]
  /-- A request that attached a payload has stored it, or it has changed nothing, and it has
  made its record. -/
  attached : ∀ issuer g kind l q before out,
    start.cause = .request issuer g kind (.attach l q) before out →
    ∃ group log p label, start.heap.registry.groups[g]? = some group ∧
      start.heap.log =
        log ++ [.performed issuer g kind (.attach l q) out.answer out.event,
          .payloadDestroyed p label] ∧
      ((out.answer = .attached true ∧ group.payload? kind l = some q ∧
        before.payload? kind l = some p) ∨
        (out.answer = .attached false ∧ (group.names kind).isLive l = false ∧ group = before ∧
          p = q))
  /-- A new payload that was turned down has changed nothing. -/
  refused : ∀ issuer g kind l before, start.cause = .refusal issuer g kind l before →
    start.heap.registry = before ∧ before.isLiveIn g kind l = false ∧
      ∃ log label, start.heap.log = log ++ [.payloadRefused issuer g kind l label]
  /-- A destroyed group that gave up its payloads is not there any more. -/
  destroyed : ∀ g, start.cause = .destroyed g → start.heap.registry.has (.group g) = false
  /-- The groups are sound, what is there has references, and the target is there. -/
  sound : start.heap.registry.Sound
  there_iff : ∀ h, start.heap.registry.has h ↔ 0 < start.heap.count h
  target_there : start.heap.registry.has (.group start.destructor.target)
  /-- In the flat run the same moment is reached, and the action is the next task. -/
  flat : ∃ journal others, start.heap.log = own.journal ++ journal ∧
    Cascade policy own.registry own.tasks journal start.heap.registry (start.task :: others)

variable {r : Registry} {operation : Operation}

theorem counted_opened (accounted : Accounted r []) (operation : Operation) :
    Counted (opened r operation) (r.change operation).tasks where
  accounted :=
    have ⟨_, opening⟩ := opening_of_change r operation
    (opening.transfer accounted).accounted accounted
  count_eq _ := rfl

/-- An operation leaves one task at most: something to give up, or its action. -/
theorem tasks_of_change (r : Registry) (operation : Operation) :
    (r.change operation).tasks = [] ∨ (∃ handle, (r.change operation).tasks = [.release handle]) ∨
      ∃ g action, (r.change operation).tasks = [.act .client g action] := by
  obtain ⟨gained, opening⟩ := opening_of_change r operation
  generalize r.change operation = change at opening
  have released (g : Option GroupId) : releaseGroup g = [] ∨
    ∃ handle, releaseGroup g = [.release handle] := by
    cases g with
    | none => exact .inl rfl
    | some g => exact .inr ⟨.group g, rfl⟩
  cases opening with
  | unchanged => exact .inl rfl
  | created | attached | kept => exact (released _).imp_right .inl
  | detached | letGo => exact .inr (.inl ⟨_, rfl⟩)
  | released => exact .inr (.inl ⟨_, rfl⟩)
  | acting => exact .inr (.inr ⟨_, _, rfl⟩)

/-- The tasks of an operation do what its nested calls do, and its answer is given before any
of them. -/
theorem Performs.simulates {reply : Reply}
    (performs : Performs policy r operation reply after starts)
    (accounted : Accounted r []) :
    reply = (r.change operation).reply ∧
      Simulates policy (opened r operation) (r.change operation).tasks after [] starts ∧
      ∀ start ∈ starts, start.cause.Complete policy start.heap := by
  have counted := counted_opened accounted operation
  cases performs with
  | alone none =>
      rw [none] at counted ⊢
      exact ⟨rfl, .refl counted, fun _ mem => by cases mem⟩
  | gaveUp releases nested =>
      rw [releases] at counted ⊢
      have counted : Counted (opened r operation) ([.release _] ++ []) := counted
      exact ⟨rfl, nested.simulates (.drop _) counted, nested.complete trivial⟩
  | acted acts action release =>
      rw [acts] at counted ⊢
      have counted : Counted (opened r operation) ([.act .client _ _] ++ []) := counted
      have acted := action.simulates .act counted
      have released := release.simulates (.drop _) acted.leads.counted
      exact ⟨rfl, acted.trans released,
        List.forall_mem_append.mpr ⟨action.complete trivial, release.complete trivial⟩⟩

/-- An operation returns, nested, where its tasks come to an end. -/
theorem exists_performs (accounted : Accounted r [])
    (finishes : Finishes policy (r.change operation).registry (r.change operation).tasks) :
    ∃ after starts, Performs policy r operation (r.change operation).reply after starts := by
  have counted := counted_opened accounted operation
  rcases tasks_of_change r operation with none | ⟨handle, releases⟩ | ⟨g, action, acts⟩
  · exact ⟨_, _, .alone none⟩
  · rw [releases] at counted finishes
    have counted : Counted (opened r operation) ([.release handle] ++ []) := counted
    obtain ⟨after, starts, nested⟩ := exists_nested (.drop .client) counted finishes
    exact ⟨after, starts, .gaveUp releases nested⟩
  · rw [acts] at counted finishes
    have counted : Counted (opened r operation) ([.act .client g action] ++ []) := counted
    obtain ⟨mid, starts, action⟩ := exists_nested .act counted finishes
    have acted := action.simulates .act counted
    obtain ⟨after, more, release⟩ := exists_nested (.drop .ended) acted.leads.counted
      (acted.leads.finishes finishes)
    exact ⟨after, _, .acted acts action release⟩

/-- The flat run of an operation ends where the nested one does, with the same answer and the
same events in the same order. -/
theorem Performs.perform_eq {reply : Reply}
    (performs : Performs policy r operation reply after starts)
    (accounted : Accounted r []) :
    r.perform policy operation = ⟨reply, after.registry, after.log, []⟩ := by
  obtain ⟨rfl, simulates, -⟩ := performs.simulates accounted
  obtain ⟨journal, log, cascade⟩ := simulates.leads.cascade
  have cascade : Cascade policy (r.change operation).registry (r.change operation).tasks journal
    after.registry [] := cascade
  rw [perform_eq_of_cascade cascade trivial, log]
  rfl

/-- Every destructor that starts inside of an operation finds its tables, its records and what
gave the payload up as they should be. The flat run passes the same moment, and what is known
of runs holds there; the cause of the destructor says what came right before it. -/
theorem Performs.orderly {reply : Reply} (performs : Performs policy r operation reply after starts)
    (accounted : Accounted r []) (sound : r.Sound) {start : Start} (mem : start ∈ starts) :
    start.Orderly policy (r.change operation) := by
  obtain ⟨-, simulates, complete⟩ := performs.simulates accounted
  obtain ⟨others, leads⟩ := simulates.passes start mem
  obtain ⟨journal, log, cascade⟩ := leads.cascade
  have cascade : Cascade policy (r.change operation).registry (r.change operation).tasks journal
    start.heap.registry (start.task :: others) := cascade
  have complete := complete start mem
  have there_iff (h : Handle) : start.heap.registry.has h ↔ 0 < start.heap.count h := by
    rw [leads.counted.accounted.has_iff, leads.counted.count_eq]
  exact {
    tables := cascade.tables_eq
    events := ⟨journal, log.symm⟩
    deleted := by
      intro issuer g kind l before out cause
      rw [cause] at complete
      obtain ⟨answered, found, log, p, label, released, same⟩ := complete
      obtain ⟨dead, none, done, payload⟩ := gone_of_delete answered
      rw [done] at same
      exact ⟨out.group, log, p, label, found, dead, none, payload.symm.trans released, same⟩
    attached := by
      intro issuer g kind l q before out cause
      rw [cause] at complete
      obtain ⟨answered, found, log, p, label, released, same⟩ := complete
      refine ⟨out.group, log, p, label, found, same, ?_⟩
      rcases stored_of_attach answered with ⟨done, -, stored, payload⟩ |
        ⟨turnedDown, dead, kept, payload⟩
      · exact .inl ⟨done, stored, payload.symm.trans released⟩
      · exact .inr ⟨turnedDown, dead, kept, Option.some.inj (released.symm.trans payload)⟩
    refused := by
      intro issuer g kind l before cause
      rw [cause] at complete
      obtain ⟨same, dead, recorded⟩ := complete
      exact ⟨same, same ▸ dead, recorded⟩
    destroyed := by
      intro g cause
      rw [cause] at complete
      exact complete
    sound :=
      have ⟨_, opening⟩ := opening_of_change r operation
      cascade.sound (opening.sound sound)
    there_iff := there_iff
    target_there := by
      rw [leads.counted.accounted.has_iff, sharesWith, pending_cons, Start.task, Task.handles,
        List.count_singleton_self]
      omega
    flat := ⟨journal, others, log, cascade⟩ }

/-- The attached keys that a destructor finds inside of an operation. A new group, and the
group of an existing key, has its key by then, and a detached key is gone. The operation gave
something up, or no destructor would start, so it is none that left everything as it was. -/
theorem Performs.keys_of_start {reply : Reply}
    (performs : Performs policy r operation reply after starts)
    (accounted : Accounted r []) (sound : r.Sound) {start : Start} (mem : start ∈ starts) :
    match operation with
    | .create key => start.heap.registry.keys = r.keys.insert key r.groupsMade
    | .attach key existing =>
      ∃ g, r.keys[existing]? = some g ∧ start.heap.registry.keys = r.keys.insert key g
    | .detach key => start.heap.registry.keys = r.keys.erase key
    | _ => start.heap.registry.keys = r.keys := by
  have tables := (performs.orderly accounted sound mem).tables.1
  have gaveUp : (r.change operation).tasks ≠ [] := by
    intro none
    cases performs with
    | alone => cases mem
    | gaveUp releases =>
        rw [none] at releases
        cases releases
    | acted acts =>
        rw [none] at acts
        cases acts
  obtain ⟨gained, opening⟩ := opening_of_change r operation
  rw [tables]
  generalize r.change operation = change at opening gaveUp
  cases opening with
  | unchanged => exact absurd rfl gaveUp
  | created | detached | kept | letGo | released | acting => rfl
  | attached found => exact ⟨_, found, rfl⟩

/-- In every reachable registry, what an operation does with destructors that act inside of it
is what it does flat, and every destructor finds the operation and what gave its payload up
complete. The counts that were kept by hand are those of the owners at the end. -/
theorem Run.nested_iff_flat {settings : Settings} {operations : List Operation} {log : Journal}
    (run : Run settings operations log r []) (policy : Policy) (operation : Operation) :
    (∀ reply after journal,
      (∃ count starts, Performs policy r operation reply ⟨after, count, journal⟩ starts) ↔
        r.perform policy operation = ⟨reply, after, journal, []⟩) ∧
    ∀ reply after starts, Performs policy r operation reply after starts →
      (∀ h, after.count h = after.registry.shares h) ∧
      ∀ start ∈ starts, start.Orderly policy (r.change operation) := by
  refine ⟨fun reply after journal => ⟨?_, fun performed => ?_⟩, ?_⟩
  · rintro ⟨count, starts, performs⟩
    exact performs.perform_eq run.accounted
  · have finishes : Finishes policy (r.change operation).registry (r.change operation).tasks :=
      congrArg Result.residual performed
    obtain ⟨heap, starts, performs⟩ := exists_performs run.accounted finishes
    have same := (performs.perform_eq run.accounted).symm.trans performed
    obtain ⟨rfl, rfl, rfl, -⟩ := Result.mk.inj same
    exact ⟨heap.count, starts, performs⟩
  · intro reply after starts performs
    obtain ⟨-, simulates, -⟩ := performs.simulates run.accounted
    exact ⟨simulates.leads.counted.count_eq,
      fun start mem => performs.orderly run.accounted run.sound mem⟩

/-- A name is deleted whose payload deletes another name, and that one has a payload. Then a
key moves to the group of another one. Nobody else has a share of its old group, which is
destroyed with its payload, and that one generates a name in the new group: it finds the key
there already. -/
theorem Run.nested_iff_flat_of_sibling :
    ∃ log r, Run ⟨.reuse, 1⟩
        [.create (.handle 1), .create (.handle 2),
          .act (.key (.handle 1)) (.generate .texture [0, 0]),
          .act (.key (.handle 1))
            (.attachActing .texture 1 "owner" (.key (.handle 1)) (.delete .texture 2) none),
          .act (.key (.handle 1)) (.attachNew .texture 2 "sibling" none),
          .act (.key (.handle 2)) (.generate .texture [0]),
          .act (.key (.handle 2))
            (.attachActing .texture 1 "guest" (.key (.handle 1)) (.generate .texture [0]) none)]
        log r [] ∧
      (∃ after count journal starts,
        Performs .standard r (.act (.key (.handle 1)) (.delete .texture 1)) .done
          ⟨after, count, journal⟩ starts ∧
        journal.drops = ["owner", "sibling"] ∧ journal.records =
          [.object .texture (.naming (.removed 1 1)),
            .object .texture (.naming (.removed 2 2))]) ∧
      ∃ after count journal starts,
        Performs .standard r (.attach (.handle 2) (.handle 1)) (.group 0)
          ⟨after, count, journal⟩ starts ∧
        r.perform .standard (.attach (.handle 2) (.handle 1)) = ⟨.group 0, after, journal, []⟩ ∧
        journal.drops = ["guest"] ∧ starts.map Start.cause = [.destroyed 1] ∧
        ∀ start ∈ starts, start.heap.registry.keys = r.keys.insert (.handle 2) 0 ∧
          start.Orderly .standard (r.change (.attach (.handle 2) (.handle 1))) := by
  have reached : ∃ log r, Run ⟨.reuse, 1⟩
      [.create (.handle 1), .create (.handle 2),
        .act (.key (.handle 1)) (.generate .texture [0, 0]),
        .act (.key (.handle 1))
          (.attachActing .texture 1 "owner" (.key (.handle 1)) (.delete .texture 2) none),
        .act (.key (.handle 1)) (.attachNew .texture 2 "sibling" none),
        .act (.key (.handle 2)) (.generate .texture [0]),
        .act (.key (.handle 2))
          (.attachActing .texture 1 "guest" (.key (.handle 1)) (.generate .texture [0]) none)]
      log r [] ∧
      (∃ after journal, r.perform .standard (.act (.key (.handle 1)) (.delete .texture 1)) =
          ⟨.done, after, journal, []⟩ ∧
        journal.drops = ["owner", "sibling"] ∧ journal.records =
          [.object .texture (.naming (.removed 1 1)),
            .object .texture (.naming (.removed 2 2))]) ∧
      r.keys[ContextKey.handle 1]? = some 0 ∧
      ∃ after starts,
        Performs .standard r (.attach (.handle 2) (.handle 1)) (.group 0) after starts ∧
        after.log.drops = ["guest"] ∧ starts.map Start.cause = [.destroyed 1] :=
    ⟨_, _, Run.start.performAll .standard _ (by decide), ⟨_, _, rfl, by decide, by decide⟩,
      rfl, _, _,
      -- The last share of the group goes, then that of its payload, and then its destructor acts.
      .gaveUp rfl (.lastOfGroup rfl rfl (.dropNext
        (.lastOfPayload rfl rfl (.acting rfl
          (.generate (.requestedOnly rfl rfl rfl) (.idle rfl)) (.shared (by decide))))
        .dropNone)),
      by decide, rfl⟩
  obtain ⟨log, r, run, ⟨_, _, deleted, drops, records⟩, keyed, after, starts, performs, moved⟩ :=
    reached
  refine ⟨log, r, run, ?_, ?_⟩
  · obtain ⟨count, starts, performs⟩ := ((run.nested_iff_flat .standard _).1 _ _ _).mpr deleted
    exact ⟨_, count, _, starts, performs, drops, records⟩
  · obtain ⟨flat, orderly⟩ := run.nested_iff_flat .standard (.attach (.handle 2) (.handle 1))
    refine ⟨_, _, _, starts, performs, (flat _ _ _).mp ⟨_, _, performs⟩, moved.1, moved.2,
      fun start mem => ⟨?_, (orderly _ _ _ performs).2 start mem⟩⟩
    obtain ⟨g, attached, keys⟩ := performs.keys_of_start run.accounted run.sound mem
    cases keyed.symm.trans attached
    exact keys

end SharedNames.Registry
