import SharedNames.Proofs.Registry.Soundness
import SharedNames.Proofs.Registry.Unfolding

/-!
Calls that ask for nothing new cannot be told from calls that were not made.

A call is redundant if what it asks for is there already, or cannot be done: a request
for a live name, the deletion of a name that is not live, a binding with a reserved name,
a payload for a name that is not live, a key that is attached where it is attached
already. Whether a call is redundant depends on the registry at which it is made
(`isVain` for the actions on a group, `isRedundant` for all operations).

* `handle_of_vain`: a table answers a vain request without a change, under any rule.
* `Forced` is a cascade in which nothing is left to a policy. What follows from vain
  actions is one, and it leads back to where it started (`forced_of_vain`,
  `forced_of_redundant`).
* `Course` is a history of calls, and `Pruned` takes out redundant ones where they are
  made. `Run.redundant_calls_invisible`: what is left is a history, in which every call
  has the same reply, the same events and leaves the same registry as before.
-/

namespace SharedNames

/-! ### Requests that change nothing -/

/-- Whether a request leaves a table as it is. -/
def ObjectTable.Vain (t : ObjectTable) : ObjectTable.Request → Prop
  | .generate requested => requested ≠ 0 ∧ t.names.isLive requested = true
  | .delete l => t.names.isLive l = false
  | .rebind l g => l = 0 ∨ g = 0
  | .attach l _ => t.names.isLive l = false

/-- A vain request is answered without a change and gives back what came with it. That
the deletion of an unknown name releases nothing is due to the payloads, which are only
at live names. -/
theorem ObjectTable.handle_of_vain {t : ObjectTable} {request : ObjectTable.Request}
    (sound : t.Sound) (vain : t.Vain request) :
    ∃ answer event released, released.toList.map Handle.payload = request.handles ∧
      ∀ rule, t.handle rule request = some ⟨t, answer, event, released⟩ := by
  cases request with
  | generate requested =>
      refine ⟨.name requested, some (.naming (.kept requested)), none, rfl, fun rule => ?_⟩
      rw [handle, generate, NameTable.generate_of_isLive true vain.1 vain.2]
      rfl
  | delete l =>
      have none : t.payloads[l]? = none := by
        by_contra stored
        obtain ⟨p, stored⟩ := Option.ne_none_iff_exists'.mp stored
        have live := sound.live_of_payload stored
        rw [show t.names.isLive l = false from vain] at live
        cases live
      refine ⟨.done, .none, .none, rfl, fun rule => ?_⟩
      simp only [handle, delete, NameTable.delete_of_not_isLive rule vain, erase_eq_self none, none,
        Option.map_none]
  | rebind l g =>
      refine ⟨.done, some (.naming (.turnedDown l g)), none, rfl, fun rule => ?_⟩
      simp only [handle, rebind, NameTable.rebind_of_reserved rule t.names vain]
  | attach l p =>
      refine ⟨.attached false, some (.payloadTurnedDown l), some p, rfl, fun rule => ?_⟩
      rw [handle, attach, if_neg (Bool.eq_false_iff.mp vain)]

def Journal.Quiet (journal : Journal) : Prop :=
  journal.made = [] ∧ journal.destroyed = []

theorem Journal.Quiet.append {journal more : Journal} (first : journal.Quiet)
    (second : more.Quiet) : Journal.Quiet (journal ++ more) :=
  ⟨by rw [made_append, first.1, second.1]; rfl, by rw [destroyed_append, first.2, second.2]; rfl⟩

namespace Registry

variable {r after final : Registry} {task : Task} {rest tasks left others : List Task}
  {journal more : Journal} {moments : List Moment} {g : GroupId} {action : Action}
  {operation : Operation}

/-! ### Calls that change nothing -/

/-- Whether an action on a group asks for nothing new. A payload must not act when it is
refused, and the client must not hold it. -/
def isVain (r : Registry) (g : GroupId) : Action → Bool
  | .generate kind requests =>
    requests.all fun requested => requested ≠ 0 && r.isLiveIn g kind requested
  | .delete kind l => !r.isLiveIn g kind l
  | .rebind _ l global => l = 0 || global = 0
  | .attachHeld kind l _ hold | .attachNew kind l _ hold => hold.isNone && !r.isLiveIn g kind l
  | .attachActing kind l _ target _ hold =>
    hold.isNone && !r.isLiveIn g kind l && (r.find? target).isNone
  | .fetch _ _ _ => false

/-- Whether an operation asks for nothing new: a vain action, a key that keeps the group
it has, or a key that is attached to the group of a key without one, or to its own, or
that is detached without a group. -/
def isRedundant (r : Registry) : Operation → Bool
  | .create key => r.settings.onDuplicate = .reuse && r.contains key
  | .attach key existing => !r.contains existing || r.keys[key]? = r.keys[existing]?
  | .detach key => !r.contains key
  | .act target action => (r.find? target).any fun g => r.isVain g action
  | .keep _ _ | .letGo _ | .releaseHeld _ => false

/-! ### Cascades without a choice -/

/-- `Forced r tasks journal after left`: carrying out tasks leads from one registry to
another one, whatever the policies are. -/
inductive Forced : Registry → List Task → Journal → Registry → List Task → Prop where
  | rest {r : Registry} {tasks : List Task} : Forced r tasks [] r tasks
  | step {r after : Registry} {task : Task} {rest left : List Task} {step : Step}
      {journal : Journal} :
      (∀ policy, r.step policy rest task = some step) →
      Forced step.registry (step.tasks ++ rest) journal after left →
      Forced r (task :: rest) (step.journal ++ journal) after left

namespace Forced

/-- What is forced after something that is forced is forced from the start. -/
theorem trans (first : Forced r tasks journal after left)
    (second : Forced after left more final others) :
    Forced r tasks (journal ++ more) final others := by
  induction first with
  | rest => exact second
  | step stepped _ ih =>
      rw [List.append_assoc]
      exact .step stepped (ih second)

theorem single {step : Step} (stepped : ∀ policy, r.step policy rest task = some step) :
    Forced r (task :: rest) step.journal step.registry (step.tasks ++ rest) := by
  simpa using Forced.step stepped .rest

theorem cascade (forced : Forced r tasks journal after left) (policy : Policy) :
    Cascade policy r tasks journal after left := by
  induction forced with
  | rest => exact .rest
  | step stepped _ ih => exact .step (stepped policy) ih

/-- However the tasks are carried out to their end, they do what they are forced to. So a
redundant call has one outcome only. -/
theorem settles_iff (forced : Forced r tasks journal after []) :
    Settles r tasks more final ↔ more = journal ∧ final = after := by
  generalize ends : ([] : List Task) = left at forced
  induction forced generalizing more with
  | rest =>
      subst ends
      exact settles_nil_iff
  | step stepped _ ih =>
      rw [settles_cons_iff]
      constructor
      · rintro ⟨policy, step, following, stepped', rfl, settles⟩
        obtain rfl := Option.some.inj ((stepped policy).symm.trans stepped')
        obtain ⟨rfl, rfl⟩ := (ih ends).mp settles
        exact ⟨rfl, rfl⟩
      · rintro ⟨rfl, rfl⟩
        exact ⟨.standard, _, _, stepped .standard, rfl, (ih ends).mpr ⟨rfl, rfl⟩⟩

/-- A share that others have as well is given up without a trace, under every policy. -/
theorem release_of_owned {handle : Handle} (owned : 0 < r.shares handle) :
    Forced r (.release handle :: rest) [] r rest := by
  have counted : 0 < r.sharesWith rest handle := Nat.lt_of_lt_of_le owned (Nat.le_add_right _ _)
  have stepped (policy : Policy) : r.step policy rest (.release handle) = some ⟨r, [], []⟩ :=
    (Effect.kept counted).step_eq
  exact .single stepped

end Forced

/-! ### What follows from vain actions -/

/-- A task that passes a vain request on leads to what follows the answer, and to the release
of what came with the request. The registry is the one from before, as a whole. -/
theorem forced_of_ask (task : Task) (rest : List Task) {ask : Ask} {group : ObjectGroup}
    (sound : r.Sound) (asks : task.ask? = some ask) (there : r.groups[ask.g]? = some group)
    (vain : (group.table ask.kind).Vain ask.request) :
    ∃ journal, Forced r (task :: rest) journal r
        (ask.request.handles.map .release ++ ask.next ++ rest) ∧ journal.Quiet := by
  obtain ⟨answer, event, released, given, answered⟩ :=
    ObjectTable.handle_of_vain (sound ask.g group there ask.kind) vain
  have handled (policy : Policy) : group.handle policy.successor ask.kind ask.request =
      some ⟨group, answer, event, released⟩ := by
    rw [ObjectGroup.handle, answered, Option.map_some]
    simp only [ObjectGroup.table, PerKind.set_get]
  have stepped (policy : Policy) : r.step policy rest task = some
      { registry := r
        tasks := ask.request.handles.map .release ++ ask.next
        journal := [.performed ask.issuer ask.g ask.kind ask.request answer event] } := by
    rw [step_of_ask asks, request, there]
    simp only [handled, Option.map_some, insert_eq_self there, ← given, List.map_map]
    rfl
  exact ⟨_, .single stepped, rfl, rfl⟩

/-- A refused payload that does not act is gone at once. -/
theorem forced_of_offer {issuer : Issuer} {offer : Offer} (offers : r.offer? action = some offer)
    (unheld : offer.name = none) (dead : r.isLiveIn g offer.kind offer.l = false)
    (idle : offer.payload.destructor = none) :
    ∃ journal, Forced r (.act issuer g action :: rest) journal r (.release (.group g) :: rest) ∧
      journal.Quiet := by
  have stepped (policy : Policy) : r.step policy rest (.act issuer g action) = some
      { registry := r
        tasks := [.release (.group g)]
        journal := [.payloadRefused issuer g offer.kind offer.l offer.payload.label] } := by
    rw [step_of_offer offers, offer_of_refused unheld dead, afterPayload, idle]
    rfl
  exact ⟨_, .single stepped, rfl, rfl⟩

/-- A vain action comes to nothing but the release of its share of the group, request by
request if it is a list. The registry stays as it is at each of these steps, so the later
requests of a list are as vain as the first one. -/
theorem forced_of_vain (rest : List Task) {issuer : Issuer} {group : ObjectGroup} (sound : r.Sound)
    (there : r.groups[g]? = some group) (vain : r.isVain g action = true) :
    ∃ journal, Forced r (.act issuer g action :: rest) journal r (.release (.group g) :: rest) ∧
      journal.Quiet := by
  have live (kind : ObjectKind) (l : Name) := isLiveIn_of_found there kind l
  cases action with
  | generate kind requests =>
      induction requests with
      | nil =>
          have nothing : r.Idle g (.generate kind []) := rfl
          exact ⟨[], .single fun policy => (Effect.idle nothing).step_eq, rfl, rfl⟩
      | cons requested requests ih =>
          simp only [isVain, List.all_cons, Bool.and_eq_true, decide_eq_true_eq, live] at vain ih
          obtain ⟨_, first, quiet⟩ :=
            forced_of_ask (.act issuer g (.generate kind (requested :: requests))) rest sound rfl
              there vain.1
          obtain ⟨_, others, quiet'⟩ := ih vain.2
          exact ⟨_, first.trans others, quiet.append quiet'⟩
  | delete kind l =>
      simp only [isVain, live, Bool.not_eq_true'] at vain
      exact forced_of_ask (.act issuer g (.delete kind l)) rest sound rfl there vain
  | rebind kind l global =>
      simp only [isVain, Bool.or_eq_true, decide_eq_true_eq] at vain
      exact forced_of_ask (.act issuer g (.rebind kind l global)) rest sound rfl there vain
  | attachHeld kind l source hold =>
      simp only [isVain, Bool.and_eq_true, Option.isNone_iff_eq_none, Bool.not_eq_true'] at vain
      obtain ⟨rfl, dead⟩ := vain
      cases found : r.held[source]? with
      | none =>
          have nothing : r.Idle g (.attachHeld kind l source none) := found
          exact ⟨[], .single fun policy => (Effect.idle nothing).step_eq, rfl, rfl⟩
      | some p =>
          have offered : Forced r (.act issuer g (.attachHeld kind l source none) :: rest) [] r
              (.store issuer g kind l p :: rest) :=
            .single fun policy => (Effect.attached found).step_eq
          rw [live] at dead
          obtain ⟨journal, refused, quiet⟩ :=
            forced_of_ask (.store issuer g kind l p) rest sound rfl there dead
          have held : 0 < r.shares (.payload p) := shares_payload_pos_iff.mpr (.inl ⟨source, found⟩)
          refine ⟨_, offered.trans (refused.trans (.release_of_owned held)), ?_⟩
          simpa using quiet
  | attachNew kind l label hold =>
      simp only [isVain, Bool.and_eq_true, Option.isNone_iff_eq_none, Bool.not_eq_true'] at vain
      exact forced_of_offer rfl vain.1 vain.2 rfl
  | attachActing kind l label target action hold =>
      simp only [isVain, Bool.and_eq_true, Option.isNone_iff_eq_none, Bool.not_eq_true'] at vain
      obtain ⟨⟨unheld, dead⟩, unknown⟩ := vain
      refine forced_of_offer rfl unheld dead ?_
      simp only [unknown, Option.map_none]
  | fetch => cases vain

/-! ### What follows from redundant operations -/

theorem contains_iff_found {key : ContextKey} :
    r.contains key = true ↔ ∃ g, r.keys[key]? = some g := by
  rw [contains, Std.ExtTreeMap.contains_eq_isSome_getElem?, Option.isSome_iff_exists]

theorem contains_eq_false_iff {key : ContextKey} :
    r.contains key = false ↔ r.keys[key]? = none := by
  rw [contains, Std.ExtTreeMap.contains_eq_isSome_getElem?, Option.isSome_eq_false_iff,
    Option.isNone_iff_eq_none]

/-- A redundant operation changes nothing itself, and what follows from it comes to nothing:
each share that it takes it gives up again, and somebody else has one. -/
theorem forced_of_redundant (accounted : Accounted r []) (sound : r.Sound)
    (redundant : r.isRedundant operation = true) :
    ∃ journal, (r.change operation).registry = r ∧
      Forced r (r.change operation).tasks journal r [] ∧
      Journal.Quiet ((r.change operation).journal ++ journal) := by
  cases operation with
  | create key =>
      simp only [isRedundant, Bool.and_eq_true, decide_eq_true_eq, contains_iff_found] at redundant
      obtain ⟨reuse, g, found⟩ := redundant
      simp only [change, create, found, reuse]
      exact ⟨[], trivial, .rest, rfl, rfl⟩
  | attach key existing =>
      simp only [isRedundant, Bool.or_eq_true, decide_eq_true_eq, Bool.not_eq_true',
        contains_eq_false_iff] at redundant
      cases found : r.keys[existing]? with
      | none =>
          simp only [change, attach, found]
          exact ⟨[], trivial, .rest, rfl, rfl⟩
      | some g =>
          rw [found] at redundant
          have same : r.keys[key]? = some g := redundant.resolve_left (by simp)
          have owned : 0 < r.shares (.group g) := shares_group_pos_iff.mpr (.inl ⟨key, same⟩)
          simp only [change, attach, found, same, insert_eq_self same, true_and]
          exact ⟨[], .release_of_owned owned, rfl, rfl⟩
  | detach key =>
      simp only [isRedundant, Bool.not_eq_true', contains_eq_false_iff] at redundant
      simp only [change, detach, redundant]
      exact ⟨[], trivial, .rest, rfl, rfl⟩
  | act target action =>
      simp only [isRedundant, Option.any_eq_true] at redundant
      obtain ⟨g, found, vain⟩ := redundant
      have owned : 0 < r.shares (.group g) := shares_pos_of_find found
      obtain ⟨group, there⟩ := has_group_iff.mp ((accounted.has_iff (.group g)).mpr owned)
      obtain ⟨journal, forced, quiet⟩ := forced_of_vain [] sound there vain
      simp only [change, found, true_and]
      exact ⟨_, forced.trans (.release_of_owned owned), quiet.append ⟨rfl, rfl⟩⟩
  | keep | letGo | releaseHeld => cases redundant

/-! ### Lists of requests -/

theorem step_generate_iff {policy : Policy} {issuer : Issuer} {kind : ObjectKind} {requested : Name}
    {requests : List Name} {step : Step} :
    r.step policy rest (.act issuer g (.generate kind (requested :: requests))) = some step ↔
      ∃ registry journal,
        r.request policy issuer g kind (.generate requested) = some ⟨registry, [], journal⟩ ∧
          step = ⟨registry, [.act issuer g (.generate kind requests)], journal⟩ := by
  have asked : r.step policy rest (.act issuer g (.generate kind (requested :: requests))) =
      (r.request policy issuer g kind (.generate requested)).map
        (·.thenTasks [.act issuer g (.generate kind requests)]) := rfl
  rw [asked]
  constructor
  · intro stepped
    obtain ⟨own, passedOn, rfl⟩ := Option.map_eq_some_iff.mp stepped
    have nothing : own.tasks = [] := by
      rw [request] at passedOn
      split at passedOn
      · cases passedOn
        rfl
      · obtain ⟨out, answered, rfl⟩ := Option.map_eq_some_iff.mp passedOn
        rw [ObjectGroup.released_of_generate answered]
        rfl
    obtain ⟨registry, tasks, journal⟩ := own
    subst nothing
    exact ⟨registry, journal, passedOn, rfl⟩
  · rintro ⟨registry, journal, passedOn, rfl⟩
    rw [passedOn]
    rfl

/-- Making a list of requests is making one part of it and then the other, by induction on the
first part. In between the client gives its share of the group up and takes one anew, which
makes no difference, as its key or slot keeps the group. -/
theorem settles_append_iff {kind : ObjectKind} {target : GroupRef} (found : r.find? target = some g)
    (first second : List Name) :
    Settles r [.act .client g (.generate kind (first ++ second))] journal after ↔
      ∃ mid own following, journal = own ++ following ∧
        Settles r [.act .client g (.generate kind first)] own mid ∧
        Settles mid [.act .client g (.generate kind second)] following after := by
  induction first generalizing r journal with
  | nil =>
      -- Nothing is asked for at first, and the release of the group finds another share.
      have idle : Forced r [.act .client g (.generate kind [])] [] r [] := by
        have nothing : r.Idle g (.generate kind []) := rfl
        have stepped (policy : Policy) : r.step policy [] (.act .client g (.generate kind [])) =
            some ⟨r, [.release (.group g)], []⟩ := (Effect.idle nothing).step_eq
        exact (Forced.single stepped).trans (.release_of_owned (shares_pos_of_find found))
      simp only [idle.settles_iff, List.nil_append]
      constructor
      · intro settles
        exact ⟨r, [], journal, rfl, ⟨rfl, rfl⟩, settles⟩
      · rintro ⟨mid, own, following, rfl, ⟨rfl, rfl⟩, settles⟩
        exact settles
  | cons requested first ih =>
      have refers {policy : Policy} {requests : List Name} {step : Step}
          (stepped : r.step policy [] (.act .client g (.generate kind requests)) = some step) :
          step.registry.find? target = some g := by
        obtain ⟨gained, effect⟩ := effect_of_step stepped
        rw [effect.find?_eq, found]
      rw [List.cons_append, settles_cons_iff]
      constructor
      · rintro ⟨policy, step, rest, stepped, rfl, settles⟩
        have there := refers stepped
        obtain ⟨registry, journal, passedOn, rfl⟩ := step_generate_iff.mp stepped
        obtain ⟨mid, own, following, rfl, parts⟩ := (ih there).mp settles
        refine ⟨mid, journal ++ own, following, (List.append_assoc ..).symm, ?_, parts.2⟩
        exact settles_cons_iff.mpr
          ⟨policy, _, own, step_generate_iff.mpr ⟨registry, journal, passedOn, rfl⟩, rfl, parts.1⟩
      · rintro ⟨mid, own, following, rfl, settles, others⟩
        obtain ⟨policy, step, rest, stepped, rfl, own⟩ := settles_cons_iff.mp settles
        have there := refers stepped
        obtain ⟨registry, journal, passedOn, rfl⟩ := step_generate_iff.mp stepped
        refine ⟨policy, _, rest ++ following,
          step_generate_iff.mpr ⟨registry, journal, passedOn, rfl⟩, List.append_assoc .., ?_⟩
        exact (ih there).mpr ⟨mid, rest, following, rfl, own, others⟩

/-! ### Histories -/

structure Turn where
  operation : Operation
  reply : Reply
  journal : Journal
  registry : Registry

/-- A call is made and returns, whatever is chosen on the way. -/
def Returns (r : Registry) (turn : Turn) : Prop :=
  turn.reply = (r.change turn.operation).reply ∧
    ∃ following, Settles (r.change turn.operation).registry (r.change turn.operation).tasks
        following turn.registry ∧
      turn.journal = (r.change turn.operation).journal ++ following

inductive Course : Registry → List Turn → Registry → Prop where
  | done {r : Registry} : Course r [] r
  | call {r after : Registry} {turn : Turn} {turns : List Turn} :
      Returns r turn → Course turn.registry turns after → Course r (turn :: turns) after

/-- `Pruned r turns kept`: of the calls of a history, some that are redundant where they
are made are left out. -/
inductive Pruned : Registry → List Turn → List Turn → Prop where
  | done {r : Registry} : Pruned r [] []
  | keep {r : Registry} {turn : Turn} {turns kept : List Turn} :
      Pruned turn.registry turns kept → Pruned r (turn :: turns) (turn :: kept)
  | drop {r : Registry} {turn : Turn} {turns kept : List Turn} :
      r.isRedundant turn.operation = true → Pruned turn.registry turns kept →
      Pruned r (turn :: turns) kept

theorem returns_act_iff {target : GroupRef} {reply : Reply} :
    Returns r ⟨.act target action, reply, journal, after⟩ ↔
      (∃ g, r.find? target = some g ∧ reply = .done ∧
        Settles r [.act .client g action] journal after) ∨
      r.find? target = none ∧ reply = .absent ∧ journal = [] ∧ after = r := by
  cases found : r.find? target with
  | some g => simp [Returns, change, found]
  | none => simp [Returns, change, found, settles_nil_iff]

/-- A client that asks for a list of names cannot tell whether it asked in one call or two. So
a request for a live name can be left out of a list as well. -/
theorem returns_append_iff (target : GroupRef) (kind : ObjectKind) (first second : List Name)
    (reply : Reply) :
    Returns r ⟨.act target (.generate kind (first ++ second)), reply, journal, after⟩ ↔
      ∃ mid own following, journal = own ++ following ∧
        Returns r ⟨.act target (.generate kind first), reply, own, mid⟩ ∧
        Returns mid ⟨.act target (.generate kind second), reply, following, after⟩ := by
  have same_group {g : GroupId} {tasks : List Task} {own : Journal} {mid : Registry}
      (settles : Settles r tasks own mid) (found : r.find? target = some g) :
      mid.find? target = some g := by
    obtain ⟨moments, unfolds, -⟩ := settles
    rw [unfolds.find?_eq, found]
  simp only [returns_act_iff]
  constructor
  · rintro (⟨g, found, rfl, settles⟩ | ⟨missing, rfl, rfl, rfl⟩)
    · obtain ⟨mid, own, following, rfl, parts, others⟩ :=
        (settles_append_iff found first second).mp settles
      have refers := same_group parts found
      exact ⟨mid, own, following, rfl, .inl ⟨g, found, rfl, parts⟩, .inl ⟨g, refers, rfl, others⟩⟩
    · exact ⟨after, [], [], rfl, .inr ⟨missing, rfl, rfl, rfl⟩, .inr ⟨missing, rfl, rfl, rfl⟩⟩
  · rintro ⟨mid, own, following, rfl, ⟨g, found, rfl, parts⟩ | ⟨missing, rfl, rfl, rfl⟩,
      ⟨j, refers, same, others⟩ | ⟨missing', same, rfl, rfl⟩⟩
    · obtain rfl := Option.some.inj (refers.symm.trans (same_group parts found))
      exact .inl ⟨j, found, rfl,
        (settles_append_iff found first second).mpr ⟨mid, own, following, rfl, parts, others⟩⟩
    · cases same
    · cases same
    · exact .inr ⟨missing, rfl, rfl, rfl⟩

def transcript (policy : Policy) (r : Registry) : List Operation → List Turn
  | [] => []
  | operation :: operations =>
    let result := r.perform policy operation
    ⟨operation, result.reply, result.journal, result.registry⟩ ::
      transcript policy result.registry operations

theorem course_transcript (policy : Policy) (operations : List Operation)
    (finished : (r.performAll policy operations).residual = []) :
    Course r (transcript policy r operations) (r.performAll policy operations).registry := by
  induction operations generalizing r with
  | nil => exact .done
  | cons operation operations ih =>
      rw [performAll] at finished ⊢
      split at finished
      · rename_i settled
        rw [if_pos settled]
        exact .call ⟨rfl, settles_of_perform settled⟩ (ih finished)
      · rename_i stuck
        exact absurd finished stuck

section Runs

variable {settings : Settings} {operations : List Operation} {log : Journal}

/-- A call that returns makes the run longer, whatever was chosen on the way. -/
theorem Run.returns (run : Run settings operations log r []) {turn : Turn}
    (returns : Returns r turn) :
    Run settings (operations ++ [turn.operation]) (log ++ turn.journal) turn.registry [] := by
  obtain ⟨-, _, ⟨moments, unfolds, rfl⟩, events⟩ := returns
  have longer := (run.operate turn.operation).unfold unfolds
  rw [List.append_assoc, ← events] at longer
  exact longer

/-- A redundant call leaves the registry as it is, whatever is chosen on the way. This is why
the calls after it need not be looked at again. -/
theorem Returns.registry_eq (run : Run settings operations log r []) {turn : Turn}
    (returns : Returns r turn) (redundant : r.isRedundant turn.operation = true) :
    turn.registry = r := by
  obtain ⟨journal, same, forced, -⟩ := forced_of_redundant run.accounted run.sound redundant
  obtain ⟨-, following, settles, -⟩ := returns
  rw [same] at settles
  exact (forced.settles_iff.mp settles).2

/-- Redundant calls can be left out of a history. By induction on the history: what is kept is
made in the same registries as before. -/
theorem Course.pruned {turns kept : List Turn} (course : Course r turns after)
    (pruned : Pruned r turns kept) (run : Run settings operations log r []) :
    Course r kept after := by
  induction pruned generalizing operations log with
  | done => exact course
  | keep _ ih =>
      cases course with
      | call returns continued => exact .call returns (ih continued (run.returns returns))
  | drop redundant _ ih =>
      cases course with
      | call returns continued =>
          have rest := ih continued (run.returns returns)
          rwa [returns.registry_eq run redundant] at rest

/-! ### All runs -/

/-- At a moment of a run, redundant calls have no effect and leave no trace in others. -/
structure RedundancyInvisible (r : Registry) (tasks : List Task) : Prop where
  /-- A request for a live name is passed over, also among others, and whoever made it. -/
  next_request : ∀ issuer g kind requested requests rest,
    tasks = .act issuer g (.generate kind (requested :: requests)) :: rest →
    requested ≠ 0 → r.isLiveIn g kind requested = true →
    ∃ journal, Forced r tasks journal r (.act issuer g (.generate kind requests) :: rest) ∧
      journal.Quiet
  /-- A vain action of a client or of a destructor comes to nothing: only its own share of
  the group is left to be released. -/
  next_action : ∀ issuer g action rest, tasks = .act issuer g action :: rest →
    r.isVain g action = true →
    ∃ journal, Forced r tasks journal r (.release (.group g) :: rest) ∧ journal.Quiet
  /-- A redundant operation returns, and leaves the registry as it was: keys, slots, shares,
  groups with their names, counters and payloads. Nothing is made or destroyed. -/
  next_operation : ∀ operation, tasks = [] → r.isRedundant operation = true →
    ∃ reply journal, journal.Quiet ∧ ∀ policy, r.perform policy operation = ⟨reply, r, journal, []⟩
  /-- A list of requests for names is as good as its parts, made one after the other, so what
  is said about redundant calls is said about each request of a list. -/
  next_list : ∀ target kind first second reply journal after,
    Returns r ⟨.act target (.generate kind (first ++ second)), reply, journal, after⟩ ↔
      ∃ mid own following, journal = own ++ following ∧
        Returns r ⟨.act target (.generate kind first), reply, own, mid⟩ ∧
        Returns mid ⟨.act target (.generate kind second), reply, following, after⟩
  /-- Redundant calls can be left out of any history that follows. Every other call gets
  the same reply, has the same events and leaves the same registry. -/
  removal : tasks = [] → ∀ turns kept after, Course r turns after → Pruned r turns kept →
    Course r kept after

/-- At every moment of every run redundant calls are invisible: they leave keys, slots,
shares, groups and payloads as they are, and any number of them can be left out of a history
without a change to the replies, the events or the registries of the other calls. -/
theorem Run.redundant_calls_invisible (run : Run settings operations log r tasks) :
    RedundancyInvisible r tasks := by
  have group_there (issuer : Issuer) (g : GroupId) (action : Action) (rest : List Task)
      (pending : tasks = .act issuer g action :: rest) : ∃ group, r.groups[g]? = some group := by
    subst pending
    exact has_group_iff.mp ((run.accounted.has_iff _).mpr
      (sharesWith_pos_of_mem List.mem_cons_self))
  constructor
  case next_request =>
    intro issuer g kind requested requests rest pending nonzero live
    obtain ⟨group, there⟩ := group_there issuer g _ rest pending
    subst pending
    rw [isLiveIn_of_found there] at live
    exact forced_of_ask (.act issuer g (.generate kind (requested :: requests))) rest run.sound rfl
      there ⟨nonzero, live⟩
  case next_action =>
    intro issuer g action rest pending vain
    obtain ⟨group, there⟩ := group_there issuer g action rest pending
    subst pending
    exact forced_of_vain rest run.sound there vain
  case next_operation =>
    rintro operation rfl redundant
    obtain ⟨journal, same, forced, quiet⟩ := forced_of_redundant run.accounted run.sound redundant
    refine ⟨(r.change operation).reply, _, quiet, fun policy => ?_⟩
    refine perform_eq_of_cascade ?_ trivial
    rw [same]
    exact forced.cascade policy
  case next_list =>
    intro target kind first second reply journal after
    exact returns_append_iff target kind first second reply
  case removal =>
    rintro rfl turns kept after course pruned
    exact course.pruned pruned run

/-- A history with every kind of redundant call, made where a payload is held and attached
and two keys share the group. Without them a name is deleted, the next one generated, and
the payload released, with the same replies and the same registries in between. -/
theorem Run.redundant_calls_invisible_of_shared :
    ∃ log r turns kept after, Run ⟨.reuse, 1⟩
        [.create (.handle 1), .attach (.handle 2) (.handle 1),
          .act (.key (.handle 1)) (.generate .texture [0, 0]),
          .act (.key (.handle 1)) (.attachNew .texture 1 "a" (some "h"))] log r [] ∧
      turns.map Turn.operation =
        [.act (.key (.handle 1)) (.generate .texture [2, 1]),
          .act (.key (.handle 2)) (.delete .texture 3),
          .act (.key (.handle 1)) (.rebind .texture 1 0),
          .act (.key (.handle 1)) (.delete .texture 1),
          .act (.key (.handle 1)) (.attachHeld .texture 1 "h" none),
          .act (.key (.handle 2)) (.attachNew .texture 1 "b" none),
          .act (.key (.handle 1))
            (.attachActing .texture 1 "c" (.slot "s") (.delete .texture 2) none),
          .attach (.handle 2) (.handle 3), .detach (.handle 3),
          .act (.key (.handle 1)) (.generate .texture [0]),
          .create (.handle 2), .attach (.handle 2) (.handle 1), .attach (.handle 1) (.handle 1),
          .releaseHeld "h"] ∧
      kept.map Turn.operation =
        [.act (.key (.handle 1)) (.delete .texture 1),
          .act (.key (.handle 1)) (.generate .texture [0]), .releaseHeld "h"] ∧
      (kept.map fun turn => turn.journal.drops) = [[], [], ["a"]] ∧
      Course r turns after ∧ Course r kept after ∧ RedundancyInvisible r [] := by
  have fresh : Run ⟨.reuse, 1⟩ [] [] _ [] := .start
  have run := fresh.performAll .standard
    [.create (.handle 1), .attach (.handle 2) (.handle 1),
      .act (.key (.handle 1)) (.generate .texture [0, 0]),
      .act (.key (.handle 1)) (.attachNew .texture 1 "a" (some "h"))] (by decide)
  have invisible := run.redundant_calls_invisible
  refine ⟨_, _, _, _, _, run, ?_, ?_, ?_, course_transcript .standard
    [.act (.key (.handle 1)) (.generate .texture [2, 1]),
      .act (.key (.handle 2)) (.delete .texture 3),
      .act (.key (.handle 1)) (.rebind .texture 1 0),
      .act (.key (.handle 1)) (.delete .texture 1),
      .act (.key (.handle 1)) (.attachHeld .texture 1 "h" none),
      .act (.key (.handle 2)) (.attachNew .texture 1 "b" none),
      .act (.key (.handle 1))
        (.attachActing .texture 1 "c" (.slot "s") (.delete .texture 2) none),
      .attach (.handle 2) (.handle 3), .detach (.handle 3),
      .act (.key (.handle 1)) (.generate .texture [0]),
      .create (.handle 2), .attach (.handle 2) (.handle 1), .attach (.handle 1) (.handle 1),
      .releaseHeld "h"] (by decide),
    invisible.removal rfl _ _ _ (course_transcript _ _ (by decide)) <|
      .drop (by decide) <| .drop (by decide) <| .drop (by decide) <| .keep <|
      .drop (by decide) <| .drop (by decide) <| .drop (by decide) <| .drop (by decide) <|
      .drop (by decide) <| .keep <|
      .drop (by decide) <| .drop (by decide) <| .drop (by decide) <| .keep .done, invisible⟩
  · decide
  · decide
  · decide

end Runs

end Registry

end SharedNames
