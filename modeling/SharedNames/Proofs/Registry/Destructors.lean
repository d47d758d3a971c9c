import SharedNames.Proofs.Registry.Run

/-!
What destructors can be like.

Destructors are not made by the registry: a client brings them, with a payload. So a
property of the actions of all destructors holds at every moment if it holds of every
action that clients bring (`Run.destructors`), where a destructor that brings another
one counts as well. What follows from a task are then releases, what remains of the task
itself, and actions of destructors (`Effect.acts`).
-/

namespace SharedNames

/-- Whether an action only brings payloads whose destructors carry out a good action. -/
def Action.brings (good : Action → Bool) : Action → Bool
  | attachActing _ _ _ _ action _ => good action
  | generate _ _ | delete _ _ | rebind _ _ _ | attachHeld _ _ _ _ | attachNew _ _ _ _
  | fetch _ _ _ =>
    true

def Operation.brings (good : Action → Bool) : Operation → Bool
  | act _ action => action.brings good
  | create _ | attach _ _ | detach _ | keep _ _ | letGo _ | releaseHeld _ => true

def Payload.acts (good : Action → Bool) (payload : Payload) : Bool :=
  payload.destructor.all fun destructor => good destructor.action

def Task.acts (good : Action → Bool) : Task → Bool
  | act _ _ action => good action
  | release _ | store _ _ _ _ _ => true

namespace Registry

/-- Whether every destructor carries out a good action. -/
def DestructorsAre (good : Action → Bool) (r : Registry) : Prop :=
  ∀ (p : PayloadId) (payload : Payload), r.payloads[p]? = some payload → payload.acts good

variable {policy : Policy} {rest tasks : List Task} {r : Registry} {task : Task} {step : Step}
  {gained : List Handle} {operation : Operation} {change : Change} {good also : Action → Bool}

/-! ### Payloads -/

/-- The new payload of an action has the destructor that the action names, if it has one. -/
theorem acts_of_offer {action : Action} {offer : Offer} (offers : r.offer? action = some offer)
    (brings : action.brings good) : offer.payload.acts good := by
  cases action with
  | attachNew kind l label name =>
      cases offers
      rfl
  | attachActing kind l label target action name =>
      cases offers
      cases found : r.find? target with
      | none => rfl
      | some g => simpa [Payload.acts, Action.brings] using brings
  | generate | delete | rebind | attachHeld | fetch => cases offers

theorem payloads_hold (name : Option String) (p : PayloadId) (r : Registry) :
    (hold name p r).registry.payloads = r.payloads := by
  cases name <;> rfl

/-- Whether the payload that a task brings, if it is about one, is good. -/
def Brings (good : Action → Bool) (r : Registry) : Task → Prop
  | .act _ _ action => ∀ offer, r.offer? action = some offer → offer.payload.acts good
  | .release _ | .store _ _ _ _ _ => True

theorem brings_of_acts (brings : task.acts (Action.brings good)) : r.Brings good task := by
  cases task with
  | act issuer g action => exact fun offer offers => acts_of_offer offers brings
  | release | store => trivial

/-- Destructors stay as they are where a task brings no others. -/
theorem Effect.destructors_of_brings (effect : Effect policy rest r task gained step)
    (destructors : r.DestructorsAre good) (brings : r.Brings good task) :
    step.registry.DestructorsAre good := by
  cases effect with
  | kept | absent | groupDestroyed | answered | unanswered | idle | refused => exact destructors
  | attached | fetched =>
      intro p payload there
      rw [Step.thenTasks, payloads_hold] at there
      exact destructors p payload there
  | @payloadDestroyed p _ last found =>
      intro j payload there
      exact destructors j payload (getElem?_of_erase there)
  | @offered issuer g action offer offers takes =>
      intro p payload there
      rw [payloads_hold, take] at there
      rcases getElem?_of_insert there with ⟨-, rfl⟩ | there
      · exact brings offer offers
      · exact destructors p payload there

theorem Effect.destructors (effect : Effect policy rest r task gained step)
    (destructors : r.DestructorsAre good) (brings : task.acts (Action.brings good)) :
    step.registry.DestructorsAre good :=
  effect.destructors_of_brings destructors (brings_of_acts brings)

theorem Opening.destructors (opening : Opening r operation gained change)
    (destructors : r.DestructorsAre good) : change.registry.DestructorsAre good := by
  cases opening <;> exact destructors

/-! ### Tasks -/

/-- The tasks that follow a release only give up shares. -/
theorem acts_releases (ps : List PayloadId) :
    ∀ task ∈ ps.map (fun p => Task.release (.payload p)), task.acts good := by
  intro task mem
  obtain ⟨p, -, rfl⟩ := List.mem_map.mp mem
  rfl

theorem acts_hold (name : Option String) (p : PayloadId) (r : Registry) :
    ∀ task ∈ (hold name p r).tasks, task.acts good := by
  cases name with
  | none => exact fun _ mem => by cases mem
  | some name => exact acts_releases _

theorem acts_afterPayload {payload : Payload} (acts : payload.acts good) :
    ∀ task ∈ afterPayload payload, task.acts good := by
  unfold afterPayload
  cases has : payload.destructor with
  | none => exact fun _ mem => by cases mem
  | some destructor =>
      intro task mem
      cases List.mem_singleton.mp mem
      rwa [Payload.acts, has, Option.all_some] at acts

theorem acts_of_ask
    (plain : ∀ kind requested requests,
      good (.generate kind (requested :: requests)) → good (.generate kind requests))
    {ask : Ask} (asks : task.ask? = some ask) (own : task.acts good) :
    ∀ task ∈ ask.next, task.acts good := by
  rcases Task.next_of_ask asks with next | ⟨kind, requested, requests, rfl, -, next⟩
  · simp [next, Task.acts]
  · simpa [next, Task.acts] using plain kind requested requests own

theorem acts_releaseGroup (g : Option GroupId) : ∀ task ∈ releaseGroup g, task.acts good := by
  cases g <;> simp [releaseGroup, Task.acts]

/-- A task leads to releases, to what remains of itself and to actions of destructors. So if
these are good, and so is what remains of a list of names, everything that follows is. -/
theorem Effect.acts_of_brings (effect : Effect policy rest r task gained step)
    (plain : ∀ kind requested requests,
      also (.generate kind (requested :: requests)) → also (.generate kind requests))
    (weaker : ∀ action, good action → also action) (destructors : r.DestructorsAre good)
    (brings : r.Brings good task) (own : task.ask?.isSome → task.acts also) :
    ∀ task ∈ step.tasks, task.acts also := by
  have after {payload : Payload} (acts : payload.acts good) :
      ∀ task ∈ afterPayload payload, task.acts also := by
    refine acts_afterPayload ?_
    rw [Payload.acts, Option.all_eq_true] at acts ⊢
    exact fun destructor has => weaker _ (acts destructor has)
  cases effect with
  | kept | absent => exact fun _ mem => by cases mem
  | groupDestroyed => exact acts_releases _
  | @payloadDestroyed p payload last found => exact after (destructors p payload found)
  | answered asks _ _ =>
      have own := own (Option.isSome_of_eq_some asks)
      exact List.forall_mem_append.mpr ⟨acts_releases _, acts_of_ask plain asks own⟩
  | unanswered asks _ => exact acts_of_ask plain asks (own (Option.isSome_of_eq_some asks))
  | idle => simp [Task.acts]
  | attached | fetched => exact List.forall_mem_append.mpr ⟨acts_hold _ _ r, by simp [Task.acts]⟩
  | @refused issuer g action offer offers =>
      exact List.forall_mem_append.mpr ⟨after (brings offer offers), by simp [Task.acts]⟩
  | offered => exact List.forall_mem_append.mpr ⟨acts_hold _ _ _, by simp [Task.acts]⟩

theorem Effect.acts (effect : Effect policy rest r task gained step)
    (plain : ∀ kind requested requests,
      also (.generate kind (requested :: requests)) → also (.generate kind requests))
    (weaker : ∀ action, good action → also action) (destructors : r.DestructorsAre good)
    (brings : task.acts (Action.brings good)) (own : task.acts also) :
    ∀ task ∈ step.tasks, task.acts also :=
  effect.acts_of_brings plain weaker destructors (brings_of_acts brings) fun _ => own

/-- The only action that an operation starts is its own. -/
theorem Opening.acts (opening : Opening r operation gained change)
    (brings : operation.brings good) :
    ∀ task ∈ change.tasks, task.acts (Action.brings good) := by
  cases opening with
  | unchanged => exact fun _ mem => by cases mem
  | created | attached | detached | kept | letGo => exact acts_releaseGroup _
  | released => simp [Task.acts]
  | acting => exact fun _ mem => by cases List.mem_singleton.mp mem; exact brings

/-! ### Runs -/

/-- All destructors are good at every moment where only such were brought. A destructor may
bring payloads itself, so what is good has to bring only what is good. -/
theorem Run.destructors {settings : Settings} {operations : List Operation} {log : Journal}
    (run : Run settings operations log r tasks)
    (weaker : ∀ action, good action → action.brings good)
    (brings : ∀ operation ∈ operations, operation.brings good) :
    r.DestructorsAre good ∧ ∀ task ∈ tasks, task.acts (Action.brings good) := by
  induction run with
  | start => exact ⟨fun p payload there => by simp [empty] at there, fun _ mem => by cases mem⟩
  | @operate operations log r operation run ih =>
      obtain ⟨before, own⟩ := List.forall_mem_append.mp brings
      obtain ⟨gained, opening⟩ := opening_of_change r operation
      exact ⟨opening.destructors (ih before).1, opening.acts (own _ List.mem_cons_self)⟩
  | step run stepped ih =>
      obtain ⟨gained, effect⟩ := effect_of_step stepped
      obtain ⟨destructors, own⟩ := ih brings
      obtain ⟨first, others⟩ := List.forall_mem_cons.mp own
      refine ⟨effect.destructors destructors first, List.forall_mem_append.mpr ⟨?_, others⟩⟩
      exact effect.acts (fun _ _ _ _ => rfl) weaker destructors first first

end Registry

end SharedNames
