import Mathlib.Data.List.Nodup
import SharedNames.Proofs.Registry.Effect

/-!
Groups and payloads are there exactly as long as they have shares.

`Accounted` is this invariant, for a registry with the tasks that are pending: whatever
has a share is there, whatever is there has a share, and was made before. `Books` ties
the registry to the journal so far: the groups and payloads that were destroyed are
those that were made and are not there any more, each destroyed once.

Both follow from one law about a single change, `Transfer`: what is there afterwards,
and what has shares, is the same up to what the journal of the change says was made or
destroyed. Every task obeys it (`Effect.transfer`).
-/

namespace SharedNames

/-! ### What a journal says was made and destroyed -/

namespace Entry

def made? : Entry → Option Handle
  | groupMade g _ => some (.group g)
  | payloadMade p _ => some (.payload p)
  | _ => none

def destroyed? : Entry → Option Handle
  | groupDestroyed g _ _ => some (.group g)
  | payloadDestroyed p _ => some (.payload p)
  | _ => none

end Entry

namespace Journal

def made (journal : Journal) : List Handle :=
  journal.filterMap Entry.made?

def destroyed (journal : Journal) : List Handle :=
  journal.filterMap Entry.destroyed?

theorem made_append (journal more : Journal) : made (journal ++ more) = made journal ++ made more :=
  List.filterMap_append

theorem destroyed_append (journal more : Journal) :
    destroyed (journal ++ more) = destroyed journal ++ destroyed more :=
  List.filterMap_append

end Journal

namespace Registry

/-- Whether a group or payload was made so far: its number was given out. -/
def Made (r : Registry) : Handle → Prop
  | .group g => g < r.groupsMade
  | .payload p => p < r.payloadsMade

/-! ### The invariants and the law of a change -/

/-- The invariant of ownership: what is there are the groups and payloads that have shares,
and they were made. Between tasks nothing without a share is kept, and nothing with one is
missing. -/
structure Accounted (r : Registry) (tasks : List Task) : Prop where
  has_iff : ∀ h, r.has h ↔ 0 < r.sharesWith tasks h
  made_of_has : ∀ h, r.has h → r.Made h

/-- What was made is there or was destroyed, and was destroyed at most once. -/
structure Books (log : Journal) (r : Registry) : Prop where
  made_iff : ∀ h, h ∈ log.made ↔ r.Made h
  made_nodup : log.made.Nodup
  destroyed_iff : ∀ h, h ∈ log.destroyed ↔ r.Made h ∧ ¬ r.has h
  destroyed_nodup : log.destroyed.Nodup

/-- A change from one registry with pending tasks to another one: what is there, what
was made and what has shares changes as the journal of the change says. -/
structure Transfer (r : Registry) (tasks : List Task) (journal : Journal) (after : Registry)
    (tasksAfter : List Task) : Prop where
  has_iff : ∀ h, after.has h ↔ r.has h ∧ h ∉ journal.destroyed ∨ h ∈ journal.made
  made_iff : ∀ h, after.Made h ↔ r.Made h ∨ h ∈ journal.made
  shares_pos_iff : ∀ h, 0 < after.sharesWith tasksAfter h ↔
    0 < r.sharesWith tasks h ∧ h ∉ journal.destroyed ∨ h ∈ journal.made
  destroyed_there : ∀ h ∈ journal.destroyed, r.has h
  destroyed_nodup : journal.destroyed.Nodup
  made_new : ∀ h ∈ journal.made, ¬ r.Made h
  made_nodup : journal.made.Nodup

section Law

variable {r after : Registry} {tasks tasksAfter : List Task} {log journal : Journal}

/-- The law of a change carries the invariant of ownership over to the registry after it. -/
theorem Transfer.accounted (transfer : Transfer r tasks journal after tasksAfter)
    (accounted : Accounted r tasks) : Accounted after tasksAfter where
  has_iff h := by
    rw [transfer.has_iff, transfer.shares_pos_iff, accounted.has_iff]
  made_of_has h there := by
    rw [transfer.made_iff]
    rcases (transfer.has_iff h).mp there with ⟨before, -⟩ | made
    · exact .inl (accounted.made_of_has h before)
    · exact .inr made

/-- The law of a change carries the books over too. This is where it matters that a change
makes only new things and destroys only what is there: neither can be entered twice. -/
theorem Transfer.books (transfer : Transfer r tasks journal after tasksAfter)
    (accounted : Accounted r tasks) (books : Books log r) : Books (log ++ journal) after where
  made_iff h := by
    rw [Journal.made_append, List.mem_append, books.made_iff, transfer.made_iff]
  made_nodup := by
    rw [Journal.made_append]
    refine books.made_nodup.append transfer.made_nodup fun h old new => ?_
    exact transfer.made_new h new ((books.made_iff h).mp old)
  destroyed_iff h := by
    rw [Journal.destroyed_append, List.mem_append, books.destroyed_iff, transfer.made_iff,
      transfer.has_iff]
    constructor
    · rintro (⟨made, gone⟩ | destroyed)
      · refine ⟨.inl made, ?_⟩
        rintro (⟨there, -⟩ | new)
        · exact gone there
        · exact transfer.made_new h new made
      · have made := accounted.made_of_has h (transfer.destroyed_there h destroyed)
        refine ⟨.inl made, ?_⟩
        rintro (⟨-, stays⟩ | new)
        · exact stays destroyed
        · exact transfer.made_new h new made
    · rintro ⟨made | new, gone⟩
      · by_cases destroyed : h ∈ journal.destroyed
        · exact .inr destroyed
        · exact .inl ⟨made, fun there => gone (.inl ⟨there, destroyed⟩)⟩
      · exact absurd (.inr new) gone
  destroyed_nodup := by
    rw [Journal.destroyed_append]
    refine books.destroyed_nodup.append transfer.destroyed_nodup fun h old new => ?_
    exact ((books.destroyed_iff h).mp old).2 (transfer.destroyed_there h new)

end Law

/-! ### What is there after a write -/

section Writes

variable {r : Registry} {h : Handle}

theorem contains_erase_iff {α : Type} {m : Std.ExtTreeMap Nat α} {k j : Nat} :
    (m.erase k).contains j = true ↔ m.contains j = true ∧ j ≠ k := by
  by_cases same : j = k
  · simp [same]
  · simp [same, Ne.symm same]

theorem contains_insert_iff {α : Type} {m : Std.ExtTreeMap Nat α} {k j : Nat} {a : α} :
    (m.insert k a).contains j = true ↔ m.contains j = true ∨ j = k := by
  by_cases same : j = k
  · simp [same]
  · simp [same, Ne.symm same]

theorem has_eraseGroup {g : GroupId} :
    ({ r with groups := r.groups.erase g } : Registry).has h ↔ r.has h ∧ h ≠ .group g := by
  cases h with
  | group j => simp only [has, contains_erase_iff, ne_eq, Handle.group.injEq]
  | payload p => simp [has]

theorem has_insertGroup {g : GroupId} {group : ObjectGroup} :
    ({ r with groups := r.groups.insert g group } : Registry).has h ↔ r.has h ∨ h = .group g := by
  cases h with
  | group j => simp only [has, contains_insert_iff, Handle.group.injEq]
  | payload p => simp [has]

theorem has_erasePayload {p : PayloadId} :
    ({ r with payloads := r.payloads.erase p } : Registry).has h ↔ r.has h ∧ h ≠ .payload p := by
  cases h with
  | group g => simp [has]
  | payload j => simp only [has, contains_erase_iff, ne_eq, Handle.payload.injEq]

theorem has_take {payload : Payload} :
    (r.take payload).has h ↔ r.has h ∨ h = .payload r.payloadsMade := by
  cases h with
  | group g => simp [has, take]
  | payload j => simp only [has, take, contains_insert_iff, Handle.payload.injEq]

theorem made_take {payload : Payload} :
    (r.take payload).Made h ↔ r.Made h ∨ h = .payload r.payloadsMade := by
  cases h with
  | group g => simp [Made, take]
  | payload j =>
      simp only [Made, take, Handle.payload.injEq]
      exact Nat.lt_succ_iff_lt_or_eq

/-- Holding a payload neither makes nor destroys it. -/
theorem has_hold (name : Option String) (p : PayloadId) :
    (hold name p r).registry.has h = r.has h := by
  cases name <;> cases h <;> rfl

theorem made_hold (name : Option String) (p : PayloadId) :
    (hold name p r).registry.Made h ↔ r.Made h := by
  cases name <;> cases h <;> rfl

end Writes

/-! ### Every task obeys the law -/

section Tasks

variable {policy : Policy} {rest : List Task} {r after : Registry} {task : Task} {step : Step}
  {tasks tasksAfter : List Task} {journal : Journal} {gained : List Handle}

/-- A change that destroys nothing obeys the law if the shares that it adds are of what has
shares already, or of what it made. Taking up a payload and making a group are the two cases. -/
theorem Transfer.of_gain (nothing : journal.destroyed = [])
    (has_iff : ∀ h, after.has h ↔ r.has h ∨ h ∈ journal.made)
    (made_iff : ∀ h, after.Made h ↔ r.Made h ∨ h ∈ journal.made)
    (balance : ∀ h, after.sharesWith tasksAfter h = r.sharesWith tasks h + gained.count h)
    (shared : ∀ h ∈ gained, 0 < r.sharesWith tasks h ∨ h ∈ journal.made)
    (taken : ∀ h ∈ journal.made, h ∈ gained) (made_new : ∀ h ∈ journal.made, ¬ r.Made h)
    (made_nodup : journal.made.Nodup) : Transfer r tasks journal after tasksAfter where
  has_iff h := by simp [nothing, has_iff]
  made_iff := made_iff
  shares_pos_iff h := by
    have counted : 0 < gained.count h ↔ h ∈ gained := List.count_pos_iff
    have pos : 0 < after.sharesWith tasksAfter h ↔ 0 < r.sharesWith tasks h ∨ h ∈ gained := by
      rw [balance, ← counted]
      omega
    rw [pos, nothing]
    constructor
    · rintro (before | gain)
      · exact .inl ⟨before, List.not_mem_nil⟩
      · exact (shared h gain).imp (fun before => ⟨before, List.not_mem_nil⟩) id
    · rintro (⟨before, -⟩ | made)
      · exact .inl before
      · exact .inr (taken h made)
  destroyed_there h destroyed := by
    rw [nothing] at destroyed
    cases destroyed
  destroyed_nodup := by simp [nothing]
  made_new := made_new
  made_nodup := made_nodup

/-- A change that makes and destroys nothing obeys the law if the shares that it adds
are of what has shares already. -/
theorem Transfer.of_shared (nothing : journal.destroyed = [] ∧ journal.made = [])
    (has_iff : ∀ h, after.has h ↔ r.has h) (made_iff : ∀ h, after.Made h ↔ r.Made h)
    (balance : ∀ h, after.sharesWith tasksAfter h = r.sharesWith tasks h + gained.count h)
    (shared : ∀ h ∈ gained, 0 < r.sharesWith tasks h) : Transfer r tasks journal after tasksAfter :=
  .of_gain nothing.1 (fun h => by simp [has_iff, nothing.2])
    (fun h => by simp [made_iff, nothing.2])
    balance (fun h mem => .inl (shared h mem)) (by simp [nothing.2]) (by simp [nothing.2])
    (by simp [nothing.2])

/-- A change that takes the last share of something obeys the law if it destroys it. This is
why a last release cannot leave anything behind. -/
theorem Transfer.of_loss {lost : Handle} (destroyed : journal.destroyed = [lost])
    (nothing : journal.made = []) (has_iff : ∀ h, after.has h ↔ r.has h ∧ h ≠ lost)
    (made_iff : ∀ h, after.Made h ↔ r.Made h)
    (balance : ∀ h, after.sharesWith tasksAfter h + [lost].count h = r.sharesWith tasks h)
    (last : r.sharesWith tasks lost = 1) (there : r.has lost) :
    Transfer r tasks journal after tasksAfter where
  has_iff h := by simp [nothing, destroyed, has_iff]
  made_iff h := by simp [nothing, made_iff]
  shares_pos_iff h := by
    have counted := balance h
    rw [nothing, destroyed]
    by_cases same : h = lost
    · subst same
      simp only [List.count_singleton_self] at counted
      simp
      omega
    · rw [List.count_cons_of_ne (Ne.symm same), List.count_nil, Nat.add_zero] at counted
      simp [same, counted]
  destroyed_there h mem := by
    rw [destroyed, List.mem_singleton] at mem
    rwa [mem]
  destroyed_nodup := by simp [destroyed]
  made_new h mem := by
    rw [nothing] at mem
    cases mem
  made_nodup := by simp [nothing]

/-- The group that a client refers to has a share: the key or the slot itself. So a client
never gets hold of a group that is on its way out. -/
theorem shares_pos_of_find {ref : GroupRef} {g : GroupId} (found : r.find? ref = some g) :
    0 < r.shares (.group g) := by
  rw [shares_group_pos_iff]
  cases ref with
  | slot name => exact .inr (.inl ⟨name, found⟩)
  | key key => exact .inl ⟨key, found⟩

/-- The group that a new payload holds has a share, since the client named it by a key or a
slot. So its destructor never gets a share of a group that is gone. -/
theorem shares_pos_of_offer {action : Action} {offer : Offer}
    (offers : r.offer? action = some offer)
    {h : Handle} (mem : h ∈ offer.payload.handles) : 0 < r.shares h := by
  cases action with
  | attachNew kind l label name =>
      cases offers
      cases mem
  | attachActing kind l label target action name =>
      cases offers
      simp only [Payload.handles] at mem
      cases found : r.find? target with
      | none =>
          rw [found] at mem
          cases mem
      | some g =>
          rw [found] at mem
          obtain rfl : h = .group g := List.mem_singleton.mp mem
          exact shares_pos_of_find found
  | generate | delete | rebind | attachHeld | fetch => cases offers

/-- An effect takes shares only of what has shares already, or of what it made. -/
theorem Effect.shared (effect : Effect policy rest r task gained step) {h : Handle}
    (mem : h ∈ gained) : 0 < r.shares h ∨ h ∈ step.journal.made := by
  cases effect with
  | kept | absent | groupDestroyed | payloadDestroyed | answered | unanswered | idle => cases mem
  | @attached issuer g kind l source name p found =>
      have same : h = .payload p := by
        cases name <;> simpa using mem
      subst same
      exact .inl (shares_payload_pos_iff.mpr (.inl ⟨source, found⟩))
  | @fetched issuer g group kind l name p found stored =>
      obtain rfl : h = .payload p := List.mem_singleton.mp mem
      exact .inl (shares_payload_pos_iff.mpr (.inr ⟨g, group, kind, l, found, stored⟩))
  | refused offers => exact .inl (shares_pos_of_offer offers mem)
  | @offered issuer g action offer offers takes =>
      rcases List.mem_append.mp mem with new | target
      · have same : h = .payload r.payloadsMade := by
          cases named : offer.name <;> simpa [named] using new
        subst same
        exact .inr List.mem_cons_self
      · exact .inl (shares_pos_of_offer offers target)

/-- The number that the next payload gets is not in use. -/
theorem Accounted.fresh_payload (accounted : Accounted r tasks) :
    r.payloads[r.payloadsMade]? = none := by
  by_contra found
  obtain ⟨payload, found⟩ := Option.ne_none_iff_exists'.mp found
  exact Nat.lt_irrefl _ (accounted.made_of_has (.payload _) (has_payload_iff.mpr ⟨payload, found⟩))

/-- Every task obeys the law, whatever remains to be done after it. Four kinds of effects have
to be told apart: a release that others survive moves no share to zero, a release of something
absent cannot arise, the last release loses what it destroys, and all other effects take
shares only of what is there or of the payload that they make. -/
theorem Effect.transfer (effect : Effect policy rest r task gained step)
    (accounted : Accounted r (task :: rest)) :
    Transfer r (task :: rest) step.journal step.registry (step.tasks ++ rest) := by
  have balance := effect.balance accounted.fresh_payload fun h => (accounted.has_iff h).mpr
  have shared : ∀ h ∈ gained, 0 < r.sharesWith (task :: rest) h ∨ h ∈ step.journal.made := by
    intro h mem
    exact (effect.shared mem).imp_left fun pos => Nat.lt_of_lt_of_le pos (Nat.le_add_right _ _)
  have sharedOld (nothing : step.journal.made = []) :
      ∀ h ∈ gained, 0 < r.sharesWith (task :: rest) h := by
    intro h mem
    exact (shared h mem).resolve_right fun made => by rw [nothing] at made; cases made
  cases effect with
  | @kept handle owned =>
      have pos : ∀ h, 0 < r.sharesWith rest h ↔ 0 < r.sharesWith (.release handle :: rest) h := by
        intro h
        have counted := balance h
        simp only [spent, List.nil_append, List.count_nil] at counted
        by_cases same : h = handle
        · subst same
          omega
        · rw [List.count_cons_of_ne (Ne.symm same), List.count_nil] at counted
          omega
      exact {
        has_iff := fun h => by simp [Journal.destroyed, Journal.made]
        made_iff := fun h => by simp [Journal.made]
        shares_pos_iff := fun h => by simpa [Journal.destroyed, Journal.made] using pos h
        destroyed_there := fun h mem => by cases mem
        destroyed_nodup := List.nodup_nil
        made_new := fun h mem => by cases mem
        made_nodup := List.nodup_nil }
  | @absent handle last missing =>
      have owned : 0 < r.sharesWith (.release handle :: rest) handle := by
        rw [sharesWith_release, last]
        exact Nat.one_pos
      rw [(accounted.has_iff handle).mpr owned] at missing
      cases missing
  | @groupDestroyed g group last found =>
      refine .of_loss rfl rfl (fun h => has_eraseGroup) (fun h => ?_) balance ?_
        (has_group_iff.mpr ⟨group, found⟩)
      · cases h <;> rfl
      · rw [sharesWith_release, last]
  | @payloadDestroyed p payload last found =>
      refine .of_loss rfl rfl (fun h => has_erasePayload) (fun h => ?_) balance ?_
        (has_payload_iff.mpr ⟨payload, found⟩)
      · cases h <;> rfl
      · rw [sharesWith_release, last]
  | @answered task ask group out asks found answered =>
      have there := has_group_iff.mpr ⟨group, found⟩
      rw [(handles_of_ask asks).2.1] at balance
      refine .of_shared ⟨rfl, rfl⟩ (fun h => ?_) (fun h => ?_) balance (sharedOld rfl)
      · rw [has_insertGroup]
        exact or_iff_left_of_imp fun same => same ▸ there
      · cases h <;> rfl
  | @unanswered task ask asks missing =>
      rw [(handles_of_ask asks).2.1] at balance
      exact .of_shared ⟨rfl, rfl⟩ (fun h => .rfl) (fun h => .rfl) balance (sharedOld rfl)
  | idle => exact .of_shared ⟨rfl, rfl⟩ (fun h => .rfl) (fun h => .rfl) balance (sharedOld rfl)
  | @attached issuer g kind l source name p found =>
      have silent : (hold name p r).journal = [] := by cases name <;> rfl
      refine .of_shared ?_ (fun h => ?_) (fun h => made_hold name p) balance ?_
      · simp [Step.thenTasks, silent, Journal.made, Journal.destroyed]
      · rw [Step.thenTasks, has_hold]
      · exact sharedOld (by simp [Step.thenTasks, silent, Journal.made])
  | @fetched issuer g group kind l name p found stored =>
      refine .of_shared ⟨rfl, rfl⟩ (fun h => ?_) (fun h => made_hold (some name) p) balance
        (sharedOld rfl)
      rw [Step.thenTasks, has_hold]
  | refused offers unnamed dead =>
      exact .of_shared ⟨rfl, rfl⟩ (fun h => .rfl) (fun h => .rfl) balance (sharedOld rfl)
  | @offered issuer g action offer offers takes =>
      have one : Journal.made [.payloadMade r.payloadsMade offer.payload.label] =
          [.payload r.payloadsMade] := rfl
      refine .of_gain rfl (fun h => ?_) (fun h => ?_) balance shared ?_ ?_ ?_
      · rw [has_hold, has_take, one, List.mem_singleton]
      · rw [made_hold, made_take, one, List.mem_singleton]
      · simp [one]
      · simp [one, Made]
      · simp [one]

end Tasks

end Registry

end SharedNames
