import SharedNames.Proofs.Registry.Effect

/-!
Carrying out tasks comes to an end.

Releasing one share can release many others, and a destructor can even take up new
payloads, so neither the tasks nor the payloads get fewer with every step. What gets
smaller is the `measure`: the weight of the pending tasks and of all that the registry
can still release (`Effect.measure_lt`). It is the bound that `settle` starts with, so
`settle` carries out every task, or stops at one that cannot be carried out
(`settle_ends`).

`Cascade` is the run of tasks without any bound. `settle` is the only complete cascade
(`settle_eq_of_cascade`).
-/

namespace SharedNames.Registry

/-! ### Sums over a map -/

section Sums

variable {κ α : Type} {cmp : κ → κ → Ordering} [Std.TransCmp cmp] [Std.LawfulEqCmp cmp]

theorem total_append (ns ms : List Nat) : total (ns ++ ms) = total ns + total ms :=
  List.sum_append

@[simp] theorem total_nil : total [] = 0 := rfl

theorem total_cons (n : Nat) (ns : List Nat) : total (n :: ns) = n + total ns := rfl

theorem total_perm {ns ms : List Nat} (perm : ns.Perm ms) : total ns = total ms :=
  perm.sum_nat

variable (weigh : α → Nat) (m : Std.ExtTreeMap κ α cmp) (k : κ)

theorem total_insert (a : α) :
    total ((valuesOf (m.insert k a)).map weigh) + total (m[k]?.toList.map weigh) =
      total ((valuesOf m).map weigh) + weigh a := by
  have summed := total_perm ((replaced_append_valuesOf_perm m k a).map weigh)
  rw [List.map_append, total_append, List.map_cons, total_cons] at summed
  omega

theorem total_erase :
    total ((valuesOf (m.erase k)).map weigh) + total (m[k]?.toList.map weigh) =
      total ((valuesOf m).map weigh) := by
  have summed := total_perm ((erased_append_valuesOf_perm m k).map weigh)
  rw [List.map_append, total_append] at summed
  omega

theorem size_insert (a : α) : (m.insert k a).size + m[k]?.toList.length = m.size + 1 := by
  have counted := (replaced_append_valuesOf_perm m k a).length_eq
  simp only [List.length_append, List.length_cons, length_valuesOf] at counted
  omega

end Sums

/-! ### The measure -/

/-- A bound on the steps to come: what the tasks can lead to, and all releases. It is the
bound with which `settle` starts. -/
def measure (r : Registry) (tasks : List Task) : Nat :=
  r.weight + total (tasks.map taskWeight)

variable {policy : Policy} {rest tasks : List Task} {r after : Registry} {task : Task} {step : Step}

theorem total_releases (ps : List PayloadId) :
    total ((ps.map fun p => Task.release (.payload p)).map taskWeight) = ps.length := by
  induction ps with
  | nil => rfl
  | cons p ps ih =>
      rw [List.map_cons, List.map_cons, total_cons, ih, List.length_cons, taskWeight, Nat.add_comm]

/-- A request leads to what follows it and to the release of what came with it, one step each.
So the weight of the task pays for them and for its own step. -/
theorem taskWeight_of_ask {ask : Ask} (asks : task.ask? = some ask) :
    taskWeight task = total (ask.next.map taskWeight) + ask.request.handles.length + 1 := by
  cases task with
  | release handle => cases asks
  | store issuer g kind l p =>
      cases asks
      rfl
  | act issuer g action =>
      cases action with
      | generate kind requests =>
          cases requests <;> cases asks
          rfl
      | delete kind l | rebind kind l global =>
          cases asks
          rfl
      | attachHeld | attachNew | attachActing | fetch => cases asks

/-- A request that frees a payload takes it out of its group, so the release that follows is
paid for by the group. -/
theorem payloadTotal_of_handle {rule : NameTable.SuccessorRule} {kind : ObjectKind}
    {request : ObjectTable.Request} {group : ObjectGroup} {out : ObjectGroup.Outcome}
    (answered : group.handle rule kind request = some out) :
    out.group.payloadTotal + out.released.toList.length =
      group.payloadTotal + request.handles.length := by
  have perm : (out.group.handles ++ out.released.toList.map Handle.payload).Perm
      (group.handles ++ request.handles) := by
    refine List.perm_iff_count.mpr fun h => ?_
    rw [List.count_append, List.count_append]
    exact ObjectGroup.count_handles_of_handle answered h
  simpa [ObjectGroup.handles, ObjectGroup.payloadTotal] using perm.length_eq

theorem weight_eraseGroup {g : GroupId} {group : ObjectGroup} (found : r.groups[g]? = some group) :
    ({ r with groups := r.groups.erase g } : Registry).weight + (group.payloadTotal + 1) =
      r.weight := by
  have erased := total_erase (fun group : ObjectGroup => group.payloadTotal + 1) r.groups g
  simp only [found, Option.toList_some, List.map_singleton, total_cons, total_nil] at erased
  simp only [weight]
  omega

theorem weight_insertGroup {g : GroupId} {group : ObjectGroup} (next : ObjectGroup)
    (found : r.groups[g]? = some group) :
    ({ r with groups := r.groups.insert g next } : Registry).weight + group.payloadTotal =
      r.weight + next.payloadTotal := by
  have written := total_insert (fun group : ObjectGroup => group.payloadTotal + 1) r.groups g next
  simp only [found, Option.toList_some, List.map_singleton, total_cons, total_nil] at written
  simp only [weight]
  omega

theorem weight_erasePayload {p : PayloadId} {payload : Payload}
    (found : r.payloads[p]? = some payload) :
    ({ r with payloads := r.payloads.erase p } : Registry).weight + payloadWeight payload =
      r.weight := by
  have erased := total_erase payloadWeight r.payloads p
  simp only [found, Option.toList_some, List.map_singleton, total_cons, total_nil] at erased
  simp only [weight]
  omega

theorem weight_take (payload : Payload) :
    (r.take payload).weight ≤ r.weight + payloadWeight payload := by
  have written := total_insert payloadWeight r.payloads r.payloadsMade payload
  simp only [weight, take]
  omega

/-- Holding a payload pays for its release later on. Where the name held another payload, the
release of that one was paid for before. -/
theorem measure_hold (name : Option String) (p : PayloadId) (r : Registry) :
    measure (hold name p r).registry (hold name p r).tasks = r.weight + name.toList.length := by
  cases name with
  | none => rfl
  | some name =>
      have size := size_insert r.held name p
      simp only [measure, hold, weight, total_releases, Option.toList_some, List.length_singleton]
      omega

theorem two_le_actionWeight (action : Action) : 2 ≤ actionWeight action := by
  cases action <;> simp only [actionWeight] <;> omega

theorem taskWeight_pos (task : Task) : 0 < taskWeight task := by
  cases task with
  | act issuer g action => exact Nat.lt_of_lt_of_le Nat.two_pos (two_le_actionWeight action)
  | release | store => simp [taskWeight]

/-- What an action that brings a payload weighs covers the payload. The action of a destructor
is part of the action that brings it, which is why destructors that bring payloads with
destructors come to an end. -/
theorem payloadWeight_of_offer {action : Action} {offer : Offer}
    (offers : r.offer? action = some offer) :
    payloadWeight offer.payload + 5 ≤ actionWeight action := by
  cases action with
  | attachNew kind l label name =>
      cases offers
      exact Nat.le_refl 5
  | attachActing kind l label target action name =>
      cases offers
      cases found : r.find? target with
      | none => simp [payloadWeight, afterPayload, actionWeight]
      | some g => simp [payloadWeight, afterPayload, total_cons, actionWeight, taskWeight]
  | generate | delete | rebind | attachHeld | fetch => cases offers

/-- Every step makes the measure smaller, whatever the choices of the registry. A task pays
for itself and for what follows it; what it stores or holds is paid for until it is released,
and a payload with a destructor for the action of the destructor too. So carrying out tasks
ends, and the bound of `settle` is never what stops it. -/
theorem Effect.measure_lt {gained : List Handle} (effect : Effect policy rest r task gained step) :
    measure step.registry (step.tasks ++ rest) < measure r (task :: rest) := by
  simp only [measure, List.map_append, total_append, List.map_cons, total_cons]
  cases effect with
  | kept | absent =>
      simp only [taskWeight, List.map_nil, total_nil]
      omega
  | @groupDestroyed g group last found =>
      have erased := weight_eraseGroup found
      have released := total_releases (policy.order g group.payloadShares)
      rw [(policy.order_perm g group.payloadShares).length_eq] at released
      simp only [released, taskWeight, ObjectGroup.payloadTotal] at erased ⊢
      omega
  | @payloadDestroyed p payload last found =>
      have erased := weight_erasePayload found
      simp only [payloadWeight] at erased
      simp only [taskWeight]
      omega
  | @answered task ask group out asks found answered =>
      have written := weight_insertGroup out.group found
      have handled := payloadTotal_of_handle answered
      have weighs := taskWeight_of_ask asks
      simp only [List.map_append, total_append, total_releases]
      omega
  | @unanswered task ask asks missing =>
      have weighs := taskWeight_of_ask asks
      dsimp only
      omega
  | @idle issuer g action nothing =>
      have weighs := two_le_actionWeight action
      simp only [taskWeight, List.map_cons, List.map_nil, total_cons, total_nil]
      omega
  | @attached issuer g kind l source name p found =>
      have held := measure_hold name p r
      have short : name.toList.length ≤ 1 := by cases name <;> simp
      simp only [measure] at held
      simp only [Step.thenTasks, List.map_append, total_append, List.map_cons, List.map_nil,
        total_cons, total_nil, taskWeight, actionWeight]
      omega
  | @fetched issuer g group kind l name p found stored =>
      have held := measure_hold (some name) p r
      simp only [measure, Option.toList_some, List.length_singleton] at held
      simp only [Step.thenTasks, List.map_append, total_append, List.map_cons, List.map_nil,
        total_cons, total_nil, taskWeight, actionWeight]
      omega
  | @refused issuer g action offer offers unnamed dead =>
      have weighs := payloadWeight_of_offer offers
      simp only [payloadWeight] at weighs
      simp only [List.map_append, total_append, List.map_cons, List.map_nil, total_cons, total_nil,
        taskWeight]
      omega
  | @offered issuer g action offer offers takes =>
      have weighs := payloadWeight_of_offer offers
      have taken := weight_take (r := r) offer.payload
      have held := measure_hold offer.name r.payloadsMade (r.take offer.payload)
      have short : offer.name.toList.length ≤ 1 := by cases offer.name <;> simp
      simp only [measure] at held
      simp only [List.map_append, total_append, List.map_cons, List.map_nil, total_cons, total_nil,
        taskWeight]
      omega

/-! ### Cascades -/

/-- `Cascade policy r tasks journal after left`: carrying out tasks leads from one registry to
another one, and `left` is what remains to be done. There is no bound here, and a cascade may
stop at any task. -/
inductive Cascade (policy : Policy) :
    Registry → List Task → Journal → Registry → List Task → Prop where
  | rest {r : Registry} {tasks : List Task} : Cascade policy r tasks [] r tasks
  | step {r after : Registry} {task : Task} {rest left : List Task} {step : Step}
      {journal : Journal} :
      r.step policy rest task = some step →
      Cascade policy step.registry (step.tasks ++ rest) journal after left →
      Cascade policy r (task :: rest) (step.journal ++ journal) after left

def Halted (policy : Policy) (r : Registry) : List Task → Prop
  | [] => True
  | task :: rest => r.step policy rest task = none

/-- Carrying out tasks within a bound is a cascade, even if the bound cuts it off. -/
theorem cascade_of_settleWithin (bound : Nat) (r : Registry) (tasks : List Task) :
    Cascade policy r tasks (settleWithin policy bound r tasks).journal
      (settleWithin policy bound r tasks).registry
        (settleWithin policy bound r tasks).residual := by
  induction bound generalizing r tasks with
  | zero => cases tasks <;> exact .rest
  | succ bound ih =>
      cases tasks with
      | nil => exact .rest
      | cons task rest =>
          rw [settleWithin]
          cases stepped : r.step policy rest task with
          | none => exact .rest
          | some step => exact .step stepped (ih step.registry (step.tasks ++ rest))

/-- With a bound that covers the measure it goes as far as it can. -/
theorem halted_of_settleWithin (bound : Nat) (r : Registry) (tasks : List Task)
    (enough : measure r tasks ≤ bound) :
    Halted policy (settleWithin policy bound r tasks).registry
      (settleWithin policy bound r tasks).residual := by
  induction bound generalizing r tasks with
  | zero =>
      cases tasks with
      | nil => trivial
      | cons task rest =>
          have pos := taskWeight_pos task
          simp only [measure, List.map_cons, total_cons] at enough
          omega
  | succ bound ih =>
      cases tasks with
      | nil => trivial
      | cons task rest =>
          rw [settleWithin]
          cases stepped : r.step policy rest task with
          | none => exact stepped
          | some step =>
              obtain ⟨gained, effect⟩ := effect_of_step stepped
              have smaller := effect.measure_lt
              exact ih step.registry (step.tasks ++ rest) (by omega)

/-- `settle` carries out tasks until there is none, or until one cannot be carried out. This
is all that is used of it: proofs are about cascades, by induction on their steps. -/
theorem settle_ends (policy : Policy) (r : Registry) (tasks : List Task) :
    Cascade policy r tasks (r.settle policy tasks).journal (r.settle policy tasks).registry
        (r.settle policy tasks).residual ∧
      Halted policy (r.settle policy tasks).registry (r.settle policy tasks).residual :=
  ⟨cascade_of_settleWithin _ r tasks, halted_of_settleWithin _ r tasks (Nat.le_refl _)⟩

namespace Cascade

variable {left others : List Task} {journal more : Journal} {final : Registry}

theorem trans (first : Cascade policy r tasks journal after left)
    (second : Cascade policy after left more final others) :
    Cascade policy r tasks (journal ++ more) final others := by
  induction first with
  | rest => exact second
  | step stepped _ ih =>
      rw [List.append_assoc]
      exact .step stepped (ih second)

/-- What follows from tasks leaves the tables of the clients alone. So each client finds the
same group throughout an operation. -/
theorem tables_eq (cascade : Cascade policy r tasks journal after left) :
    after.keys = r.keys ∧ after.slots = r.slots := by
  induction cascade with
  | rest => exact ⟨rfl, rfl⟩
  | step stepped _ ih =>
      obtain ⟨gained, effect⟩ := effect_of_step stepped
      exact ⟨ih.1.trans effect.tables_eq.1, ih.2.trans effect.tables_eq.2⟩

theorem measure_le (cascade : Cascade policy r tasks journal after left) :
    measure after left ≤ measure r tasks := by
  induction cascade with
  | rest => exact Nat.le_refl _
  | step stepped _ ih =>
      obtain ⟨gained, effect⟩ := effect_of_step stepped
      exact Nat.le_of_lt (Nat.lt_of_le_of_lt ih effect.measure_lt)

theorem measure_lt (cascade : Cascade policy r tasks journal after left) (moved : tasks ≠ left) :
    measure after left < measure r tasks := by
  cases cascade with
  | rest => exact absurd rfl moved
  | step stepped continued =>
      obtain ⟨gained, effect⟩ := effect_of_step stepped
      exact Nat.lt_of_le_of_lt continued.measure_le effect.measure_lt

theorem single (stepped : r.step policy rest task = some step) :
    Cascade policy r (task :: rest) step.journal step.registry (step.tasks ++ rest) := by
  simpa using Cascade.step stepped .rest

/-- Two cascades from one point that both went as far as they can are the same: with the
choices fixed, nothing is left open. -/
theorem halted_unique (first : Cascade policy r tasks journal after left)
    (halted : Halted policy after left) (second : Cascade policy r tasks more final others)
    (halted' : Halted policy final others) : journal = more ∧ after = final ∧ left = others := by
  induction first generalizing more with
  | rest =>
      cases second with
      | rest => exact ⟨rfl, rfl, rfl⟩
      | step stepped _ => exact absurd (halted.symm.trans stepped) nofun
  | step stepped _ ih =>
      cases second with
      | rest => exact absurd (halted'.symm.trans stepped) nofun
      | step stepped' continued =>
          obtain rfl := Option.some.inj (stepped.symm.trans stepped')
          obtain ⟨rfl, rfl, rfl⟩ := ih halted continued
          exact ⟨rfl, rfl, rfl⟩

end Cascade

/-- What a complete cascade does is what `settle` does. A run on fixed inputs is worked out in
this way, step by step. -/
theorem settle_eq_of_cascade {journal : Journal} {left : List Task}
    (cascade : Cascade policy r tasks journal after left) (halted : Halted policy after left) :
    r.settle policy tasks = ⟨after, journal, left⟩ := by
  obtain ⟨settles, ends⟩ := settle_ends policy r tasks
  obtain ⟨rfl, rfl, rfl⟩ := cascade.halted_unique halted settles ends
  rfl

@[simp] theorem settle_nil (policy : Policy) (r : Registry) : r.settle policy [] = ⟨r, [], []⟩ :=
  settle_eq_of_cascade .rest trivial

/-- `settle` carries out the first task, and then what it leads to before the rest. The order
is that of nested calls: a destructor is done before the release that started it returns. -/
theorem settle_cons (stepped : r.step policy rest task = some step) :
    r.settle policy (task :: rest) =
      (step.registry.settle policy (step.tasks ++ rest)).after step.journal := by
  obtain ⟨settles, ends⟩ := settle_ends policy step.registry (step.tasks ++ rest)
  exact settle_eq_of_cascade (.step stepped settles) ends

theorem settle_release_of_owned {handle : Handle} (owned : 0 < r.shares handle) :
    r.settle policy [.release handle] = ⟨r, [], []⟩ := by
  have stepped : r.step policy [] (.release handle) = some ⟨r, [], []⟩ :=
    congrArg some (release_of_owned owned)
  rw [settle_cons stepped, List.nil_append, settle_nil]
  rfl

/-- A group that nobody else has a share of is destroyed first of all. -/
theorem settle_release_last_group (policy : Policy) {g : GroupId} {group : ObjectGroup}
    (last : r.shares (.group g) = 0) (found : r.groups[g]? = some group) :
    ∃ settled : Settled, r.settle policy [.release (.group g)] =
      settled.after [.groupDestroyed g group.objectTotal group.payloadTotal] := by
  have stepped : r.step policy [] (.release (.group g)) = some _ :=
    congrArg some (release_last_group last found)
  exact ⟨_, settle_cons stepped⟩

end SharedNames.Registry
