import SharedNames.Proofs.Registry.LivePayloads

/-!
The payload of an object is what was written to its name last.

Two calls write the payload of a name: one that attaches a payload while the name is
live, and one that deletes the name. Among the calls that were made on one name of a
group, by clients and by destructors in between, the last write decides what the name
has. Everything else passes it by, whatever happens to its global name.

* `ObjectTable.payload_eq_of_handle`: the one law about a request, as the write that it is.
* `Effect.payload_eq_of_step` says the same of a task, by the write on its journal.
* `Run.payload_eq_writes`: so a payload is the last of the writes in the journal.
* `Run.attempt_at_moment`: the run passed the moment at which a payload was offered, and the
  offer was taken exactly if the name was live there.
* `Run.last_writer_wins` puts these together for every moment of every run.
-/

namespace SharedNames

/-! ### Writes -/

/-- What a request that was answered wrote at a name, if it did: a payload, or that there
is none any more. -/
def ObjectTable.Request.written? (l : Name) : Request → Answer → Option (Option PayloadId)
  | .attach k p, .attached true => if k = l then some (some p) else none
  | .delete k, _ => if k = l then some none else none
  | _, _ => none

def Entry.written? (g : GroupId) (kind : ObjectKind) (l : Name) :
    Entry → Option (Option PayloadId)
  | performed _ j other request answer _ =>
    if j = g ∧ other = kind then request.written? l answer else none
  | _ => none

/-- An attempt to attach a payload to a name of a group, and whether it succeeded. -/
def Entry.attempt? : Entry → Option (GroupId × ObjectKind × Name × Bool)
  | performed _ g kind (.attach l _) (.attached success) _ => some (g, kind, l, success)
  | payloadRefused _ g kind l _ => some (g, kind, l, false)
  | _ => none

/-- What was written at a name of a group, in order. -/
def Journal.writes (journal : Journal) (g : GroupId) (kind : ObjectKind) (l : Name) :
    List (Option PayloadId) :=
  journal.filterMap (Entry.written? g kind l)

theorem Journal.writes_append (journal more : Journal) (g : GroupId) (kind : ObjectKind)
    (l : Name) :
    (journal ++ more).writes g kind l = journal.writes g kind l ++ more.writes g kind l :=
  List.filterMap_append

/-! ### Requests -/

/-- After a request a name has what the request wrote there, or what it had before. Requests
about other names, and those about global names, count as writing nothing. -/
theorem ObjectTable.payload_eq_of_handle {rule : NameTable.SuccessorRule} {request : Request}
    {t : ObjectTable} {out : Outcome} (answered : t.handle rule request = some out) (l : Name) :
    out.table.payloads[l]? = (request.written? l out.answer).getD t.payloads[l]? := by
  cases request with
  | generate requested =>
      rw [payloads_generate answered]
      rfl
  | delete k =>
      cases answered
      rw [payloads_getElem?_delete, Request.written?]
      by_cases here : k = l
      · rw [if_pos here, if_pos here.symm, Option.getD_some]
      · rw [if_neg here, if_neg (Ne.symm here), Option.getD_none]
  | rebind k g =>
      cases answered
      rfl
  | attach k p =>
      cases answered
      rw [payloads_getElem?_attach]
      cases live : t.names.isLive k with
      | false =>
          have dead : ¬ (l = k ∧ t.names.isLive k = true) := by simp [live]
          rw [live] at dead
          rw [if_neg dead, attach, if_neg (by simp [live])]
          rfl
      | true =>
          rw [attach, if_pos live, Request.written?]
          by_cases here : k = l
          · rw [if_pos here, if_pos ⟨here.symm, rfl⟩, Option.getD_some]
          · rw [if_neg here, if_neg (fun both => here both.1.symm), Option.getD_none]

/-- A payload is attached exactly to a live name. Having no global name does not matter. -/
theorem ObjectTable.answer_of_attach {rule : NameTable.SuccessorRule} {t : ObjectTable}
    {out : Outcome} {l : Name} {p : PayloadId} (answered : t.handle rule (.attach l p) = some out) :
    out.answer = .attached (t.names.isLive l) := by
  cases answered
  cases live : t.names.isLive l <;> simp [attach, live]

namespace Registry

variable {policy : Policy} {rest tasks : List Task} {r : Registry} {task : Task} {step : Step}
  {gained : List Handle} {g : GroupId} {kind : ObjectKind} {l : Name} {log journal : Journal}

/-! ### Tasks -/

/-- After a task a name of a group has what the task wrote there, or what it had before. Only
requests write, and a task that destroys the group leaves no name to speak of. -/
theorem Effect.payload_eq_of_step (effect : Effect policy rest r task gained step)
    {after : ObjectGroup} (found : step.registry.groups[g]? = some after) (kind : ObjectKind)
    (l : Name) :
    ∃ before, r.groups[g]? = some before ∧ after.payload? kind l =
      (step.journal.writes g kind l).getLast?.getD (before.payload? kind l) := by
  cases effect with
  | kept | absent | unanswered | idle | payloadDestroyed | refused => exact ⟨after, found, rfl⟩
  | @attached _ _ _ _ _ name =>
      rw [Step.thenTasks, groups_hold] at found
      cases name <;> exact ⟨after, found, rfl⟩
  | fetched =>
      rw [Step.thenTasks, groups_hold] at found
      exact ⟨after, found, rfl⟩
  | offered =>
      rw [groups_hold] at found
      exact ⟨after, found, rfl⟩
  | groupDestroyed => exact ⟨after, getElem?_of_erase found, rfl⟩
  | @answered task ask group out asks there answered =>
      by_cases here : ask.g = g
      · subst here
        rw [Std.ExtTreeMap.getElem?_insert_self] at found
        cases found
        refine ⟨group, there, ?_⟩
        obtain ⟨handled, others⟩ := ObjectGroup.table_handle answered kind
        by_cases same : ask.kind = kind
        · subst same
          have law := ObjectTable.payload_eq_of_handle handled l
          rw [ObjectGroup.payload?, law, Journal.writes, List.filterMap_cons, Entry.written?,
            if_pos ⟨rfl, rfl⟩]
          cases ask.request.written? l out.answer <;> rfl
        · rw [ObjectGroup.payload?, others (Ne.symm same), Journal.writes, List.filterMap_cons,
            Entry.written?, if_neg (fun both => same both.2)]
          rfl
      · rw [getElem?_insert_of_ne here] at found
        refine ⟨after, found, ?_⟩
        rw [Journal.writes, List.filterMap_cons, Entry.written?, if_neg (fun both => here both.1)]
        rfl

/-- An attempt to attach a payload succeeds exactly if the name is live in the registry that
the task finds. Whether the attempt is refused beforehand or turned down by the table is the
same in this respect. -/
theorem Effect.success_eq (effect : Effect policy rest r task gained step) {entry : Entry}
    {success : Bool} (mem : entry ∈ step.journal)
    (attempt : entry.attempt? = some (g, kind, l, success)) : success = r.isLiveIn g kind l := by
  cases effect with
  | kept | absent | unanswered | idle => cases mem
  | groupDestroyed | payloadDestroyed | offered =>
      cases List.mem_singleton.mp mem
      cases attempt
  | @attached _ _ _ _ _ name => cases name <;> cases mem
  | fetched => cases mem
  | refused _ _ dead =>
      cases List.mem_singleton.mp mem
      cases attempt
      exact dead.symm
  | @answered task ask group out asks there answered =>
      obtain rfl := List.mem_singleton.mp mem
      have handled := (ObjectGroup.table_handle answered ask.kind).1
      cases request : ask.request with
      | generate | delete | rebind =>
          rw [request] at attempt
          cases attempt
      | attach k p =>
          rw [request] at attempt handled
          have answer : out.answer = .attached ((group.names ask.kind).isLive k) :=
            ObjectTable.answer_of_attach handled
          rw [answer] at attempt
          cases attempt
          exact (isLiveIn_of_found there _ _).symm

/-! ### Histories -/

theorem split_append {before after : Journal} {entry : Entry}
    (split : log ++ journal = before ++ entry :: after) :
    (∃ since, log = before ++ entry :: since ∧ after = since ++ journal) ∨
      ∃ between, before = log ++ between ∧ journal = between ++ entry :: after := by
  rcases List.append_eq_append_iff.mp split with ⟨between, at_end, rest⟩ | ⟨between, at_end, rest⟩
  · exact .inr ⟨between, at_end, rest⟩
  · cases between with
    | nil => exact .inr ⟨[], by simpa using at_end.symm, rest.symm⟩
    | cons first between =>
        obtain ⟨rfl, same⟩ := List.cons.inj rest
        exact .inl ⟨between, at_end, same⟩

/-- The moment of a run at which an event was made: the run came to `moment`, where one task
made the event and nothing else, and from there it went on to where it is now. -/
def MadeAt (settings : Settings) (operations : List Operation) (before : Journal) (entry : Entry)
    (after : Journal) (r : Registry) (tasks : List Task) (moment : Registry) : Prop :=
  ∃ earlier later task rest policy step, operations = earlier ++ later ∧
    Run settings earlier before moment (task :: rest) ∧
    moment.step policy rest task = some step ∧ step.journal = [entry] ∧
    Later step.registry (step.tasks ++ rest) later after r tasks

theorem MadeAt.operate {settings : Settings} {operations : List Operation} {moment : Registry}
    {before after : Journal} {entry : Entry} (operation : Operation)
    (made : MadeAt settings operations before entry after r [] moment) :
    MadeAt settings (operations ++ [operation]) before entry
      (after ++ (r.change operation).journal) (r.change operation).registry
      (r.change operation).tasks moment := by
  obtain ⟨earlier, later, task, rest, policy, step, rfl, run, stepped, own, on⟩ := made
  exact ⟨earlier, later ++ [operation], task, rest, policy, step, List.append_assoc .., run,
    stepped, own, on.operate operation⟩

/-- The moment of an event is fixed: it stays the same while the run goes on. -/
theorem MadeAt.advance {settings : Settings} {operations : List Operation} {moment : Registry}
    {before after : Journal} {entry : Entry}
    (made : MadeAt settings operations before entry after r (task :: rest) moment)
    (stepped : r.step policy rest task = some step) :
    MadeAt settings operations before entry (after ++ step.journal) step.registry
      (step.tasks ++ rest) moment := by
  obtain ⟨earlier, later, task, rest, policy, first, rfl, run, acted, own, on⟩ := made
  exact ⟨earlier, later, task, rest, policy, first, rfl, run, acted, own, on.step stepped⟩

theorem Opening.writes_nil {operation : Operation} {change : Change}
    (opening : Opening r operation gained change) : change.journal.writes g kind l = [] := by
  refine List.filterMap_eq_nil_iff.mpr fun entry mem => ?_
  cases entry with
  | performed => exact absurd mem opening.ne_performed
  | noted | groupMade | payloadMade | payloadRefused | payloadDestroyed | groupDestroyed => rfl

theorem Opening.attempt_eq_none {operation : Operation} {change : Change}
    (opening : Opening r operation gained change) {entry : Entry}
    (mem : entry ∈ change.journal) : entry.attempt? = none := by
  cases opening with
  | unchanged records =>
      obtain ⟨record, -, rfl⟩ := List.mem_map.mp mem
      rfl
  | created records =>
      rcases List.mem_append.mp mem with noted | made
      · obtain ⟨record, -, rfl⟩ := List.mem_map.mp noted
        rfl
      · cases List.mem_singleton.mp made
        rfl
  | attached | detached =>
      cases List.mem_singleton.mp mem
      rfl
  | kept | letGo | released | acting => cases mem

theorem Opening.groupsMade_le {operation : Operation} {change : Change}
    (opening : Opening r operation gained change) : r.groupsMade ≤ change.registry.groupsMade := by
  cases opening with
  | created => exact Nat.le_succ _
  | unchanged | attached | detached | kept | letGo | released | acting => exact Nat.le_refl _

/-- Writes are made to groups that are there. So nothing was written to a group before it was
made, and its names start without payloads. -/
theorem Effect.writes_nil (effect : Effect policy rest r task gained step)
    (accounted : Accounted r (task :: rest)) (new : r.groupsMade ≤ g) :
    step.journal.writes g kind l = [] := by
  refine List.filterMap_eq_nil_iff.mpr fun entry mem => ?_
  cases entry with
  | performed issuer j other request answer event =>
      refine if_neg ?_
      rintro ⟨rfl, -⟩
      have made := accounted.made_of_has _ (effect.group_there accounted mem rfl)
      exact Nat.not_lt.mpr new made
  | noted | groupMade | payloadMade | payloadRefused | payloadDestroyed | groupDestroyed => rfl

namespace Run

variable {settings : Settings} {operations : List Operation}

/-- What a name of a group has is what was written there last. The writes are taken from the
journal in the order in which they took effect, those of destructors in the middle of a call
included. -/
theorem payload_eq_writes (run : Run settings operations log r tasks) {group : ObjectGroup}
    (found : r.groups[g]? = some group) (kind : ObjectKind) (l : Name) :
    group.payload? kind l = (log.writes g kind l).getLast?.join := by
  -- A new group has no payload because nothing was written to it before it was made.
  refine (run.invariant (P := fun log r _ =>
    (∀ group, r.groups[g]? = some group →
      group.payload? kind l = (log.writes g kind l).getLast?.join) ∧
    (r.groupsMade ≤ g → log.writes g kind l = [])) ?_ ?_ ?_).1 group found
  · refine ⟨fun group found => ?_, fun _ => rfl⟩
    simp [empty] at found
  · rintro log r operation gained change ⟨last, unwritten⟩ - opening
    rw [Journal.writes_append, opening.writes_nil, List.append_nil]
    refine ⟨fun group found => ?_, fun new => unwritten (Nat.le_trans opening.groupsMade_le new)⟩
    rcases opening.group_of_change found with there | ⟨new, empty⟩
    · exact last group there
    · rw [empty kind l, unwritten new]
      rfl
  · rintro log r task rest policy gained step ⟨last, unwritten⟩ accounted effect
    rw [Journal.writes_append]
    refine ⟨fun after found => ?_, fun new => ?_⟩
    · obtain ⟨before, there, law⟩ := effect.payload_eq_of_step found kind l
      rw [law, last before there, List.getLast?_append]
      cases (step.journal.writes g kind l).getLast? <;> rfl
    · rw [effect.makes_no_group.2.1] at new
      rw [unwritten new, effect.writes_nil accounted new]
      rfl

/-- Every attempt to attach a payload was made at a moment of the run, and it succeeded
exactly if the name was live there. A task makes one event at most, so nothing comes between
the moment and the attempt. -/
theorem attempt_at_moment (run : Run settings operations log r tasks) {before after : Journal}
    {entry : Entry} {success : Bool} (split : log = before ++ entry :: after)
    (attempt : entry.attempt? = some (g, kind, l, success)) :
    ∃ moment, MadeAt settings operations before entry after r tasks moment ∧
      success = moment.isLiveIn g kind l := by
  induction run generalizing after with
  | start => simp at split
  | @operate _ _ r operation _ ih =>
      obtain ⟨gained, opening⟩ := opening_of_change r operation
      rcases split_append split with ⟨since, earlier, rfl⟩ | ⟨between, -, own⟩
      · obtain ⟨moment, made, live⟩ := ih earlier
        exact ⟨moment, made.operate operation, live⟩
      · have mem : entry ∈ (r.change operation).journal := by simp [own]
        rw [opening.attempt_eq_none mem] at attempt
        cases attempt
  | @step operations log r task rest policy step run stepped ih =>
      obtain ⟨gained, effect⟩ := effect_of_step stepped
      rcases split_append split with ⟨since, earlier, rfl⟩ | ⟨between, rfl, own⟩
      · obtain ⟨moment, made, live⟩ := ih earlier
        exact ⟨moment, made.advance stepped, live⟩
      · have mem : entry ∈ step.journal := by simp [own]
        have short := effect.length_journal_le
        rw [own, List.length_append, List.length_cons] at short
        obtain rfl : between = [] := List.eq_nil_of_length_eq_zero (by omega)
        obtain rfl : after = [] := List.eq_nil_of_length_eq_zero (by omega)
        rw [List.append_nil]
        exact ⟨r, ⟨operations, [], task, rest, policy, step, (List.append_nil _).symm, run,
          stepped, own, .here⟩, effect.success_eq mem attempt⟩

end Run

/-! ### All groups at all moments -/

/-- The payloads of the groups at a moment of a run, where `log` is what happened so far and
`tasks` remain to be done. -/
structure LastWriterWins (settings : Settings) (operations : List Operation) (log : Journal)
    (r : Registry) (tasks : List Task) : Prop where
  /-- A name has a payload exactly if the last write there was this very payload. -/
  payload_iff : ∀ (g : GroupId) (group : ObjectGroup) (kind : ObjectKind) (l : Name)
    (p : PayloadId), r.groups[g]? = some group →
      (group.payload? kind l = some p ↔ (log.writes g kind l).getLast? = some (some p))
  /-- An attempt to attach a payload succeeded exactly if the name was live at the moment of
  the run at which it was made. -/
  success_iff : ∀ (before : Journal) (entry : Entry) (after : Journal) (g : GroupId)
    (kind : ObjectKind) (l : Name) (success : Bool), log = before ++ entry :: after →
      entry.attempt? = some (g, kind, l, success) →
      ∃ moment, MadeAt settings operations before entry after r tasks moment ∧
        (success = true ↔ moment.isLiveIn g kind l = true)
  /-- What is done next attaches a payload exactly if the name is live now. -/
  next_success : ∀ (policy : Policy) (task : Task) (rest : List Task) (step : Step)
    (entry : Entry) (g : GroupId) (kind : ObjectKind) (l : Name) (success : Bool),
      tasks = task :: rest → r.step policy rest task = some step → entry ∈ step.journal →
      entry.attempt? = some (g, kind, l, success) → (success = true ↔ r.isLiveIn g kind l = true)
  /-- What is done next passes a payload by, unless it attaches one to the same name or deletes
  it: in another group or of another kind, to another name, or without a payload. -/
  next_step : ∀ (policy : Policy) (task : Task) (rest : List Task) (step : Step) (g : GroupId)
    (before after : ObjectGroup) (kind : ObjectKind) (l : Name), tasks = task :: rest →
      r.step policy rest task = some step → r.groups[g]? = some before →
      step.registry.groups[g]? = some after →
      (∀ issuer request answer event, .performed issuer g kind request answer event ∈ step.journal →
        request ≠ .delete l ∧ ∀ p, request ≠ .attach l p) →
      after.payload? kind l = before.payload? kind l
  /-- After an operation with all that follows from it a name has the last payload that was
  written there on the way, or the one that it had. -/
  next_operation : ∀ (policy : Policy) (operation : Operation) (g : GroupId)
    (before after : ObjectGroup) (kind : ObjectKind) (l : Name), tasks = [] →
      r.groups[g]? = some before →
      (r.perform policy operation).registry.groups[g]? = some after →
      after.payload? kind l =
        ((r.perform policy operation).journal.writes g kind l).getLast?.getD
          (before.payload? kind l)

/-- Requests for another name, or without a payload, write nothing. This makes
`payload_eq_writes` usable without going through the journal: whatever rebinding or generating
came in between may be skipped. -/
theorem writes_eq_nil (passedBy : ∀ issuer request answer event,
      .performed issuer g kind request answer event ∈ journal →
      request ≠ .delete l ∧ ∀ p, request ≠ .attach l p) : journal.writes g kind l = [] := by
  refine List.filterMap_eq_nil_iff.mpr fun entry mem => ?_
  cases entry with
  | performed issuer j other request answer event =>
      rw [Entry.written?]
      split
      · rename_i here
        obtain ⟨rfl, rfl⟩ := here
        obtain ⟨undeleted, unattached⟩ := passedBy issuer request answer event mem
        cases request with
        | generate | rebind => rfl
        | delete k => exact if_neg fun same => undeleted (by rw [same])
        | attach k p =>
            have other : k ≠ l := fun same => unattached p (by rw [same])
            cases answer with
            | attached success => cases success <;> simp [ObjectTable.Request.written?, other]
            | name | done => rfl
      · rfl
  | noted | groupMade | payloadMade | payloadRefused | payloadDestroyed | groupDestroyed => rfl

namespace Run

variable {settings : Settings} {operations : List Operation}

/-- At every moment of every run the last write at a name decides its payload, whoever made
the calls in between and whatever happened to its global name. An attempt fails only because
its name is not live at its own moment, be it refused at once or later on. -/
theorem last_writer_wins (run : Run settings operations log r tasks) :
    LastWriterWins settings operations log r tasks := by
  constructor
  case payload_iff =>
    intro g group kind l p found
    rw [run.payload_eq_writes found kind l]
    cases (log.writes g kind l).getLast? <;> simp
  case success_iff =>
    intro before entry after g kind l success split attempt
    obtain ⟨moment, made, rfl⟩ := run.attempt_at_moment split attempt
    exact ⟨moment, made, Iff.rfl⟩
  case next_success =>
    rintro policy task rest step entry g kind l success - stepped mem attempt
    obtain ⟨gained, effect⟩ := effect_of_step stepped
    rw [effect.success_eq mem attempt]
  case next_step =>
    intro policy task rest step g before after kind l _ stepped there found passedBy
    obtain ⟨gained, effect⟩ := effect_of_step stepped
    obtain ⟨before', there', law⟩ := effect.payload_eq_of_step found kind l
    obtain rfl := Option.some.inj (there.symm.trans there')
    rw [law, writes_eq_nil passedBy]
    rfl
  case next_operation =>
    rintro policy operation g before after kind l rfl there found
    rw [(run.perform policy operation).payload_eq_writes found kind l,
      run.payload_eq_writes there kind l, Journal.writes_append, List.getLast?_append]
    cases ((r.perform policy operation).journal.writes g kind l).getLast? <;> rfl

/-- The payload `a` is replaced by `b`, and while it is destroyed it attaches `c` to the same
name, which so replaces `b`. The name keeps `c` while it shares its global name with another
one that is deleted, gets another global name and is requested again, and while `d` is
attached to the same number of another kind and `e` is refused. -/
theorem last_writer_wins_of_replaced :
    ∃ operations log r, operations =
        [.create (.handle 1), .act (.key (.handle 1)) (.generate .texture [0, 0]),
          .act (.key (.handle 1))
            (.attachActing .texture 1 "a" (.key (.handle 1)) (.attachNew .texture 1 "c" none) none),
          .act (.key (.handle 1)) (.attachNew .texture 1 "b" none),
          .act (.key (.handle 1)) (.rebind .texture 2 1),
          .act (.key (.handle 1)) (.delete .texture 2),
          .act (.key (.handle 1)) (.rebind .texture 1 7),
          .act (.key (.handle 1)) (.generate .texture [1]),
          .act (.key (.handle 1)) (.generate .program [1]),
          .act (.key (.handle 1)) (.attachNew .program 1 "d" none),
          .act (.key (.handle 1)) (.attachNew .texture 2 "e" none)] ∧
      Run ⟨.reuse, 1⟩ operations log r [] ∧
      log.writes 0 .texture 1 = [some 0, some 1, some 2] ∧ log.drops = ["a", "b", "e"] ∧
      (r.groups[0]?.map fun group => group.payload? .texture 1) = some (some 2) ∧
      LastWriterWins ⟨.reuse, 1⟩ operations log r [] := by
  have fresh : Run ⟨.reuse, 1⟩ [] [] _ [] := .start
  have run := fresh.performAll .standard
    [.create (.handle 1), .act (.key (.handle 1)) (.generate .texture [0, 0]),
      .act (.key (.handle 1))
        (.attachActing .texture 1 "a" (.key (.handle 1)) (.attachNew .texture 1 "c" none) none),
      .act (.key (.handle 1)) (.attachNew .texture 1 "b" none),
      .act (.key (.handle 1)) (.rebind .texture 2 1),
      .act (.key (.handle 1)) (.delete .texture 2),
      .act (.key (.handle 1)) (.rebind .texture 1 7),
      .act (.key (.handle 1)) (.generate .texture [1]),
      .act (.key (.handle 1)) (.generate .program [1]),
      .act (.key (.handle 1)) (.attachNew .program 1 "d" none),
      .act (.key (.handle 1)) (.attachNew .texture 2 "e" none)] (by decide)
  exact ⟨_, _, _, rfl, run, by decide, by decide, by decide, run.last_writer_wins⟩

end Run

end Registry

end SharedNames
