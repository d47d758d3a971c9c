import SharedNames.Proofs.Registry.LivePayloads
import SharedNames.Proofs.TraceReading

/-!
The trace is a complete journal.

`replay` reads the lines of a log and carries out on empty tables what those of the trace
tell, without a look at anything else. After any run on one group, and at any moment of what
follows from an operation, it has made the objects of the group (`Run.trace_complete`).

A task tells what it changed, as a change of the names of one kind in one group, or it
changed no names (`Effect.told`). `Replays` is what every task keeps by that: the changes told
about a group make its objects, one after the other, and each one fits those before it.
-/

namespace SharedNames

/-! ### Replaying the trace -/

namespace NameTable.Event

/-- The objects of a kind after a change of its names. A reader of the log needs no more than
this to follow it. -/
def write (objects : Std.ExtTreeMap Name Name) : Event → Std.ExtTreeMap Name Name
  | made l g | rebound l g => objects.insert l g
  | removed l _ => objects.erase l
  | kept _ | turnedDown _ _ => objects

/-- A change fits the objects that it finds: a made object is new, and no other one has its
global name; a removed object had the global name that it is said to have had. -/
def Fits (objects : Std.ExtTreeMap Name Name) : Event → Prop
  | made l g => objects[l]? = none ∧ ∀ k : Name, objects[k]? ≠ some g
  | removed l g => objects[l]? = some g
  | kept _ | rebound _ _ | turnedDown _ _ => True

end NameTable.Event

/-- The objects of all kinds after a change of the names of one. -/
def replayChange (objects : PerKind (Std.ExtTreeMap Name Name))
    (change : ObjectKind × NameTable.Event) : PerKind (Std.ExtTreeMap Name Name) :=
  objects.set change.1 (change.2.write (objects.get change.1))

def objectsAfter (changes : List (ObjectKind × NameTable.Event)) :
    PerKind (Std.ExtTreeMap Name Name) :=
  changes.foldl replayChange (.const ∅)

def replay (lines : List String) : PerKind (Std.ExtTreeMap Name Name) :=
  objectsAfter (lines.filterMap readTrace)

def Journal.fullLog (journal : Journal) : List String :=
  Record.lines (some .trace) journal.records

def Entry.target? : Entry → Option GroupId
  | performed _ g _ _ _ _ => some g
  | _ => none

/-! ### What requests tell -/

/-- What the event of a request tells about the names of a kind. -/
def ObjectTable.told? (kind : ObjectKind) (event : Option ObjectTable.Event) :
    Option (ObjectKind × NameTable.Event) :=
  (event.map (Record.object kind)).bind Record.traced?

/-- A request tells the change that it makes to the names of its kind, or it makes none. A
request for a live name, and one that is turned down, are recorded as well, but not in the
trace. -/
theorem ObjectTable.told_of_handle {rule : NameTable.SuccessorRule} {request : Request}
    {t : ObjectTable} {out : Outcome} (index : t.names.Indexed)
    (answered : t.handle rule request = some out) (kind : ObjectKind) :
    (told? kind out.event = none ∧ out.table.names.globals = t.names.globals) ∨
      ∃ e, told? kind out.event = some (kind, e) ∧ e.Fits t.names.globals ∧
        out.table.names.globals = e.write t.names.globals := by
  cases request with
  | generate requested =>
      obtain ⟨⟨names, event⟩, generated, rfl⟩ := Option.map_eq_some_iff.mp answered
      have effect : NameTable.Effect rule t.names _ (some event) names :=
        NameTable.effect_of_generate generated
      cases effect with
      | kept => exact .inl ⟨rfl, rfl⟩
      | @made _ l g _ new foundLocal foundGlobal =>
          have free := NameTable.isFree_of_newLocal new foundLocal
          have unbound : IsFree t.names.isBound g := isFree_of_nextFree foundGlobal
          have absent := NameTable.isLive_eq_false_iff.mp free.2
          refine .inr ⟨.made l g, rfl, ⟨absent, ?_⟩, rfl⟩
          intro k shared
          obtain ⟨k', remembered⟩ := index.latest_of_globals shared unbound.1
          have bound := NameTable.isBound_iff.mpr ⟨k', remembered⟩
          rw [unbound.2] at bound
          cases bound
  | delete l =>
      cases answered
      have event_eq : (t.delete rule l).event = (t.names.delete rule l).2.map .naming := rfl
      have globals_eq : (t.delete rule l).table.names.globals = t.names.globals.erase l :=
        NameTable.globals_delete rule t.names l
      cases entry : t.names.globals[l]? with
      | none =>
          rw [event_eq, globals_eq, erase_eq_self entry,
            NameTable.delete_of_not_isLive rule (NameTable.isLive_eq_false_iff.mpr entry)]
          exact .inl ⟨rfl, rfl⟩
      | some g =>
          have removed : (t.names.delete rule l).2 = some (.removed l g) := by
            simp [NameTable.delete, entry]
          rw [event_eq, globals_eq, removed]
          exact .inr ⟨.removed l g, rfl, entry, rfl⟩
  | rebind l g =>
      cases answered
      have event_eq : (t.rebind rule l g).event = some (.naming (t.names.rebind rule l g).2) := rfl
      have names_eq : (t.rebind rule l g).table.names = (t.names.rebind rule l g).1 := rfl
      by_cases reserved : l = 0 ∨ g = 0
      · rw [event_eq, names_eq, NameTable.rebind_of_reserved rule t.names reserved]
        exact .inl ⟨rfl, rfl⟩
      · have rebound : (t.names.rebind rule l g).2 = .rebound l g := by
          simp [NameTable.rebind, reserved]
        have nonzero := not_or.mp reserved
        rw [event_eq, names_eq, rebound, NameTable.globals_rebind rule t.names nonzero.1 nonzero.2]
        exact .inr ⟨.rebound l g, rfl, trivial, rfl⟩
  | attach l p =>
      cases answered
      refine .inl ⟨?_, by rw [names_attach]⟩
      cases live : t.names.isLive l <;> simp [attach, live, told?, Record.traced?]

/-- What a request to a group tells fits the objects of its kind, and is all that changes. -/
theorem ObjectGroup.told_of_handle {rule : NameTable.SuccessorRule} {kind : ObjectKind}
    {request : ObjectTable.Request} {group : ObjectGroup} {out : Outcome} (sound : group.Sound)
    (answered : group.handle rule kind request = some out) :
    (ObjectTable.told? kind out.event = none ∧
        ∀ other, (out.group.names other).globals = (group.names other).globals) ∨
      ∃ e, ObjectTable.told? kind out.event = some (kind, e) ∧
        e.Fits (group.names kind).globals ∧
        (out.group.names kind).globals = e.write (group.names kind).globals ∧
        ∀ other, other ≠ kind → (out.group.names other).globals = (group.names other).globals := by
  have own := (ObjectGroup.table_handle answered kind).1
  have others : ∀ other, other ≠ kind →
      (out.group.names other).globals = (group.names other).globals := by
    intro other differs
    rw [names, (ObjectGroup.table_handle answered other).2 differs, names]
  rcases ObjectTable.told_of_handle (sound kind).index own kind with ⟨untold, same⟩ | ⟨e, told⟩
  · refine .inl ⟨untold, ?_⟩
    intro other
    by_cases this : other = kind
    · subst this
      exact same
    · exact others other this
  · exact .inr ⟨e, told.1, told.2.1, told.2.2, others⟩

/-! ### What tasks tell -/

/-- The change of names that an event tells, with the group that it is about. -/
def Entry.change? : Entry → Option (GroupId × ObjectKind × NameTable.Event)
  | performed _ g kind _ _ event => (ObjectTable.told? kind event).map fun change => (g, change)
  | _ => none

def Journal.changes (journal : Journal) : List (GroupId × ObjectKind × NameTable.Event) :=
  journal.filterMap Entry.change?

namespace Registry

variable {policy : Policy} {rest tasks : List Task} {r after : Registry} {task : Task}
  {step : Step} {gained : List Handle} {operation : Operation} {change : Change}
  {log journal : Journal} {g : GroupId}

def NamesStay (r after : Registry) : Prop :=
  ∀ (g : GroupId) (group : ObjectGroup), after.groups[g]? = some group →
    ∃ before, r.groups[g]? = some before ∧
      ∀ kind, (group.names kind).globals = (before.names kind).globals

theorem NamesStay.of_groups_eq (same : after.groups = r.groups) : NamesStay r after := by
  intro g group found
  rw [same] at found
  exact ⟨group, found, fun _ => rfl⟩

/-- A task tells the change that it makes to the names of a group, or it makes none.
Destroying a group makes no change in this sense: its names go with it, and have no lines of
their own. -/
theorem Effect.told (effect : Effect policy rest r task gained step) (sound : r.Sound) :
    (step.journal.changes = [] ∧ NamesStay r step.registry) ∨
      ∃ g kind e before after, step.journal.changes = [(g, kind, e)] ∧
        r.groups[g]? = some before ∧ step.registry.groups = r.groups.insert g after ∧
        e.Fits (before.names kind).globals ∧
        (after.names kind).globals = e.write (before.names kind).globals ∧
        ∀ other, other ≠ kind → (after.names other).globals = (before.names other).globals := by
  cases effect with
  | kept | absent | payloadDestroyed | unanswered | idle | refused =>
      exact .inl ⟨rfl, .of_groups_eq rfl⟩
  | @attached _ _ _ _ _ name p =>
      refine .inl ⟨?_, .of_groups_eq (groups_hold _ _ r)⟩
      cases name <;> rfl
  | fetched => exact .inl ⟨rfl, .of_groups_eq (groups_hold _ _ r)⟩
  | offered => exact .inl ⟨rfl, .of_groups_eq (groups_hold _ _ _)⟩
  | groupDestroyed =>
      exact .inl ⟨rfl, fun g group found => ⟨group, getElem?_of_erase found, fun _ => rfl⟩⟩
  | @answered task ask group out asks found answered =>
      rcases ObjectGroup.told_of_handle (sound ask.g group found) answered with
        ⟨untold, same⟩ | ⟨e, told, fits, own, others⟩
      · refine .inl ⟨by simp [Journal.changes, Entry.change?, untold], ?_⟩
        intro g now there
        by_cases this : ask.g = g
        · subst this
          rw [Std.ExtTreeMap.getElem?_insert_self] at there
          cases there
          exact ⟨group, found, same⟩
        · rw [getElem?_insert_of_ne this] at there
          exact ⟨now, there, fun _ => rfl⟩
      · exact .inr ⟨ask.g, ask.kind, e, group, out.group,
          by simp [Journal.changes, Entry.change?, told], found, rfl, fits, own, others⟩

theorem Opening.changes_eq_nil (opening : Opening r operation gained change) :
    change.journal.changes = [] := by
  rw [Journal.changes, List.filterMap_eq_nil_iff]
  intro entry mem
  cases entry with
  | performed => exact absurd mem opening.ne_performed
  | _ => rfl

/-! ### What every task keeps -/

end Registry

/-- The changes of the names of one group that a journal tells. -/
def Journal.about (g : GroupId) (journal : Journal) : List (ObjectKind × NameTable.Event) :=
  (journal.changes.filter fun change => change.1 = g).map Prod.snd

theorem Journal.changes_append (journal more : Journal) :
    (journal ++ more).changes = journal.changes ++ more.changes :=
  List.filterMap_append

theorem Journal.about_append (g : GroupId) (journal more : Journal) :
    (journal ++ more).about g = journal.about g ++ more.about g := by
  rw [about, changes_append, List.filter_append, List.map_append, about, about]

theorem objectsAfter_snoc (changes : List (ObjectKind × NameTable.Event))
    (change : ObjectKind × NameTable.Event) :
    objectsAfter (changes ++ [change]) = replayChange (objectsAfter changes) change :=
  List.foldl_append

namespace Registry

/-- The changes told about a group make its objects, and each one fits those before it. The
part about groups still to be made is there for the induction. -/
structure Replays (g : GroupId) (log : Journal) (r : Registry) : Prop where
  objects_eq : ∀ group, r.groups[g]? = some group → ∀ kind,
    (objectsAfter (log.about g)).get kind = (group.names kind).globals
  /-- Nothing is told about a group that is still to be made. -/
  untold_of_new : r.groupsMade ≤ g → log.about g = []
  fits : ∀ before kind e after, log.about g = before ++ (kind, e) :: after →
    e.Fits ((objectsAfter before).get kind)

variable {policy : Policy} {rest tasks : List Task} {r after : Registry} {task : Task}
  {step : Step} {gained : List Handle} {operation : Operation} {change : Change}
  {log journal : Journal} {g : GroupId}

theorem replays_empty (settings : Settings) (g : GroupId) : Replays g [] (empty settings) where
  objects_eq group found := by simp [empty] at found
  untold_of_new _ := rfl
  fits before kind e after told := by
    have := congrArg List.length told
    simp [Journal.about, Journal.changes] at this

/-- What tells nothing about a group and leaves its names as they are changes nothing. -/
theorem Replays.silent (replays : Replays g log r) (untold : journal.about g = [])
    (made : r.groupsMade ≤ after.groupsMade)
    (stays : ∀ group, after.groups[g]? = some group → ∀ kind,
      (objectsAfter (log.about g)).get kind = (group.names kind).globals) :
    Replays g (log ++ journal) after := by
  have same : (log ++ journal).about g = log.about g := by
    rw [Journal.about_append, untold, List.append_nil]
  constructor
  case objects_eq => rwa [same]
  case untold_of_new => exact fun new => same.trans (replays.untold_of_new (Nat.le_trans made new))
  case fits =>
    rw [same]
    exact replays.fits

/-- A new group has no objects, and nothing was told about it. -/
theorem Opening.replays (opening : Opening r operation gained change) (replays : Replays g log r) :
    Replays g (log ++ change.journal) change.registry := by
  have untold : change.journal.about g = [] := by
    rw [Journal.about, opening.changes_eq_nil]
    rfl
  cases opening with
  | unchanged | attached | detached | kept | letGo | released | acting =>
      exact replays.silent untold (Nat.le_refl _) replays.objects_eq
  | created records =>
      apply replays.silent untold (Nat.le_succ _)
      intro group found kind
      rcases getElem?_of_insert found with ⟨rfl, rfl⟩ | found
      · rw [replays.untold_of_new (Nat.le_refl _), Settings.newGroup, ObjectGroup.names,
          ObjectGroup.table, ObjectGroup.starting, PerKind.get_const]
        exact PerKind.get_const ∅ kind
      · exact replays.objects_eq group found kind

/-- A task adds at most the one change that it makes, at the end of what is told. If it is
about this group, then what is replayed takes the same step as the group; if not, nothing is
told about this group and its names stay. -/
theorem Effect.replays (effect : Effect policy rest r task gained step)
    (accounted : Accounted r (task :: rest)) (sound : r.Sound) (replays : Replays g log r) :
    Replays g (log ++ step.journal) step.registry := by
  have made := effect.makes_no_group.2.1
  rcases effect.told sound with ⟨untold, stay⟩ |
    ⟨j, kind, e, before, now, told, found, written, fits, own, others⟩
  · refine replays.silent ?_ (Nat.le_of_eq made.symm) ?_
    · rw [Journal.about, untold]
      rfl
    · intro group there kind
      obtain ⟨before, found, same⟩ := stay g group there
      rw [replays.objects_eq before found kind, same kind]
  · by_cases this : j = g
    · subst this
      have tells : (log ++ step.journal).about j = log.about j ++ [(kind, e)] := by
        rw [Journal.about_append]
        congr 1
        simp [Journal.about, told]
      constructor
      case objects_eq =>
        intro group there other
        rw [written, Std.ExtTreeMap.getElem?_insert_self] at there
        cases there
        rw [tells, objectsAfter_snoc, replayChange, PerKind.get_set]
        have earlier := replays.objects_eq before found
        split
        · rename_i same
          cases same
          rw [earlier, own]
        · rename_i differs
          rw [earlier, others other (Ne.symm differs)]
      case untold_of_new =>
        intro new
        have old := accounted.made_of_has _ (has_group_iff.mpr ⟨before, found⟩)
        rw [made] at new
        exact absurd old (Nat.not_lt.mpr new)
      case fits =>
        intro earlier other e' after split
        rw [tells] at split
        rcases List.eq_nil_or_concat after with rfl | ⟨after, last, rfl⟩
        · obtain ⟨rfl, same⟩ := List.append_inj' split rfl
          cases same
          rw [replays.objects_eq before found]
          exact fits
        · rw [List.concat_eq_append, ← List.cons_append, ← List.append_assoc] at split
          exact replays.fits earlier other e' after (List.append_inj' split rfl).1
    · refine replays.silent ?_ (Nat.le_of_eq made.symm) ?_
      · simp [Journal.about, told, this]
      · intro group there
        rw [written, getElem?_insert_of_ne this] at there
        exact replays.objects_eq group there

/-- At every moment of a run the journal tells all that became of the names of each group. -/
theorem Run.replays {settings : Settings} {operations : List Operation}
    (run : Run settings operations log r tasks) (g : GroupId) : Replays g log r := by
  refine (run.invariant (P := fun log r _ => r.Sound ∧ Replays g log r)
    ⟨fun g group found => by simp [empty] at found, replays_empty settings g⟩ ?_ ?_).2
  · rintro log r operation gained change ⟨sound, replays⟩ - opening
    exact ⟨opening.sound sound, opening.replays replays⟩
  · rintro log r task rest policy gained step ⟨sound, replays⟩ accounted effect
    exact ⟨effect.sound sound, effect.replays accounted sound replays⟩

/-! ### Lines -/

theorem traced?_of_noted {record : Record} (mem : .noted record ∈ (r.change operation).journal) :
    record.traced? = none := by
  cases operation with
  | create key =>
      rw [Registry.change, create] at mem
      split at mem
      · simp [makeGroup] at mem
      · rw [Entry.noted.inj (List.mem_singleton.mp mem)]
        rfl
      · simp only [makeGroup, List.mem_cons, List.not_mem_nil, or_false, reduceCtorEq] at mem
        rw [Entry.noted.inj mem]
        rfl
  | attach key existing =>
      rw [Registry.change, attach] at mem
      split at mem <;>
        rw [Entry.noted.inj (List.mem_singleton.mp mem)] <;> rfl
  | detach key =>
      rw [Registry.change, detach] at mem
      split at mem
      · cases mem
      · rw [Entry.noted.inj (List.mem_singleton.mp mem)]
        rfl
  | keep | letGo | releaseHeld | act =>
      simp only [Registry.change, keep, letGo, releaseHeld] at mem
      split at mem <;> cases mem

theorem Run.traced?_of_noted {settings : Settings} {operations : List Operation}
    (run : Run settings operations log r tasks) {record : Record} (mem : .noted record ∈ log) :
    record.traced? = none := by
  induction run with
  | start => cases mem
  | operate operation _ ih =>
      exact (List.mem_append.mp mem).elim ih Registry.traced?_of_noted
  | step _ stepped ih =>
      obtain ⟨gained, effect⟩ := effect_of_step stepped
      exact (List.mem_append.mp mem).elim ih fun new => absurd rfl (effect.ne_noted new record)

end Registry

theorem fullLog_eq (journal : Journal) : journal.fullLog = journal.records.map Record.line := by
  have all : ∀ record ∈ journal.records, Verbosity.keeps (some .trace) record.severity := by
    intro record _
    cases record.severity <;> rfl
  rw [Journal.fullLog, Record.lines, List.filter_eq_self.mpr all]

/-- The lines of the trace are those that can be read. A label in the line of another record
cannot pass for one, whatever characters it has. -/
theorem isTraceLine_of_mem {journal : Journal} {line : String} (mem : line ∈ journal.fullLog) :
    isTraceLine line = (readTrace line).isSome := by
  rw [fullLog_eq] at mem
  obtain ⟨record, -, rfl⟩ := List.mem_map.mp mem
  rw [Bool.eq_iff_iff, isTraceLine_line_iff, readTrace_line, isSome_traced?_iff]

/-- What is read from a log are the changes of names, in order. From here on lines need not be
looked at any more. -/
theorem readTrace_fullLog {journal : Journal}
    (silent : ∀ record, .noted record ∈ journal → record.traced? = none) :
    journal.fullLog.filterMap readTrace = journal.changes.map Prod.snd := by
  rw [fullLog_eq, List.filterMap_map, Journal.records, List.filterMap_filterMap, Journal.changes,
    List.map_filterMap]
  apply List.filterMap_congr
  intro entry mem
  cases entry with
  | noted record =>
      have untold := silent record mem
      simpa [Entry.record?, Entry.change?, readTrace_line] using untold
  | performed _ g kind _ _ event =>
      cases event <;>
        simp [Entry.record?, Entry.change?, ObjectTable.told?, readTrace_line, Function.comp_def]
  | payloadRefused | groupMade | payloadMade | payloadDestroyed | groupDestroyed =>
      simp [Entry.record?, Entry.change?, readTrace_line, Record.traced?]

theorem countP_fullLog {journal : Journal}
    (silent : ∀ record, .noted record ∈ journal → record.traced? = none) :
    journal.fullLog.countP isTraceLine = journal.changes.length := by
  rw [List.countP_congr fun line mem => by rw [isTraceLine_of_mem mem],
    ← List.length_filterMap_eq_countP, readTrace_fullLog silent, List.length_map]

/-! ### The trace is complete -/

namespace Registry

variable {policy : Policy} {rest tasks : List Task} {r after : Registry} {task : Task}
  {step : Step} {gained : List Handle} {operation : Operation} {log journal : Journal}
  {g : GroupId}

/-- The trace in a log, and the objects of the only group that carried out requests. -/
structure TraceComplete (log : Journal) (r : Registry) (g : GroupId) : Prop where
  /-- Replayed over empty tables, the trace makes the objects of all kinds. -/
  replay_eq : ∀ group kind, r.groups[g]? = some group →
    ((replay log.fullLog).get kind).toList = (group.names kind).toList
  /-- Every line of the trace is one of a change, and no other line is. -/
  read : ∀ line ∈ log.fullLog, isTraceLine line = (readTrace line).isSome
  /-- Every line fits what the lines before it make. -/
  fits : ∀ before line after kind e, log.fullLog = before ++ line :: after →
    readTrace line = some (kind, e) → e.Fits ((replay before).get kind)

/-- What happened has at most one line of the trace, and it has one if it changed the objects of
any kind in any group. -/
structure TellsOnce (r : Registry) (journal : Journal) (after : Registry) : Prop where
  at_most_one : journal.fullLog.countP isTraceLine ≤ 1
  one_of_changed : ∀ (g : GroupId) (kind : ObjectKind) (before now : ObjectGroup),
    r.groups[g]? = some before → after.groups[g]? = some now →
    (now.names kind).toList ≠ (before.names kind).toList →
    journal.fullLog.countP isTraceLine = 1

theorem TellsOnce.of_untold (untold : journal.fullLog.countP isTraceLine = 0)
    (stay : ∀ (g : GroupId) (before now : ObjectGroup), r.groups[g]? = some before →
      after.groups[g]? = some now →
      ∀ kind, (now.names kind).globals = (before.names kind).globals) :
    TellsOnce r journal after where
  at_most_one := by omega
  one_of_changed g kind before now found there changed := by
    rw [NameTable.toList, NameTable.toList, stay g before now found there kind] at changed
    exact absurd rfl changed

/-- A task has at most one line of the trace, and has one if it changes the names of a group. -/
theorem Effect.tellsOnce (effect : Effect policy rest r task gained step) (sound : r.Sound) :
    TellsOnce r step.journal step.registry := by
  have count := countP_fullLog fun record mem => absurd rfl (effect.ne_noted mem record)
  rcases effect.told sound with ⟨untold, stay⟩ | ⟨g, kind, e, before, now, told, -⟩
  · rw [untold] at count
    refine .of_untold count ?_
    intro g before now found there
    obtain ⟨before', found', same⟩ := stay g now there
    rw [found] at found'
    cases found'
    exact same
  · rw [told] at count
    exact ⟨Nat.le_of_eq count, fun _ _ _ _ _ _ _ => count⟩

/-- Where one group carries out all requests, the changes of the whole log are those of this
group. -/
theorem Replays.traceComplete (replays : Replays g log r)
    (silent : ∀ record, .noted record ∈ log → record.traced? = none)
    (only : ∀ entry ∈ log, ∀ j ∈ entry.target?, j = g) : TraceComplete log r g := by
  have own : log.fullLog.filterMap readTrace = log.about g := by
    rw [readTrace_fullLog silent, Journal.about, List.filter_eq_self.mpr]
    intro change listed
    obtain ⟨entry, mem, tells⟩ := List.mem_filterMap.mp listed
    cases entry with
    | performed issuer j kind request answer event =>
        obtain ⟨e, -, rfl⟩ := Option.map_eq_some_iff.mp tells
        exact decide_eq_true (only _ mem j rfl)
    | _ => cases tells
  constructor
  case replay_eq =>
    intro group kind found
    rw [replay, own, replays.objects_eq group found kind]
    rfl
  case read => exact fun line mem => isTraceLine_of_mem mem
  case fits =>
    intro before line after kind e split read
    apply replays.fits _ kind e (after.filterMap readTrace)
    rw [← own, split, List.filterMap_append, List.filterMap_cons_some read]

/-- An operation makes a new group, or it leaves all groups as they are. -/
theorem Opening.group_eq {change : Change} (opening : Opening r operation gained change)
    (accounted : Accounted r []) {before now : ObjectGroup} (found : r.groups[g]? = some before)
    (there : change.registry.groups[g]? = some now) : now = before := by
  cases opening with
  | unchanged | attached | detached | kept | letGo | released | acting =>
      exact Option.some.inj (there.symm.trans found)
  | created =>
      have other : r.groupsMade ≠ g := by
        rintro rfl
        rw [accounted.fresh_group] at found
        cases found
      rw [getElem?_insert_of_ne other] at there
      exact Option.some.inj (there.symm.trans found)

/-- At any moment of a run in which only one group carries out requests, the trace is a complete
journal of its objects. A task, which passes on one request at most, tells at once what it changes,
also where it is that of a destructor; the own change of an operation tells nothing, and leaves the
objects of every group as they are. -/
theorem Run.trace_complete {settings : Settings} {operations : List Operation}
    (run : Run settings operations log r tasks)
    (only : ∀ entry ∈ log, ∀ j ∈ entry.target?, j = g) :
    TraceComplete log r g ∧
    (∀ task rest policy step, tasks = task :: rest → r.step policy rest task = some step →
      TellsOnce r step.journal step.registry) ∧
    ∀ operation, tasks = [] →
      (r.change operation).journal.fullLog.countP isTraceLine = 0 ∧
      TellsOnce r (r.change operation).journal (r.change operation).registry := by
  refine ⟨(run.replays g).traceComplete (fun record mem => run.traced?_of_noted mem) only, ?_, ?_⟩
  · intro task rest policy step _ stepped
    obtain ⟨gained, effect⟩ := effect_of_step stepped
    exact effect.tellsOnce run.sound
  · rintro operation rfl
    obtain ⟨gained, opening⟩ := opening_of_change r operation
    have untold : (r.change operation).journal.fullLog.countP isTraceLine = 0 := by
      rw [countP_fullLog fun record mem => Registry.traced?_of_noted mem, opening.changes_eq_nil]
      rfl
    refine ⟨untold, .of_untold untold ?_⟩
    intro g before now found there kind
    rw [opening.group_eq run.accounted found there]

/-- The payload of a texture deletes a vertex buffer whose global name is shared. The log tells
this after the deletion of the texture that sets it off. -/
theorem Run.trace_complete_of_nested :
    ∃ operations log r group,
      Run ⟨.reuse, 1⟩ operations log r [] ∧ r.groups[0]? = some group ∧
      log.fullLog.filter isTraceLine =
        ["TRACE gen texture 1 -> 1", "TRACE gen vertex buffer 1 -> 1",
          "TRACE alias vertex buffer 5 -> 1", "TRACE delete texture 1 (was 1)",
          "TRACE delete vertex buffer 1 (was 1)"] ∧
      TraceComplete log r 0 := by
  have fresh : Run ⟨.reuse, 1⟩ [] [] _ [] := .start
  have run := fresh.performAll .standard
    [.create (.handle 0), .act (.key (.handle 0)) (.generate .texture [0]),
      .act (.key (.handle 0)) (.generate .vertexBuffer [0]),
      .act (.key (.handle 0)) (.rebind .vertexBuffer 5 1),
      .act (.key (.handle 0))
        (.attachActing .texture 1 "payload" (.key (.handle 0)) (.delete .vertexBuffer 1) none),
      .act (.key (.handle 0)) (.delete .texture 1)] (by decide)
  refine ⟨_, _, _, _, run, rfl, ?_, (run.trace_complete (by decide)).1⟩
  decide

end Registry

end SharedNames
