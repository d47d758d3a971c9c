import SharedNames.Proofs.Ledger
import SharedNames.Proofs.NameTable.Generation

/-!
Generated names are not issued again before the names are used up.

A run keeps a ledger of each counter of its table, one for the local and one for the
global names. Only a call that makes or changes an entry brings a name into use, and at
most one on either side, so while there were fewer than `2 ^ 32` such calls neither
counter has come round (`Accounts`, kept by every call in `Accounts.call`).
-/

namespace SharedNames.NameTable

variable {rule : SuccessorRule} {first : Name} {log : List Turn} {t u : NameTable}

/-! ### What a history tells -/

def Call.takesNames : Call → Bool
  | .generate _ _ | .rebind _ _ => true
  | .delete _ => false

def takingCalls (log : List Turn) : Nat :=
  log.countP fun turn => turn.call.takesNames

def Turn.issuedLocal? (turn : Turn) : Option Name :=
  match turn.call with
  | .generate requested _ => if requested = 0 then turn.event.map Event.name else none
  | _ => none

def Turn.issuedGlobal? (turn : Turn) : Option Name :=
  match turn.call, turn.event with
  | .generate _ true, some (.made _ g) => some g
  | _, _ => none

def issuedLocals (log : List Turn) : List Name :=
  log.filterMap Turn.issuedLocal?

def issuedGlobals (log : List Turn) : List Name :=
  log.filterMap Turn.issuedGlobal?

def entriesMade (log : List Turn) : List (Name × Name) :=
  log.filterMap Turn.entry?

/-! ### The ledgers of a run -/

/-- The accounts of a run from a table whose counters start at `first`. -/
structure Accounts (first : Name) (log : List Turn) (t : NameTable) : Prop where
  index : t.Indexed
  locals : ∃ examined, Ledger first examined t.isLive t.nextLocal (issuedLocals log)
    ((entriesMade log).map Prod.fst)
  globals : ∃ examined, Ledger first examined t.isBound t.nextGlobal (issuedGlobals log)
    ((entriesMade log).map Prod.snd)
  length_le : (entriesMade log).length ≤ takingCalls log

theorem accounts_starting (first : Name) : Accounts (max first 1) [] (starting first) where
  index := indexed_starting first
  locals := ⟨0, Ledger.opening _ fun n => by simp [isLive, starting]⟩
  globals := ⟨0, Ledger.opening _ fun n => by simp [isBound, starting]⟩
  length_le := by simp [entriesMade]

theorem filterMap_snoc {α β : Type} (f : α → Option β) (xs : List α) (x : α) :
    (xs ++ [x]).filterMap f = xs.filterMap f ++ (f x).toList := by
  cases h : f x <;> simp [h]

theorem takingCalls_snoc (log : List Turn) (turn : Turn) :
    takingCalls (log ++ [turn]) = takingCalls log + if turn.call.takesNames then 1 else 0 := by
  simp [takingCalls, List.countP_append, List.countP_singleton]

namespace Accounts

/-- A call that made no entry and issued no name adds nothing to the accounts. Such are
requests for live names, bindings that are turned down, and deletions of names that are not
live. -/
theorem silent {turn : Turn} (accounts : Accounts first log t)
    (noLocal : turn.issuedLocal? = none) (noGlobal : turn.issuedGlobal? = none)
    (noEntry : turn.entry? = none) : Accounts first (log ++ [turn]) t := by
  refine ⟨accounts.index, ?_, ?_, ?_⟩
  · simpa [issuedLocals, entriesMade, filterMap_snoc, noLocal, noEntry] using accounts.locals
  · simpa [issuedGlobals, entriesMade, filterMap_snoc, noGlobal, noEntry] using accounts.globals
  · have kept : entriesMade (log ++ [turn]) = entriesMade log := by
      simp [entriesMade, noEntry]
    rw [kept, takingCalls_snoc]
    exact Nat.le_add_right_of_le accounts.length_le

/-- A deletion takes names out of use on both sides. They stay noted as taken, so no counter
issues them again. -/
theorem deleted {l g : Name} (accounts : Accounts first log t) (bound : t.globals[l]? = some g) :
    Accounts first log (t.delete rule l).1 := by
  have write := rewrite_delete rule l accounts.index
  obtain ⟨examined, locals⟩ := accounts.locals
  obtain ⟨examined', globals⟩ := accounts.globals
  have counters := counters_delete rule t l
  refine ⟨write.indexed accounts.index fun _ => rfl, ⟨examined, ?_⟩, ⟨examined', ?_⟩,
    accounts.length_le⟩
  · rw [counters.1]
    refine locals.drop fun k live => ?_
    rcases write.isLive_imp live with before | rfl
    · exact before
    · exact isLive_iff.mpr ⟨g, bound⟩
  · rw [counters.2]
    refine globals.drop fun h remembered => ?_
    rcases write.isBound_imp remembered with before | new
    · exact before
    · cases new

/-- An entry that was made or changed is noted on both sides, and a counter that issued one of
its names has moved on. Creating a name and binding one by hand differ only in which of the
counters issued anything. -/
theorem entered {turn : Turn} {l g : Name} (accounts : Accounts first log t)
    (named : l ≠ 0) (write : Rewrite rule l (some g) t u)
    (entry : turn.entry? = some (l, g)) (takes : turn.call.takesNames = true)
    (few : takingCalls (log ++ [turn]) < 2 ^ 32)
    (localIssued : turn.issuedLocal? = none ∧ u.nextLocal = t.nextLocal ∨
      turn.issuedLocal? = some l ∧ u.nextLocal = l + 1 ∧ nextFree t.isLive t.nextLocal = some l)
    (globalIssued : turn.issuedGlobal? = none ∧ u.nextGlobal = t.nextGlobal ∨
      turn.issuedGlobal? = some g ∧ u.nextGlobal = g + 1 ∧
        nextFree t.isBound t.nextGlobal = some g) :
    Accounts first (log ++ [turn]) u := by
  have entries : entriesMade (log ++ [turn]) = entriesMade log ++ [(l, g)] := by
    simp [entriesMade, entry]
  rw [takingCalls_snoc, if_pos takes] at few
  have room : (entriesMade log).length + 1 < 2 ^ 32 :=
    Nat.lt_of_le_of_lt (Nat.add_le_add_right accounts.length_le 1) few
  have notedLocal : ∀ k, u.isLive k = true → t.isLive k = true ∨ k = l :=
    fun k live => write.isLive_imp live
  have notedGlobal : ∀ h, u.isBound h = true → t.isBound h = true ∨ h = g := by
    intro h remembered
    rcases write.isBound_imp remembered with before | new
    · exact .inl before
    · exact .inr (Option.some.inj new).symm
  obtain ⟨examined, locals⟩ := accounts.locals
  obtain ⟨examined', globals⟩ := accounts.globals
  refine ⟨write.indexed accounts.index fun zero => absurd zero named, ?_, ?_, ?_⟩
  · rw [entries, List.map_append, issuedLocals, filterMap_snoc]
    rcases localIssued with ⟨none, stays⟩ | ⟨some, moves, found⟩
    · rw [none, stays, Option.toList_none, List.append_nil]
      exact ⟨examined, locals.note notedLocal⟩
    · rw [some, moves]
      exact locals.issue found (by simpa using room) notedLocal
  · rw [entries, List.map_append, issuedGlobals, filterMap_snoc]
    rcases globalIssued with ⟨none, stays⟩ | ⟨some, moves, found⟩
    · rw [none, stays, Option.toList_none, List.append_nil]
      exact ⟨examined', globals.note notedGlobal⟩
    · rw [some, moves]
      exact globals.issue found (by simpa using room) notedGlobal
  · rw [entries, List.length_append, List.length_singleton, takingCalls_snoc, if_pos takes]
    exact Nat.add_le_add_right accounts.length_le 1

/-- Every call is booked, as long as so few can have brought names into use that no counter
came round. -/
theorem call {c : Call} {event : Option Event} (accounts : Accounts first log t)
    (effect : Effect rule t c event u) (few : takingCalls (log ++ [⟨c, event⟩]) < 2 ^ 32) :
    Accounts first (log ++ [⟨c, event⟩]) u := by
  cases effect with
  | @kept l withGlobal nonzero =>
      have noGlobal : Turn.issuedGlobal? ⟨.generate l withGlobal, some (.kept l)⟩ = none := by
        cases withGlobal <;> rfl
      exact accounts.silent (by simp [Turn.issuedLocal?, nonzero]) noGlobal rfl
  | absent => exact accounts.silent rfl rfl rfl
  | turnedDown => exact accounts.silent rfl rfl rfl
  | removed bound => exact (accounts.deleted bound).silent rfl rfl rfl
  | @rebound l g hl hg =>
      have counters := counters_rebind rule t l g
      exact accounts.entered hl (rewrite_rebind rule accounts.index hl hg) rfl rfl few
        (.inl ⟨rfl, counters.1⟩) (.inl ⟨rfl, counters.2⟩)
  | @made requested l g withGlobal new foundLocal foundGlobal =>
      have free := isFree_of_newLocal new foundLocal
      refine accounts.entered free.1 (rewrite_made rule accounts.index free) rfl rfl few ?_ ?_
      · by_cases zero : requested = 0
        · rw [newLocal, if_pos zero] at foundLocal
          exact .inr ⟨by simp [Turn.issuedLocal?, zero, Event.name], if_pos zero, foundLocal⟩
        · exact .inl ⟨by simp [Turn.issuedLocal?, zero], if_neg zero⟩
      · cases withGlobal with
        | false => exact .inl ⟨rfl, rfl⟩
        | true => exact .inr ⟨rfl, rfl, foundGlobal⟩

end Accounts

theorem Run.accounts (run : Run (starting first) log t) (few : takingCalls log < 2 ^ 32) :
    Accounts (max first 1) log t := by
  induction run with
  | start => exact accounts_starting first
  | step _ called ih =>
      have fewer := few
      rw [takingCalls_snoc] at fewer
      exact (ih (Nat.lt_of_le_of_lt (Nat.le_add_right _ _) fewer)).call (effect_of_call called) few

/-! ### No name is generated twice -/

/-- As long as a run has made fewer than `2 ^ 32` calls that can bring names into use, the
local names that it generated are distinct and not `0`, and so are the global names. With room
for one more such call, that call is answered. Deletions are not counted and change nothing: a
name that was deleted on the way is not issued again. -/
theorem Run.generated_names_distinct (run : Run (starting first) log t)
    (few : takingCalls log < 2 ^ 32) :
    ((issuedLocals log).Nodup ∧ ∀ l ∈ issuedLocals log, l ≠ 0) ∧
    ((issuedGlobals log).Nodup ∧ ∀ g ∈ issuedGlobals log, g ≠ 0) ∧
    (takingCalls log + 1 < 2 ^ 32 →
      ∀ requested withGlobal, (t.generate requested withGlobal).isSome) := by
  have accounts := run.accounts few
  obtain ⟨_, locals⟩ := accounts.locals
  obtain ⟨_, globals⟩ := accounts.globals
  refine ⟨⟨locals.nodup, ?_⟩, ⟨globals.nodup, ?_⟩, ?_⟩
  · intro l issued
    exact (locals.issued_passed l issued).1
  · intro g issued
    exact (globals.issued_passed g issued).1
  · intro room requested withGlobal
    have neverAll : ((entriesMade log).map Prod.fst).length + 1 < 2 ^ 32 := by
      rw [List.length_map]
      exact Nat.lt_of_le_of_lt (Nat.add_le_add_right accounts.length_le 1) room
    have left := locals.exists_free neverAll
    exact isSome_generate_iff.mpr (accounts.index.searchesEnd_iff.mpr (.inr left))

/-- Both counters go round and pass what was bound by hand; the name that was deleted
on the way is not issued again. -/
theorem Run.generated_names_distinct_past_the_largest :
    ∃ t, Run (starting 0xFFFFFFFF)
      [⟨.rebind 1 0xFFFFFFFF, some (.rebound 1 0xFFFFFFFF)⟩,
        ⟨.generate 0 true, some (.made 0xFFFFFFFF 1)⟩,
        ⟨.delete 0xFFFFFFFF, some (.removed 0xFFFFFFFF 1)⟩,
        ⟨.generate 0 true, some (.made 2 2)⟩] t ∧
      [0xFFFFFFFF, (2 : Name)].Nodup ∧ [1, (2 : Name)].Nodup := by
  refine Exists.imp (fun t run => ⟨run, ?_⟩)
    ⟨_, .cons (.nth 0) rfl (.cons (.nth 0) rfl (.cons (.nth 0) rfl (.cons (.nth 0) rfl .start)))⟩
  have distinct := run.generated_names_distinct (by decide)
  exact ⟨distinct.1.1, distinct.2.1.1⟩

end SharedNames.NameTable
