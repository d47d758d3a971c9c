import Mathlib.Data.Set.Function
import SharedNames.Proofs.NameTable.LatestBinding

/-!
Local names share a global name only because they were bound to it.

A name that is generated gets a global name to which no local name is bound, also if it was
bound by hand before the counter came to it, and also if the name that it was generated for is
gone while others that share it are left. So of the local names that share a global name, at
most one has it from its generation, and all others were bound to it later.

`BoundSince` tells a binding by the turn of the history that made it, and `Sharing` is what
every call keeps (`Sharing.call`). `Run.sharing_by_rebinding` is the statement about all runs.
-/

namespace SharedNames.NameTable

variable {rule : SuccessorRule} {t u : NameTable} {log : List Turn} {turn last : Turn}
  {c : Call} {event : Option Event} {l k g : Name} {i j : Nat}

/-! ### Where a binding comes from -/

def Turn.isGenerate (turn : Turn) : Bool :=
  match turn.call with
  | .generate _ _ => true
  | .delete _ | .rebind _ _ => false

/-- The turn at place `i` of a history bound `l` to `g`, and no later call took `l` away from
`g`. A local name that is bound again to the global name that it has keeps its binding. -/
structure BoundSince (log : List Turn) (i : Nat) (turn : Turn) (l g : Name) : Prop where
  turn_eq : log[i]? = some turn
  binds : turn.entry? = some (l, g)
  stays : ∀ later ∈ log.drop (i + 1), ¬ later.call.Leaves l g

theorem BoundSince.lt_length (bound : BoundSince log i turn l g) : i < log.length :=
  (List.getElem?_eq_some_iff.mp bound.turn_eq).1

/-- A binding after one more turn is one that this turn made, or one that it left alone.
Places in the history do not move, so a binding keeps the place of the turn that made it. -/
theorem boundSince_snoc_iff :
    BoundSince (log ++ [last]) i turn l g ↔
      (i = log.length ∧ turn = last ∧ last.entry? = some (l, g)) ∨
        (BoundSince log i turn l g ∧ ¬ last.call.Leaves l g) := by
  constructor
  · rintro ⟨at_i, binds, stays⟩
    rcases getElem?_snoc_iff.mp at_i with earlier | ⟨rfl, rfl⟩
    · have within := (List.getElem?_eq_some_iff.mp earlier).1
      rw [List.drop_append_of_le_length within] at stays
      refine .inr ⟨⟨earlier, binds, ?_⟩, stays last (by simp)⟩
      intro later mem
      exact stays later (List.mem_append_left _ mem)
    · exact .inl ⟨rfl, rfl, binds⟩
  · rintro (⟨rfl, rfl, binds⟩ | ⟨bound, stays⟩)
    · exact ⟨by simp, binds, by simp⟩
    · refine ⟨getElem?_snoc_iff.mpr (.inl bound.turn_eq), bound.binds, ?_⟩
      intro later mem
      rw [List.drop_append_of_le_length bound.lt_length] at mem
      rcases List.mem_append.mp mem with earlier | now
      · exact bound.stays later earlier
      · rwa [List.mem_singleton.mp now]

/-! ### What every call keeps -/

/-- How the entries of a table came about: each was made by a turn that bound it, and one that
shares a global name with a generated one was bound later, by hand. -/
structure Sharing (log : List Turn) (t : NameTable) : Prop where
  index : t.Indexed
  bound_iff : ∀ l g : Name, t.globals[l]? = some g ↔ ∃ i turn, BoundSince log i turn l g
  by_call : ∀ {i : Nat} {turn : Turn} {l g : Name}, BoundSince log i turn l g →
    turn.isGenerate ∨ turn.call = .rebind l g
  later : ∀ {i j : Nat} {turn other : Turn} {l k g : Name}, g ≠ 0 → BoundSince log i turn l g →
    turn.isGenerate → BoundSince log j other k g → k ≠ l → i < j ∧ other.call = .rebind k g

theorem sharing_starting (first : Name) : Sharing [] (starting first) where
  index := indexed_starting first
  bound_iff l g := by
    constructor
    · intro bound
      simp [starting] at bound
    · rintro ⟨i, turn, bound⟩
      exact absurd bound.lt_length (Nat.not_lt_zero i)
  by_call bound := absurd bound.lt_length (Nat.not_lt_zero _)
  later _ bound := absurd bound.lt_length (Nat.not_lt_zero _)

namespace Effect

/-- A call binds what it enters, and leaves the other bindings that it does not take away.
Read for a whole history this says which entries there are, without any table. -/
theorem globals_iff (index : t.Indexed) (effect : Effect rule t c event u) :
    u.globals[l]? = some g ↔
      Turn.entry? ⟨c, event⟩ = some (l, g) ∨ (t.globals[l]? = some g ∧ ¬ c.Leaves l g) := by
  constructor
  · intro bound
    by_cases binds : Turn.entry? ⟨c, event⟩ = some (l, g)
    · exact .inl binds
    · refine .inr ⟨?_, fun leaves => effect.globals_ne_of_leaves index leaves bound⟩
      by_contra unbound
      exact effect.globals_ne_of_left index binds unbound bound
  · rintro (binds | ⟨bound, stays⟩)
    · cases effect with
      | kept | absent | removed | turnedDown => cases binds
      | made =>
          cases binds
          exact Std.ExtTreeMap.getElem?_insert_self
      | rebound hl hg =>
          cases binds
          rw [globals_rebind rule t hl hg]
          exact Std.ExtTreeMap.getElem?_insert_self
    · cases effect with
      | kept | absent | turnedDown => exact bound
      | @made _ k h _ new found =>
          have free := isFree_of_newLocal new found
          have other : l ≠ k := by
            rintro rfl
            rw [isLive_eq_false_iff.mp free.2] at bound
            cases bound
          rw [getElem?_insert_name, if_neg other]
          exact bound
      | @removed k =>
          have other : l ≠ k := fun same => stays same.symm
          rw [globals_delete, getElem?_erase_name, if_neg other]
          exact bound
      | @rebound k h hk hh =>
          rw [globals_rebind rule t hk hh, getElem?_insert_name]
          by_cases same : l = k
          · have kept : h = g := by
              by_contra elsewhere
              exact stays ⟨same.symm, hh, elsewhere⟩
            rw [if_pos same, kept]
          · rw [if_neg same]
            exact bound

/-- Entries are made by calls for a name, or by hand. In no other way does a local name come
to a global name. -/
theorem call_of_binds (effect : Effect rule t c event u)
    (binds : Turn.entry? ⟨c, event⟩ = some (l, g)) :
    Turn.isGenerate ⟨c, event⟩ ∨ c = .rebind l g := by
  cases effect with
  | kept | absent | removed | turnedDown => cases binds
  | made => exact .inl rfl
  | rebound =>
      cases binds
      exact .inr rfl

/-- No local name is bound to a global name when it is generated: the search asked whether it
is bound, and passed those that are. -/
theorem unshared_of_generate (index : t.Indexed) (effect : Effect rule t c event u)
    (generates : Turn.isGenerate ⟨c, event⟩)
    (binds : Turn.entry? ⟨c, event⟩ = some (l, g)) (nonzero : g ≠ 0) (k : Name) :
    t.globals[k]? ≠ some g := by
  cases effect with
  | kept | absent | removed | turnedDown => cases binds
  | rebound => cases generates
  | @made _ _ _ withGlobal _ _ found =>
      cases binds
      cases withGlobal with
      | false => exact absurd (Option.some.inj found).symm nonzero
      | true =>
          intro bound
          have unbound := (isFree_of_nextFree found).2
          rw [index.isBound_iff_shared.mpr ⟨nonzero, k, bound⟩] at unbound
          cases unbound

end Effect

/-- A call adds its own binding at the end of the history. If it was generated then nobody
shares it yet, and if it shares a generated one then it was made by hand, and later. -/
theorem Sharing.call (sharing : Sharing log t) (effect : Effect rule t c event u) :
    Sharing (log ++ [⟨c, event⟩]) u where
  index := effect.indexed sharing.index
  bound_iff l g := by
    rw [effect.globals_iff sharing.index, sharing.bound_iff]
    simp only [boundSince_snoc_iff]
    constructor
    · rintro (binds | ⟨⟨i, turn, bound⟩, stays⟩)
      · exact ⟨log.length, _, .inl ⟨rfl, rfl, binds⟩⟩
      · exact ⟨i, turn, .inr ⟨bound, stays⟩⟩
    · rintro ⟨i, turn, ⟨-, -, binds⟩ | ⟨bound, stays⟩⟩
      · exact .inl binds
      · exact .inr ⟨⟨i, turn, bound⟩, stays⟩
  by_call bound := by
    rcases boundSince_snoc_iff.mp bound with ⟨-, rfl, binds⟩ | ⟨earlier, -⟩
    · exact effect.call_of_binds binds
    · exact sharing.by_call earlier
  later {i j turn other l k g} nonzero bound generates shared differ := by
    rcases boundSince_snoc_iff.mp bound with ⟨-, rfl, binds⟩ | ⟨earlier, -⟩
    · rcases boundSince_snoc_iff.mp shared with ⟨-, rfl, same⟩ | ⟨before, -⟩
      · rw [binds] at same
        cases same
        exact absurd rfl differ
      · have bound := (sharing.bound_iff k g).mpr ⟨j, other, before⟩
        exact absurd bound (effect.unshared_of_generate sharing.index generates binds nonzero k)
    · rcases boundSince_snoc_iff.mp shared with ⟨rfl, rfl, binds⟩ | ⟨before, -⟩
      · refine ⟨earlier.lt_length, (effect.call_of_binds binds).resolve_left ?_⟩
        intro generates
        have bound := (sharing.bound_iff l g).mpr ⟨i, turn, earlier⟩
        exact effect.unshared_of_generate sharing.index generates binds nonzero l bound
      · exact sharing.later nonzero earlier generates before differ

/-! ### All runs -/

namespace Run

variable {first : Name}

/-- In every table that a run reaches, the entries came about as `Sharing` says. -/
theorem sharing (run : Run (starting first) log t) : Sharing log t := by
  induction run with
  | start => exact sharing_starting first
  | step _ called ih => exact ih.call (effect_of_call called)

/-- Where nothing was bound by hand, no two local names share a global name: of two sharers at
least one was bound by hand. -/
theorem unshared (run : Run (starting first) log t)
    (generated : ∀ turn ∈ log, ∀ l g, turn.call ≠ .rebind l g) (nonzero : g ≠ 0)
    (bound : t.globals[l]? = some g) (shared : t.globals[k]? = some g) : l = k := by
  have sharing := run.sharing
  obtain ⟨i, turn, since⟩ := (sharing.bound_iff l g).mp bound
  obtain ⟨j, other, since'⟩ := (sharing.bound_iff k g).mp shared
  have made : turn.isGenerate := (sharing.by_call since).resolve_right
    (generated turn (List.mem_of_getElem? since.turn_eq) l g)
  by_contra differ
  have later := sharing.later nonzero since made since' (Ne.symm differ)
  exact generated other (List.mem_of_getElem? since'.turn_eq) k g later.2

end Run

/-- Where no global name is shared, the look-ups on both sides are inverse to each other.
Names without a global name are left out, as `0` is no global name. -/
theorem Indexed.invOn_of_unshared (index : t.Indexed)
    (unshared : ∀ l k g : Name, g ≠ 0 → t.globals[l]? = some g → t.globals[k]? = some g → l = k) :
    Set.BijOn t.globalOf {l | t.isLive l ∧ t.globalOf l ≠ 0} {g | t.isBound g} ∧
      Set.InvOn t.localOf t.globalOf {l | t.isLive l ∧ t.globalOf l ≠ 0} {g | t.isBound g} := by
  have answered {g : Name} (bound : t.isBound g) :
      g ≠ 0 ∧ t.localOf g ≠ 0 ∧ t.globals[t.localOf g]? = some g := by
    obtain ⟨nonzero, -⟩ := index.isBound_iff_shared.mp bound
    obtain ⟨l, remembered⟩ := isBound_iff.mp bound
    have named := index.ne_zero_of_latest remembered
    rw [(index.localOf_eq_iff named).mpr remembered]
    exact ⟨nonzero, named, index.globals_of_latest remembered⟩
  have entry {l : Name} (live : t.isLive l) : t.globals[l]? = some (t.globalOf l) :=
    isLive_and_globalOf_iff.mp ⟨live, rfl⟩
  have forth : Set.MapsTo t.globalOf {l | t.isLive l ∧ t.globalOf l ≠ 0} {g | t.isBound g} := by
    rintro l ⟨live, nonzero⟩
    exact index.isBound_iff_shared.mpr ⟨nonzero, l, entry live⟩
  have back : Set.MapsTo t.localOf {g | t.isBound g} {l | t.isLive l ∧ t.globalOf l ≠ 0} := by
    intro g bound
    obtain ⟨nonzero, named, there⟩ := answered bound
    refine ⟨isLive_iff.mpr ⟨g, there⟩, ?_⟩
    rwa [index.globalOf_localOf named]
  have inverse : Set.InvOn t.localOf t.globalOf {l | t.isLive l ∧ t.globalOf l ≠ 0}
      {g | t.isBound g} := by
    constructor
    · rintro l ⟨live, nonzero⟩
      exact unshared _ l _ nonzero (answered (forth ⟨live, nonzero⟩)).2.2 (entry live)
    · intro g bound
      exact index.globalOf_localOf (answered bound).2.1
  exact ⟨inverse.bijOn forth back, inverse⟩

namespace Run

variable {first : Name}

/-- Every binding was made by a call. Of the live local names that are bound to a global name,
at most one got it when it was generated, and then every other one was bound to it later, by
hand. Where nothing was bound by hand, no global name is shared, and the look-ups on both
sides are inverse to each other between the local names with a global name and the bound
global names. Turns are told apart by their places in the history, so the same call made twice
counts as two. -/
theorem sharing_by_rebinding (run : Run (starting first) log t) :
    (∀ l g : Name, t.globals[l]? = some g ↔ ∃ i turn, BoundSince log i turn l g) ∧
    (∀ g l k i j turn other, g ≠ 0 → BoundSince log i turn l g → turn.isGenerate →
      BoundSince log j other k g →
        (other.isGenerate → k = l) ∧ (k ≠ l → i < j ∧ other.call = .rebind k g)) ∧
    ((∀ turn ∈ log, ∀ l g, turn.call ≠ .rebind l g) →
      (∀ l k g : Name, g ≠ 0 → t.globals[l]? = some g → t.globals[k]? = some g → l = k) ∧
      Set.BijOn t.globalOf {l | t.isLive l ∧ t.globalOf l ≠ 0} {g | t.isBound g} ∧
      Set.InvOn t.localOf t.globalOf {l | t.isLive l ∧ t.globalOf l ≠ 0} {g | t.isBound g}) := by
  have sharing := run.sharing
  refine ⟨sharing.bound_iff, ?_, ?_⟩
  · intro g l k i j turn other nonzero since made since'
    refine ⟨?_, fun differ => sharing.later nonzero since made since' differ⟩
    intro made'
    by_contra differ
    have byHand := (sharing.later nonzero since made since' differ).2
    rw [Turn.isGenerate, byHand] at made'
    cases made'
  · intro generated
    have unshared : ∀ l k g : Name, g ≠ 0 → t.globals[l]? = some g → t.globals[k]? = some g →
        l = k := by
      intro l k g nonzero bound shared
      exact run.unshared generated nonzero bound shared
    exact ⟨unshared, sharing.index.invOn_of_unshared unshared⟩

/-- The global name `1` is bound by hand before the counter comes to it, so the generated name
gets `2`, which is then shared with `5` by hand; the generated one is bound to it once more.
In the second run nothing is bound by hand, the counters go round, and a name is deleted. -/
theorem sharing_by_rebinding_of_sibling :
    (∃ t, Run (starting 1)
        [⟨.rebind 9 1, some (.rebound 9 1)⟩, ⟨.generate 0 true, some (.made 1 2)⟩,
          ⟨.rebind 5 2, some (.rebound 5 2)⟩, ⟨.rebind 1 2, some (.rebound 1 2)⟩] t ∧
      t.globals[(1 : Name)]? = some 2 ∧ t.globals[(5 : Name)]? = some 2 ∧
      1 < 2 ∧ Call.rebind 5 2 = .rebind 5 2) ∧
    ∃ t, Run (starting 0xFFFFFFFF)
        [⟨.generate 0 true, some (.made 0xFFFFFFFF 0xFFFFFFFF)⟩,
          ⟨.generate 0 true, some (.made 1 1)⟩, ⟨.generate 7 true, some (.made 7 2)⟩,
          ⟨.delete 1, some (.removed 1 1)⟩, ⟨.generate 0 false, some (.made 2 0)⟩] t ∧
      Set.InvOn t.localOf t.globalOf {l | t.isLive l ∧ t.globalOf l ≠ 0} {g | t.isBound g} := by
  constructor
  · refine Exists.imp (fun t run => ⟨run, ?_⟩)
      ⟨_, .cons (.nth 0) rfl (.cons (.nth 0) rfl (.cons (.nth 0) rfl (.cons (.nth 0) rfl .start)))⟩
    obtain ⟨bound, later, -⟩ := run.sharing_by_rebinding
    refine ⟨(bound 1 2).mpr ⟨1, _, rfl, rfl, by simp [Call.Leaves]⟩,
      (bound 5 2).mpr ⟨2, _, rfl, rfl, by simp [Call.Leaves]⟩, ?_⟩
    exact (later 2 1 5 1 2 _ _ (by decide) ⟨rfl, rfl, by simp [Call.Leaves]⟩ rfl
      ⟨rfl, rfl, by simp [Call.Leaves]⟩).2 (by decide)
  · refine Exists.imp (fun t run => ⟨run, ?_⟩)
      ⟨_, .cons (.nth 0) rfl (.cons (.nth 0) rfl (.cons (.nth 0) rfl (.cons (.nth 0) rfl
        (.cons (.nth 0) rfl .start))))⟩
    exact (run.sharing_by_rebinding.2.2 (by simp)).2.2

end Run

end SharedNames.NameTable
