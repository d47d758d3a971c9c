import SharedNames.Proofs.NameTable.Generation

/-!
What the creation of a name does, from end to end.

A request for a new entry is described by the views of the table before and after it:
which names it finds, where it leaves the counters, and which answers change.

* `FirstFrom` is the candidate at the least distance, counted in numbers that go round
  after `2 ^ 32 - 1`; `firstFrom_of_nextFree` says that a search answers it.
* `Created` lists all that the creation of an entry does, and `Indexed.created` proves
  it of every table whose two maps agree. The agreement is what makes the global names
  that live local names are bound to the ones that the search passes over.
* `Run.generate_creates`: so it is in every table that a run reaches, whenever a name can
  be had.
-/

namespace SharedNames

/-! ### The first name from a counter on -/

/-- `n` lies `k` places above `start` for the least `k` at which a name is neither reserved
nor taken. Places are counted modulo `2 ^ 32`. -/
def FirstFrom (taken : Name → Prop) (start n : Name) : Prop :=
  ∃ k, n.toNat = (start.toNat + k) % 2 ^ 32 ∧ n ≠ 0 ∧ ¬ taken n ∧
    ∀ j < k, ∀ m : Name, m.toNat = (start.toNat + j) % 2 ^ 32 → m = 0 ∨ taken m

variable {used : Name → Bool} {taken : Name → Prop} {start n : Name}

/-- A search answers the first name from its counter on. What counts as taken may be said in
any way that agrees with the search on the names other than `0`: for local names it is
liveness, for global ones that some live local name is bound to them. -/
theorem firstFrom_of_nextFree (taken_iff : ∀ m, m ≠ 0 → (used m = true ↔ taken m))
    (found : nextFree used start = some n) : FirstFrom taken start n := by
  obtain ⟨k, -, rfl, free, least⟩ := firstFree_eq_some_iff.mp found
  refine ⟨k, toNat_after start k, free.1, ?_, ?_⟩
  · intro isTaken
    have inUse := (taken_iff _ free.1).mpr isTaken
    rw [free.2] at inUse
    cases inUse
  · intro j before m atJ
    obtain rfl : m = after start j := UInt32.toNat_inj.mp (atJ.trans (toNat_after start j).symm)
    by_cases zero : after start j = 0
    · exact .inl zero
    · refine .inr ((taken_iff _ zero).mp ?_)
      by_contra unused
      exact least j before ⟨zero, Bool.eq_false_iff.mpr unused⟩

namespace NameTable

variable {t : NameTable} {requested l g : Name} {withGlobal : Bool}

/-! ### What one creation does -/

/-- All that the creation of an entry `l` with the global name `g` does. -/
structure Created (requested : Name) (withGlobal : Bool) (t : NameTable) (l g : Name)
    (u : NameTable) : Prop where
  /-- A requested name is used as it is, without a search. -/
  as_requested : requested ≠ 0 → l = requested ∧ u.nextLocal = t.nextLocal
  /-- Otherwise the local name is the first one that is not live. -/
  generated : requested = 0 →
    FirstFrom (fun k => t.isLive k = true) t.nextLocal l ∧
      u.nextLocal.toNat = (l.toNat + 1) % 2 ^ 32
  /-- A generated global name is the first one that no live local name is bound to, and
  from then on the two names answer each other. -/
  bound : withGlobal = true →
    FirstFrom (fun h => ∃ k, t.isLive k = true ∧ t.globalOf k = h) t.nextGlobal g ∧
      u.nextGlobal.toNat = (g.toNat + 1) % 2 ^ 32 ∧ u.globalOf l = g ∧ u.localOf g = l
  /-- An entry without a global name is bound to `0`, without a search. -/
  unbound : withGlobal = false → g = 0 ∧ u.globalOf l = 0 ∧ u.nextGlobal = t.nextGlobal
  /-- The local name is new. -/
  new : l ≠ 0 ∧ t.isLive l = false ∧ u.isLive l = true
  /-- There is one more live local name. -/
  size_eq : u.size = t.size + 1
  /-- The other local names are live or not as before, with their global names. -/
  globalOf_of_ne : ∀ k, k ≠ l → u.isLive k = t.isLive k ∧ u.globalOf k = t.globalOf k
  /-- The other global names are answered as before. -/
  localOf_of_ne : ∀ h, h ≠ g → u.localOf h = t.localOf h

/-- A new entry does what `Created` lists. The index has to agree with the entries, since the
search for a global name asks the index and `Created` speaks of the entries. -/
theorem Indexed.created (index : t.Indexed) (new : requested = 0 ∨ t.isLive requested = false)
    (foundLocal : t.newLocal requested = some l) (foundGlobal : t.newGlobal withGlobal = some g) :
    Created requested withGlobal t l g
      { nextLocal := if requested = 0 then l + 1 else t.nextLocal
        nextGlobal := if withGlobal then g + 1 else t.nextGlobal
        globals := t.globals.insert l g
        latest := if g = 0 then t.latest else t.latest.insert g l } := by
  have free := isFree_of_newLocal new foundLocal
  have dead := isLive_eq_false_iff.mp free.2
  constructor
  case as_requested =>
    intro nonzero
    rw [newLocal, if_neg nonzero] at foundLocal
    exact ⟨(Option.some.inj foundLocal).symm, if_neg nonzero⟩
  case generated =>
    intro zero
    rw [newLocal, if_pos zero] at foundLocal
    refine ⟨firstFrom_of_nextFree (fun _ _ => Iff.rfl) foundLocal, ?_⟩
    rw [if_pos zero]
    exact UInt32.toNat_add l 1
  case bound =>
    rintro rfl
    have boundTo : ∀ h : Name, h ≠ 0 →
        (t.isBound h = true ↔ ∃ k, t.isLive k = true ∧ t.globalOf k = h) := by
      intro h nonzero
      simp only [index.isBound_iff_shared, isLive_and_globalOf_iff]
      exact and_iff_right nonzero
    have nonzero : g ≠ 0 := (isFree_of_nextFree foundGlobal).1
    refine ⟨firstFrom_of_nextFree boundTo foundGlobal, UInt32.toNat_add g 1, ?_, ?_⟩
    · simp [globalOf]
    · simp [localOf, nonzero]
  case unbound =>
    rintro rfl
    obtain rfl : (0 : Name) = g := Option.some.inj foundGlobal
    exact ⟨rfl, by simp [globalOf], rfl⟩
  case new =>
    refine ⟨free.1, free.2, ?_⟩
    simp [isLive]
  case size_eq =>
    have absent : ¬ t.globals.contains l = true := Bool.eq_false_iff.mp free.2
    rw [size, Std.ExtTreeMap.size_insert, if_neg absent, size]
  case globalOf_of_ne =>
    intro k other
    have same : (t.globals.insert l g)[k]? = t.globals[k]? := getElem?_insert_of_ne (Ne.symm other)
    constructor
    · simp only [isLive, Std.ExtTreeMap.contains_eq_isSome_getElem?, same]
    · simp only [globalOf, same]
  case localOf_of_ne =>
    intro h other
    by_cases zero : g = 0
    · simp only [localOf, if_pos zero]
    · simp only [localOf, if_neg zero, getElem?_insert_of_ne (Ne.symm other)]

/-! ### Every table that a run reaches -/

/-- In every table that a run reaches, a request that is not for a live name creates an entry,
provided that a local name is left where one has to be generated. The creation does all that
`Created` lists, and nothing else. That a global name is left as well is no hypothesis: there
are never more bound global names than live local ones. -/
theorem Run.generate_creates {first : Name} {log : List Turn} (run : Run (starting first) log t)
    (requested : Name) (withGlobal : Bool)
    (new : requested = 0 ∨ t.isLive requested = false)
    (available : requested = 0 → ∃ l, l ≠ 0 ∧ t.isLive l = false) :
    ∃ u l g, t.generate requested withGlobal = some (u, .made l g) ∧
      Created requested withGlobal t l g u := by
  have index := run.indexed (indexed_starting first)
  have ends : SearchesEnd requested withGlobal t := by
    refine index.searchesEnd_iff.mpr ?_
    by_cases zero : requested = 0
    · exact .inr (available zero)
    · exact .inl zero
  obtain ⟨⟨u, event⟩, generated⟩ := Option.isSome_iff_exists.mp (isSome_generate_iff.mpr ends)
  have effect : Effect (.nth 0) t (.generate requested withGlobal) (some event) u :=
    effect_of_generate generated
  cases effect with
  | kept nonzero live =>
      rcases new with zero | dead
      · exact absurd zero nonzero
      · rw [live] at dead
        cases dead
  | made _ foundLocal foundGlobal =>
      exact ⟨_, _, _, generated, index.created new foundLocal foundGlobal⟩

/-- On both sides the counter stands at `0xFFFFFFFE`, names are taken from there up to the
largest one, and `1` is taken as a local name behind it. The first request has to go round
on both sides; the second one is for a name ahead of the counter, which then stays. -/
theorem Run.generate_creates_past_the_largest :
    ∃ t, Run (starting 0xFFFFFFFE)
      [⟨.rebind 0xFFFFFFFF 0xFFFFFFFE, some (.rebound 0xFFFFFFFF 0xFFFFFFFE)⟩,
        ⟨.rebind 1 0xFFFFFFFF, some (.rebound 1 0xFFFFFFFF)⟩,
        ⟨.generate 0xFFFFFFFE false, some (.made 0xFFFFFFFE 0)⟩] t ∧
      (∃ l, l ≠ 0 ∧ t.isLive l = false) ∧ t.isLive 7 = false ∧
      (∃ u, t.generate 0 true = some (u, .made 2 1) ∧ Created 0 true t 2 1 u) ∧
      ∃ u, t.generate 7 true = some (u, .made 7 1) ∧ Created 7 true t 7 1 u := by
  have reached : ∃ t, Run (starting 0xFFFFFFFE)
      [⟨.rebind 0xFFFFFFFF 0xFFFFFFFE, some (.rebound 0xFFFFFFFF 0xFFFFFFFE)⟩,
        ⟨.rebind 1 0xFFFFFFFF, some (.rebound 1 0xFFFFFFFF)⟩,
        ⟨.generate 0xFFFFFFFE false, some (.made 0xFFFFFFFE 0)⟩] t ∧
      t.isLive 2 = false ∧ t.isLive 7 = false ∧
      (t.generate 0 true).map Prod.snd = some (.made 2 1) ∧
      (t.generate 7 true).map Prod.snd = some (.made 7 1) :=
    ⟨_, .cons (.nth 0) rfl (.cons (.nth 0) rfl (.cons (.nth 0) rfl .start)), rfl, rfl, rfl, rfl⟩
  obtain ⟨t, run, twoLeft, sevenLeft, answer, answer'⟩ := reached
  have left : ∃ l, l ≠ 0 ∧ t.isLive l = false := ⟨2, by decide, twoLeft⟩
  refine ⟨t, run, left, sevenLeft, ?_, ?_⟩
  · obtain ⟨u, l, g, generated, created⟩ := run.generate_creates 0 true (.inl rfl) fun _ => left
    rw [generated] at answer
    cases answer
    exact ⟨u, generated, created⟩
  · obtain ⟨u, l, g, generated, created⟩ :=
      run.generate_creates 7 true (.inr sevenLeft) fun zero => absurd zero (by decide)
    rw [generated] at answer'
    cases answer'
    exact ⟨u, generated, created⟩

end NameTable

end SharedNames
