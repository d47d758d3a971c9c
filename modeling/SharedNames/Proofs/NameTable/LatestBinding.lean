import SharedNames.Proofs.NameTable.Index

/-!
The latest binding of a global name wins.

A global name is answered by the local name that was bound to it last, for as long as
that one stays bound to it, whatever happens to other names. The history of a run is
cut at the last binding of the global name: the binding call makes the table remember
the local name (`Effect.latest_of_binds`), and every later call keeps it so unless it
binds the global name or takes the local name away (`Effect.latest_of_stays`). A local
name that was taken away does not come back without a binding
(`Effect.globals_ne_of_leaves`, `Effect.globals_ne_of_left`); then any sharer may answer.
-/

namespace SharedNames.NameTable

variable {rule : SuccessorRule} {c : Call} {event : Option Event} {l g : Name} {t u : NameTable}

/-- A call that takes the local name `l` away from the global name `g`: it deletes `l`,
or binds it to another global name. -/
def Call.Leaves (l g : Name) : Call → Prop
  | .generate _ _ => False
  | .delete k => k = l
  | .rebind k h => k = l ∧ h ≠ 0 ∧ h ≠ g

/-- A global name is left alone by writes of other entries to other global names: what it
remembers is handed over only when the remembered name itself is rewritten. -/
theorem Rewrite.latest_of_ne {k : Name} {entry : Option Name} (write : Rewrite rule k entry t u)
    (other : k ≠ l) (elsewhere : entry ≠ some g) (remembered : t.latest[g]? = some l) :
    u.latest[g]? = some l := by
  have notLost : t.latest[g]? ≠ some k := by
    intro same
    rw [remembered] at same
    exact other (Option.some.inj same).symm
  rw [write.latest, if_neg fun new => elsewhere new.2, if_neg notLost]
  exact remembered

/-- A local name does not come to `g` by a write that does not bind it to `g`. -/
theorem Rewrite.globals_ne {k : Name} (write : Rewrite rule k entry t u)
    (elsewhere : l = k → entry ≠ some g) (left : t.globals[l]? ≠ some g) :
    u.globals[l]? ≠ some g := by
  by_cases same : l = k
  · rw [same, write.globals_self]
    exact elsewhere same
  · rw [write.globals_of_ne same]
    exact left

namespace Effect

/-! ### What one call does to a binding -/

/-- The name that a call binds is the answer from then on, also if it was bound to the same
global name before. -/
theorem latest_of_binds (index : t.Indexed) (effect : Effect rule t c event u) (nonzero : g ≠ 0)
    (binds : Turn.entry? ⟨c, event⟩ = some (l, g)) : l ≠ 0 ∧ u.latest[g]? = some l := by
  cases effect with
  | kept | absent | removed | turnedDown => cases binds
  | made new found =>
      cases binds
      have free := isFree_of_newLocal new found
      refine ⟨free.1, ?_⟩
      rw [(rewrite_made rule index free).latest, if_pos ⟨nonzero, rfl⟩]
  | rebound hl hg =>
      cases binds
      refine ⟨hl, ?_⟩
      rw [(rewrite_rebind rule index hl hg).latest, if_pos ⟨nonzero, rfl⟩]

/-- Calls that neither bind anything to `g` nor take `l` away from it leave the answer `l`.
Requests for live names, bindings that are turned down and the coming and going of other
sharers are among them. -/
theorem latest_of_stays (index : t.Indexed) (effect : Effect rule t c event u)
    (notBound : ∀ k, Turn.entry? ⟨c, event⟩ ≠ some (k, g)) (stays : ¬ c.Leaves l g)
    (remembered : t.latest[g]? = some l) : u.latest[g]? = some l := by
  cases effect with
  | kept | absent | turnedDown => exact remembered
  | @made _ k h _ new found =>
      have free := isFree_of_newLocal new found
      have other : k ≠ l := by
        rintro rfl
        exact index.latest_ne_of_not_live (isLive_eq_false_iff.mp free.2) g remembered
      refine (rewrite_made rule index free).latest_of_ne other ?_ remembered
      intro same
      cases same
      exact notBound k rfl
  | removed => exact (rewrite_delete rule _ index).latest_of_ne stays (by simp) remembered
  | @rebound k h hk hh =>
      have elsewhere : h ≠ g := by
        rintro rfl
        exact notBound k rfl
      have other : k ≠ l := fun same => stays ⟨same, hh, elsewhere⟩
      refine (rewrite_rebind rule index hk hh).latest_of_ne other ?_ remembered
      exact fun same => elsewhere (Option.some.inj same)

/-- A call that takes a name away from `g` does so, in whatever table it is made. -/
theorem globals_ne_of_leaves (index : t.Indexed) (effect : Effect rule t c event u)
    (leaves : c.Leaves l g) : u.globals[l]? ≠ some g := by
  cases effect with
  | kept | made => exact leaves.elim
  | absent dead =>
      cases leaves
      simp [dead]
  | removed =>
      cases leaves
      simp [(rewrite_delete rule l index).globals_self]
  | turnedDown reserved =>
      obtain ⟨rfl, hh, -⟩ := leaves
      rw [reserved.resolve_right hh, index.zero_not_live]
      simp
  | rebound hk hh =>
      obtain ⟨rfl, -, elsewhere⟩ := leaves
      rw [(rewrite_rebind rule index hk hh).globals_self]
      exact fun same => elsewhere (Option.some.inj same)

theorem globals_ne_of_left (index : t.Indexed) (effect : Effect rule t c event u)
    (notBound : Turn.entry? ⟨c, event⟩ ≠ some (l, g)) (left : t.globals[l]? ≠ some g) :
    u.globals[l]? ≠ some g := by
  cases effect with
  | kept | absent | turnedDown => exact left
  | made new found =>
      have free := isFree_of_newLocal new found
      refine (rewrite_made rule index free).globals_ne ?_ left
      rintro rfl ⟨rfl⟩
      exact notBound rfl
  | removed => exact (rewrite_delete rule _ index).globals_ne (by simp) left
  | rebound hk hh =>
      refine (rewrite_rebind rule index hk hh).globals_ne ?_ left
      rintro rfl ⟨rfl⟩
      exact notBound rfl

end Effect

/-! ### What the calls after a binding do to it -/

namespace Run

variable {after : List Turn}

/-- The same for all calls behind the last binding, by induction on them. -/
theorem latest_of_stays (run : Run t after u) (index : t.Indexed)
    (last : ∀ later ∈ after, ∀ k, later.entry? ≠ some (k, g))
    (stays : ∀ later ∈ after, ¬ later.call.Leaves l g) (remembered : t.latest[g]? = some l) :
    u.latest[g]? = some l := by
  induction run with
  | start => exact remembered
  | @step log _ _ _ c event before called ih =>
      have earlier := ih (fun later mem => last later (List.mem_append_left _ mem))
        (fun later mem => stays later (List.mem_append_left _ mem))
      have thisCall : ⟨c, event⟩ ∈ log ++ [⟨c, event⟩] := by simp
      exact (effect_of_call called).latest_of_stays (before.indexed index)
        (last _ thisCall) (stays _ thisCall) earlier

/-- Once taken away from `g`, a name does not come back to it without a binding, and there is
none in the rest of the run. -/
theorem globals_ne_of_leaves (run : Run t after u) (index : t.Indexed)
    (last : ∀ later ∈ after, later.entry? ≠ some (l, g))
    (leaves : ∃ later ∈ after, later.call.Leaves l g) : u.globals[l]? ≠ some g := by
  induction run with
  | start =>
      obtain ⟨_, mem, -⟩ := leaves
      cases mem
  | @step log _ _ _ c event before called ih =>
      have effect := effect_of_call called
      obtain ⟨later, mem, left⟩ := leaves
      rcases List.mem_append.mp mem with earlier | now
      · have gone := ih (fun later mem => last later (List.mem_append_left _ mem))
          ⟨later, earlier, left⟩
        exact effect.globals_ne_of_left (before.indexed index) (last _ (by simp)) gone
      · rw [List.mem_singleton] at now
        rw [now] at left
        exact effect.globals_ne_of_leaves (before.indexed index) left

/-- Let a call of a run be the last that bound the global name `g`, and let it have bound `l`.
While no later call took `l` away from `g`, the look-up of `g` answers `l`. Once one did, `l`
is not bound to `g` any more, and the look-up answers some other live local name that is bound
to `g`, or `0` if there is none. Both cases are about histories: the state before the last
binding, and what was bound to `g` then, is of no matter. -/
theorem latest_binding_wins {first : Name} {before : List Turn} {turn : Turn}
    (run : Run (starting first) (before ++ turn :: after) t) (nonzero : g ≠ 0)
    (binds : turn.entry? = some (l, g))
    (last : ∀ later ∈ after, ∀ k, later.entry? ≠ some (k, g)) :
    ((∀ later ∈ after, ¬ later.call.Leaves l g) → t.localOf g = l ∧ t.globalOf l = g) ∧
    ((∃ later ∈ after, later.call.Leaves l g) → t.localOf g ≠ l ∧
      ((∃ k, t.isLive k ∧ t.globalOf k = g) →
        t.isLive (t.localOf g) ∧ t.globalOf (t.localOf g) = g) ∧
      ((¬ ∃ k, t.isLive k ∧ t.globalOf k = g) → t.localOf g = 0)) := by
  rw [List.append_cons] at run
  obtain ⟨bound, upTo, later⟩ := run.split
  obtain ⟨unbound, rule, earlier, called⟩ := upTo.last
  have index := earlier.indexed (indexed_starting first)
  have effect := effect_of_call called
  obtain ⟨lNonzero, remembered⟩ := effect.latest_of_binds index nonzero binds
  have boundIndex := effect.indexed index
  have endIndex := later.indexed boundIndex
  constructor
  · intro stays
    have still := later.latest_of_stays boundIndex last stays remembered
    have answer := (endIndex.localOf_eq_iff lNonzero).mpr still
    refine ⟨answer, ?_⟩
    rw [← answer]
    exact endIndex.globalOf_localOf (answer ▸ lNonzero)
  · intro leaves
    have gone := later.globals_ne_of_leaves boundIndex (fun call mem => last call mem l) leaves
    refine ⟨?_, ?_, ?_⟩
    · intro answer
      exact gone (endIndex.globals_of_latest ((endIndex.localOf_eq_iff lNonzero).mp answer))
    · intro shared
      have answered := endIndex.localOf_ne_zero_iff.mpr ⟨nonzero, shared⟩
      have still := (endIndex.localOf_eq_iff answered).mp rfl
      exact ⟨isLive_iff.mpr ⟨g, endIndex.globals_of_latest still⟩,
        endIndex.globalOf_localOf answered⟩
    · intro unshared
      by_contra answered
      exact unshared (endIndex.localOf_ne_zero_iff.mp answered).2

/-- Of the sharers `1`, `2` and `3` of the global name `1`, the last one answers while
others come and go, and when it is deleted the one that is left. -/
theorem latest_binding_wins_among_three :
    (∃ t, Run (starting 1)
      ([⟨.generate 0 true, some (.made 1 1)⟩, ⟨.rebind 2 1, some (.rebound 2 1)⟩] ++
        ⟨.rebind 3 1, some (.rebound 3 1)⟩ ::
        [⟨.delete 1, some (.removed 1 1)⟩, ⟨.generate 3 true, some (.kept 3)⟩,
          ⟨.rebind 3 0, some (.turnedDown 3 0)⟩]) t ∧
      t.localOf 1 = 3 ∧ t.globalOf 3 = 1) ∧
    ∃ t, Run (starting 1)
      ([⟨.generate 0 true, some (.made 1 1)⟩, ⟨.rebind 2 1, some (.rebound 2 1)⟩] ++
        ⟨.rebind 3 1, some (.rebound 3 1)⟩ ::
        [⟨.delete 1, some (.removed 1 1)⟩, ⟨.delete 3, some (.removed 3 1)⟩]) t ∧
      t.localOf 1 ≠ 3 ∧ ((∃ k, t.isLive k ∧ t.globalOf k = 1) →
        t.isLive (t.localOf 1) ∧ t.globalOf (t.localOf 1) = 1) := by
  constructor
  · refine Exists.imp (fun t run => ⟨run, ?_⟩)
      ⟨_, .cons (.nth 0) rfl (.cons (.nth 0) rfl (.cons (.nth 0) rfl (.cons (.nth 0) rfl
        (.cons (.nth 0) rfl (.cons (.nth 0) rfl .start)))))⟩
    refine (run.latest_binding_wins (by decide) rfl ?_).1 ?_
    · simp [Turn.entry?]
    · simp [Call.Leaves]
  · refine Exists.imp (fun t run => ⟨run, ?_⟩)
      ⟨_, .cons (.nth 0) rfl (.cons (.nth 0) rfl (.cons (.nth 0) rfl (.cons (.nth 0) rfl
        (.cons (.nth 0) rfl .start))))⟩
    have left := (run.latest_binding_wins (by decide) rfl (by simp [Turn.entry?])).2
      ⟨⟨.delete 3, some (.removed 3 1)⟩, by simp, rfl⟩
    exact ⟨left.1, left.2.1⟩

end Run

end SharedNames.NameTable
