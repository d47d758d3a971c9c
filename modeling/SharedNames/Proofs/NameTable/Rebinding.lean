import SharedNames.Proofs.NameTable.Handover

/-!
What binding a local name by hand does, from end to end.

A binding ends the previous one of the local name, whatever that was: none, to `0`, to the
same global name, or to another one, alone or among others, as the latest of them or not.

* `Rebound` lists all that a binding does, and `Indexed.rebound` proves it of every table
  whose two maps agree.
* `rebind_of_latest`: a binding that is there already, as the latest of its global name,
  changes nothing.
* `Run.rebind_binds`: so it is in every table that a run reaches, for all names but `0`.
-/

namespace SharedNames.NameTable

variable {rule : SuccessorRule} {l g : Name} {t u : NameTable}

/-- All that binding `l` to `g` does. -/
structure Rebound (l g : Name) (t u : NameTable) : Prop where
  /-- The two names answer each other. -/
  bound : u.isLive l ∧ u.globalOf l = g ∧ u.localOf g = l
  /-- The other local names are live or not as before, with their global names. -/
  globalOf_of_ne : ∀ k, k ≠ l → u.isLive k = t.isLive k ∧ u.globalOf k = t.globalOf k
  counters : u.nextLocal = t.nextLocal ∧ u.nextGlobal = t.nextGlobal
  /-- There is one more live local name exactly if `l` was not live. -/
  size_eq : u.size = if t.isLive l then t.size else t.size + 1
  /-- The other global names are answered as before, except the previous one of `l` where `l`
  was the answer for it. -/
  localOf_of_ne : ∀ h, h ≠ g → ¬ (t.isLive l ∧ t.globalOf l = h ∧ t.localOf h = l) →
    u.localOf h = t.localOf h
  /-- That one goes over to another local name that is bound to it, if there is one. -/
  handedOver : ∀ h, h ≠ g → t.isLive l → t.globalOf l = h → t.localOf h = l → HandedOver l h t u
  /-- The same binding once more changes nothing. -/
  again : ∀ rule, u.rebind rule l g = (u, .rebound l g)

theorem size_rebind (rule : SuccessorRule) (t : NameTable) (hl : l ≠ 0) (hg : g ≠ 0) :
    (t.rebind rule l g).1.size = if t.isLive l then t.size else t.size + 1 := by
  rw [size, globals_rebind rule t hl hg, Std.ExtTreeMap.size_insert]
  rfl

/-- Binding a name once more to the global name for which it is the answer changes nothing,
and is told as a binding all the same. -/
theorem rebind_of_latest (rule : SuccessorRule) (hl : l ≠ 0) (hg : g ≠ 0)
    (bound : u.globals[l]? = some g) (latest : u.latest[g]? = some l) :
    u.rebind rule l g = (u, .rebound l g) := by
  simp [rebind, hl, hg, bound, insert_eq_self bound, insert_eq_self latest]

/-- Binding by hand does what `Rebound` lists. It is one rewrite of the entry, so each part is
a law about rewrites; only the number of live names is counted by itself. -/
theorem Indexed.rebound (index : t.Indexed) (rule : SuccessorRule) (hl : l ≠ 0) (hg : g ≠ 0) :
    Rebound l g t (t.rebind rule l g).1 := by
  have write := rewrite_rebind rule index hl hg
  have indexed := write.indexed index fun zero => absurd zero hl
  have answer := write.localOf_self hg rfl
  have entry := write.globals_self
  constructor
  case bound =>
    obtain ⟨live, global⟩ := isLive_and_globalOf_iff.mpr entry
    exact ⟨live, global, answer⟩
  case globalOf_of_ne =>
    intro k other
    exact ⟨write.isLive_of_ne other, write.globalOf_of_ne other⟩
  case counters => exact counters_rebind rule t l g
  case size_eq => exact size_rebind rule t hl hg
  case localOf_of_ne =>
    intro h other kept
    refine write.localOf_of_ne (fun same => other (Option.some.inj same).symm) ?_
    intro lost
    obtain ⟨live, global⟩ := isLive_and_globalOf_iff.mpr (index.globals_of_localOf hl lost)
    exact kept ⟨live, global, lost⟩
  case handedOver =>
    intro h other _ _ lost
    exact write.handedOver indexed hl (fun same => other (Option.some.inj same).symm) lost
  case again =>
    intro rule'
    exact rebind_of_latest rule' hl hg entry ((indexed.localOf_eq_iff hl).mp answer)

/-- In every table that a run reaches, binding a local name by hand to a global name does all
that `Rebound` lists and nothing else, whoever takes over the previous global name. Nothing is
asked of the two names but that they are not reserved: the local name may be live or not, and
the global name may be bound already, to this name or to others. -/
theorem Run.rebind_binds {first : Name} {log : List Turn} (run : Run (starting first) log t)
    (rule : SuccessorRule) (hl : l ≠ 0) (hg : g ≠ 0) :
    ∃ u, t.rebind rule l g = (u, .rebound l g) ∧ Rebound l g t u := by
  have index := run.indexed (indexed_starting first)
  have event : (t.rebind rule l g).2 = .rebound l g := by simp [rebind, hl, hg]
  exact ⟨_, Prod.ext rfl event, index.rebound rule hl hg⟩

/-- `1`, `2` and `3` share the global name `1`, and `3` is the latest of them. If it is bound to
the largest global name, `2` takes over `1`; if `1` is bound there instead, `3` still answers.
And `9` is created by being bound to `1`. -/
theorem Run.rebind_binds_of_shared :
    ∃ t, Run (starting 1)
      [⟨.generate 0 true, some (.made 1 1)⟩, ⟨.rebind 2 1, some (.rebound 2 1)⟩,
        ⟨.rebind 3 1, some (.rebound 3 1)⟩] t ∧
      (∃ u, t.rebind (.nth 1) 3 0xFFFFFFFF = (u, .rebound 3 0xFFFFFFFF) ∧ u.localOf 1 = 2 ∧
        Rebound 3 0xFFFFFFFF t u) ∧
      (∃ u, t.rebind (.nth 0) 1 0xFFFFFFFF = (u, .rebound 1 0xFFFFFFFF) ∧ u.localOf 1 = 3 ∧
        Rebound 1 0xFFFFFFFF t u) ∧
      ∃ u, t.rebind (.nth 0) 9 1 = (u, .rebound 9 1) ∧ u.size = 4 ∧ Rebound 9 1 t u := by
  have reached : ∃ t, Run (starting 1)
      [⟨.generate 0 true, some (.made 1 1)⟩, ⟨.rebind 2 1, some (.rebound 2 1)⟩,
        ⟨.rebind 3 1, some (.rebound 3 1)⟩] t ∧
      (t.rebind (.nth 1) 3 0xFFFFFFFF).1.localOf 1 = 2 ∧
      (t.rebind (.nth 0) 1 0xFFFFFFFF).1.localOf 1 = 3 ∧ (t.rebind (.nth 0) 9 1).1.size = 4 :=
    ⟨_, .cons (.nth 0) rfl (.cons (.nth 0) rfl (.cons (.nth 0) rfl .start)), rfl, rfl, rfl⟩
  obtain ⟨t, run, second, third, four⟩ := reached
  refine ⟨t, run, ?_, ?_, ?_⟩
  · obtain ⟨u, rebinds, rebound⟩ :=
      run.rebind_binds (l := 3) (g := 0xFFFFFFFF) (.nth 1) (by decide) (by decide)
    rw [rebinds] at second
    exact ⟨u, rebinds, second, rebound⟩
  · obtain ⟨u, rebinds, rebound⟩ :=
      run.rebind_binds (l := 1) (g := 0xFFFFFFFF) (.nth 0) (by decide) (by decide)
    rw [rebinds] at third
    exact ⟨u, rebinds, third, rebound⟩
  · obtain ⟨u, rebinds, rebound⟩ := run.rebind_binds (l := 9) (g := 1) (.nth 0) (by decide) (by decide)
    rw [rebinds] at four
    exact ⟨u, rebinds, four, rebound⟩

end SharedNames.NameTable
