import SharedNames.Proofs.Ledger
import SharedNames.Proofs.NameTable.Index
import SharedNames.Proofs.NameTable.Generation

/-!
The order in which a table hands out free names.

`freeNames used start` lists the free names in the order in which a counter at `start` comes
by them, going round once. A search takes the first one; the counter that it leaves behind
comes by the others in the same order, and by what was taken last of all. So names that are
handed out one after the other are an initial part of this list, whoever they are for.

* `freeNames_eq_cons`: a search takes the first of the free names and leaves the others.
* `Indexed.generate_first`: a table with a name left hands out the first of them.
-/

namespace SharedNames

def namesFrom (start : Name) : List Name :=
  (List.range (2 ^ 32)).map (after start)

/-- The free names, in the order in which a counter at `start` comes by them. -/
def freeNames (used : Name → Bool) (start : Name) : List Name :=
  (namesFrom start).filter fun n => IsFree used n

section Order

variable {used used' : Name → Bool} {start n : Name}

theorem mem_freeNames : n ∈ freeNames used start ↔ IsFree used n := by
  rw [freeNames, List.mem_filter, decide_eq_true_iff, and_iff_right_iff_imp]
  intro _
  obtain ⟨k, within, rfl⟩ := exists_eq_after start n
  exact List.mem_map_of_mem (List.mem_range.mpr within)

/-- No name is listed twice, so different places of the list are different names. -/
theorem nodup_freeNames : (freeNames used start).Nodup := by
  refine List.Nodup.filter _ (List.Nodup.map_on ?_ List.nodup_range)
  intro j jWithin k kWithin same
  exact after_injective_within (List.mem_range.mp jWithin) (List.mem_range.mp kWithin) same

/-- The names are those of any number of first places, and then the rest from there on. Two
counters that are so many places apart come by the same two parts, in a different order. -/
theorem namesFrom_eq_append (start : Name) {j k : Nat} (round : j + k = 2 ^ 32) :
    namesFrom start =
      (List.range j).map (after start) ++ (List.range k).map (after (after start j)) := by
  rw [namesFrom, ← round, List.range_add, List.map_append, List.map_map]
  congr 1
  apply List.map_congr_left
  intro i _
  exact (after_after start j i).symm

theorem after_round (start : Name) {j k : Nat} (round : j + k = 2 ^ 32) :
    after (after start j) k = start := by
  rw [after_after, round]
  simp [after]

/-- Less than a round behind a name, a counter does not come by it again. -/
theorem notMem_after_succ {count : Nat} (within : count < 2 ^ 32) :
    n ∉ (List.range count).map (after (n + 1)) := by
  intro listed
  obtain ⟨i, inside, again⟩ := List.mem_map.mp listed
  have inside := List.mem_range.mp inside
  rw [← after_succ] at again
  have := after_injective_within (by omega) (by omega) (again.trans (after_zero n).symm)
  omega

/-- The counter that a search leaves behind comes by the other free names in the same order.
So the answers of searches one after the other are read off a single list, the one that the
first counter had before it. -/
theorem freeNames_eq_cons (found : nextFree used start = some n)
    (noted : ∀ m, used' m = true ↔ used m = true ∨ m = n) :
    freeNames used start = n :: freeNames used' (n + 1) := by
  obtain ⟨k, within, atK, free, least⟩ := firstFree_eq_some_iff.mp found
  obtain ⟨left, total⟩ := Nat.exists_eq_add_of_le within
  have round : k + 1 + left = 2 ^ 32 := total.symm
  have next : after start (k + 1) = n + 1 := by
    rw [← after_after, ← atK]
    rfl
  -- The names that the search passed come first for one counter, and last for the other.
  have first := namesFrom_eq_append start round
  have second := namesFrom_eq_append (after start (k + 1)) ((Nat.add_comm left (k + 1)).trans round)
  rw [after_round start round] at second
  rw [next] at first second
  have free_iff : ∀ m, IsFree used' m ↔ IsFree used m ∧ m ≠ n := by
    intro m
    rw [IsFree, IsFree, ← Bool.not_eq_true, ← Bool.not_eq_true, noted, not_or, and_assoc]
  have passed : (List.range (k + 1)).map (after start) =
      (List.range k).map (after start) ++ [n] := by
    rw [List.range_succ, List.map_append, List.map_singleton, ← atK]
  have between : ((List.range left).map (after (n + 1))).filter (fun m => IsFree used m) =
      ((List.range left).map (after (n + 1))).filter fun m => IsFree used' m := by
    apply List.filter_congr
    intro m listed
    rw [decide_eq_decide, free_iff, and_iff_left]
    rintro rfl
    exact notMem_after_succ (by omega) listed
  have noneBefore : ((List.range k).map (after start)).filter (fun m => IsFree used m) = [] := by
    rw [List.filter_eq_nil_iff]
    simpa using least
  have noneAfter : ((List.range k).map (after start)).filter (fun m => IsFree used' m) = [] := by
    rw [List.filter_eq_nil_iff]
    simpa [free_iff] using fun j earlier free' => absurd free' (least j earlier)
  rw [freeNames, freeNames, first, second, passed]
  simp [noneBefore, noneAfter, between, free, free_iff n]

end Order

namespace NameTable

variable {t : NameTable}

/-- Unless all names but `0` are live, one is left. -/
theorem exists_free_of_size (room : t.size + 1 < 2 ^ 32) : ∃ l, IsFree t.isLive l := by
  by_contra noneLeft
  have all : ∀ l, l ≠ 0 → l ∈ t.globals.keys := by
    intro l nonzero
    rw [Std.ExtTreeMap.mem_keys]
    by_contra dead
    exact noneLeft ⟨l, nonzero, Bool.eq_false_iff.mpr fun live =>
      dead (Std.ExtTreeMap.mem_iff_contains.mpr live)⟩
  have := length_of_all_names all
  rw [Std.ExtTreeMap.length_keys] at this
  exact absurd room (Nat.not_lt.mpr this)

/-- The global names are no bound for generated names: a table with a name left hands out the
first of its free names, and the others stay free in their order. -/
theorem Indexed.generate_first (index : t.Indexed) (room : t.size + 1 < 2 ^ 32) :
    ∃ l g u, t.generate 0 true = some (u, .made l g) ∧
      freeNames t.isLive t.nextLocal = l :: freeNames u.isLive u.nextLocal ∧
      u.globals = t.globals.insert l g ∧ u.size = t.size + 1 ∧ u.Indexed := by
  have ends : (t.generate 0 true).isSome :=
    isSome_generate_iff.mpr (index.searchesEnd_iff.mpr (.inr (exists_free_of_size room)))
  obtain ⟨⟨u, event⟩, generated⟩ := Option.isSome_iff_exists.mp ends
  have effect : Effect (fun _ => 0) t _ _ u := effect_of_generate generated
  have indexed := effect.indexed index
  cases effect with
  | kept nonzero => exact absurd rfl nonzero
  | @made _ l g _ new found _ =>
      have searched : nextFree t.isLive t.nextLocal = some l := found
      refine ⟨l, g, _, generated, freeNames_eq_cons searched ?_, rfl, ?_, indexed⟩
      · intro k
        rw [isLive, isLive, Std.ExtTreeMap.contains_insert, Bool.or_eq_true, or_comm,
          beq_iff_eq, Std.LawfulEqOrd.compare_eq_iff_eq, @eq_comm _ l k]
      · have dead := (isFree_of_newLocal new found).2
        rw [isLive] at dead
        rw [size, size, Std.ExtTreeMap.size_insert, dead]
        rfl

end NameTable

end SharedNames
