import Mathlib.Data.FinEnum
import SharedNames.Proofs.NameTable.Index
import SharedNames.Proofs.Search

/-!
When a name can be generated.

Creating an entry may search for a local name and for a global name. The local search
ends exactly when some name is not live. The global one then ends too, whatever global
names were bound by hand: every bound one is remembered by a local name of its own, so
if all of them were bound, all local names would be live (`exists_unbound`).
-/

namespace SharedNames.NameTable

variable {t : NameTable} {requested : Name} {withGlobal : Bool}

/-- A global name is left whenever a local name is. Every bound global name is answered by a
local name of its own, so if all but `0` were bound then all but `0` would be live. -/
theorem Indexed.exists_unbound (index : t.Indexed) {l : Name} (free : IsFree t.isLive l) :
    ∃ g, IsFree t.isBound g := by
  by_contra noneLeft
  have answered : ∀ g : Name, g ≠ 0 → t.localOf g ≠ 0 ∧ t.globals[t.localOf g]? = some g := by
    intro g nonzero
    have bound : t.isBound g = true := by
      by_contra unbound
      exact noneLeft ⟨g, nonzero, Bool.eq_false_iff.mpr unbound⟩
    obtain ⟨k, remembered⟩ := isBound_iff.mp bound
    have kNonzero := index.ne_zero_of_latest remembered
    rw [(index.localOf_eq_iff kNonzero).mpr remembered]
    exact ⟨kNonzero, index.globals_of_latest remembered⟩
  -- So `localOf` maps the names into the names, each to one that tells it apart.
  have injective : Function.Injective t.localOf := by
    intro g h same
    by_cases gZero : g = 0
    · by_cases hZero : h = 0
      · rw [gZero, hZero]
      · rw [gZero] at same
        exact absurd same.symm (answered h hZero).1
    · by_cases hZero : h = 0
      · rw [hZero] at same
        exact absurd same (answered g gZero).1
      · have bound := (answered g gZero).2
        rw [same, (answered h hZero).2] at bound
        exact (Option.some.inj bound).symm
  obtain ⟨g, reached⟩ := Finite.surjective_of_injective injective l
  have nonzero : g ≠ 0 := by
    rintro rfl
    exact free.1 (reached.symm.trans (by simp [localOf]))
  have live : t.isLive l = true := isLive_iff.mpr ⟨g, reached ▸ (answered g nonzero).2⟩
  rw [free.2] at live
  cases live

/-- Every search that creating an entry enters accepts a candidate within a round. The
global name is searched for once the local name is found. -/
def SearchesEnd (requested : Name) (withGlobal : Bool) (t : NameTable) : Prop :=
  (requested = 0 → Accepts t.isLive t.nextLocal) ∧
    (withGlobal = true → requested = 0 ∨ t.isLive requested = false →
      Accepts t.isBound t.nextGlobal)

/-- A local name is found if it need not be searched for, or if the search accepts one. -/
theorem isSome_newLocal_iff :
    (t.newLocal requested).isSome ↔ (requested = 0 → Accepts t.isLive t.nextLocal) := by
  unfold newLocal
  split
  · rename_i zero
    rw [accepts_iff_isSome]
    exact ⟨fun found _ => found, fun found => found zero⟩
  · rename_i nonzero
    exact ⟨fun _ zero => absurd zero nonzero, fun _ => rfl⟩

theorem isSome_newGlobal_iff :
    (t.newGlobal withGlobal).isSome ↔ (withGlobal = true → Accepts t.isBound t.nextGlobal) := by
  unfold newGlobal
  cases withGlobal with
  | true => simp [accepts_iff_isSome]
  | false => simp

/-- A name is created exactly when the searches for its two names end. The call has an answer
or none; that a search goes on forever shows in the model as no answer, and this is where the
two are tied. -/
theorem isSome_generate_iff :
    (t.generate requested withGlobal).isSome ↔ SearchesEnd requested withGlobal t := by
  by_cases keeps : requested ≠ 0 ∧ t.isLive requested = true
  · rw [generate_of_isLive withGlobal keeps.1 keeps.2]
    refine ⟨fun _ => ⟨fun zero => absurd zero keeps.1, fun _ new => ?_⟩, fun _ => rfl⟩
    rcases new with zero | dead
    · exact absurd zero keeps.1
    · rw [keeps.2] at dead
      cases dead
  · have new := not_kept_iff.mp keeps
    have ends : SearchesEnd requested withGlobal t ↔
        (t.newLocal requested).isSome ∧ (t.newGlobal withGlobal).isSome := by
      rw [isSome_newLocal_iff, isSome_newGlobal_iff]
      exact and_congr_right fun _ => ⟨fun h b => h b new, fun h b _ => h b⟩
    rw [ends, generate, if_neg keeps]
    cases t.newLocal requested <;> cases t.newGlobal withGlobal <;> simp

/-- The searches end exactly when a name is requested or some local name is not live. Nothing
is asked about the global names: one is always left when it is searched for. -/
theorem Indexed.searchesEnd_iff (index : t.Indexed) :
    SearchesEnd requested withGlobal t ↔ requested ≠ 0 ∨ ∃ l, IsFree t.isLive l := by
  constructor
  · intro ends
    by_cases zero : requested = 0
    · exact .inr (accepts_iff.mp (ends.1 zero))
    · exact .inl zero
  · intro available
    refine ⟨fun zero => ?_, fun _ new => ?_⟩
    · exact accepts_iff.mpr (available.resolve_left fun nonzero => nonzero zero)
    · have free : ∃ l, IsFree t.isLive l := by
        rcases available with nonzero | free
        · exact ⟨requested, nonzero, new.resolve_left nonzero⟩
        · exact free
      obtain ⟨l, free⟩ := free
      exact accepts_iff.mpr (index.exists_unbound free)

/-- In every table that a run reaches, creating a name ends exactly when it can. With a
requested name it always does, and while a local name is left a global name is found within
one round; once all local names are live, the search for one goes on forever. The last part is
about the loop itself, which has no bound: no number of candidates leads it to an answer. -/
theorem Run.generation_ends_iff {first : Name} {log : List Turn} (run : Run (starting first) log t)
    (requested : Name) (withGlobal : Bool) :
    (SearchesEnd requested withGlobal t ↔ requested ≠ 0 ∨ ∃ l, l ≠ 0 ∧ t.isLive l = false) ∧
    ((t.generate requested withGlobal).isSome ↔ SearchesEnd requested withGlobal t) ∧
    ((∃ l, l ≠ 0 ∧ t.isLive l = false) → Accepts t.isBound t.nextGlobal) ∧
    ((∀ l, l ≠ 0 → t.isLive l = true) →
      ∀ examined n left, ¬ Probe t.isLive t.nextLocal examined n left) := by
  have index := run.indexed (indexed_starting first)
  refine ⟨index.searchesEnd_iff, isSome_generate_iff, ?_, ?_⟩
  · rintro ⟨l, free⟩
    exact accepts_iff.mpr (index.exists_unbound free)
  · intro allLive examined n left
    refine not_probe fun l free => ?_
    have dead := free.2
    rw [allLive l free.1] at dead
    cases dead

/-- The first candidates `0xFFFFFFFE` and `0xFFFFFFFF` are taken by hand on both sides, so
both searches go round. -/
theorem Run.generation_ends_past_the_largest :
    ∃ t, Run (starting 0xFFFFFFFE)
      [⟨.rebind 0xFFFFFFFF 0xFFFFFFFE, some (.rebound 0xFFFFFFFF 0xFFFFFFFE)⟩,
        ⟨.rebind 1 0xFFFFFFFF, some (.rebound 1 0xFFFFFFFF)⟩,
        ⟨.generate 0xFFFFFFFE false, some (.made 0xFFFFFFFE 0)⟩] t ∧
      (SearchesEnd 0 true t ↔ (0 : Name) ≠ 0 ∨ ∃ l, l ≠ 0 ∧ t.isLive l = false) ∧
      ((t.generate 0 true).isSome ↔ SearchesEnd 0 true t) := by
  refine Exists.imp (fun t run => ⟨run, ?_⟩)
    ⟨_, .cons (.nth 0) rfl (.cons (.nth 0) rfl (.cons (.nth 0) rfl .start))⟩
  have ends := run.generation_ends_iff 0 true
  exact ⟨ends.1, ends.2.1⟩

end SharedNames.NameTable
