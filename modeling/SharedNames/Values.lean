import Std.Data.ExtTreeMap

/-!
The values of a map, as a list.

`valuesOf` lists the values of a map in the order of their keys, each as often as it
occurs. Up to order it is governed by two laws: `valuesOf_insert_perm` (a write adds
its value to those at the other keys) and `valuesOf_perm_of_getElem?` (a look-up finds
a value beside those at the other keys). `replaced_append_valuesOf_perm` and
`erased_append_valuesOf_perm` say the same of a write and an erasure together with the
value that they take out. `insert_eq_self` and `erase_eq_self` say when a write and an
erasure change nothing; `getElem?_of_insert` and `getElem?_of_erase` say where an entry
comes from.
-/

namespace SharedNames

variable {κ α : Type} {cmp : κ → κ → Ordering} [Std.TransCmp cmp]

/-- The values of a map in the order of their keys. -/
def valuesOf (m : Std.ExtTreeMap κ α cmp) : List α :=
  m.toList.map Prod.snd

@[simp] theorem valuesOf_empty : valuesOf (∅ : Std.ExtTreeMap κ α cmp) = [] := by
  simp [valuesOf]

@[simp] theorem length_valuesOf (m : Std.ExtTreeMap κ α cmp) : (valuesOf m).length = m.size := by
  simp [valuesOf]

/-- What is there after an erasure was there before, so an invariant over all entries survives
one. -/
theorem getElem?_of_erase {m : Std.ExtTreeMap κ α cmp} {k j : κ} {b : α}
    (found : (m.erase k)[j]? = some b) : m[j]? = some b := by
  rw [Std.ExtTreeMap.getElem?_erase] at found
  split at found
  · cases found
  · exact found

variable [Std.LawfulEqCmp cmp]

/-- What is there after a write is what was written, or it was there before. This is how an
invariant over all entries survives a write: by cases on who wrote the entry. -/
theorem getElem?_of_insert {m : Std.ExtTreeMap κ α cmp} {k j : κ} {a b : α}
    (found : (m.insert k a)[j]? = some b) : (k = j ∧ a = b) ∨ m[j]? = some b := by
  rw [Std.ExtTreeMap.getElem?_insert] at found
  split at found
  · rename_i same
    exact .inl ⟨Std.LawfulEqCmp.eq_of_compare same, Option.some.inj found⟩
  · exact .inr found

theorem mem_valuesOf {m : Std.ExtTreeMap κ α cmp} {a : α} :
    a ∈ valuesOf m ↔ ∃ k : κ, m[k]? = some a := by
  simp only [valuesOf, List.mem_map, Prod.exists, exists_eq_right,
    Std.ExtTreeMap.mem_toList_iff_getElem?_eq_some]

/-! ### Writes and erasures that change nothing -/

/-- Writing what is there changes nothing. Maps are equal when their look-ups are, so such
laws are equations and not only about look-ups. -/
theorem insert_eq_self {m : Std.ExtTreeMap κ α cmp} {k : κ} {a : α} (h : m[k]? = some a) :
    m.insert k a = m := by
  apply Std.ExtTreeMap.ext_getElem?
  intro j
  rw [Std.ExtTreeMap.getElem?_insert]
  by_cases same : cmp k j = .eq
  · obtain rfl := Std.LawfulEqCmp.eq_of_compare same
    simp [h]
  · simp [same]

theorem erase_eq_self {m : Std.ExtTreeMap κ α cmp} {k : κ} (h : m[k]? = none) :
    m.erase k = m := by
  apply Std.ExtTreeMap.ext_getElem?
  intro j
  rw [Std.ExtTreeMap.getElem?_erase]
  by_cases same : cmp k j = .eq
  · obtain rfl := Std.LawfulEqCmp.eq_of_compare same
    simp [h]
  · simp [same]

theorem erase_insert_eq_erase (m : Std.ExtTreeMap κ α cmp) (k : κ) (a : α) :
    (m.insert k a).erase k = m.erase k := by
  apply Std.ExtTreeMap.ext_getElem?
  intro j
  simp only [Std.ExtTreeMap.getElem?_erase, Std.ExtTreeMap.getElem?_insert]
  by_cases same : cmp k j = .eq <;> simp [same]

/-- Of two writes at one key the second one stays. -/
theorem insert_insert_eq_insert (m : Std.ExtTreeMap κ α cmp) (k : κ) (a b : α) :
    (m.insert k a).insert k b = m.insert k b := by
  apply Std.ExtTreeMap.ext_getElem?
  intro j
  simp only [Std.ExtTreeMap.getElem?_insert]
  by_cases same : cmp k j = .eq <;> simp [same]

/-! ### Writes and erasures at other keys -/

theorem getElem?_insert_of_ne {m : Std.ExtTreeMap κ α cmp} {k j : κ} {a : α} (other : k ≠ j) :
    (m.insert k a)[j]? = m[j]? := by
  rw [Std.ExtTreeMap.getElem?_insert, if_neg fun same => other (Std.LawfulEqCmp.eq_of_compare same)]

theorem getElem?_erase_of_ne {m : Std.ExtTreeMap κ α cmp} {k j : κ} (other : k ≠ j) :
    (m.erase k)[j]? = m[j]? := by
  rw [Std.ExtTreeMap.getElem?_erase, if_neg fun same => other (Std.LawfulEqCmp.eq_of_compare same)]

/-! ### Values up to order -/

theorem nodup_toList (m : Std.ExtTreeMap κ α cmp) : m.toList.Nodup := by
  refine List.Pairwise.imp ?_ m.distinct_keys_toList
  rintro a b differ rfl
  exact differ Std.ReflCmp.compare_self

/-- A look-up finds an entry beside those at the other keys. A sum over the entries is so the
share of this one and the sum over the rest. -/
theorem toList_perm_of_getElem? {m : Std.ExtTreeMap κ α cmp} {k : κ} {a : α}
    (h : m[k]? = some a) : m.toList.Perm ((k, a) :: (m.erase k).toList) := by
  have absent : (k, a) ∉ (m.erase k).toList := by
    simp [Std.ExtTreeMap.mem_toList_iff_getElem?_eq_some]
  rw [List.perm_ext_iff_of_nodup (nodup_toList m) (List.nodup_cons.2 ⟨absent, nodup_toList _⟩)]
  rintro ⟨j, b⟩
  simp only [List.mem_cons, Prod.mk.injEq, Std.ExtTreeMap.mem_toList_iff_getElem?_eq_some,
    Std.ExtTreeMap.getElem?_erase]
  by_cases same : cmp k j = .eq
  · obtain rfl := Std.LawfulEqCmp.eq_of_compare same
    simp [h, eq_comm]
  · have differ : j ≠ k := by
      rintro rfl
      exact same Std.ReflCmp.compare_self
    simp [same, differ]

/-- A write adds its entry to those at the other keys. Up to order: where in the list the key
stands is of no matter to a sum. -/
theorem toList_insert_perm (m : Std.ExtTreeMap κ α cmp) (k : κ) (a : α) :
    (m.insert k a).toList.Perm ((k, a) :: (m.erase k).toList) := by
  have written : (m.insert k a)[k]? = some a := by simp
  simpa [erase_insert_eq_erase] using toList_perm_of_getElem? written

theorem valuesOf_perm_of_getElem? {m : Std.ExtTreeMap κ α cmp} {k : κ} {a : α}
    (h : m[k]? = some a) : (valuesOf m).Perm (a :: valuesOf (m.erase k)) :=
  (toList_perm_of_getElem? h).map Prod.snd

theorem valuesOf_insert_perm (m : Std.ExtTreeMap κ α cmp) (k : κ) (a : α) :
    (valuesOf (m.insert k a)).Perm (a :: valuesOf (m.erase k)) :=
  (toList_insert_perm m k a).map Prod.snd

/-- What an erasure takes out and what it leaves are the values that were there. No case split
is needed on whether the key was there. -/
theorem erased_append_valuesOf_perm (m : Std.ExtTreeMap κ α cmp) (k : κ) :
    (m[k]?.toList ++ valuesOf (m.erase k)).Perm (valuesOf m) := by
  cases h : m[k]? with
  | none => simp [erase_eq_self h]
  | some a => exact (valuesOf_perm_of_getElem? h).symm

/-- A write adds its value, and takes out the one that it replaces. Counting shares before and
after a write is reading off this law. -/
theorem replaced_append_valuesOf_perm (m : Std.ExtTreeMap κ α cmp) (k : κ) (a : α) :
    (m[k]?.toList ++ valuesOf (m.insert k a)).Perm (a :: valuesOf m) := by
  have written := (valuesOf_insert_perm m k a).append_left m[k]?.toList
  exact written.trans (List.perm_middle.trans ((erased_append_valuesOf_perm m k).cons a))

end SharedNames
