/-
# Dictionaries with the same entries

Two dictionaries are the same map when they answer every lookup alike (`Dict.Same`); the
order of their entries, which depends on the order of the insertions, is left out. What
is read without that order keeps it: filters, maps of the values, sums, sorted keys.
-/
import Restock.Lib.Dict

namespace Dict

variable {K V W : Type*} [DecidableEq K]

/-- The same value, or none, at every key. -/
def Same (d d' : Dict K V) : Prop := ∀ k, d.get? k = d'.get? k

namespace Same

variable {d d' d'' : Dict K V}

theorem refl (d : Dict K V) : Same d d := fun _ => rfl

theorem symm (h : Same d d') : Same d' d := fun k => (h k).symm

theorem trans (h : Same d d') (h' : Same d' d'') : Same d d'' := fun k => (h k).trans (h' k)

theorem getD_eq (h : Same d d') (k : K) (v : V) :
    d.getD k v = d'.getD k v := congrArg (Option.getD · v) (h k)

theorem items_perm (h : Same d d') : d.items.Perm d'.items := Dict.items_perm h

theorem keys_perm (h : Same d d') : d.keys.Perm d'.keys := h.items_perm.map _

theorem values_perm (h : Same d d') : d.values.Perm d'.values := h.items_perm.map _

theorem sum_values {M : Type*} [AddCommMonoid M] {d d' : Dict K M} (h : Same d d') :
    d.values.sum = d'.values.sum :=
  h.values_perm.sum_eq

theorem filter (h : Same d d') {p p' : K → V → Bool}
    (hp : ∀ k v, d.get? k = some v → p k v = p' k v) : Same (d.filter p) (d'.filter p') := by
  intro k
  rw [get?_filter, get?_filter, ← h k]
  cases hk : d.get? k with
  | none => rfl
  | some v =>
    simp only [Option.filter]
    rw [hp k v hk]

theorem mapVal (h : Same d d') {f f' : K → V → W} (hf : ∀ k v, d.get? k = some v → f k v = f' k v) :
    Same (d.mapVal f) (d'.mapVal f') := by
  intro k
  rw [get?_mapVal, get?_mapVal, ← h k]
  cases hk : d.get? k with
  | none => rfl
  | some v => exact congrArg some (hf k v hk)

end Same

/-- Sorting does not see the order it starts from. -/
theorem insertionSort_eq {A : Type*} [LinearOrder A] {l l' : List A} (h : l.Perm l') :
    l.insertionSort (· ≤ ·) = l'.insertionSort (· ≤ ·) :=
  ((List.perm_insertionSort _ l).trans (h.trans (List.perm_insertionSort _ l').symm)).eq_of_pairwise
    (fun _ _ _ _ => le_antisymm) (List.pairwise_insertionSort _ l)
      (List.pairwise_insertionSort _ l')

/-! ### Sums of the values -/

/-- The values as a sum over the keys. -/
theorem sum_values_eq {M : Type*} [AddCommMonoid M] (d : Dict K M) :
    d.values.sum = ∑ k ∈ d.keys.toFinset, d.getD k 0 := by
  have hnd : d.keys.Nodup := d.nodup
  have hvalues : d.values = d.keys.map fun k => d.getD k 0 := by
    unfold values keys
    rw [List.map_map]
    refine List.map_congr_left fun entry he => ?_
    have hget : d.get? entry.1 = some entry.2 := get?_eq_some_iff.mpr he
    simp [getD, hget]
  rw [hvalues, List.sum_toFinset _ hnd]

/-- A map with at least the entries of another, and further ones that are not negative,
has at least its sum. -/
theorem sum_values_le {d d' : Dict K ℤ}
    (h : ∀ k v, d.get? k = some v → ∃ v', d'.get? k = some v' ∧ v ≤ v')
    (hnonneg : ∀ k v, d'.get? k = some v → 0 ≤ v) : d.values.sum ≤ d'.values.sum := by
  have hsub : d.keys.toFinset ⊆ d'.keys.toFinset := by
    intro k hk
    obtain ⟨v, hv⟩ := mem_keys_iff.mp (List.mem_toFinset.mp hk)
    obtain ⟨v', hv', -⟩ := h k v hv
    exact List.mem_toFinset.mpr (mem_keys_iff.mpr ⟨v', hv'⟩)
  rw [sum_values_eq, sum_values_eq]
  calc ∑ k ∈ d.keys.toFinset, d.getD k 0 ≤ ∑ k ∈ d.keys.toFinset, d'.getD k 0 := by
        refine Finset.sum_le_sum fun k hk => ?_
        obtain ⟨v, hv⟩ := mem_keys_iff.mp (List.mem_toFinset.mp hk)
        obtain ⟨v', hv', hle⟩ := h k v hv
        rw [getD, hv, getD, hv']
        exact hle
    _ ≤ ∑ k ∈ d'.keys.toFinset, d'.getD k 0 := by
        refine Finset.sum_le_sum_of_subset_of_nonneg hsub fun k hk _ => ?_
        obtain ⟨v, hv⟩ := mem_keys_iff.mp (List.mem_toFinset.mp hk)
        rw [getD, hv]
        exact hnonneg k v hv

/-! ### Loops over rows -/

/-- Sums by key do not see the order of the rows. -/
theorem same_sumBy {M : Type*} [AddCommMonoid M] {l l' : List (K × M)} (h : l.Perm l') :
    Same (sumBy l) (sumBy l') :=
  fun _ => get?_sumBy_of_perm ((h.filter _).map _)

/-- The entries in another order make the same map. -/
theorem same_ofList {d : Dict K V} {l : List (K × V)} (h : l.Perm d.items) : Same (ofList l) d := by
  intro k
  have hnodup : (l.map Prod.fst).Nodup := (h.map Prod.fst).nodup_iff.mpr d.nodup
  unfold ofList
  rw [get?_foldl_set_of_nodup _ _ hnodup, get?_empty, Option.or_none]
  ext v
  rw [lookup_eq_some_iff hnodup, get?_eq_some_iff]
  exact h.mem_iff

/-- A gathering loop holds, for a key, the parts of the key one after the other. -/
theorem getD_gather {A : Type*} (entries : List (K × List A)) (k : K) :
    (mergeAll (· ++ ·) .empty entries).getD k [] = (valuesAt entries k).flatten := by
  have hcombine : ∀ (vs : List (List A)) (o : Option (List A)),
      (combine (· ++ ·) o vs).getD [] = o.getD [] ++ vs.flatten := by
    intro vs
    induction vs with
    | nil =>
      intro o
      cases o <;> simp [combine]
    | cons v vs ih =>
      intro o
      cases o with
      | none => simp [combine, ih]
      | some w => simp [combine, ih, List.append_assoc]
  rw [getD, get?_mergeAll, hcombine]
  rfl

/-- A loop that appends to the list of a key gathers the rows of the key in their order. -/
theorem getD_gather_rows {A B : Type*} (skip : A → Bool) (key : A → K) (value : A → B)
    (rows : List A) (k : K) :
    (mergeAll (· ++ ·) .empty
      (rows.filterMap fun a => if skip a then none else some (key a, [value a]))).getD k [] =
      (rows.filter fun a => !skip a && decide (key a = k)).map value := by
  rw [getD_gather]
  induction rows with
  | nil => rfl
  | cons a rows ih =>
    rw [List.filterMap_cons, List.filter_cons]
    cases hs : skip a with
    | true => simpa using ih
    | false =>
      by_cases hk : key a = k
      · subst hk
        have hcons := valuesAt_cons_self (key a, [value a])
          (rows.filterMap fun a => if skip a then none else some (key a, [value a]))
        simp only [Bool.false_eq_true, if_false, Bool.not_false, decide_true, Bool.and_true,
          if_true, List.map_cons]
        rw [hcons, List.flatten_cons, ih]
        rfl
      · have hne : (key a, [value a]).1 ≠ k := hk
        simpa [valuesAt_cons_ne hne, hk] using ih

end Dict
