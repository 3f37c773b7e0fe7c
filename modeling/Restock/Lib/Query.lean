/-
# Grouped queries

A query that groups its rows and sums a column returns every group once, in an
order that the database chooses (`Plan`). A loop over the returned rows that sums
them again by a coarser key gives what one loop over the rows of the table gives
(`get?_sumRows`), so the order does not matter to it.
-/
import Restock.Lib.Dict

/-- The order in which a query without `ORDER BY` returns its rows: some
rearrangement, the same for the same rows. -/
structure Query.Plan where
  order : ∀ {A : Type}, List A → List A
  perm : ∀ {A : Type} (l : List A), (order l).Perm l

/-- The rows as they come. -/
def Query.Plan.identity : Query.Plan := ⟨fun l => l, fun l => List.Perm.refl l⟩

/-- The rows from some place on, and then those before it. -/
def Query.Plan.rotate (n : ℕ) : Query.Plan := ⟨fun l => l.rotate n, fun l => l.rotate_perm n⟩

namespace Query

/-- Any row can come first. -/
theorem exists_rotate_cons {A : Type} {a : A} {l : List A} (h : a ∈ l) :
    ∃ n rest, (Plan.rotate n).order l = a :: rest := by
  obtain ⟨n, hn, rfl⟩ := List.getElem_of_mem h
  refine ⟨n, l.drop (n + 1) ++ l.take n, ?_⟩
  show l.rotate n = _
  rw [List.rotate_eq_drop_append_take hn.le, List.drop_eq_getElem_cons hn, List.cons_append]

variable {K K' M : Type} [DecidableEq K']

/-- The rows under the key that `f` gives them; a row without one is skipped. -/
def rekey (f : K → Option K') (l : List (K × M)) : List (K' × M) :=
  l.filterMap fun p => (f p.1).map fun k => (k, p.2)

theorem valuesAt_rekey (f : K → Option K') (k : K') (l : List (K × M)) :
    Dict.valuesAt (rekey f l) k = (l.filter fun p => f p.1 = some k).map Prod.snd := by
  induction l with
  | nil => rfl
  | cons p l ih =>
    unfold rekey at ih ⊢
    rw [List.filterMap_cons]
    cases hf : f p.1 with
    | none => simp [hf, ih]
    | some k' =>
      rw [Option.map_some]
      by_cases hk : k' = k
      · subst hk
        rw [Dict.valuesAt_cons_self, ih]
        simp [hf]
      · rw [Dict.valuesAt_cons_ne hk, ih]
        simp [hf, hk]

theorem valuesAt_rekey_eq_nil (f : K → Option K') (k : K') (l : List (K × M)) :
    Dict.valuesAt (rekey f l) k = [] ↔ ∀ p ∈ l, f p.1 ≠ some k := by
  rw [valuesAt_rekey, List.map_eq_nil_iff, List.filter_eq_nil_iff]
  simp

variable [AddCommMonoid M]

theorem sum_valuesAt_rekey (f : K → Option K') (k : K') : ∀ l : List (K × M),
    (Dict.valuesAt (rekey f l) k).sum = (l.map fun p => if f p.1 = some k then p.2 else 0).sum
  | [] => rfl
  | p :: l => by
    have ih := sum_valuesAt_rekey f k l
    rw [valuesAt_rekey] at ih ⊢
    by_cases h : f p.1 = some k
    · simp [h, ih]
    · simp [h, ih]

variable [DecidableEq K]

/-- `SELECT k, sum(v) … GROUP BY k`. -/
def groupSum (l : List (K × M)) : List (K × M) := (Dict.sumBy l).items

/-- A grouped query and a loop that sums its rows under another key. -/
def sumRows (plan : Plan) (f : K → Option K') (l : List (K × M)) : Dict K' M :=
  Dict.sumBy (rekey f (plan.order (groupSum l)))

theorem sum_setItems {g : K → M → M} (hg : ∀ k a b, g k (a + b) = g k a + g k b) (k : K) (v : M) :
    ∀ l : List (K × M), ((Dict.setItems l k
      (match l.lookup k with | none => v | some w => w + v)).map
      fun p => g p.1 p.2).sum = (l.map fun p => g p.1 p.2).sum + g k v
  | [] => by simp [Dict.setItems]
  | p :: l => by
    unfold Dict.setItems
    rw [Dict.lookup_cons_ite]
    by_cases h : p.1 = k
    · rw [if_pos h, if_pos h.symm]
      simp only [List.map_cons, List.sum_cons, hg, h]
      exact add_right_comm _ _ _
    · rw [if_neg h, if_neg fun he => h he.symm]
      simp only [List.map_cons, List.sum_cons, sum_setItems hg k v l, add_assoc]

/-- A sum over the groups that adds up within a group is the sum over the rows. -/
theorem sum_groupSum {g : K → M → M} (hg : ∀ k a b, g k (a + b) = g k a + g k b)
    (l : List (K × M)) :
    ((groupSum l).map fun p => g p.1 p.2).sum = (l.map fun p => g p.1 p.2).sum := by
  have key : ∀ (l : List (K × M)) (d : Dict K M),
      ((Dict.mergeAll (· + ·) d l).items.map fun p => g p.1 p.2).sum =
      (d.items.map fun p => g p.1 p.2).sum + (l.map fun p => g p.1 p.2).sum := by
    intro l
    induction l with
    | nil => intro d; simp [Dict.mergeAll]
    | cons p l ih =>
      intro d
      rw [Dict.mergeAll, List.foldl_cons, ← Dict.mergeAll, ih, List.map_cons,
        List.sum_cons, ← add_assoc]
      congr 1
      exact sum_setItems hg p.1 p.2 d.items
  have h := key l Dict.empty
  rw [show (Dict.empty : Dict K M).items = [] from rfl, List.map_nil, List.sum_nil, zero_add] at h
  exact h

theorem mem_keys_groupSum {l : List (K × M)} {k : K} :
    (∃ v, (k, v) ∈ groupSum l) ↔ ∃ v, (k, v) ∈ l := by
  have h := Dict.isSome_get?_sumBy l k
  have hl : (Dict.sumBy l).get? k ≠ none ↔ (∃ v, (k, v) ∈ groupSum l) := by
    rw [Option.ne_none_iff_exists']
    simp only [Dict.get?_eq_some_iff]
    rfl
  rw [← hl, ← Option.isSome_iff_ne_none, h]
  simp only [Bool.not_eq_true', List.isEmpty_eq_false_iff_exists_mem, Dict.mem_valuesAt]

/-- **Summing the groups again is summing the rows**, in whatever order the
groups come. -/
theorem get?_sumRows (plan : Plan) (f : K → Option K') (l : List (K × M)) (k : K') :
    (sumRows plan f l).get? k = (Dict.sumBy (rekey f l)).get? k := by
  have hperm := plan.perm (groupSum l)
  have hsum : (Dict.valuesAt (rekey f (plan.order (groupSum l))) k).sum =
      (Dict.valuesAt (rekey f l) k).sum := by
    rw [sum_valuesAt_rekey, sum_valuesAt_rekey, (hperm.map _).sum_eq]
    refine sum_groupSum (g := fun k' v => if f k' = some k then v else 0) (fun k' a b => ?_) l
    split_ifs <;> simp
  have hnil : Dict.valuesAt (rekey f (plan.order (groupSum l))) k = [] ↔
      Dict.valuesAt (rekey f l) k = [] := by
    rw [valuesAt_rekey_eq_nil, valuesAt_rekey_eq_nil]
    constructor
    · intro h p hp
      obtain ⟨v, hv⟩ := mem_keys_groupSum.mpr ⟨p.2, hp⟩
      exact h (p.1, v) (hperm.mem_iff.mpr hv)
    · intro h p hp
      obtain ⟨v, hv⟩ := mem_keys_groupSum.mp ⟨p.2, hperm.mem_iff.mp hp⟩
      exact h (p.1, v) hv
  rw [sumRows, Dict.get?_sumBy, Dict.get?_sumBy, hsum]
  simp only [hnil]

end Query
