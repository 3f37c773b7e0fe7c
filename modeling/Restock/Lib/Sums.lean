/-
# Sums over lists

Sums of integers over a list: how they split, and how they compare when only one
member counts (`sum_le_of_unique`), when one or two members are singled out
(`le_sum`, `pair_le_sum`), and when the members are looked up in an association
list (`sum_lookup_le`). A sum that weighs its members by a key depends on the total
of each key only (`sum_congr_of_totals`).
-/
import Mathlib

namespace Sums

variable {A K : Type*}

theorem sum_flatMap (f : A → List ℤ) (l : List A) :
    (l.flatMap f).sum = (l.map fun a => (f a).sum).sum := by
  rw [List.flatMap_def, List.sum_flatten, List.map_map]
  rfl

theorem sum_map_filter (p : A → Bool) (f : A → ℤ) : ∀ l : List A,
    ((l.filter p).map f).sum = (l.map fun a => if p a then f a else 0).sum
  | [] => rfl
  | a :: l => by
    cases hp : p a <;> simp [hp, sum_map_filter p f l]

/-- What is missing adds nothing. -/
theorem sum_filterMap (f : A → Option ℤ) :
    ∀ l : List A, (l.filterMap f).sum = (l.map fun a => (f a).getD 0).sum
  | [] => rfl
  | a :: l => by
    have ih := sum_filterMap f l
    rw [List.filterMap_cons, List.map_cons, List.sum_cons, ← ih]
    cases f a with
    | none => exact (zero_add _).symm
    | some n => exact List.sum_cons

theorem sum_nonneg {f : A → ℤ} {l : List A} (h : ∀ a ∈ l, 0 ≤ f a) : 0 ≤ (l.map f).sum := by
  refine List.sum_nonneg fun x hx => ?_
  obtain ⟨a, ha, rfl⟩ := List.mem_map.mp hx
  exact h a ha

theorem le_sum {f : A → ℤ} {l : List A} (h : ∀ a ∈ l, 0 ≤ f a) {a : A} (ha : a ∈ l) :
    f a ≤ (l.map f).sum := by
  refine List.single_le_sum ?_ _ (List.mem_map_of_mem ha)
  intro x hx
  obtain ⟨b, hb, rfl⟩ := List.mem_map.mp hx
  exact h b hb

theorem pair_le_sum {f : A → ℤ} :
    ∀ {l : List A}, (∀ a ∈ l, 0 ≤ f a) → ∀ {a b : A}, a ∈ l → b ∈ l → a ≠ b →
    f a + f b ≤ (l.map f).sum
  | [], _, _, _, ha, _, _ => by simp at ha
  | c :: l, h, a, b, ha, hb, hab => by
    have hl : ∀ x ∈ l, 0 ≤ f x := fun x hx => h x (List.mem_cons_of_mem _ hx)
    rw [List.map_cons, List.sum_cons]
    rcases List.mem_cons.mp ha with rfl | hal
    · rcases List.mem_cons.mp hb with rfl | hbl
      · exact absurd rfl hab
      · exact Int.add_le_add_left (le_sum hl hbl) _
    · rcases List.mem_cons.mp hb with rfl | hbl
      · rw [add_comm]
        exact Int.add_le_add_left (le_sum hl hal) _
      · have := pair_le_sum hl hal hbl hab
        have := h c List.mem_cons_self
        omega

/-- Where at most one member counts, a bound of the members bounds the sum. -/
theorem sum_le_of_unique {f : A → ℤ} {bound : ℤ} (h0 : 0 ≤ bound) : ∀ {l : List A}, l.Nodup →
    (∀ a ∈ l, f a ≤ bound) → (∀ a ∈ l, ∀ b ∈ l, f a ≠ 0 → f b ≠ 0 → a = b) → (l.map f).sum ≤ bound
  | [], _, _, _ => by simpa using h0
  | a :: l, hnd, hle, huniq => by
    rw [List.nodup_cons] at hnd
    rw [List.map_cons, List.sum_cons]
    by_cases ha : f a = 0
    · rw [ha, zero_add]
      exact sum_le_of_unique h0 hnd.2 (fun b hb => hle b (List.mem_cons_of_mem _ hb))
        fun b hb c hc => huniq b (List.mem_cons_of_mem _ hb) c (List.mem_cons_of_mem _ hc)
    · have hrest : ∀ x ∈ l.map f, x = 0 := by
        intro x hx
        obtain ⟨b, hb, rfl⟩ := List.mem_map.mp hx
        by_contra hne
        exact hnd.1 (huniq a List.mem_cons_self b (List.mem_cons_of_mem _ hb) ha hne ▸ hb)
      rw [List.sum_eq_zero hrest, add_zero]
      exact hle a List.mem_cons_self

/-- Dropping what is not positive from values that are not negative keeps the sum. -/
theorem sum_filter_pos : ∀ {l : List (K × ℤ)}, (∀ p ∈ l, 0 ≤ p.2) →
    ((l.filter fun p => 0 < p.2).map Prod.snd).sum = (l.map Prod.snd).sum
  | [], _ => rfl
  | p :: l, h => by
    have ih := sum_filter_pos fun q hq => h q (List.mem_cons_of_mem _ hq)
    have hp := h p List.mem_cons_self
    rw [List.filter_cons]
    split_ifs with hpos
    · rw [List.map_cons, List.sum_cons, List.map_cons, List.sum_cons, ih]
    · have h0 : p.2 = 0 := by
        rw [decide_eq_true_eq, not_lt] at hpos
        omega
      rw [List.map_cons, List.sum_cons, ih, h0, zero_add]

theorem lookup_getD_nonneg [DecidableEq K] {l : List (K × ℤ)} (h : ∀ p ∈ l, 0 ≤ p.2) (k : K) :
    0 ≤ (l.lookup k).getD 0 := by
  cases hk : l.lookup k with
  | none => exact le_rfl
  | some n =>
    obtain ⟨p, hp, rfl⟩ : ∃ p ∈ l, p.2 = n := by
      obtain ⟨l₁, l₂, rfl, -⟩ := List.lookup_eq_some_iff.mp hk
      exact ⟨(k, n), by simp, rfl⟩
    exact h p hp

/-- Different keys of an association list find no more than all its values. -/
theorem sum_lookup_le [DecidableEq K] :
    ∀ (l : List (K × ℤ)), (∀ p ∈ l, 0 ≤ p.2) → ∀ ks : List K, ks.Nodup →
    (ks.map fun k => (l.lookup k).getD 0).sum ≤ (l.map Prod.snd).sum
  | [], _, ks, _ => by simp
  | p :: l, h, ks, hnd => by
    have hl : ∀ q ∈ l, 0 ≤ q.2 := fun q hq => h q (List.mem_cons_of_mem _ hq)
    have hp : 0 ≤ p.2 := h p List.mem_cons_self
    have hone : (ks.map fun k => if k = p.1 then p.2 else 0).sum ≤ p.2 := by
      refine sum_le_of_unique hp hnd (fun k _ => by split_ifs <;> omega) ?_
      intro a _ b _ ha hb
      rw [ne_eq, ite_eq_right_iff, Classical.not_imp] at ha hb
      exact ha.1.trans hb.1.symm
    have hstep : (ks.map fun k => ((p :: l).lookup k).getD 0).sum ≤
        (ks.map fun k => (if k = p.1 then p.2 else 0) + (l.lookup k).getD 0).sum := by
      refine List.sum_le_sum fun k _ => ?_
      have hk := lookup_getD_nonneg hl k
      rw [List.lookup_cons]
      by_cases he : k = p.1
      · rw [if_pos he, beq_iff_eq.mpr he, Option.getD_some]
        omega
      · rw [if_neg he, beq_eq_false_iff_ne.mpr he, zero_add]
    rw [List.sum_map_add] at hstep
    rw [List.map_cons, List.sum_cons]
    have ih := sum_lookup_le l hl ks hnd
    omega

/-- Of two conditions, one of which is stronger, the counts agree exactly if the
conditions do. -/
theorem countP_eq_iff {p q : A → Bool} : ∀ {l : List A}, (∀ a ∈ l, p a = true → q a = true) →
    (l.countP p = l.countP q ↔ ∀ a ∈ l, q a = true → p a = true)
  | [], _ => by simp
  | a :: l, h => by
    have hl : ∀ b ∈ l, p b = true → q b = true := fun b hb => h b (List.mem_cons_of_mem _ hb)
    have ih := countP_eq_iff hl
    have hle : l.countP p ≤ l.countP q := List.countP_mono_left hl
    have ha := h a List.mem_cons_self
    rw [List.countP_cons, List.countP_cons, List.forall_mem_cons, ← ih]
    by_cases hq : q a = true
    · by_cases hp : p a = true
      · simp [hp, hq]
      · simp only [hp, hq, Bool.false_eq_true, if_false, if_true, true_imp_iff,
          false_and, iff_false]
        omega
    · have hp : ¬ p a = true := fun h => hq (ha h)
      simp [hp, hq]

theorem sum_indicator (p : A → Bool) :
    ∀ l : List A, (l.map fun a => if p a then 1 else 0).sum = l.countP p
  | [] => rfl
  | a :: l => by
    rw [List.map_cons, List.sum_cons, sum_indicator p l, List.countP_cons, Nat.add_comm]

/-! ### Totals by key -/

section Totals

variable [DecidableEq K] (key : A → K) (v : A → ℚ)

/-- The sum of the values under a key. -/
def totalAt (l : List A) (k : K) : ℚ := ((l.filter fun a => key a = k).map v).sum

theorem totalAt_cons (a : A) (l : List A) (k : K) :
    totalAt key v (a :: l) k = (if key a = k then v a else 0) + totalAt key v l k := by
  unfold totalAt
  by_cases h : key a = k
  · simp [h]
  · simp [h]

/-- A sum that weighs every value by its key is a sum over the totals of the keys. -/
theorem sum_eq_sum_totals (g : K → ℚ) (s : Finset K) : ∀ {l : List A}, (∀ a ∈ l, key a ∈ s) →
    (l.map fun a => g (key a) * v a).sum = ∑ k ∈ s, g k * totalAt key v l k
  | [], _ => by simp [totalAt]
  | a :: l, h => by
    have ih := sum_eq_sum_totals g s fun b hb => h b (List.mem_cons_of_mem _ hb)
    rw [List.map_cons, List.sum_cons, ih]
    simp only [totalAt_cons, mul_add, mul_ite, mul_zero, Finset.sum_add_distrib, Finset.sum_ite_eq]
    rw [if_pos (h a List.mem_cons_self)]

/-- **Lists with the same total for every key** have the same weighted sums. -/
theorem sum_congr_of_totals {l l' : List A} (h : ∀ k, totalAt key v l k = totalAt key v l' k)
    (g : K → ℚ) : (l.map fun a => g (key a) * v a).sum = (l'.map fun a => g (key a) * v a).sum := by
  have hl : ∀ a ∈ l, key a ∈ (l.map key ++ l'.map key).toFinset := by
    intro a ha
    rw [List.mem_toFinset, List.mem_append]
    exact Or.inl (List.mem_map_of_mem ha)
  have hl' : ∀ a ∈ l', key a ∈ (l.map key ++ l'.map key).toFinset := by
    intro a ha
    rw [List.mem_toFinset, List.mem_append]
    exact Or.inr (List.mem_map_of_mem ha)
  rw [sum_eq_sum_totals key v g _ hl, sum_eq_sum_totals key v g _ hl']
  exact Finset.sum_congr rfl fun k _ => by rw [h]

end Totals

end Sums
