/-
# Whole shares of a component's stock (`_allocate_integer_quantity`)

The stock of a component is split among the SKUs that are assembled from it, in
proportion to their weights, or evenly as soon as one of them has no positive weight
(`exactShare`). What each gets is its exact share rounded down or up, nothing is lost, and
the order in which the consumers are listed does not matter (`allocate_fair`).

Rounding down leaves fewer units than there are consumers; they go to the largest
fractions, and of equal fractions to the smaller names, so who gets one is settled by the
shares and the names alone (`Apportion.winners_eq_of_perm`), and no whole share is among
them (`Apportion.fract_pos_of_mem_winners`).
-/
import Restock.SkuMapping

namespace Restock

/-- The share of a consumer: in proportion to the weights if every consumer has a positive
one, the same for all otherwise. -/
def exactShare (total : ℤ) (consumers : List String) (weights : Dict String ℚ) (consumer : String) :
    ℚ :=
  if ∀ c ∈ consumers, 0 < weights.getD c 0 then
    total * weights.getD consumer 0 / (consumers.map fun c => weights.getD c 0).sum
  else total / consumers.length

/-- A split of `total` among `consumers` along the exact shares. -/
structure FairSplit (total : ℤ) (consumers : List String) (share : String → ℚ)
    (split : List (String × ℤ)) : Prop where
  consumers_eq : split.map Prod.fst = consumers
  nonneg : ∀ p ∈ split, 0 ≤ p.2
  sum_eq : 0 < total → consumers ≠ [] → (split.map Prod.snd).sum = total
  rounded : 0 < total → ∀ p ∈ split, p.2 = ⌊share p.1⌋ ∨ p.2 = ⌈share p.1⌉
  nothing : total ≤ 0 ∨ consumers = [] → ∀ p ∈ split, p.2 = 0

section Shares

variable {total : ℤ} {consumers : List String} {weights : Dict String ℚ}

theorem exactShare_of_perm {consumers' : List String} (h : consumers.Perm consumers') :
    exactShare total consumers weights = exactShare total consumers' weights := by
  have hall : (∀ c ∈ consumers, 0 < weights.getD c 0) ↔ ∀ c ∈ consumers', 0 < weights.getD c 0 :=
    forall_congr' fun c => by rw [h.mem_iff]
  funext consumer
  simp only [exactShare, hall, (h.map _).sum_eq, h.length_eq]

theorem rawShares_eq : rawShares total consumers (fun c => weights.getD c 0) =
    consumers.map (exactShare total consumers weights) := by
  have hany : (consumers.any fun c => weights.getD c 0 ≤ 0) = true ↔
      ¬ ∀ c ∈ consumers, 0 < weights.getD c 0 := by
    simp
  unfold rawShares positiveWeights
  by_cases h : ∀ c ∈ consumers, 0 < weights.getD c 0
  · rw [if_neg (by rw [hany]; exact not_not_intro h), List.map_map]
    refine List.map_congr_left fun c _ => ?_
    rw [exactShare, if_pos h]
    rfl
  · rw [if_pos (hany.mpr h), List.map_map]
    refine List.map_congr_left fun c _ => ?_
    rw [exactShare, if_neg h]
    simp

theorem fractionalOrder_map (share : String → ℚ) :
    (fractionalOrder consumers (consumers.map share)).map (consumers.getD · "") =
      consumers.insertionSort (Apportion.Before share) := by
  have hnames : (List.range consumers.length).map (consumers.getD · "") = consumers := by
    apply List.ext_getElem
    · simp
    · intro i h1 h2
      simp [h2]
  unfold fractionalOrder
  refine (List.map_insertionSort (s := Apportion.Before share) _ _ _ ?_).trans (by rw [hnames])
  · intro i hi j hj
    have hi' : i < consumers.length := by simpa using hi
    have hj' : j < consumers.length := by simpa using hj
    simp [Apportion.Before, hi', hj']

theorem allocate_of_nonpos (h0 : total ≤ 0) (w : String → ℚ) :
    allocateIntegerQuantity total consumers w = consumers.map fun c => (c, 0) := by
  unfold allocateIntegerQuantity
  exact if_pos h0

/-- **What each consumer gets.** -/
theorem allocate_eq_map (ht : 0 < total) (hnd : consumers.Nodup) :
    allocateIntegerQuantity total consumers (fun c => weights.getD c 0) =
      consumers.map fun c => (c, ⌊exactShare total consumers weights c⌋ +
        if c ∈ Apportion.winners (exactShare total consumers weights) total consumers then 1
        else 0) := by
  have hsum : consumers ≠ [] →
      (consumers.map (exactShare total consumers weights)).sum = total := by
    intro h
    rw [← rawShares_eq]
    exact sum_rawShares h
  unfold allocateIntegerQuantity
  rw [if_neg (not_le.mpr ht)]
  split
  · rfl
  · -- one consumer: its share is the whole stock, and whole
    rename_i consumer
    have hshare : exactShare total [consumer] weights consumer = total := by
      simpa using hsum (List.cons_ne_nil _ _)
    have hlost : consumer ∉ Apportion.winners (exactShare total [consumer] weights) total
        [consumer] := by
      intro h
      have := Apportion.fract_pos_of_mem_winners (hsum (List.cons_ne_nil _ _)) h
      rw [hshare, Int.fract_intCast] at this
      exact lt_irrefl _ this
    rw [List.map_singleton, if_neg hlost, hshare, Int.floor_intCast, add_zero]
  · have hperm : (fractionalOrder consumers
      (rawShares total consumers fun c => weights.getD c 0)).Perm
        (List.range consumers.length) := fractionalOrder_perm _
    simp only
    rw [rawShares_eq] at hperm ⊢
    rw [Apportion.apportion_eq_map hnd hperm (fractionalOrder_map _)]
    apply List.ext_getElem
    · simp
    · intro i h1 h2
      simp

/-- A unit more goes to shares that are not whole only, so it makes the share rounded up. -/
theorem rounded_allocate (ht : 0 < total) (hnd : consumers.Nodup) {p : String × ℤ}
    (hp : p ∈ allocateIntegerQuantity total consumers fun c => weights.getD c 0) :
    p.2 = ⌊exactShare total consumers weights p.1⌋ ∨
    p.2 = ⌈exactShare total consumers weights p.1⌉ := by
  rw [allocate_eq_map ht hnd] at hp
  obtain ⟨c, hc, rfl⟩ := List.mem_map.mp hp
  by_cases hwin : c ∈ Apportion.winners (exactShare total consumers weights) total consumers
  · right
    have hsum : (consumers.map (exactShare total consumers weights)).sum = total := by
      rw [← rawShares_eq]
      exact sum_rawShares (List.ne_nil_of_mem hc)
    rw [if_pos hwin]
    exact (Apportion.ceil_eq_of_fract_pos (Apportion.fract_pos_of_mem_winners hsum hwin)).symm
  · left
    rw [if_neg hwin, add_zero]

end Shares

/-- **Whole shares are exact and fair**, and the order of the consumers does not matter. -/
theorem allocate_fair (total : ℤ) (consumers : List String) (weights : Dict String ℚ)
    (hnd : consumers.Nodup) :
    FairSplit total consumers (exactShare total consumers weights)
      (allocateIntegerQuantity total consumers fun c => weights.getD c 0) ∧
    ∀ consumers' : List String, consumers.Perm consumers' →
      (allocateIntegerQuantity total consumers fun c => weights.getD c 0).Perm
        (allocateIntegerQuantity total consumers' fun c => weights.getD c 0) := by
  constructor
  · constructor
    · exact map_fst_allocate
    · exact allocate_nonneg
    · intro ht hne
      rw [sum_allocate hne, max_eq_left ht.le]
    · exact fun ht p hp => rounded_allocate ht hnd hp
    · intro hnone p hp
      rcases hnone with h0 | hnil
      · rw [allocate_of_nonpos h0] at hp
        obtain ⟨c, -, rfl⟩ := List.mem_map.mp hp
        rfl
      · have hlen : (allocateIntegerQuantity total consumers fun c => weights.getD c 0).length =
          consumers.length :=
          length_allocate
        rw [hnil] at hp hlen
        rw [List.length_eq_zero_iff.mp hlen] at hp
        simp at hp
  · intro consumers' hperm
    rcases le_or_gt total 0 with h0 | ht
    · rw [allocate_of_nonpos h0, allocate_of_nonpos h0]
      exact hperm.map _
    · rw [allocate_eq_map ht hnd,
        allocate_eq_map ht (hperm.nodup_iff.mp hnd), ← exactShare_of_perm
        hperm, ← Apportion.winners_eq_of_perm hperm]
      exact hperm.map _

theorem allocate_fair_two :
    allocateIntegerQuantity 5 ["B", "A"]
    (fun c => (Dict.empty.set "A" (1 : ℚ)).getD c 0) = [("B", 2), ("A", 3)] ∧ FairSplit 5 ["B", "A"]
      (exactShare 5 ["B", "A"] (.set .empty "A" 1))
      (allocateIntegerQuantity 5 ["B", "A"] fun c => (Dict.empty.set "A" (1 : ℚ)).getD c 0) :=
  ⟨by decide +kernel, (allocate_fair 5 ["B", "A"] (.set .empty "A" 1) (by decide)).1⟩

end Restock
