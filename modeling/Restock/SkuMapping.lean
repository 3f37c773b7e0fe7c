/-
# Stock of mapped commodities (`engine/sku_mapping.py`)

The stock of every component in a warehouse is split between the commodities
that use it, along their sales in the country of the warehouse; from its parts a
commodity is assembled, one count for every alternative group of its rule.

The parts of a component add up to its stock (`sum_allocate`), no part is below
its share rounded down (`floor_le_allocate`), and what is assembled never needs
more of a component than its part (`buildable_mul_le`). The stock of a commodity
in a country is the sum of these counts (`getD_computeMappedStockByCountry`).
Numbers that the program keeps as floats are read as rationals.
-/
import Restock.Countries
import Restock.SkuRules
import Restock.Lib.Apportion
import Restock.Lib.Sums

namespace Restock

open PyText

/-- The stock of a warehouse, with its country. -/
structure WarehouseStock where
  country : Option String
  total : ℤ
deriving DecidableEq, Repr

/-- Stock by component and warehouse. -/
abbrev ComponentStock := Dict (String × String) WarehouseStock

/-- Daily sales by commodity and country. -/
abbrev Velocity := Dict String (Dict String ℚ)

/-- `x or ""` on a column that may be missing. -/
def textOr (x : Option String) : String := x.getD ""

/-! ### Who uses a component, and how much it sells -/

/-- The SKUs that use a component. -/
def mappingComponentConsumers (rules : MappingRules) : Dict String (List String) :=
  (Dict.collect (rules.items.flatMap fun rule =>
    rule.2.flatMap fun components => components.map fun c => (c.inventorySku, rule.1))).mapVal
    fun _ commoditySkus => commoditySkus.insertionSort (· ≤ ·)

/-- One round of the loop of `_country_weights_by_sku`. -/
def addWeight (weights : Dict String (Dict String ℚ)) (entry : String × String × ℚ) :
    Dict String (Dict String ℚ) :=
  weights.set entry.1 ((weights.getD entry.1 .empty).set entry.2.1 entry.2.2)

/-- The velocity of a SKU by country, country first. -/
def countryWeightsBySku (velocity : Velocity) : Dict String (Dict String ℚ) :=
  (velocity.items.flatMap fun p => p.2.items.map fun q => (q.1, p.1, q.2)).foldl addWeight .empty

/-- The velocity of a SKU over all countries. -/
def localWeightsBySku (velocity : Velocity) : Dict String (Dict String ℚ) :=
  Dict.empty.set "" (velocity.mapVal fun _ countryMap => countryMap.values.sum)

/-! ### Splitting the stock of a component -/

/-- The weights that are used: all alike as soon as one is missing or not positive. Their sum
is positive (`sum_positiveWeights_pos`), so the second test of the source never holds. -/
def positiveWeights (consumers : List String) (weights : String → ℚ) : List ℚ :=
  if consumers.any fun consumer => weights consumer ≤ 0 then consumers.map fun _ => 1
  else consumers.map weights

/-- The shares before rounding. -/
def rawShares (total : ℤ) (consumers : List String) (weights : String → ℚ) : List ℚ :=
  (positiveWeights consumers weights).map fun weight =>
    total * weight / (positiveWeights consumers weights).sum

/-- The places by falling fraction, then by name. -/
def fractionalOrder (consumers : List String) (shares : List ℚ) : List ℕ :=
  (List.range consumers.length).insertionSort fun i j =>
    Int.fract (shares.getD j 0) < Int.fract (shares.getD i 0) ∨
      Int.fract (shares.getD j 0) = Int.fract (shares.getD i 0) ∧
        consumers.getD i "" ≤ consumers.getD j ""

/-- The integer shares of the consumers. -/
def allocateIntegerQuantity (total : ℤ) (consumers : List String) (weights : String → ℚ) :
    List (String × ℤ) :=
  if total ≤ 0 then consumers.map fun consumer => (consumer, 0)
  else match consumers with
    | [] => []
    | [consumer] => [(consumer, total)]
    | consumers =>
      let shares := rawShares total consumers weights
      consumers.zip (Apportion.apportion total shares (fractionalOrder consumers shares))

/-- `_build_component_allocation`. -/
def buildComponentAllocation (rules : MappingRules) (componentStock : ComponentStock)
    (weightsByCountry : Dict String (Dict String ℚ)) (fixedWeightCountry : Option String) :
    Dict (String × String × String) WarehouseStock :=
  Dict.ofList (componentStock.items.flatMap fun entry =>
    let consumers := (mappingComponentConsumers rules).getD entry.1.1 []
    let weightCountry := fixedWeightCountry.getD (textOr entry.2.country)
    let countryWeights := weightsByCountry.getD weightCountry .empty
    (allocateIntegerQuantity entry.2.total consumers
        fun sku => countryWeights.getD sku 0).map fun split =>
      ((split.1, entry.1.1, entry.1.2), ⟨entry.2.country, split.2⟩))

/-! ### Assembling -/

/-- The loop over the components of a group: it stops at 0 at a component
without a part. -/
def buildable (part : String → Option ℤ) : Option ℤ → MappingGroup → Option ℤ
  | acc, [] => acc
  | acc, component :: components =>
    match part component.inventorySku with
    | none => some 0
    | some total =>
      let units := total / (component.quantity : ℤ)
      buildable part (some (acc.elim units fun a => min a units)) components

section ByCountry

variable (U : CharTable)

/-- The first country found for a warehouse among the components kept there. -/
def countryByWarehouse (componentStock : ComponentStock) (warehouseId : String) : Option String :=
  (componentStock.items.find? fun entry => entry.1.2 = warehouseId ∧
      textOr entry.2.country ≠ "").bind fun entry =>
    entry.2.country

/-- The warehouses of a component stock. -/
def warehouseIds (componentStock : ComponentStock) :
    List String := (componentStock.keys.map Prod.snd).dedup

/-- The parts of `compute_mapped_stock_by_country`. -/
def allocationByCountry (rules : MappingRules) (componentStock : ComponentStock)
    (velocity : Option Velocity) : Dict (String × String × String) WarehouseStock :=
  buildComponentAllocation rules componentStock (velocity.elim .empty countryWeightsBySku) none

/-- The units of a commodity that one of its groups counts in a warehouse:
nothing is counted without a reportable country, or when the warehouse has none
of the components. -/
def assembledUnits (rules : MappingRules) (componentStock : ComponentStock)
    (velocity : Option Velocity) (commoditySku warehouseId : String) (components : MappingGroup) :
    Option ℤ :=
  match countryByWarehouse componentStock warehouseId with
  | none => none
  | some country =>
    if !isReportableCountryCode U (.str country) then none
    else if !components.any fun c => (c.inventorySku, warehouseId) ∈ componentStock.keys then none
    else buildable (fun sku => ((allocationByCountry rules componentStock velocity).get?
      (commoditySku, sku, warehouseId)).map WarehouseStock.total) none components

/-- `compute_mapped_stock_by_country`. -/
def computeMappedStockByCountry (rules : MappingRules) (componentStock : ComponentStock)
    (velocity : Option Velocity) : Dict (String × String) ℤ :=
  Dict.sumBy (rules.items.flatMap
      fun rule => (warehouseIds componentStock).flatMap fun warehouseId =>
    rule.2.filterMap fun components =>
      (assembledUnits U rules componentStock velocity rule.1 warehouseId components).map
          fun units =>
        ((rule.1, textOr (countryByWarehouse componentStock warehouseId)), units))

end ByCountry

/-- `compute_mapped_stock_total_by_sku`, for the stock at home. -/
def computeMappedStockTotalBySku (rules : MappingRules) (componentStock : ComponentStock)
    (velocity : Option Velocity) : Dict String ℤ :=
  let allocations := buildComponentAllocation rules componentStock
    (velocity.elim .empty localWeightsBySku) (some "")
  Dict.sumBy (rules.items.flatMap
      fun rule => (warehouseIds componentStock).flatMap fun warehouseId =>
    rule.2.filterMap fun components =>
      ((buildable (fun sku =>
        (allocations.get? (rule.1, sku, warehouseId)).map WarehouseStock.total) none
        components).filter fun units => 0 < units).map fun units => (rule.1, units))

/-! ### The consumers of a component -/

theorem mem_consumers {rules : MappingRules} {key sku : String} :
    sku ∈ (mappingComponentConsumers rules).getD key [] ↔
      ∃ groups, rules.get? sku = some groups ∧
      ∃ group ∈ groups, ∃ c ∈ group, c.inventorySku = key := by
  set l := rules.items.flatMap fun rule =>
    rule.2.flatMap fun components => components.map fun c => (c.inventorySku, rule.1) with hl
  have hmem : (key, sku) ∈ l ↔
      ∃ groups, rules.get? sku = some groups ∧
          ∃ group ∈ groups, ∃ c ∈ group, c.inventorySku = key := by
    simp only [hl, List.mem_flatMap, List.mem_map, Prod.exists, Dict.get?_eq_some_iff,
      Prod.mk.injEq]
    constructor
    · rintro ⟨a, groups, hr, group, hg, c, hc, hk, rfl⟩
      exact ⟨groups, hr, group, hg, c, hc, hk⟩
    · rintro ⟨groups, hr, group, hg, c, hc, hk⟩
      exact ⟨sku, groups, hr, group, hg, c, hc, hk, rfl⟩
  rw [mappingComponentConsumers, Dict.getD, Dict.get?_mapVal, ← hmem]
  cases h : (Dict.collect l).get? key with
  | none =>
    have hno := Dict.isSome_get?_collect l key
    rw [h] at hno
    simp only [Option.map_none, Option.getD_none, List.not_mem_nil, false_iff]
    intro hm
    have := Dict.mem_valuesAt.mpr hm
    simp at hno
    rw [hno] at this
    exact absurd this (by simp)
  | some s =>
    rw [Option.map_some, Option.getD_some, List.mem_insertionSort, (Dict.mem_collect h).2]

theorem consumers_nodup (rules : MappingRules) (key : String) :
    ((mappingComponentConsumers rules).getD key []).Nodup := by
  rw [mappingComponentConsumers, Dict.getD, Dict.get?_mapVal]
  cases h : (Dict.collect (rules.items.flatMap fun rule =>
    rule.2.flatMap fun components => components.map fun c =>
        (c.inventorySku, rule.1))).get? key with
  | none => simp
  | some s =>
    rw [Option.map_some, Option.getD_some]
    exact (List.perm_insertionSort _ s).nodup_iff.mpr (Dict.mem_collect h).1

/-! ### The parts of a split -/

section Split

variable {total : ℤ} {consumers : List String} {weights : String → ℚ}

theorem positiveWeights_pos : ∀ w ∈ positiveWeights consumers weights, 0 < w := by
  intro w hw
  unfold positiveWeights at hw
  split_ifs at hw with h
  · obtain ⟨c, -, rfl⟩ := List.mem_map.mp hw
    exact one_pos
  · obtain ⟨c, hc, rfl⟩ := List.mem_map.mp hw
    simp only [List.any_eq_true, decide_eq_true_eq, not_exists, not_and, not_le] at h
    exact h c hc

theorem length_positiveWeights (consumers : List String) (weights : String → ℚ) :
    (positiveWeights consumers weights).length = consumers.length := by
  unfold positiveWeights
  split_ifs <;> simp

theorem sum_positiveWeights_pos (h : consumers ≠ []) :
    0 < (positiveWeights consumers weights).sum := by
  refine List.sum_pos _ positiveWeights_pos ?_
  intro h0
  have hlen := length_positiveWeights consumers weights
  rw [h0] at hlen
  exact h (List.length_eq_zero_iff.mp hlen.symm)

theorem length_rawShares : (rawShares total consumers weights).length = consumers.length := by
  rw [rawShares, List.length_map, length_positiveWeights]

theorem sum_rawShares (h : consumers ≠ []) : (rawShares total consumers weights).sum = total := by
  have hpos : 0 < (positiveWeights consumers weights).sum := sum_positiveWeights_pos h
  have hmap : rawShares total consumers weights = (positiveWeights consumers weights).map fun w =>
      w * (total / (positiveWeights consumers weights).sum) := by
    refine List.map_congr_left fun w _ => ?_
    ring
  rw [hmap, List.sum_map_mul_right, List.map_id']
  field_simp

theorem fractionalOrder_perm (shares : List ℚ) :
    (fractionalOrder consumers shares).Perm (List.range consumers.length) :=
  List.perm_insertionSort _ _

theorem map_fst_allocate :
    (allocateIntegerQuantity total consumers weights).map Prod.fst = consumers := by
  unfold allocateIntegerQuantity
  split_ifs
  · simp [Function.comp_def]
  · split
    · rfl
    · rfl
    · rw [List.map_fst_zip]
      simp [length_rawShares]

theorem length_allocate :
    (allocateIntegerQuantity total consumers weights).length = consumers.length := by
  rw [← List.length_map (f := Prod.fst), map_fst_allocate]

/-- **The parts of a component add up to its stock**, a negative stock counting as none. -/
theorem sum_allocate (h : consumers ≠ []) :
    ((allocateIntegerQuantity total consumers weights).map Prod.snd).sum = max total 0 := by
  unfold allocateIntegerQuantity
  split_ifs with h0
  · rw [max_eq_right h0]
    simp [Function.comp_def]
  · have hpos : max total 0 = total := max_eq_left (by omega)
    rw [hpos]
    split
    · exact absurd rfl h
    · simp
    · rw [List.map_snd_zip (by simp [length_rawShares])]
      refine Apportion.sum_apportion (sum_rawShares h) ?_
      rw [length_rawShares]
      exact fractionalOrder_perm _

theorem rawShares_nonneg (ht : 0 ≤ total) : ∀ x ∈ rawShares total consumers weights, 0 ≤ x := by
  intro x hx
  obtain ⟨w, hw, rfl⟩ := List.mem_map.mp hx
  have hsum : 0 ≤ (positiveWeights consumers weights).sum :=
    List.sum_nonneg fun y hy => (positiveWeights_pos y hy).le
  have hw0 := (positiveWeights_pos w hw).le
  have ht' : (0 : ℚ) ≤ total := by exact_mod_cast ht
  positivity

/-- No part is below its share rounded down. -/
theorem floor_le_allocate (ht : 0 < total) {i : ℕ} {p : String × ℤ} {x : ℚ}
    (hp : (allocateIntegerQuantity total consumers weights)[i]? = some p)
    (hx : (rawShares total consumers weights)[i]? = some x) : ⌊x⌋ ≤ p.2 := by
  unfold allocateIntegerQuantity at hp
  rw [if_neg (not_le.mpr ht)] at hp
  split at hp
  · simp at hp
  · -- one consumer: its share is the whole stock
    rename_i consumer
    have hsum : (rawShares total [consumer] weights).sum = total :=
      sum_rawShares (List.cons_ne_nil _ _)
    obtain ⟨y, hy⟩ := List.length_eq_one_iff.mp
      (length_rawShares : (rawShares total [consumer] weights).length = 1)
    rw [hy, List.sum_singleton] at hsum
    obtain ⟨rfl, rfl⟩ : i = 0 ∧ (consumer, total) = p := by simpa [List.getElem?_singleton] using hp
    rw [hy] at hx
    obtain rfl : y = x := by simpa using hx
    rw [hsum, Int.floor_intCast]
  · exact Apportion.floor_le_apportion hx (List.getElem?_zip_eq_some.mp hp).2

theorem allocate_nonneg : ∀ p ∈ allocateIntegerQuantity total consumers weights, 0 ≤ p.2 := by
  intro p hp
  rcases le_or_gt total 0 with h0 | h0
  · unfold allocateIntegerQuantity at hp
    rw [if_pos h0] at hp
    obtain ⟨c, -, rfl⟩ := List.mem_map.mp hp
    exact le_rfl
  · obtain ⟨i, hi, hpi⟩ := List.getElem_of_mem hp
    have hlen : i < (rawShares total consumers weights).length := by
      rw [length_rawShares, ← length_allocate]
      exact hi
    have hfloor := floor_le_allocate h0 (by rw [List.getElem?_eq_getElem hi, hpi])
      (List.getElem?_eq_getElem hlen)
    have hx : 0 ≤ (rawShares total consumers weights)[i] :=
      rawShares_nonneg h0.le _ (List.getElem_mem hlen)
    exact (Int.floor_nonneg.mpr hx).trans hfloor

/-- A consumer whose share is at least `n` gets at least `n`. -/
theorem le_allocate (ht : 0 < total) (hw : ∀ c ∈ consumers, 0 < weights c) {sku : String} {q n : ℤ}
    (hq : (sku, q) ∈ allocateIntegerQuantity total consumers weights)
    (hn : n * (consumers.map weights).sum ≤ total * weights sku) : n ≤ q := by
  obtain ⟨i, hi, hqi⟩ := List.getElem_of_mem hq
  have hused : positiveWeights consumers weights = consumers.map weights := by
    rw [positiveWeights, if_neg]
    simpa [List.any_eq_true] using hw
  have hic : i < consumers.length := length_allocate ▸ hi
  have hsku : consumers[i] = sku := by
    have h := congrArg (·[i]?)
      (map_fst_allocate : (allocateIntegerQuantity total consumers weights).map _ = _)
    simpa [hi, hic, hqi] using h.symm
  have hpos : 0 < (consumers.map weights).sum :=
    hused ▸ sum_positiveWeights_pos (List.ne_nil_of_length_pos (by omega))
  have hx : (rawShares total consumers weights)[i]? =
      some (total * weights sku / (consumers.map weights).sum) := by
    simp [rawShares, hused, hic, hsku]
  refine le_trans (Int.le_floor.mpr ?_)
    (floor_le_allocate ht (by rw [List.getElem?_eq_getElem hi, hqi]) hx)
  rw [le_div_iff₀ hpos]
  exact hn

end Split

/-! ### The weights of a country -/

theorem get?_foldl_addWeight :
    ∀ (l : List (String × String × ℚ)) (weights : Dict String (Dict String ℚ))
    (flat : Dict (String × String) ℚ), (∀ c s, (weights.getD c .empty).get? s = flat.get? (c, s)) →
    ∀ c s, ((l.foldl addWeight weights).getD c .empty).get? s =
      ((l.map fun e => ((e.1, e.2.1), e.2.2)).foldl (fun d p => d.set p.1 p.2) flat).get? (c, s)
  | [], _, _, h, c, s => h c s
  | (c₀, s₀, w) :: l, weights, flat, h, c, s => by
    rw [List.foldl_cons, List.map_cons, List.foldl_cons]
    refine get?_foldl_addWeight l _ _ (fun c' s' => ?_) c s
    rw [addWeight, Dict.getD, Dict.get?_set, Dict.get?_set]
    by_cases hc : c' = c₀
    · rw [if_pos hc, Option.getD_some, Dict.get?_set, h, hc]
      by_cases hs : s' = s₀
      · rw [if_pos hs, hs, if_pos rfl]
      · rw [if_neg hs, if_neg fun he => hs (Prod.mk.inj he).2]
    · rw [if_neg hc, if_neg fun he => hc (Prod.mk.inj he).1]
      exact h c' s'

/-- The weight of a commodity in a country is its sales there. -/
theorem get?_countryWeightsBySku (velocity : Velocity) (country sku : String) :
    ((countryWeightsBySku velocity).getD country .empty).get? sku =
      (velocity.get? sku).bind fun countryMap => countryMap.get? country := by
  rw [countryWeightsBySku, get?_foldl_addWeight _ _ Dict.empty (fun _ _ => rfl)]
  have hmem : ∀ w, ((country, sku), w) ∈ ((velocity.items.flatMap fun p => p.2.items.map fun q =>
        (q.1, p.1, q.2)).map fun e => ((e.1, e.2.1), e.2.2)) ↔
      (velocity.get? sku).bind (fun countryMap => countryMap.get? country) = some w := by
    intro w
    simp only [List.mem_map, List.mem_flatMap, Option.bind_eq_some_iff, Dict.get?_eq_some_iff,
      Prod.exists, Prod.mk.injEq]
    constructor
    · rintro ⟨c, s, w', ⟨s', m, hm, c', w'', hc, rfl, rfl, rfl⟩, ⟨rfl, rfl⟩, rfl⟩
      exact ⟨m, hm, hc⟩
    · rintro ⟨m, hm, hc⟩
      exact ⟨country, sku, w, ⟨sku, m, hm, country, w, hc, rfl, rfl, rfl⟩, ⟨rfl, rfl⟩, rfl⟩
  apply Option.ext
  intro w
  rw [← hmem]
  refine Dict.get?_ofList_iff fun v v' hv hv' => ?_
  rw [hmem] at hv hv'
  exact Option.some.inj (hv.symm.trans hv')

/-! ### The parts by warehouse -/

/-- The weights for the stock of a country. -/
def weightsFor (weightsByCountry : Dict String (Dict String ℚ))
    (fixedWeightCountry country : Option String) (sku : String) :
    ℚ := (weightsByCountry.getD (fixedWeightCountry.getD (textOr country)) .empty).getD sku 0

/-- The weights of `compute_mapped_stock_by_country` in a warehouse of the country. -/
def weightsIn (velocity : Option Velocity) (country : Option String) (sku : String) : ℚ :=
  ((velocity.elim Dict.empty countryWeightsBySku).getD (textOr country) .empty).getD sku 0

section Parts

variable {rules : MappingRules} {componentStock : ComponentStock}
    {weightsByCountry : Dict String (Dict String ℚ)}
  {fixedWeightCountry : Option String}

/-- What the commodity gets of the stock of a component in a warehouse. -/
theorem get?_buildComponentAllocation {sku key warehouseId : String} {stock : WarehouseStock} :
    (buildComponentAllocation rules componentStock weightsByCountry fixedWeightCountry).get?
        (sku, key, warehouseId) = some stock ↔
      ∃ kept, componentStock.get? (key, warehouseId) = some kept ∧ stock.country = kept.country ∧
        (sku, stock.total) ∈ allocateIntegerQuantity kept.total
          ((mappingComponentConsumers rules).getD key [])
          (weightsFor weightsByCountry fixedWeightCountry kept.country) := by
  have hmem : ∀ v : WarehouseStock,
      ((sku, key, warehouseId), v) ∈ (componentStock.items.flatMap fun entry =>
        (allocateIntegerQuantity entry.2.total ((mappingComponentConsumers rules).getD entry.1.1 [])
          (weightsFor weightsByCountry fixedWeightCountry entry.2.country)).map fun split =>
            ((split.1, entry.1.1, entry.1.2), (⟨entry.2.country, split.2⟩ : WarehouseStock))) ↔
      ∃ kept, componentStock.get? (key, warehouseId) = some kept ∧ v.country = kept.country ∧
        (sku, v.total) ∈ allocateIntegerQuantity kept.total
          ((mappingComponentConsumers rules).getD key [])
          (weightsFor weightsByCountry fixedWeightCountry kept.country) := by
    intro v
    simp only [List.mem_flatMap, List.mem_map, Dict.get?_eq_some_iff, Prod.exists, Prod.mk.injEq]
    constructor
    · rintro ⟨k, w, kept, hk, s, n, hs, ⟨rfl, rfl, rfl⟩, rfl⟩
      exact ⟨kept, hk, rfl, hs⟩
    · rintro ⟨kept, hk, hc, hs⟩
      refine ⟨key, warehouseId, kept, hk, sku, v.total, hs, ⟨rfl, rfl, rfl⟩, ?_⟩
      rw [← hc]
  have hfst : ∀ kept : WarehouseStock, ((allocateIntegerQuantity kept.total
      ((mappingComponentConsumers rules).getD key [])
      (weightsFor weightsByCountry fixedWeightCountry kept.country)).map Prod.fst).Nodup := by
    intro kept
    rw [map_fst_allocate]
    exact consumers_nodup rules key
  rw [← hmem]
  refine Dict.get?_ofList_iff fun v v' hv hv' => ?_
  obtain ⟨kept, hk, hc, hs⟩ := (hmem v).mp hv
  obtain ⟨kept', hk', hc', hs'⟩ := (hmem v').mp hv'
  obtain rfl : kept = kept' := Option.some.inj (hk.symm.trans hk')
  have ht : v.total = v'.total :=
    Option.some.inj (((Dict.lookup_eq_some_iff (hfst kept)).mpr hs).symm.trans
      ((Dict.lookup_eq_some_iff (hfst kept)).mpr hs'))
  calc v = ⟨v.country, v.total⟩ := rfl
    _ = ⟨v'.country, v'.total⟩ := by rw [hc.trans hc'.symm, ht]
    _ = v' := rfl

/-- The units of that part. -/
theorem total_buildComponentAllocation (sku key warehouseId : String) :
    ((buildComponentAllocation rules componentStock weightsByCountry fixedWeightCountry).get?
      (sku, key, warehouseId)).map WarehouseStock.total =
    (componentStock.get? (key, warehouseId)).bind fun kept =>
      (allocateIntegerQuantity kept.total ((mappingComponentConsumers rules).getD key [])
        (weightsFor weightsByCountry fixedWeightCountry kept.country)).lookup sku := by
  have hnd : ∀ kept : WarehouseStock, ((allocateIntegerQuantity kept.total
      ((mappingComponentConsumers rules).getD key [])
      (weightsFor weightsByCountry fixedWeightCountry kept.country)).map Prod.fst).Nodup :=
    fun kept => by rw [map_fst_allocate]; exact consumers_nodup rules key
  apply Option.ext
  intro n
  rw [Option.map_eq_some_iff, Option.bind_eq_some_iff]
  constructor
  · intro h
    obtain ⟨stock, hs, rfl⟩ := h
    obtain ⟨kept, hk, -, hm⟩ := get?_buildComponentAllocation.mp hs
    exact ⟨kept, hk, (Dict.lookup_eq_some_iff (hnd kept)).mpr hm⟩
  · intro h
    obtain ⟨kept, hk, hl⟩ := h
    exact ⟨⟨kept.country, n⟩,
      get?_buildComponentAllocation.mpr ⟨kept, hk, rfl, (Dict.lookup_eq_some_iff (hnd kept)).mp hl⟩,
        rfl⟩

theorem total_buildComponentAllocation_nonneg {sku key warehouseId : String} {n : ℤ}
    (h : ((buildComponentAllocation rules componentStock weightsByCountry fixedWeightCountry).get?
      (sku, key, warehouseId)).map WarehouseStock.total = some n) : 0 ≤ n := by
  rw [total_buildComponentAllocation, Option.bind_eq_some_iff] at h
  obtain ⟨kept, -, hl⟩ := h
  refine allocate_nonneg (sku, n) ((Dict.lookup_eq_some_iff ?_).mp hl)
  rw [map_fst_allocate]
  exact consumers_nodup rules key

/-- **The parts of different commodities fit into the stock together.** -/
theorem sum_parts_le {skus : List String} (hnd : skus.Nodup) (key warehouseId : String) :
    (skus.map fun sku => (((buildComponentAllocation rules componentStock weightsByCountry
      fixedWeightCountry).get?
      (sku, key, warehouseId)).map WarehouseStock.total).getD 0).sum ≤
      max ((componentStock.get? (key, warehouseId)).elim 0 WarehouseStock.total) 0 := by
  simp only [total_buildComponentAllocation]
  cases componentStock.get? (key, warehouseId) with
  | none => simp
  | some kept =>
    refine (Sums.sum_lookup_le _ allocate_nonneg skus hnd).trans ?_
    rw [Option.elim_some]
    by_cases hc : (mappingComponentConsumers rules).getD key [] = []
    · rw [hc]
      have hnil : allocateIntegerQuantity kept.total []
          (weightsFor weightsByCountry fixedWeightCountry kept.country) = [] :=
        List.length_eq_zero_iff.mp length_allocate
      rw [hnil]
      exact le_max_right _ _
    · rw [sum_allocate hc]

end Parts

/-! ### What is assembled -/

section Assembled

variable {part : String → Option ℤ}

/-- From a count of its own the loop goes down only, and never below 0. -/
theorem buildable_some (hpart : ∀ sku total, part sku = some total → 0 ≤ total) :
    ∀ (group : MappingGroup), (∀ c ∈ group, 0 < c.quantity) → ∀ (a : ℤ), 0 ≤ a →
      ∃ b, buildable part (some a) group = some b ∧ 0 ≤ b ∧ b ≤ a ∧
        ∀ c ∈ group, b * c.quantity ≤ (part c.inventorySku).getD 0
  | [], _, a, ha => ⟨a, rfl, ha, le_rfl, by simp⟩
  | c :: group, hpos, a, ha => by
    have hq : (0 : ℤ) < c.quantity := by exact_mod_cast hpos c List.mem_cons_self
    cases hc : part c.inventorySku with
    | none =>
      refine ⟨0, by simp [buildable, hc], le_rfl, ha, fun d hd => ?_⟩
      rw [zero_mul]
      cases hd' : part d.inventorySku with
      | none => exact le_rfl
      | some total => exact hpart _ _ hd'
    | some total =>
      have h0 := hpart _ _ hc
      have hdiv : 0 ≤ total / (c.quantity : ℤ) := Int.ediv_nonneg h0 hq.le
      obtain ⟨b, hb, hb0, hle, hall⟩ := buildable_some hpart group
        (fun d hd => hpos d (List.mem_cons_of_mem _ hd)) (min a (total / c.quantity))
          (le_min ha hdiv)
      refine ⟨b, by simpa [buildable, hc] using hb, hb0, hle.trans (min_le_left _ _), fun d hd => ?_⟩
      rcases List.mem_cons.mp hd with rfl | hd
      · rw [hc, Option.getD_some]
        calc b * (d.quantity : ℤ) ≤ total / d.quantity * d.quantity :=
              mul_le_mul_of_nonneg_right (hle.trans (min_le_right _ _)) hq.le
          _ ≤ total := Int.ediv_mul_le _ hq.ne'
      · exact hall d hd

/-- **What is assembled needs no more of a component than its part.** -/
theorem buildable_mul_le (hpart : ∀ sku total, part sku = some total → 0 ≤ total)
    {group : MappingGroup} (hpos : ∀ c ∈ group, 0 < c.quantity) {b : ℤ}
    (hb : buildable part none group = some b) :
    0 ≤ b ∧ ∀ c ∈ group, b * c.quantity ≤ (part c.inventorySku).getD 0 := by
  cases group with
  | nil => simp [buildable] at hb
  | cons c group =>
    -- the first component sets the count that the others lower
    have hstart : buildable part none (c :: group) =
        buildable part (some ((part c.inventorySku).elim 0 (· / (c.quantity : ℤ))))
            (c :: group) := by
      cases hc : part c.inventorySku <;> simp [buildable, hc]
    have hq : (0 : ℤ) < c.quantity := by exact_mod_cast hpos c List.mem_cons_self
    have h0 : 0 ≤ (part c.inventorySku).elim 0 (· / (c.quantity : ℤ)) := by
      cases hc : part c.inventorySku with
      | none => exact le_rfl
      | some total => exact Int.ediv_nonneg (hpart _ _ hc) hq.le
    obtain ⟨b', hb', hb0, -, hall⟩ := buildable_some hpart (c :: group) hpos _ h0
    rw [hstart, hb'] at hb
    obtain rfl := Option.some.inj hb
    exact ⟨hb0, hall⟩

theorem le_buildable_some {x : ℤ} : ∀ (group : MappingGroup), (∀ c ∈ group, 0 < c.quantity) →
    (∀ c ∈ group, ∃ total, part c.inventorySku = some total ∧ x * c.quantity ≤ total) → ∀ a, x ≤ a →
      ∃ b, buildable part (some a) group = some b ∧ x ≤ b
  | [], _, _, a, ha => ⟨a, rfl, ha⟩
  | c :: group, hpos, hpart, a, ha => by
    have hq : (0 : ℤ) < c.quantity := by exact_mod_cast hpos c List.mem_cons_self
    obtain ⟨total, hc, hx⟩ := hpart c List.mem_cons_self
    have hdiv : x ≤ total / (c.quantity : ℤ) := (Int.le_ediv_iff_mul_le hq).mpr hx
    obtain ⟨b, hb, hxb⟩ := le_buildable_some group (fun d hd => hpos d (List.mem_cons_of_mem _ hd))
      (fun d hd => hpart d (List.mem_cons_of_mem _ hd)) (min a (total / c.quantity))
        (le_min ha hdiv)
    exact ⟨b, by simpa [buildable, hc] using hb, hxb⟩

/-- Where every part suffices for `x` units, at least `x` are assembled. -/
theorem le_buildable {x : ℤ} {group : MappingGroup} (hne : group ≠ [])
    (hpos : ∀ c ∈ group, 0 < c.quantity)
    (hpart : ∀ c ∈ group, ∃ total, part c.inventorySku = some total ∧ x * c.quantity ≤ total) :
    ∃ b, buildable part none group = some b ∧ x ≤ b := by
  obtain ⟨c, group, rfl⟩ := List.exists_cons_of_ne_nil hne
  have hq : (0 : ℤ) < c.quantity := by exact_mod_cast hpos c List.mem_cons_self
  obtain ⟨total, hc, hx⟩ := hpart c List.mem_cons_self
  have hdiv : x ≤ total / (c.quantity : ℤ) := (Int.le_ediv_iff_mul_le hq).mpr hx
  obtain ⟨b, hb, hxb⟩ := le_buildable_some group (fun d hd => hpos d (List.mem_cons_of_mem _ hd))
    (fun d hd => hpart d (List.mem_cons_of_mem _ hd)) _ hdiv
  exact ⟨b, by simpa [buildable, hc] using hb, hxb⟩

end Assembled

/-! ### What is counted -/

/-- **The stock of a commodity in a country** is what its groups assemble in the
warehouses of that country. -/
theorem getD_computeMappedStockByCountry (U : CharTable) (rules : MappingRules)
    (componentStock : ComponentStock) (velocity : Option Velocity) (sku country : String) :
    (computeMappedStockByCountry U rules componentStock velocity).getD (sku, country) 0 =
      (((warehouseIds componentStock).filter fun w => textOr (countryByWarehouse componentStock w) =
        country).map
        fun w => ((rules.getD sku []).map fun components =>
          (assembledUnits U rules componentStock velocity sku w components).getD 0).sum).sum := by
  have hgroup : ∀ (s w : String) (groups : List MappingGroup),
      (Dict.valuesAt (groups.filterMap fun components =>
        (assembledUnits U rules componentStock velocity s w components).map fun n =>
          ((s, textOr (countryByWarehouse componentStock w)), n)) (sku, country)).sum =
      if s = sku ∧ textOr (countryByWarehouse componentStock w) = country then
        (groups.map fun components =>
          (assembledUnits U rules componentStock velocity s w components).getD 0).sum
      else 0 := by
    intro s w groups
    rw [Dict.valuesAt_filterMap_const, apply_ite List.sum, Sums.sum_filterMap, List.sum_nil]
    simp only [Prod.mk.injEq]
  rw [computeMappedStockByCountry, Dict.getD_sumBy, Dict.valuesAt_flatMap, Sums.sum_flatMap,
    Dict.sum_items rules _ sku]
  · rw [Dict.getD]
    cases rules.get? sku with
    | none => simp
    | some groups =>
      simp only [Option.elim_some, Option.getD_some, Dict.valuesAt_flatMap, Sums.sum_flatMap,
        hgroup, true_and]
      rw [Sums.sum_map_filter]
      simp only [decide_eq_true_eq]
  · intro rule _ hne
    simp only [Dict.valuesAt_flatMap, Sums.sum_flatMap, hgroup, hne, false_and, if_false]
    simp

end Restock
