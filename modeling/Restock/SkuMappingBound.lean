/-
# No component stock is promised twice

A warehouse counts a commodity once for every alternative group of its rule, all
of them from the one part the commodity has of each component, and of two aliases
of one physical item in a group the loader keeps the larger quantity instead of
the sum. So what is counted fits into the stock exactly if no rule reaches a
physical item twice (`OneUse`): in groups with different formulas, or with two
aliases in one group that is loaded (`needed_le_stock_iff`). A rule that was
written before its SKUs became aliases of one another can do both.
-/
import Restock.SkuMapping

namespace Restock

open PyText

variable (U : CharTable) (table : RuleTable) (commoditySkus : Option (List String))
    (skuGroups : Dict String String)

/-- The units of a physical item that one group of a rule needs for what it
counts in the warehouse, as the rule is written. -/
def neededByGroup (componentStock : ComponentStock) (velocity : Option Velocity)
    (warehouseId key : String) (row : SkuMappingRule) (group : ℕ × MappingGroup) : ℤ :=
  (assembledUnits U (loadActiveMappingRules table commoditySkus skuGroups) componentStock velocity
    row.commoditySku warehouseId group.2).getD 0 * rawQuantity skuGroups row.components group.1 key

def neededByRow (componentStock : ComponentStock) (velocity : Option Velocity)
    (warehouseId key : String) (row : SkuMappingRule) : ℤ :=
  ((keptGroups skuGroups row.components).map
    (neededByGroup U table commoditySkus skuGroups componentStock velocity warehouseId key row)).sum

/-- The units that everything counted in the warehouse needs. -/
def needed (componentStock : ComponentStock) (velocity : Option Velocity)
    (warehouseId key : String) : ℤ :=
  ((activeRows table commoditySkus).map
    (neededByRow U table commoditySkus skuGroups componentStock velocity warehouseId key)).sum

def stockOf (componentStock : ComponentStock) (warehouseId key : String) : ℤ :=
  (componentStock.get? (key, warehouseId)).elim 0 WarehouseStock.total

/-- Every component of the stock goes by its group key. -/
def Normalised (componentStock : ComponentStock) : Prop :=
  ∀ entry ∈ componentStock.keys, ∃ sku, entry.1 = resolveSku skuGroups sku

/-- No group of a smaller number has the same formula. -/
def FirstOfFormula (components : List SkuMappingComponent) (groupNo : ℕ) : Prop :=
  ∀ no < groupNo, HasGroup components no →
    maxQuantity skuGroups components no ≠ maxQuantity skuGroups components groupNo

/-- The rule reaches a physical item in groups of one formula only, and by one
alias in a group that is loaded. -/
structure OneUse (row : SkuMappingRule) : Prop where
  formula : ∀ c ∈ row.components, ∀ d ∈ row.components,
    resolveSku skuGroups c.inventorySku = resolveSku skuGroups d.inventorySku →
      maxQuantity skuGroups row.components c.groupNo =
        maxQuantity skuGroups row.components d.groupNo
  listed : ∀ c ∈ row.components, ∀ d ∈ row.components,
    resolveSku skuGroups c.inventorySku = resolveSku skuGroups d.inventorySku →
      c.groupNo = d.groupNo → FirstOfFormula skuGroups row.components c.groupNo → c = d

/-! ### Quantities of a group -/

section Quantities

variable {skuGroups} {components : List SkuMappingComponent} {groupNo : ℕ} {key : String}

theorem mem_listedQuantities {q : ℕ} : q ∈ listedQuantities skuGroups components groupNo key ↔
    ∃ c ∈ components, (c.groupNo = groupNo ∧ resolveSku skuGroups c.inventorySku = key) ∧
    c.quantity = q := by
  simp [listedQuantities, and_assoc]

theorem le_foldr_max : ∀ {l : List ℕ} {q : ℕ}, q ∈ l → q ≤ l.foldr max 0
  | _ :: l, q, hq => by
    rw [List.foldr_cons]
    rcases List.mem_cons.mp hq with rfl | hq
    · exact le_max_left _ _
    · exact (le_foldr_max hq).trans (le_max_right _ _)

theorem foldr_max_le_sum : ∀ l : List ℕ, l.foldr max 0 ≤ l.sum
  | [] => le_rfl
  | a :: l => by
    have := foldr_max_le_sum l
    rw [List.foldr_cons, List.sum_cons]
    omega

theorem maxQuantity_le_rawQuantity : maxQuantity skuGroups components groupNo key ≤
    rawQuantity skuGroups components groupNo key := foldr_max_le_sum _

theorem maxQuantity_pos {c : SkuMappingComponent} (hc : c ∈ components) :
    0 < maxQuantity skuGroups components c.groupNo (resolveSku skuGroups c.inventorySku) :=
  lt_of_lt_of_le c.quantity_pos (le_foldr_max (mem_listedQuantities.mpr ⟨c, hc, ⟨rfl, rfl⟩, rfl⟩))

theorem exists_of_rawQuantity_ne_zero (h : rawQuantity skuGroups components groupNo key ≠ 0) :
    ∃ c ∈ components, c.groupNo = groupNo ∧ resolveSku skuGroups c.inventorySku = key := by
  by_contra hno
  push Not at hno
  have hnil : listedQuantities skuGroups components groupNo key = [] := by
    rw [List.eq_nil_iff_forall_not_mem]
    intro q hq
    obtain ⟨c, hc, hk, -⟩ := mem_listedQuantities.mp hq
    exact hno c hc hk.1 hk.2
  exact h (by rw [rawQuantity, hnil, List.sum_nil])

/-- An item that a group lists once: the rule asks the quantity of the formula. -/
theorem rawQuantity_eq_of_listed_once (hnd : (components.map (·.inventorySku)).Nodup)
    (h : ∀ c ∈ components, ∀ d ∈ components, c.groupNo = groupNo → d.groupNo = groupNo →
      resolveSku skuGroups c.inventorySku = key →
      resolveSku skuGroups d.inventorySku = key → c = d) :
    rawQuantity skuGroups components groupNo key =
    maxQuantity skuGroups components groupNo key := by
  unfold rawQuantity maxQuantity listedQuantities
  set l := components.filter fun c => c.groupNo = groupNo ∧
    resolveSku skuGroups c.inventorySku = key with hl
  have hnd' : l.Nodup := (List.Nodup.of_map _ hnd).sublist List.filter_sublist
  have hall : ∀ c ∈ l, c ∈ components ∧ c.groupNo = groupNo ∧
      resolveSku skuGroups c.inventorySku = key := by
    intro c hc
    rw [hl, List.mem_filter, decide_eq_true_eq] at hc
    exact hc
  rcases l with - | ⟨c, - | ⟨d, l⟩⟩
  · rfl
  · simp
  · obtain ⟨hc, hcg, hck⟩ := hall c (by simp)
    obtain ⟨hd, hdg, hdk⟩ := hall d (by simp)
    exact absurd (h c hc d hd hcg hdg hck hdk) fun he => by simp [he] at hnd'

theorem foldr_max_lt_sum : ∀ {l : List ℕ}, (∀ q ∈ l, 0 < q) → 2 ≤ l.length → l.foldr max 0 < l.sum
  | a :: b :: l, hpos, _ => by
    have ha := hpos a (by simp)
    have hb := hpos b (by simp)
    have hle := foldr_max_le_sum (b :: l)
    rw [List.foldr_cons, List.sum_cons]
    rw [List.sum_cons] at hle ⊢
    omega

/-- An item that a group lists twice: the rule asks more than the formula. -/
theorem maxQuantity_lt_rawQuantity {c d : SkuMappingComponent} (hc : c ∈ components)
    (hd : d ∈ components) (hne : c ≠ d)
    (hk : resolveSku skuGroups c.inventorySku = resolveSku skuGroups d.inventorySku)
    (hg : c.groupNo = d.groupNo) :
    maxQuantity skuGroups components c.groupNo (resolveSku skuGroups c.inventorySku) <
      rawQuantity skuGroups components c.groupNo (resolveSku skuGroups c.inventorySku) := by
  refine foldr_max_lt_sum (fun q hq => ?_) ?_
  · obtain ⟨e, -, -, rfl⟩ := mem_listedQuantities.mp hq
    exact e.quantity_pos
  · unfold listedQuantities
    rw [List.length_map]
    set l := components.filter fun x =>
      x.groupNo = c.groupNo ∧
        resolveSku skuGroups x.inventorySku = resolveSku skuGroups c.inventorySku with hl
    have hcl : c ∈ l := by simp [hl, hc]
    have hdl : d ∈ l := by simp [hl, hd, hk, hg]
    rcases l with - | ⟨a, - | ⟨b, l⟩⟩
    · simp at hcl
    · rw [List.mem_singleton] at hcl hdl
      exact absurd (hcl.trans hdl.symm) hne
    · simp

end Quantities

/-! ### Parts and counts -/

section Parts

variable {rules : MappingRules} {componentStock : ComponentStock} {velocity : Option Velocity}

/-- What the commodity gets of the stock of `key` in the warehouse. -/
def partOf (rules : MappingRules) (componentStock : ComponentStock) (velocity : Option Velocity)
    (sku warehouseId key : String) : Option ℤ :=
  ((allocationByCountry rules componentStock velocity).get? (sku, key, warehouseId)).map
    WarehouseStock.total

theorem partOf_eq (sku warehouseId key : String) :
    partOf rules componentStock velocity sku warehouseId key =
    (componentStock.get? (key, warehouseId)).bind fun kept =>
      (allocateIntegerQuantity kept.total ((mappingComponentConsumers rules).getD key [])
        (weightsIn velocity kept.country)).lookup sku :=
  total_buildComponentAllocation sku key warehouseId

theorem partOf_nonneg {sku warehouseId key : String} {n : ℤ}
    (h : partOf rules componentStock velocity sku warehouseId key = some n) : 0 ≤ n :=
  total_buildComponentAllocation_nonneg h

theorem sum_partOf_le (rules : MappingRules) (componentStock : ComponentStock)
    (velocity : Option Velocity) {skus : List String} (hnd : skus.Nodup)
    (warehouseId key : String) :
    (skus.map fun sku => (partOf rules componentStock velocity sku warehouseId key).getD 0).sum ≤
      max (stockOf componentStock warehouseId key) 0 := sum_parts_le hnd key warehouseId

/-- **What is counted needs no more of a component than its part.** -/
theorem units_mul_le {sku warehouseId : String} {group : MappingGroup}
    (hpos : ∀ c ∈ group, 0 < c.quantity) :
    0 ≤ (assembledUnits U rules componentStock velocity sku warehouseId group).getD 0 ∧
    ∀ c ∈ group, (assembledUnits U rules componentStock velocity sku warehouseId group).getD 0 *
      c.quantity ≤ (partOf rules componentStock velocity sku warehouseId c.inventorySku).getD
      0 := by
  have hpart : ∀ key n, partOf rules componentStock velocity sku warehouseId key = some n → 0 ≤ n :=
    fun _ _ => partOf_nonneg
  have hnone : ∀ c ∈ group, 0 * (c.quantity : ℤ) ≤
      (partOf rules componentStock velocity sku warehouseId c.inventorySku).getD 0 := by
    intro c _
    rw [zero_mul]
    cases h : partOf rules componentStock velocity sku warehouseId c.inventorySku with
    | none => exact le_rfl
    | some n => exact hpart _ _ h
  cases hu : assembledUnits U rules componentStock velocity sku warehouseId group with
  | none => exact ⟨le_rfl, hnone⟩
  | some b =>
    unfold assembledUnits at hu
    split at hu
    · exact absurd hu (by simp)
    · split_ifs at hu
      exact buildable_mul_le hpart hpos hu

/-- Where every part suffices for `x` units, at least `x` are counted. -/
theorem le_assembledUnits {sku warehouseId country : String} {group : MappingGroup} {x : ℤ}
    (hcountry : countryByWarehouse componentStock warehouseId = some country)
    (hreport : isReportableCountryCode U (.str country) = true) (hne : group ≠ [])
    (hpos : ∀ c ∈ group, 0 < c.quantity)
    (hparts : ∀ c ∈ group, ∃ n,
      partOf rules componentStock velocity sku warehouseId c.inventorySku = some n ∧
      x * c.quantity ≤ n) :
    x ≤ (assembledUnits U rules componentStock velocity sku warehouseId group).getD 0 := by
  obtain ⟨b, hb, hxb⟩ := le_buildable hne hpos hparts
  have hsignal : (group.any fun c => (c.inventorySku, warehouseId) ∈ componentStock.keys) =
      true := by
    obtain ⟨c, hc⟩ := List.exists_mem_of_ne_nil group hne
    obtain ⟨n, hn, -⟩ := hparts c hc
    rw [partOf_eq, Option.bind_eq_some_iff] at hn
    obtain ⟨kept, hkept, -⟩ := hn
    exact List.any_eq_true.mpr ⟨c, hc, decide_eq_true (Dict.mem_keys_iff.mpr ⟨kept, hkept⟩)⟩
  have hunits : assembledUnits U rules componentStock velocity sku warehouseId group = some b := by
    unfold assembledUnits
    rw [hcountry]
    simp only [hreport, hsignal, Bool.not_true, Bool.false_eq_true, if_false]
    exact hb
  rw [hunits, Option.getD_some]
  exact hxb

end Parts

/-! ### What is counted fits -/

section Fits

variable {table commoditySkus skuGroups} {componentStock : ComponentStock}
    {velocity : Option Velocity}

theorem quantity_pos_of_kept {components : List SkuMappingComponent} {group : ℕ × MappingGroup}
    (h : group ∈ keptGroups skuGroups components) : ∀ c ∈ group.2, 0 < c.quantity := fun c hc =>
  (((formula_keptGroup skuGroups h).mem c).mp hc).2

/-- Every component of a loaded group is one of the rule. -/
theorem exists_component_of_kept {components : List SkuMappingComponent} {group : ℕ × MappingGroup}
    (hg : group ∈ keptGroups skuGroups components) {m : MappingComponent} (hm : m ∈ group.2) :
    ∃ c ∈ components, resolveSku skuGroups c.inventorySku = m.inventorySku := by
  obtain ⟨hq, hpos⟩ := ((formula_keptGroup skuGroups hg).mem m).mp hm
  have hraw : rawQuantity skuGroups components group.1 m.inventorySku ≠ 0 := by
    have hle : maxQuantity skuGroups components group.1 m.inventorySku ≤
      rawQuantity skuGroups components group.1 m.inventorySku := maxQuantity_le_rawQuantity
    omega
  obtain ⟨c, hc, -, hk⟩ := exists_of_rawQuantity_ne_zero hraw
  exact ⟨c, hc, hk⟩

theorem keptGroup_ne_nil {components : List SkuMappingComponent} {group : ℕ × MappingGroup}
    (hg : group ∈ keptGroups skuGroups components) : group.2 ≠ [] := by
  obtain ⟨⟨c, hc, hno⟩, -, -⟩ := (mem_keptGroups skuGroups).mp hg
  refine List.ne_nil_of_mem
    (((formula_keptGroup skuGroups hg).mem
    ⟨resolveSku skuGroups c.inventorySku,
    maxQuantity skuGroups components group.1 (resolveSku skuGroups c.inventorySku)⟩).mpr ⟨rfl, ?_⟩)
  rw [← hno]
  exact maxQuantity_pos hc

theorem neededByGroup_nonneg {row : SkuMappingRule} (warehouseId key : String) :
    ∀ group ∈ keptGroups skuGroups row.components,
      0 ≤ neededByGroup U table commoditySkus skuGroups componentStock velocity warehouseId key
      row group := by
  intro group hg
  exact mul_nonneg (units_mul_le U (quantity_pos_of_kept hg)).1 (by positivity)

/-- A rule that reaches an item once needs no more of it than its part. -/
theorem neededByRow_le {row : SkuMappingRule} (h : OneUse skuGroups row)
    (warehouseId key : String) :
    neededByRow U table commoditySkus skuGroups componentStock velocity warehouseId key row ≤
      (partOf (loadActiveMappingRules table commoditySkus skuGroups)
        componentStock velocity row.commoditySku
        warehouseId key).getD 0 := by
  set part := partOf (loadActiveMappingRules table commoditySkus skuGroups)
    componentStock velocity row.commoditySku
    warehouseId key with hpart
  have hpart0 : 0 ≤ part.getD 0 := by
    cases hp : part with
    | none => exact le_rfl
    | some n => exact partOf_nonneg (hpart ▸ hp)
  refine Sums.sum_le_of_unique hpart0 (keptGroups_nodup skuGroups row.components) ?_ ?_
  · rintro ⟨no, group⟩ hg
    unfold neededByGroup
    by_cases hraw : rawQuantity skuGroups row.components no key = 0
    · rw [hraw]
      simpa using hpart0
    · obtain ⟨c, hc, rfl, rfl⟩ := exists_of_rawQuantity_ne_zero hraw
      -- the group lists the item once, so it asks what the loaded group asks
      have hfirst := ((mem_keptGroups skuGroups).mp hg).2.2
      have hq : rawQuantity skuGroups row.components c.groupNo
          (resolveSku skuGroups c.inventorySku) = maxQuantity skuGroups row.components c.groupNo
          (resolveSku skuGroups c.inventorySku) :=
        rawQuantity_eq_of_listed_once row.unique_skus fun d hd e he hdg heg hdk hek =>
          h.listed d hd e he (hdk.trans hek.symm) (hdg.trans heg.symm) (by rw [hdg]; exact hfirst)
      have hm : (⟨resolveSku skuGroups c.inventorySku,
          maxQuantity skuGroups row.components c.groupNo
          (resolveSku skuGroups c.inventorySku)⟩ : MappingComponent) ∈ group :=
        ((formula_keptGroup skuGroups hg).mem _).mpr ⟨rfl, maxQuantity_pos hc⟩
      rw [hq]
      exact (units_mul_le U (quantity_pos_of_kept hg)).2 _ hm
  · rintro ⟨no, group⟩ hg ⟨no', group'⟩ hg' hne hne'
    have hraw : rawQuantity skuGroups row.components no key ≠ 0 :=
      fun h0 => hne (by simp [neededByGroup, h0])
    have hraw' : rawQuantity skuGroups row.components no' key ≠ 0 :=
      fun h0 => hne' (by simp [neededByGroup, h0])
    obtain ⟨c, hc, rfl, rfl⟩ := exists_of_rawQuantity_ne_zero hraw
    obtain ⟨d, hd, rfl, hk⟩ := exists_of_rawQuantity_ne_zero hraw'
    have hf := h.formula c hc d hd hk.symm
    -- of the groups with one formula only the smallest number is kept
    obtain ⟨hn, hge, hfirst⟩ := (mem_keptGroups skuGroups).mp hg
    obtain ⟨hn', hge', hfirst'⟩ := (mem_keptGroups skuGroups).mp hg'
    rcases lt_trichotomy c.groupNo d.groupNo with hlt | he | hlt
    · exact absurd hf (hfirst' _ hlt hn)
    · rw [hge, hge', he]
    · exact absurd hf.symm (hfirst _ hlt hn')

theorem needed_le_stock (h : ∀ row ∈ activeRows table commoditySkus, OneUse skuGroups row)
    (warehouseId key : String) :
    needed U table commoditySkus skuGroups componentStock velocity warehouseId key ≤ max
    (stockOf componentStock warehouseId key) 0 := by
  have hrows : needed U table commoditySkus skuGroups componentStock velocity warehouseId key ≤
      ((activeRows table commoditySkus).map fun row =>
        (partOf (loadActiveMappingRules table commoditySkus skuGroups)
          componentStock velocity row.commoditySku
          warehouseId key).getD 0).sum :=
    List.sum_le_sum fun row hrow => neededByRow_le U (h row hrow) warehouseId key
  refine hrows.trans ?_
  rw [← Function.comp_def
    fun sku => (partOf (loadActiveMappingRules table commoditySkus skuGroups) componentStock
    velocity sku warehouseId key).getD 0, ← List.map_map]
  exact sum_partOf_le _ _ _ (activeRows_nodup table commoditySkus) warehouseId key

end Fits

/-! ### A stock that one commodity gets almost alone -/

section Alone

variable {table commoditySkus skuGroups}

/-- The physical items of the active rules. -/
def itemKeys (table : RuleTable) (commoditySkus : Option (List String))
    (skuGroups : Dict String String) : List String :=
  (activeRows table commoditySkus).flatMap fun row =>
    row.components.map fun c => resolveSku skuGroups c.inventorySku

/-- One American warehouse with `few` of one item and `many` of the others. -/
def stockAlone (table : RuleTable) (commoditySkus : Option (List String))
    (skuGroups : Dict String String) (key : String) (few many : ℤ) : ComponentStock :=
  Dict.ofList ((itemKeys table commoditySkus skuGroups).map fun k =>
    ((k, "W"), ⟨some "US", if k = key then few else many⟩))

/-- Every commodity sells one a day, `sku` sells `weight`. -/
def velocityAlone (table : RuleTable) (commoditySkus : Option (List String)) (sku : String)
    (weight : ℚ) : Velocity :=
  Dict.ofList ((activeRows table commoditySkus).map fun row =>
    (row.commoditySku, Dict.empty.set "US" (if row.commoditySku = sku then weight else 1)))

variable {key sku : String} {few many : ℤ} {weight : ℚ}

theorem get?_stockAlone {k w : String} {stock : WarehouseStock} :
    (stockAlone table commoditySkus skuGroups key few many).get? (k, w) = some stock ↔
      k ∈ itemKeys table commoditySkus skuGroups ∧ w = "W" ∧
        stock = ⟨some "US", if k = key then few else many⟩ := by
  have hmem : ∀ v : WarehouseStock,
      ((k, w), v) ∈ ((itemKeys table commoditySkus skuGroups).map fun k =>
        ((k, "W"), (⟨some "US", if k = key then few else many⟩ : WarehouseStock))) ↔
      k ∈ itemKeys table commoditySkus skuGroups ∧ w = "W" ∧
        v = ⟨some "US", if k = key then few else many⟩ := by
    intro v
    simp only [List.mem_map, Prod.mk.injEq]
    constructor
    · rintro ⟨k', hk', ⟨rfl, rfl⟩, rfl⟩
      exact ⟨hk', rfl, rfl⟩
    · rintro ⟨hk, rfl, rfl⟩
      exact ⟨k, hk, ⟨rfl, rfl⟩, rfl⟩
  rw [stockAlone, Dict.get?_ofList_iff, hmem]
  intro v v' hv hv'
  rw [((hmem v).mp hv).2.2, ((hmem v').mp hv').2.2]

theorem normalised_stockAlone :
    Normalised skuGroups (stockAlone table commoditySkus skuGroups key few many) := by
  rintro ⟨k, w⟩ hk
  obtain ⟨stock, hs⟩ := Dict.mem_keys_iff.mp hk
  obtain ⟨row, -, hm⟩ := List.mem_flatMap.mp (get?_stockAlone.mp hs).1
  obtain ⟨c, -, rfl⟩ := List.mem_map.mp hm
  exact ⟨c.inventorySku, rfl⟩

theorem countryByWarehouse_stockAlone (h : key ∈ itemKeys table commoditySkus skuGroups) :
    countryByWarehouse (stockAlone table commoditySkus skuGroups key few many) "W" = some "US" := by
  have hus : ∀ k w stock,
      ((k, w), stock) ∈ (stockAlone table commoditySkus skuGroups key few many).items →
      stock.country = some "US" := by
    intro k w stock hm
    rw [(get?_stockAlone.mp (Dict.get?_eq_some_iff.mpr hm)).2.2]
  have hitem := Dict.get?_eq_some_iff.mp (get?_stockAlone.mpr
    ⟨h, rfl, (rfl : (⟨some "US", if key = key then few else many⟩ : WarehouseStock) = _)⟩)
  rw [countryByWarehouse]
  cases hf : (stockAlone table commoditySkus skuGroups key few many).items.find? fun entry =>
    entry.1.2 = "W" ∧ textOr entry.2.country ≠ "" with
  | none =>
    have hno := List.find?_eq_none.mp hf _ hitem
    simp [textOr] at hno
  | some entry => exact hus _ _ _ (List.mem_of_find?_eq_some hf)

theorem weightsIn_velocityAlone {row : SkuMappingRule}
    (hrow : row ∈ activeRows table commoditySkus) :
    weightsIn (some (velocityAlone table commoditySkus sku weight)) (some "US") row.commoditySku =
      if row.commoditySku = sku then weight else 1 := by
  have hget : (velocityAlone table commoditySkus sku weight).get? row.commoditySku =
      some (Dict.empty.set "US" (if row.commoditySku = sku then weight else 1)) := by
    refine (Dict.get?_ofList_iff fun v v' hv hv' => ?_).mpr (List.mem_map.mpr ⟨row, hrow, rfl⟩)
    obtain ⟨r, -, he⟩ := List.mem_map.mp hv
    obtain ⟨r', -, he'⟩ := List.mem_map.mp hv'
    rw [← (Prod.mk.inj he).2, ← (Prod.mk.inj he').2, (Prod.mk.inj he).1, (Prod.mk.inj he').1]
  rw [weightsIn, Dict.getD, Option.elim_some, textOr, Option.getD_some,
    get?_countryWeightsBySku, hget]
  simp

theorem consumers_active {sku k : String} (h : sku ∈
    (mappingComponentConsumers (loadActiveMappingRules table commoditySkus skuGroups)).getD k []) :
    ∃ row ∈ activeRows table commoditySkus, row.commoditySku = sku := by
  obtain ⟨groups, hg, -⟩ := mem_consumers.mp h
  obtain ⟨row, hrow, hs, -⟩ :=
    (loadActiveMappingRules_get? skuGroups table commoditySkus sku groups).mp hg
  exact ⟨row, hrow, hs⟩

/-- A rule consumes every physical item that it lists. -/
theorem mem_consumers_of_component {row : SkuMappingRule}
    (hrow : row ∈ activeRows table commoditySkus) {c : SkuMappingComponent}
      (hc : c ∈ row.components) :
      row.commoditySku ∈ (mappingComponentConsumers
      (loadActiveMappingRules table commoditySkus skuGroups)).getD
        (resolveSku skuGroups c.inventorySku) [] := by
  obtain ⟨no, group, hk, hf⟩ :=
    exists_keptGroup skuGroups (⟨c, hc, rfl⟩ : HasGroup row.components c.groupNo)
  have hne : keptGroups skuGroups row.components ≠ [] := List.ne_nil_of_mem hk
  have hm : (⟨resolveSku skuGroups c.inventorySku, maxQuantity skuGroups row.components no
      (resolveSku skuGroups c.inventorySku)⟩ : MappingComponent) ∈ group := by
    refine ((formula_keptGroup skuGroups hk).mem _).mpr ⟨rfl, ?_⟩
    rw [hf]
    exact maxQuantity_pos hc
  exact mem_consumers.mpr ⟨_, (loadActiveMappingRules_get? skuGroups table commoditySkus _ _).mpr
    ⟨row, hrow, rfl, hne, rfl⟩, group, List.mem_map.mpr ⟨_, hk, rfl⟩, _, hm, rfl⟩

theorem sum_weights_le (consumers : List String) (hnd : consumers.Nodup) (weights : String → ℚ)
    (hw : 0 ≤ weight) (h : ∀ c ∈ consumers, weights c = if c = sku then weight else 1) :
    (consumers.map weights).sum ≤ weight + consumers.length := by
  induction consumers with
  | nil => simpa using hw
  | cons c consumers ih =>
    rw [List.nodup_cons] at hnd
    have ih := ih hnd.2 fun d hd => h d (List.mem_cons_of_mem _ hd)
    have hc := h c List.mem_cons_self
    rw [List.map_cons, List.sum_cons, List.length_cons]
    push_cast
    by_cases he : c = sku
    · -- the others weigh one each
      have hone : consumers.map weights = consumers.map fun _ => (1 : ℚ) := by
        refine List.map_congr_left fun d hd => ?_
        rw [h d (List.mem_cons_of_mem _ hd), if_neg]
        rintro rfl
        exact hnd.1 (he ▸ hd)
      rw [hc, if_pos he, hone]
      simp
    · rw [hc, if_neg he]
      linarith

/-- The commodity with the large weight gets all but one unit of a component. -/
theorem partOf_alone {row : SkuMappingRule} (hrow : row ∈ activeRows table commoditySkus)
    {c : SkuMappingComponent} (hc : c ∈ row.components) (hfew : 0 < few) (hmany : 0 < many) :
    ∃ n, partOf (loadActiveMappingRules table commoditySkus skuGroups)
        (stockAlone table commoditySkus skuGroups key few many)
        (some (velocityAlone table commoditySkus row.commoditySku
          ((few + many) * (activeRows table commoditySkus).length))) row.commoditySku "W"
        (resolveSku skuGroups c.inventorySku) = some n ∧
      (if resolveSku skuGroups c.inventorySku = key then few else many) - 1 ≤ n := by
  set total : ℤ := if resolveSku skuGroups c.inventorySku = key then few else many with htotal
  set weight : ℚ := (few + many) * (activeRows table commoditySkus).length with hweight
  set consumers := (mappingComponentConsumers
    (loadActiveMappingRules table commoditySkus skuGroups)).getD
    (resolveSku skuGroups c.inventorySku) [] with hcons
  set weights := weightsIn (some (velocityAlone table commoditySkus row.commoditySku weight))
    (some "US") with hws
  have hkeys : resolveSku skuGroups c.inventorySku ∈ itemKeys table commoditySkus skuGroups :=
    List.mem_flatMap.mpr ⟨row, hrow, List.mem_map.mpr ⟨c, hc, rfl⟩⟩
  have hstock := get?_stockAlone.mpr ⟨hkeys, rfl, (rfl : (⟨some "US", total⟩ : WarehouseStock) = _)⟩
  have hmem : row.commoditySku ∈ consumers := mem_consumers_of_component hrow hc
  have hweights : ∀ s ∈ consumers, weights s = if s = row.commoditySku then weight else 1 := by
    intro s hs
    obtain ⟨r, hr, rfl⟩ := consumers_active hs
    exact weightsIn_velocityAlone hr
  have hlen : 0 < (activeRows table commoditySkus).length := List.length_pos_of_mem hrow
  have hlen' : consumers.length ≤ (activeRows table commoditySkus).length := by
    rw [← List.length_map (f := fun r : SkuMappingRule => r.commoditySku)]
    refine (consumers_nodup _ _).subperm (fun s hs => ?_) |>.length_le
    obtain ⟨r, hr, rfl⟩ := consumers_active hs
    exact List.mem_map_of_mem hr
  have htotal0 : 0 < total := by rw [htotal]; split_ifs <;> assumption
  have htotal1 : total ≤ few + many := by rw [htotal]; split_ifs <;> omega
  have hweight0 : 0 < weight := by
    rw [hweight]
    have : (0 : ℚ) < few + many := by exact_mod_cast (by omega : 0 < few + many)
    positivity
  have hfst : (allocateIntegerQuantity total consumers weights).map Prod.fst = consumers :=
    map_fst_allocate
  obtain ⟨⟨s, n⟩, hn, hs⟩ := List.mem_map.mp (hfst.symm ▸ hmem)
  obtain rfl : s = row.commoditySku := hs
  refine ⟨n, ?_, le_allocate htotal0 ?_ hn ?_⟩
  · rw [partOf_eq, hstock, Option.bind_some, Dict.lookup_eq_some_iff]
    · exact hn
    · rw [map_fst_allocate]
      exact consumers_nodup _ _
  · intro s hs
    rw [hweights s hs]
    split_ifs
    · exact hweight0
    · exact one_pos
  · rw [hweights _ hmem, if_pos rfl]
    have hsum := sum_weights_le consumers (consumers_nodup _ _) weights hweight0.le hweights
    have hbound : (total : ℚ) * consumers.length ≤ weight := by
      rw [hweight]
      have h1 : (total : ℚ) ≤ few + many := by exact_mod_cast htotal1
      have h2 : (consumers.length : ℚ) ≤
        (activeRows table commoditySkus).length := by exact_mod_cast hlen'
      have h3 : (0 : ℚ) ≤ few + many := by exact_mod_cast (by omega : 0 ≤ few + many)
      exact mul_le_mul h1 h2 (by positivity) h3
    have h1 : (0 : ℚ) ≤ total - 1 := by
      have : (1 : ℚ) ≤ total := by exact_mod_cast htotal0
      linarith
    calc ((total - 1 : ℤ) : ℚ) * (consumers.map weights).sum
        ≤ (total - 1) * (weight + consumers.length) := by
          push_cast
          exact mul_le_mul_of_nonneg_left hsum h1
      _ = total * weight + (total * consumers.length - weight) - consumers.length := by ring
      _ ≤ total * weight := by
          have : (0 : ℚ) ≤ consumers.length := by positivity
          linarith

/-- The quantities of a rule are at most their sum. -/
theorem rawQuantity_le_sum (components : List SkuMappingComponent) (groupNo : ℕ) (k : String) :
    rawQuantity skuGroups components groupNo k ≤ (components.map (·.quantity)).sum :=
  (List.filter_sublist.map _).sum_le_sum fun _ _ => Nat.zero_le _

/-- For every amount of a physical item there is a stock with that amount of which
a rule counts, in every group, all that one unit less of the item allows. -/
theorem exists_stock_alone {row : SkuMappingRule} (hrow : row ∈ activeRows table commoditySkus)
    {c : SkuMappingComponent} (hc : c ∈ row.components)
    (hkey : resolveSku skuGroups c.inventorySku = key) (hfew : 0 < few) :
    ∃ componentStock velocity, Normalised skuGroups componentStock ∧
        stockOf componentStock "W" key = few ∧
        ∀ group ∈ keptGroups skuGroups row.components, ∀ x : ℤ, 0 ≤ x → x ≤ few →
        x * maxQuantity skuGroups row.components group.1 key ≤ few - 1 →
        x ≤ (assembledUnits U (loadActiveMappingRules table commoditySkus skuGroups)
        componentStock velocity
          row.commoditySku "W" group.2).getD 0 := by
  set bound : ℤ := (((row.components.map (·.quantity)).sum : ℕ) : ℤ) with hbound
  set many : ℤ := few * bound + 1 with hmany
  have hmany0 : 0 < many := by positivity
  set rules := loadActiveMappingRules table commoditySkus skuGroups with hrules
  set stock := stockAlone table commoditySkus skuGroups key few many with hstock
  set velocity := velocityAlone table commoditySkus row.commoditySku
    ((few + many) * (activeRows table commoditySkus).length) with hvelocity
  have hkeys : ∀ d ∈ row.components,
      resolveSku skuGroups d.inventorySku ∈ itemKeys table commoditySkus skuGroups := fun d hd =>
    List.mem_flatMap.mpr ⟨row, hrow, List.mem_map.mpr ⟨d, hd, rfl⟩⟩
  have hget : ∀ d ∈ row.components, stock.get? (resolveSku skuGroups d.inventorySku, "W") =
      some ⟨some "US", if resolveSku skuGroups d.inventorySku = key then few else many⟩ :=
          fun d hd =>
    get?_stockAlone.mpr ⟨hkeys d hd, rfl, rfl⟩
  refine ⟨stock, some velocity, normalised_stockAlone, ?_, ?_⟩
  · have := hget c hc
    rw [hkey, if_pos rfl] at this
    rw [stockOf, this, Option.elim_some]
  · rintro ⟨no, group⟩ hg x hx0 hx hxkey
    have hformula := formula_keptGroup skuGroups hg
    have hparts : ∀ m ∈ group, ∃ n,
        partOf rules stock (some velocity) row.commoditySku "W" m.inventorySku = some n ∧
            x * m.quantity ≤ n := by
      intro m hm
      obtain ⟨d, hd, hk⟩ := exists_component_of_kept hg hm
      obtain ⟨n, hn, hle⟩ : ∃ n, partOf rules stock (some velocity) row.commoditySku "W"
          (resolveSku skuGroups d.inventorySku) = some n ∧
          (if resolveSku skuGroups d.inventorySku = key then few else many) - 1 ≤ n :=
        partOf_alone hrow hd hfew hmany0
      rw [hk] at hn hle
      refine ⟨n, hn, le_trans ?_ hle⟩
      obtain ⟨hq, -⟩ := (hformula.mem m).mp hm
      split_ifs with he
      · rw [← hq, he]
        exact hxkey
      · have hqb : (m.quantity : ℤ) ≤ bound := by
          rw [← hq, hbound]
          exact_mod_cast maxQuantity_le_rawQuantity.trans (rawQuantity_le_sum _ _ _)
        calc x * (m.quantity : ℤ) ≤ few * bound := mul_le_mul hx hqb (by positivity) hfew.le
          _ = many - 1 := by rw [hmany]; ring
    exact le_assembledUnits U (countryByWarehouse_stockAlone (hkey ▸ hkeys c hc))
      (isReportable_US U)
      (keptGroup_ne_nil hg) (quantity_pos_of_kept hg) hparts

end Alone

/-! ### When what is counted fits -/

section Promise

variable {table commoditySkus skuGroups}

theorem neededByRow_nonneg (componentStock : ComponentStock) (velocity : Option Velocity)
    (warehouseId key : String) :
    ∀ row ∈ activeRows table commoditySkus,
      0 ≤ neededByRow U table commoditySkus skuGroups componentStock velocity warehouseId key row :=
  fun _ _ =>
  Sums.sum_nonneg (neededByGroup_nonneg U warehouseId key)

theorem mul_le_neededByGroup {componentStock : ComponentStock} {velocity : Option Velocity}
    {warehouseId key : String} {row : SkuMappingRule} {group : ℕ × MappingGroup} {x y : ℤ}
    (hx0 : 0 ≤ x) (hy0 : 0 ≤ y)
    (hx : x ≤ (assembledUnits U (loadActiveMappingRules table commoditySkus skuGroups)
    componentStock velocity
      row.commoditySku warehouseId group.2).getD 0)
      (hy : y ≤ rawQuantity skuGroups row.components group.1 key) :
    x * y ≤ neededByGroup U table commoditySkus skuGroups componentStock velocity warehouseId key
    row group :=
  mul_le_mul hx hy hy0 (hx0.trans hx)

/-- What is counted always fits into the stock. -/
def FitsStock (table : RuleTable) (commoditySkus : Option (List String))
    (skuGroups : Dict String String) : Prop :=
  ∀ (componentStock : ComponentStock) (velocity : Option Velocity),
    Normalised skuGroups componentStock →
      ∀ warehouseId key, needed U table commoditySkus skuGroups componentStock velocity warehouseId
      key ≤ max (stockOf componentStock warehouseId key) 0

/-- Groups of different formulas that share an item promise it twice. -/
theorem formula_of_fits (h : FitsStock U table commoditySkus skuGroups) {row : SkuMappingRule}
    (hrow : row ∈ activeRows table commoditySkus) {c d : SkuMappingComponent}
    (hc : c ∈ row.components) (hd : d ∈ row.components)
    (hk : resolveSku skuGroups c.inventorySku = resolveSku skuGroups d.inventorySku) :
    maxQuantity skuGroups row.components c.groupNo =
    maxQuantity skuGroups row.components d.groupNo := by
  by_contra hne
  obtain ⟨no, group, hg, hf⟩ :=
    exists_keptGroup skuGroups (⟨c, hc, rfl⟩ : HasGroup row.components c.groupNo)
  obtain ⟨no', group', hg', hf'⟩ :=
    exists_keptGroup skuGroups (⟨d, hd, rfl⟩ : HasGroup row.components d.groupNo)
  set key := resolveSku skuGroups c.inventorySku with hkey
  set m : ℤ := (maxQuantity skuGroups row.components no key : ℤ) with hm
  set m' : ℤ := (maxQuantity skuGroups row.components no' key : ℤ) with hm'
  have hpos : 0 < m := by rw [hm, hf]; exact_mod_cast maxQuantity_pos hc
  have hpos' : 0 < m' := by rw [hm', hf', hk]; exact_mod_cast maxQuantity_pos hd
  obtain ⟨stock, velocity, hnorm, hstock, hunits⟩ := exists_stock_alone U hrow hc hkey.symm
    (by positivity : 0 < 2 * (m * m') + 1)
  have hu := hunits _ hg (2 * m') (by positivity) (by nlinarith) (by linarith)
  have hu' := hunits _ hg' (2 * m) (by positivity) (by nlinarith) (by linarith)
  have hraw : m ≤ rawQuantity skuGroups row.components no key := by
    rw [hm]; exact_mod_cast maxQuantity_le_rawQuantity
  have hraw' : m' ≤ rawQuantity skuGroups row.components no' key := by
    rw [hm']; exact_mod_cast maxQuantity_le_rawQuantity
  have hpair : ((no, group) : ℕ × MappingGroup) ≠ (no', group') := by
    intro he
    exact hne (hf.symm.trans ((Prod.mk.inj he).1 ▸ hf'))
  have hsum := (Sums.pair_le_sum (neededByGroup_nonneg U "W" key) hg hg' hpair).trans 
    (Sums.le_sum (neededByRow_nonneg U stock velocity "W" key) hrow)
  have hfit := h stock velocity hnorm "W" key
  rw [hstock, max_eq_left (by positivity)] at hfit
  have h1 := mul_le_neededByGroup U (by positivity) hpos.le hu hraw
  have h2 := mul_le_neededByGroup U (by positivity) hpos'.le hu' hraw'
  have h3 : 0 < m * m' := by positivity
  have hall := hsum.trans hfit
  linarith

/-- A loaded group that lists an item twice promises it twice. -/
theorem listed_of_fits (h : FitsStock U table commoditySkus skuGroups) {row : SkuMappingRule}
    (hrow : row ∈ activeRows table commoditySkus) {c d : SkuMappingComponent}
    (hc : c ∈ row.components) (hd : d ∈ row.components)
    (hk : resolveSku skuGroups c.inventorySku = resolveSku skuGroups d.inventorySku)
    (hg : c.groupNo = d.groupNo) (hfirst : FirstOfFormula skuGroups row.components c.groupNo) :
    c = d := by
  by_contra hne
  have hkept := (mem_keptGroups skuGroups).mpr ⟨⟨c, hc, rfl⟩, rfl, hfirst⟩
  set key := resolveSku skuGroups c.inventorySku with hkey
  set m : ℤ := (maxQuantity skuGroups row.components c.groupNo key : ℤ) with hm
  have hpos : 0 < m := by rw [hm]; exact_mod_cast maxQuantity_pos hc
  have hraw : m + 1 ≤ rawQuantity skuGroups row.components c.groupNo key := by
    rw [hm]; exact_mod_cast maxQuantity_lt_rawQuantity hc hd hne hk hg
  obtain ⟨stock, velocity, hnorm, hstock, hunits⟩ := exists_stock_alone U hrow hc hkey.symm
    (by positivity : 0 < 2 * m + 1)
  have hu := hunits _ hkept 2 (by positivity) (by linarith) (by linarith)
  have hsum := (Sums.le_sum (neededByGroup_nonneg U "W" key) hkept).trans 
    (Sums.le_sum (neededByRow_nonneg U stock velocity "W" key) hrow)
  have hfit := h stock velocity hnorm "W" key
  rw [hstock, max_eq_left (by positivity)] at hfit
  have h1 := mul_le_neededByGroup U (by positivity) (by positivity) hu hraw
  have hall := hsum.trans hfit
  linarith

/-- **No component stock is promised twice** exactly if no active rule reaches a
physical item twice. -/
theorem needed_le_stock_iff (table : RuleTable) (commoditySkus : Option (List String))
    (skuGroups : Dict String String) :
    (∀ (componentStock : ComponentStock) (velocity : Option Velocity),
        Normalised skuGroups componentStock →
          ∀ warehouseId key, needed U table commoditySkus skuGroups componentStock velocity
          warehouseId key ≤ max (stockOf componentStock warehouseId key) 0) ↔
      ∀ row ∈ activeRows table commoditySkus, OneUse skuGroups row := by
  constructor
  · intro h row hrow
    exact ⟨fun c hc d hd hk => formula_of_fits U h hrow hc hd hk,
      fun c hc d hd hk hg hfirst => listed_of_fits U h hrow hc hd hk hg hfirst⟩
  · intro h componentStock velocity _ warehouseId key
    exact needed_le_stock U h warehouseId key

end Promise

/-! ### A rule of two components that became aliases of one item -/

def twinTable : RuleTable :=
  ⟨[⟨"SET", true, [⟨1, "A", 1, by decide, by decide⟩, ⟨1, "B", 1, by decide, by decide⟩], by
    decide⟩], by decide⟩

def twinGroups : Dict String String := ⟨[("A", "P"), ("B", "P")], by decide⟩

def twinStock : ComponentStock := ⟨[(("P", "W"), ⟨some "US", 2⟩)], by decide⟩

/-- Two units of the item are counted as two sets, which need four. -/
theorem twin_promised_twice : Normalised twinGroups twinStock ∧
    ¬ needed CharTable.ascii twinTable none twinGroups twinStock none "W" "P" ≤ max
    (stockOf twinStock "W" "P") 0 := by
  constructor
  · intro entry he
    have h : twinStock.keys = [("P", "W")] := rfl
    rw [h, List.mem_singleton] at he
    exact ⟨"A", by rw [he]; decide⟩
  · decide +kernel

end Restock
