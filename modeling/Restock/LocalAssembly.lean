/-
# Assembling at home (`compute_mapped_stock_total_by_sku`)

The stock at home is split between the commodities along their total sales, and
every alternative group of a rule adds what can be assembled from the parts. Where
no rule lists an inventory SKU twice, the totals are counts that can be assembled
together (`localTotals_realised`). For stock of one country, where the commodities
sell only there, they are the stock that `compute_mapped_stock_by_country` finds
(`localTotals_eq_byCountry`).
-/
import Restock.SkuMappingBound

namespace Restock

open PyText

section Local

variable (rules : MappingRules) (componentStock : ComponentStock) (velocity : Option Velocity)

/-- The part a commodity has of the stock of `key` at home. -/
def localPart (sku warehouseId key : String) : Option ℤ :=
  ((buildComponentAllocation rules componentStock (velocity.elim .empty localWeightsBySku)
    (some "")).get?
    (sku, key, warehouseId)).map WarehouseStock.total

/-- The units of a commodity that one of its groups adds in a warehouse. -/
def localUnits (sku warehouseId : String) (components : MappingGroup) : ℤ :=
  max 0 ((buildable (localPart rules componentStock velocity sku warehouseId) none components).getD
    0)

/-- The units of an inventory SKU in one assembled unit. -/
def quantityIn (components : MappingGroup) (key : String) : ℕ :=
  (Dict.valuesAt (components.map fun c => (c.inventorySku, c.quantity)) key).sum

/-- A plan of the units that every group assembles in every warehouse: it gives the
totals, and the warehouses have what it takes. -/
structure Realises (totals : Dict String ℤ) (plan : String → String → MappingGroup → ℤ) : Prop where
  nonneg : ∀ sku warehouseId components, 0 ≤ plan sku warehouseId components
  total : ∀ sku, totals.getD sku 0 = ((warehouseIds componentStock).map fun warehouseId =>
    ((rules.getD sku []).map (plan sku warehouseId)).sum).sum
  fits : ∀ warehouseId key, (rules.items.map fun rule =>
    (rule.2.map fun components => plan rule.1 warehouseId components *
      quantityIn components key).sum).sum ≤ max (stockOf componentStock warehouseId key) 0

/-- Every component is needed at least once. -/
def PositiveQuantities :
    Prop := ∀ rule ∈ rules.items, ∀ components ∈ rule.2, ∀ c ∈ components, 0 < c.quantity

/-- No rule lists an inventory SKU twice. -/
def ListedOnce : Prop := ∀ rule ∈ rules.items, (rule.2.flatten.map (·.inventorySku)).Nodup

end Local

/-! ### The totals -/

section Totals

variable {rules : MappingRules} {componentStock : ComponentStock} {velocity : Option Velocity}

/-- The values that the loops add to a commodity. -/
theorem valuesAt_localTotals (groups : List MappingGroup) (rule sku warehouseId : String) :
    Dict.valuesAt (groups.filterMap fun components =>
      ((buildable (localPart rules componentStock velocity rule warehouseId) none components).filter
        fun units => 0 < units).map fun units => (rule, units)) sku =
    if rule = sku then groups.filterMap fun components =>
      (buildable (localPart rules componentStock velocity rule warehouseId) none components).filter
        fun units => 0 < units else [] :=
  Dict.valuesAt_filterMap_const _ rule sku groups

theorem getD_filter_pos (units : Option ℤ) :
    (units.filter fun n => 0 < n).getD 0 = max 0 (units.getD 0) := by
  cases units with
  | none => rfl
  | some n =>
    rw [Option.filter_some, Option.getD_some]
    by_cases h : 0 < n
    · rw [if_pos (decide_eq_true h), Option.getD_some]
      omega
    · rw [if_neg (by simpa using h), Option.getD_none]
      omega

/-- **The total of a commodity** is what its groups add in all warehouses. -/
theorem getD_computeMappedStockTotalBySku (sku : String) :
    (computeMappedStockTotalBySku rules componentStock velocity).getD sku 0 =
      ((warehouseIds componentStock).map fun warehouseId =>
        ((rules.getD sku []).map
            (localUnits rules componentStock velocity sku warehouseId)).sum).sum := by
  have hgroup : ∀ (rule warehouseId : String) (groups : List MappingGroup),
      (Dict.valuesAt (groups.filterMap fun components =>
        ((buildable (localPart rules componentStock velocity rule warehouseId)
          none components).filter
          fun units => 0 < units).map fun units => (rule, units)) sku).sum =
      if rule = sku then (groups.map
          (localUnits rules componentStock velocity rule warehouseId)).sum else 0 := by
    intro rule warehouseId groups
    rw [valuesAt_localTotals, apply_ite List.sum, Sums.sum_filterMap, List.sum_nil]
    simp only [getD_filter_pos]
    rfl
  rw [computeMappedStockTotalBySku, Dict.getD_sumBy, Dict.valuesAt_flatMap, Sums.sum_flatMap,
    Dict.sum_items rules _ sku]
  · rw [Dict.getD]
    cases rules.get? sku with
    | none => simp
    | some groups =>
      simp only [Option.elim_some, Option.getD_some, Dict.valuesAt_flatMap, Sums.sum_flatMap]
      refine congrArg List.sum (List.map_congr_left fun warehouseId _ => ?_)
      exact (hgroup sku warehouseId groups).trans (if_pos rfl)
  · intro rule _ hne
    simp only [Dict.valuesAt_flatMap, Sums.sum_flatMap]
    refine List.sum_eq_zero fun x hx => ?_
    obtain ⟨warehouseId, -, rfl⟩ := List.mem_map.mp hx
    exact (hgroup rule.1 warehouseId rule.2).trans (if_neg hne)

/-- Only positive counts are added, so what is reported is positive. -/
theorem computeMappedStockTotalBySku_pos {sku : String} {total : ℤ}
    (h : (computeMappedStockTotalBySku rules componentStock velocity).get? sku = some total) :
    0 < total := by
  rw [computeMappedStockTotalBySku, Dict.get?_sumBy] at h
  split_ifs at h with hnil
  rw [← Option.some.inj h]
  refine List.sum_pos _ (fun n hn => ?_) hnil
  obtain ⟨rule, -, hrule⟩ := List.mem_flatMap.mp (Dict.mem_valuesAt.mp hn)
  obtain ⟨warehouseId, -, hwarehouse⟩ := List.mem_flatMap.mp hrule
  obtain ⟨components, -, hunits⟩ := List.mem_filterMap.mp hwarehouse
  obtain ⟨units, hu, he⟩ := Option.map_eq_some_iff.mp hunits
  obtain ⟨-, rfl⟩ := Prod.mk.inj he
  exact of_decide_eq_true (Option.filter_eq_some_iff.mp hu).2

end Totals

/-! ### The parts suffice -/

section Fits

variable {rules : MappingRules} {componentStock : ComponentStock} {velocity : Option Velocity}

theorem localPart_nonneg {sku warehouseId key : String} {n : ℤ}
    (h : localPart rules componentStock velocity sku warehouseId key = some n) : 0 ≤ n :=
  total_buildComponentAllocation_nonneg h

theorem localPart_getD_nonneg (sku warehouseId key : String) :
    0 ≤ (localPart rules componentStock velocity sku warehouseId key).getD 0 := by
  cases h : localPart rules componentStock velocity sku warehouseId key with
  | none => exact le_rfl
  | some n => exact localPart_nonneg h

/-- What a group adds needs no more of a component than the commodity's part. -/
theorem localUnits_mul_le {sku warehouseId : String} {components : MappingGroup}
    (hpos : ∀ c ∈ components, 0 < c.quantity) : ∀ c ∈ components,
      localUnits rules componentStock velocity sku warehouseId components * c.quantity ≤
        (localPart rules componentStock velocity sku warehouseId c.inventorySku).getD 0 := by
  intro c hc
  unfold localUnits
  cases hb : buildable (localPart rules componentStock velocity sku warehouseId)
      none components with
  | none =>
    rw [Option.getD_none, max_self, zero_mul]
    exact localPart_getD_nonneg sku warehouseId c.inventorySku
  | some units =>
    obtain ⟨h0, hle⟩ := buildable_mul_le (fun _ _ => localPart_nonneg) hpos hb
    rw [Option.getD_some, max_eq_right h0]
    exact hle c hc

theorem quantityIn_of_mem {components : MappingGroup}
    (hnd : (components.map (·.inventorySku)).Nodup) {c : MappingComponent} (hc : c ∈ components) :
    quantityIn components c.inventorySku = c.quantity := by
  have hkeys : ((components.map fun c => (c.inventorySku, c.quantity)).map Prod.fst).Nodup := by
    rw [List.map_map]
    exact hnd
  have hmem : (c.inventorySku, c.quantity) ∈ components.map fun c => (c.inventorySku, c.quantity) :=
    List.mem_map_of_mem hc
  rw [quantityIn, Dict.valuesAt_of_nodup hkeys, (Dict.lookup_eq_some_iff hkeys).mpr hmem,
    Option.toList_some, List.sum_singleton]

theorem quantityIn_of_not_mem {components : MappingGroup} {key : String}
    (h : ∀ c ∈ components, c.inventorySku ≠ key) : quantityIn components key = 0 := by
  have hnil : Dict.valuesAt (components.map fun c => (c.inventorySku, c.quantity)) key = [] := by
    rw [List.eq_nil_iff_forall_not_mem]
    intro q hq
    obtain ⟨c, hc, he⟩ := List.mem_map.mp (Dict.mem_valuesAt.mp hq)
    exact h c hc (Prod.mk.inj he).1
  rw [quantityIn, hnil, List.sum_nil]

/-- Groups that list a SKU once together use it in one of them only. -/
theorem sum_used_le {units : MappingGroup → ℤ} {key : String} {bound : ℤ} (h0 : 0 ≤ bound) :
    ∀ groups : List MappingGroup, (groups.flatten.map (·.inventorySku)).Nodup →
      (∀ components ∈ groups, ∀ c ∈ components, c.inventorySku = key →
        units components * c.quantity ≤ bound) →
        (groups.map fun components => units components * (quantityIn components key : ℤ)).sum ≤
        bound
  | [], _, _ => h0
  | components :: groups, hnd, hle => by
    rw [List.flatten_cons, List.map_append, List.nodup_append] at hnd
    obtain ⟨hfirst, hrest, hdisjoint⟩ := hnd
    have ih := sum_used_le h0 groups hrest fun g hg => hle g (List.mem_cons_of_mem _ hg)
    rw [List.map_cons, List.sum_cons]
    by_cases hkey : ∃ c ∈ components, c.inventorySku = key
    · obtain ⟨c, hc, rfl⟩ := hkey
      have hzero : (groups.map fun g => units g * (quantityIn g c.inventorySku : ℤ)).sum = 0 := by
        refine List.sum_eq_zero fun x hx => ?_
        obtain ⟨g, hg, rfl⟩ := List.mem_map.mp hx
        have hnone : quantityIn g c.inventorySku = 0 := by
          refine quantityIn_of_not_mem fun d hd he => ?_
          refine hdisjoint _ (List.mem_map_of_mem hc) _
            (List.mem_map_of_mem (List.mem_flatten_of_mem hg hd)) he.symm
        rw [hnone, Nat.cast_zero, mul_zero]
      rw [hzero, add_zero, quantityIn_of_mem hfirst hc]
      exact hle components List.mem_cons_self c hc rfl
    · push Not at hkey
      rw [quantityIn_of_not_mem hkey, Nat.cast_zero, mul_zero, zero_add]
      exact ih

/-- A commodity uses no more of a component than its part. -/
theorem used_le_localPart (hpos : PositiveQuantities rules) (hlist : ListedOnce rules)
    {rule : String × List MappingGroup} (hr : rule ∈ rules.items) (warehouseId key : String) :
    (rule.2.map fun components => localUnits rules componentStock velocity rule.1 warehouseId
      components * (quantityIn components key : ℤ)).sum ≤
      (localPart rules componentStock velocity rule.1 warehouseId key).getD 0 := by
  refine sum_used_le (localPart_getD_nonneg _ _ _) rule.2 (hlist rule hr)
    fun components hg c hc hkey => ?_
  rw [← hkey]
  exact localUnits_mul_le (hpos rule hr components hg) c hc

end Fits

/-- **The totals at home can be assembled together**: they are positive, and a plan for
all groups and warehouses gives them with the components that are there. -/
theorem localTotals_realised (rules : MappingRules) (componentStock : ComponentStock)
    (velocity : Option Velocity) (hpos : PositiveQuantities rules) (hlist : ListedOnce rules) :
    (∀ sku total, (computeMappedStockTotalBySku rules componentStock velocity).get? sku =
      some total → 0 < total) ∧
      ∃ plan, Realises rules componentStock
      (computeMappedStockTotalBySku rules componentStock velocity) plan := by
  refine ⟨fun _ _ => computeMappedStockTotalBySku_pos, localUnits rules componentStock velocity,
    fun _ _ _ => le_max_left _ _, getD_computeMappedStockTotalBySku, fun warehouseId key => ?_⟩
  have hused : (rules.items.map fun rule => (rule.2.map fun components =>
      localUnits rules componentStock velocity rule.1 warehouseId components *
        (quantityIn components key : ℤ)).sum).sum ≤
      (rules.items.map fun rule =>
          (localPart rules componentStock velocity rule.1 warehouseId key).getD 0).sum :=
    List.sum_le_sum fun rule hr => used_le_localPart hpos hlist hr warehouseId key
  have hparts : ((rules.items.map Prod.fst).map fun sku =>
      (localPart rules componentStock velocity sku warehouseId key).getD 0).sum ≤
      max (stockOf componentStock warehouseId key) 0 := sum_parts_le rules.nodup key warehouseId
  rw [List.map_map] at hparts
  exact hused.trans hparts

/-- Two commodities that share a component. -/
def sharedRules : MappingRules :=
  ⟨[("A", [[⟨"X", 2⟩], [⟨"Y", 1⟩]]), ("B", [[⟨"X", 1⟩, ⟨"Z", 1⟩]])], by decide⟩

def sharedStock : ComponentStock :=
  ⟨[(("X", "W"), ⟨some "US", 9⟩), (("Z", "W"), ⟨some "US", 3⟩),
    (("Y", "W"), ⟨some "US", -1⟩)], by decide⟩

def sharedVelocity : Velocity :=
  ⟨[("A", ⟨[("US", 2)], by decide⟩), ("B", ⟨[("US", 1)], by decide⟩)], by decide⟩

theorem localTotals_realised_example :
    (∀ sku total, (computeMappedStockTotalBySku sharedRules sharedStock (some sharedVelocity)).get?
      sku = some total → 0 < total) ∧ ∃ plan, Realises sharedRules sharedStock
        (computeMappedStockTotalBySku sharedRules sharedStock (some sharedVelocity)) plan :=
  localTotals_realised sharedRules sharedStock (some sharedVelocity)
    (by unfold PositiveQuantities; decide)
    (by unfold ListedOnce; decide)

/-! ### The same count for one country -/

section OneCountry

variable {U : CharTable} {rules : MappingRules} {componentStock : ComponentStock}
    {velocity : Option Velocity}
  {country : String}

/-- All stock is in one country. -/
def StockedIn (componentStock : ComponentStock) (country : String) : Prop :=
  ∀ entry ∈ componentStock.items, entry.2.country = some country

/-- Nothing is sold elsewhere. -/
def SoldIn (velocity : Option Velocity) (country : String) : Prop :=
  ∀ v ∈ velocity, ∀ entry ∈ v.items, ∀ key ∈ entry.2.keys, key = country

theorem sum_values_of_one_key {m : Dict String ℚ} (h : ∀ key ∈ m.keys, key = country) :
    m.values.sum = (m.get? country).getD 0 := by
  cases hget : m.get? country with
  | none =>
    have hnil : m.items = [] := by
      rw [List.eq_nil_iff_forall_not_mem]
      intro entry he
      have hkey : entry.1 ∈ m.keys := List.mem_map_of_mem he
      exact Dict.get?_eq_none_iff.mp hget (h _ hkey ▸ hkey)
    rw [Dict.values, hnil]
    rfl
  | some x =>
    have hone : m.items = [(country, x)] := Dict.items_eq_singleton hget fun key hne =>
      Dict.get?_eq_none_iff.mpr fun hkey => hne (h key hkey)
    rw [Dict.values, hone, Option.getD_some]
    exact List.sum_singleton

/-- The total sales of a commodity are its sales in the country. -/
theorem localWeights_eq (h : SoldIn velocity country) (sku : String) :
    weightsFor (velocity.elim .empty localWeightsBySku) (some "") (some country) sku =
      weightsFor (velocity.elim .empty countryWeightsBySku) none (some country) sku := by
  cases velocity with
  | none => rfl
  | some v =>
    have hcountry : weightsFor (countryWeightsBySku v) none (some country) sku =
        ((v.get? sku).bind fun m => m.get? country).getD 0 := by
      rw [← get?_countryWeightsBySku]
      rfl
    have hlocal : weightsFor (localWeightsBySku v) (some "") (some country) sku =
        ((v.get? sku).map fun m => m.values.sum).getD 0 := by
      have htable : (localWeightsBySku v).getD "" .empty = v.mapVal fun _ m => m.values.sum := by
        rw [localWeightsBySku, Dict.getD, Dict.get?_set, if_pos rfl, Option.getD_some]
      rw [weightsFor, Option.getD_some, htable, Dict.getD, Dict.get?_mapVal]
    rw [Option.elim_some, Option.elim_some, hcountry, hlocal]
    cases hv : v.get? sku with
    | none => rfl
    | some m =>
      rw [Option.map_some, Option.getD_some, Option.bind_some]
      exact sum_values_of_one_key (h v rfl (sku, m) (Dict.get?_eq_some_iff.mp hv))

theorem localPart_eq_partOf (hstock : StockedIn componentStock country)
    (hvel : SoldIn velocity country) (sku warehouseId key : String) :
    localPart rules componentStock velocity sku warehouseId key =
    partOf rules componentStock velocity sku warehouseId key := by
  rw [localPart, total_buildComponentAllocation, partOf_eq]
  cases hkept : componentStock.get? (key, warehouseId) with
  | none => rw [Option.bind_none, Option.bind_none]
  | some kept =>
    have hcountry : kept.country = some country := hstock _ (Dict.get?_eq_some_iff.mp hkept)
    have hweights : weightsFor (velocity.elim .empty localWeightsBySku) (some "") kept.country =
        weightsIn velocity kept.country := by
      funext sku
      rw [hcountry]
      exact localWeights_eq hvel sku
    rw [Option.bind_some, Option.bind_some, hweights]

theorem countryByWarehouse_of_stockedIn (hstock : StockedIn componentStock country)
    (hc : country ≠ "") {warehouseId : String} (hw : warehouseId ∈ warehouseIds componentStock) :
    countryByWarehouse componentStock warehouseId = some country := by
  obtain ⟨entry, he, hid⟩ : ∃ entry ∈ componentStock.items, entry.1.2 = warehouseId := by
    rw [warehouseIds, List.mem_dedup, List.mem_map] at hw
    obtain ⟨key, hkey, hid⟩ := hw
    obtain ⟨entry, he, rfl⟩ := List.mem_map.mp hkey
    exact ⟨entry, he, hid⟩
  unfold countryByWarehouse
  cases hfind : componentStock.items.find? fun entry => entry.1.2 = warehouseId ∧
      textOr entry.2.country ≠ "" with
  | none =>
    have hno := List.find?_eq_none.mp hfind entry he
    rw [hstock entry he] at hno
    exact absurd (decide_eq_true ⟨hid, hc⟩) hno
  | some found => exact hstock found (List.mem_of_find?_eq_some hfind)

/-- A group adds the same count in both. -/
theorem localUnits_eq (hpos : PositiveQuantities rules) (hstock : StockedIn componentStock country)
    (hvel : SoldIn velocity country) (hc : isReportableCountryCode U (.str country) = true)
    {sku : String} {components : MappingGroup} (hg : components ∈ rules.getD sku [])
    {warehouseId : String} (hw : warehouseId ∈ warehouseIds componentStock) :
    localUnits rules componentStock velocity sku warehouseId components =
      (assembledUnits U rules componentStock velocity sku warehouseId components).getD 0 := by
  have hne := ne_empty_of_reportable hc
  have hparts : localPart rules componentStock velocity sku warehouseId =
      partOf rules componentStock velocity sku warehouseId :=
    funext fun key => localPart_eq_partOf hstock hvel sku warehouseId key
  have hquantity : ∀ c ∈ components, 0 < c.quantity := by
    cases hget : rules.get? sku with
    | none => simp [Dict.getD, hget] at hg
    | some groups =>
      rw [Dict.getD, hget, Option.getD_some] at hg
      exact hpos (sku, groups) (Dict.get?_eq_some_iff.mp hget) components hg
  unfold localUnits assembledUnits
  rw [countryByWarehouse_of_stockedIn hstock hne hw, hparts]
  simp only [hc, Bool.not_true, Bool.false_eq_true, if_false]
  by_cases hsignal : (components.any fun c => (c.inventorySku, warehouseId) ∈ componentStock.keys) =
    true
  · simp only [hsignal, Bool.not_true, Bool.false_eq_true, if_false]
    show max 0 ((buildable (partOf rules componentStock velocity sku warehouseId)
      none components).getD 0) = (buildable (partOf rules componentStock velocity sku warehouseId)
      none components).getD 0
    cases hb : buildable (partOf rules componentStock velocity sku warehouseId) none components with
    | none => rfl
    | some units => exact max_eq_right (buildable_mul_le (fun _ _ => partOf_nonneg) hquantity hb).1
  · rw [Bool.not_eq_true] at hsignal
    simp only [hsignal, Bool.not_false, if_true, Option.getD_none]
    -- without any component the loop stops at its first one
    cases components with
    | nil => rfl
    | cons c rest =>
      have hnone : partOf rules componentStock velocity sku warehouseId c.inventorySku = none := by
        have hkey : (c.inventorySku, warehouseId) ∉ componentStock.keys := by
          have hfirst := List.any_eq_false.mp hsignal c List.mem_cons_self
          simpa using hfirst
        rw [partOf_eq, Dict.get?_eq_none_iff.mpr hkey, Option.bind_none]
      rw [buildable, hnone]
      rfl

end OneCountry

/-- **Both assemblies agree on one country**: on stock of a reportable country and
sales there only, the totals at home are the stock by country. -/
theorem localTotals_eq_byCountry (U : CharTable) (rules : MappingRules)
    (componentStock : ComponentStock) (velocity : Option Velocity) {country : String}
    (hpos : PositiveQuantities rules) (hc : isReportableCountryCode U (.str country) = true)
    (hstock : StockedIn componentStock country) (hvel : SoldIn velocity country) (sku : String) :
    (computeMappedStockTotalBySku rules componentStock velocity).getD sku 0 =
      (computeMappedStockByCountry U rules componentStock velocity).getD (sku, country) 0 := by
  have hne := ne_empty_of_reportable hc
  have hall : (warehouseIds componentStock).filter
      (fun w => textOr (countryByWarehouse componentStock w) = country) =
      warehouseIds componentStock := by
    refine List.filter_eq_self.mpr fun w hw => decide_eq_true ?_
    rw [countryByWarehouse_of_stockedIn hstock hne hw]
    rfl
  rw [getD_computeMappedStockTotalBySku, getD_computeMappedStockByCountry, hall]
  refine congrArg List.sum
    (List.map_congr_left fun w hw => congrArg List.sum (List.map_congr_left fun g hg => ?_))
  exact localUnits_eq hpos hstock hvel hc hg hw

theorem localTotals_eq_byCountry_example :
    (computeMappedStockTotalBySku sharedRules sharedStock (some sharedVelocity)).getD "A" 0 =
      (computeMappedStockByCountry .ascii sharedRules sharedStock (some sharedVelocity)).getD
      ("A", "US") 0 :=
  localTotals_eq_byCountry .ascii sharedRules sharedStock (some sharedVelocity)
    (by unfold PositiveQuantities; decide)
    (isReportable_US .ascii) (by unfold StockedIn; decide)
    (by intro v hv; obtain rfl := Option.some.inj hv; decide) "A"

end Restock
