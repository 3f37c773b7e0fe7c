/-
# One SKU alone and among the others

The engine runs step 2 on all enabled SKUs, a recalculation of one item on its SKU
alone, and the two queries may return their groups in different orders. Where a
warehouse holds goods of one country only, the runs agree on the SKU, whatever the
stock tables and the sales are, exactly if the SKU has no active mapping rule with
components or no other SKU of the list has one (`sameFor_iff`). With two such rules
the components of the one reach into the stock of the other: a shared component is
split between them only in the full run (`exists_stock_shared`), and a warehouse takes
its country from the first component row, which may be one that the short run does not
load (`exists_stock_country`). Where a warehouse is the goal of goods for two
countries, one rule is enough for the order to tell (`exists_stock_order`), so on all
stock tables the runs agree exactly if the SKU has no rule (`sameFor_always_iff`).
-/
import Restock.TransitCountry

namespace Restock

open PyText Query

/-- The commodity has an active rule with components. -/
def ActiveFormula (table : RuleTable) (sku : String) : Prop :=
  ∃ row ∈ table.rows, row.enabled ∧ row.commoditySku = sku ∧ row.components ≠ []

/-- Two runs say the same of a SKU. -/
structure SameFor (sku : String) (run run' : SaleDaysMap × InventoryMap) : Prop where
  stock : ∀ country, run.2.get? (sku, country) = run'.2.get? (sku, country)
  saleDays : ∀ country, (run.1.getD sku .empty).get? country = (run'.1.getD sku .empty).get? country

/-! ### The rules of a list of SKUs -/

section Rules

variable {table : RuleTable} {skuGroups : Dict String String} {skus : List String}

theorem mem_activeRows {row : SkuMappingRule} : row ∈ activeRows table (some skus) ↔
    row ∈ table.rows ∧ row.enabled ∧ row.commoditySku ∈ skus := by
  simp [activeRows, List.mem_insertionSort]

theorem keptGroups_eq_nil_iff {components : List SkuMappingComponent} :
    keptGroups skuGroups components = [] ↔ components = [] := by
  constructor
  · intro h
    by_contra hne
    obtain ⟨c, hc⟩ := List.exists_mem_of_ne_nil components hne
    obtain ⟨no, group, hk, -⟩ :=
      exists_keptGroup skuGroups (⟨c, hc, rfl⟩ : HasGroup components c.groupNo)
    rw [h] at hk
    simp at hk
  · rintro rfl
    rfl

/-- The groups a commodity is loaded with do not depend on the rest of the list. -/
theorem loadRules_get?_iff {sku : String} {groups : List MappingGroup} :
    (loadActiveMappingRules table (some skus) skuGroups).get? sku = some groups ↔
      sku ∈ skus ∧ ∃ row ∈ table.rows, row.enabled ∧ row.commoditySku = sku ∧ row.components ≠ [] ∧
        groups = (keptGroups skuGroups row.components).map Prod.snd := by
  rw [loadActiveMappingRules_get?]
  simp only [mem_activeRows, ne_eq, keptGroups_eq_nil_iff]
  constructor
  · rintro ⟨row, ⟨hr, he, hs⟩, rfl, hc, hg⟩
    exact ⟨hs, row, hr, he, rfl, hc, hg⟩
  · rintro ⟨hs, row, hr, he, rfl, hc, hg⟩
    exact ⟨row, ⟨hr, he, hs⟩, rfl, hc, hg⟩

theorem loadRules_solo {sku : String} (hs : sku ∈ skus) :
    (loadActiveMappingRules table (some [sku]) skuGroups).get? sku =
      (loadActiveMappingRules table (some skus) skuGroups).get? sku := by
  apply Option.ext
  intro groups
  rw [loadRules_get?_iff, loadRules_get?_iff]
  simp [hs]

theorem loadRules_eq_none {sku : String} (h : sku ∈ skus → ¬ ActiveFormula table sku) :
    (loadActiveMappingRules table (some skus) skuGroups).get? sku = none := by
  rw [Option.eq_none_iff_forall_ne_some]
  intro groups hg
  obtain ⟨hs, row, hr, he, hsku, hc, -⟩ := loadRules_get?_iff.mp hg
  exact h hs ⟨row, hr, he, hsku, hc⟩

/-- With one formula in the list, the list loads what the SKU alone loads. -/
theorem loadRules_eq_solo {sku : String} (hs : sku ∈ skus)
    (honly : ∀ t ∈ skus, t ≠ sku → ¬ ActiveFormula table t) :
    loadActiveMappingRules table (some [sku]) skuGroups = loadActiveMappingRules table (some skus)
    skuGroups := by
  have hother : ∀ t, t ≠ sku → (loadActiveMappingRules table (some skus) skuGroups).get? t = none :=
      fun t ht =>
    loadRules_eq_none fun hts => honly t hts ht
  have hother' : ∀ t, t ≠ sku →
      (loadActiveMappingRules table (some [sku]) skuGroups).get? t = none := fun t ht =>
    loadRules_eq_none fun hts => absurd (List.mem_singleton.mp hts) ht
  ext1
  cases h : (loadActiveMappingRules table (some skus) skuGroups).get? sku with
  | none =>
    have hnil : ∀ d : MappingRules, (∀ t, d.get? t = none) → d.items = [] := by
      intro d hd
      rw [List.eq_nil_iff_forall_not_mem]
      rintro ⟨t, groups⟩ hm
      exact absurd (Dict.get?_eq_some_iff.mpr hm) (by rw [hd t]; simp)
    rw [hnil _ fun t => ?_, hnil _ fun t => ?_]
    · by_cases ht : t = sku
      · rw [ht, h]
      · exact hother t ht
    · by_cases ht : t = sku
      · rw [ht, loadRules_solo hs, h]
      · exact hother' t ht
  | some groups =>
    rw [Dict.items_eq_singleton h hother,
      Dict.items_eq_singleton ((loadRules_solo hs).trans h) hother']

end Rules

/-! ### Where the runs agree -/

section Agree

variable (U : CharTable) (plan plan' : Plan) (db : StockDb)

/-- A commodity without a rule has no assembled stock. -/
theorem get?_computeMapped_none {rules : MappingRules} {sku : String} (h : rules.get? sku = none)
    (componentStock : ComponentStock) (velocity : Option Velocity) (country : String) :
    (computeMappedStockByCountry U rules componentStock velocity).get? (sku, country) = none := by
  rw [computeMappedStockByCountry, Dict.get?_sumBy, if_pos]
  rw [List.eq_nil_iff_forall_not_mem]
  intro n hn
  have hm := Dict.mem_valuesAt.mp hn
  simp only [List.mem_flatMap, List.mem_filterMap, Option.map_eq_some_iff, Prod.mk.injEq] at hm
  obtain ⟨rule, hrule, w, -, g, -, units, -, ⟨rfl, -⟩, -⟩ := hm
  exact absurd (Dict.get?_eq_some_iff.mpr hrule) (by rw [h]; simp)

theorem get?_mappedStock_none {rules : MappingRules} {sku : String} (h : rules.get? sku = none)
    (warehouseStock : ComponentStock) (countryTransit : Dict (String × String) ℤ)
    (velocity : Velocity) (country : String) :
    (mappedStock U rules warehouseStock countryTransit velocity).get? (sku, country) = none := by
  unfold mappedStock
  split_ifs
  · exact get?_computeMapped_none U h _ _ _
  · rw [Option.eq_none_iff_forall_ne_some]
    intro n hn
    rcases Dict.get?_foldl_set _ _ hn with hm | hm
    · have hget := Dict.get?_eq_some_iff.mpr (List.mem_filter.mp hm).1
      rw [get?_computeMapped_none U h] at hget
      exact absurd hget (by simp)
    · rw [Dict.get?_filter, get?_computeMapped_none U h] at hm
      exact absurd hm (by simp)

theorem get?_loadMappedStock_none {rules : MappingRules} {sku : String} (h : rules.get? sku = none)
    (resolver : PhysicalSkuResolver) (euCountries : List String) (velocity : Velocity)
    (country : String) :
    (loadMappedStock U plan db resolver euCountries rules velocity).get? (sku, country) = none := by
  unfold loadMappedStock
  split_ifs
  · rfl
  · exact get?_mappedStock_none U h _ _ _ _

/-- A component with one consumer is its own, whatever it sells. -/
theorem allocate_weights {consumers : List String} (hnd : consumers.Nodup) {sku : String}
    (h : ∀ c ∈ consumers, c = sku) (total : ℤ) (weights weights' : String → ℚ) :
    allocateIntegerQuantity total consumers weights =
    allocateIntegerQuantity total consumers weights' := by
  rcases consumers with - | ⟨c, - | ⟨d, consumers⟩⟩
  · rfl
  · rfl
  · have hc := h c (by simp)
    have hd := h d (by simp)
    rw [hc, hd] at hnd
    simp at hnd

/-- With one rule the sales do not matter to what is assembled. -/
theorem computeMapped_velocity {rules : MappingRules} {sku : String}
    (h : ∀ t, t ≠ sku → rules.get? t = none) (componentStock : ComponentStock)
    (velocity velocity' : Option Velocity) :
    computeMappedStockByCountry U rules componentStock velocity =
      computeMappedStockByCountry U rules componentStock velocity' := by
  have hconsumers : ∀ key, ∀ c ∈ (mappingComponentConsumers rules).getD key [], c = sku := by
    intro key c hc
    by_contra hne
    obtain ⟨groups, hg, -⟩ := mem_consumers.mp hc
    rw [h c hne] at hg
    exact absurd hg (by simp)
  have halloc : allocationByCountry rules componentStock velocity =
      allocationByCountry rules componentStock velocity' := by
    unfold allocationByCountry buildComponentAllocation
    congr 1
    refine List.flatMap_congr fun entry _ => ?_
    simp only
    rw [allocate_weights (consumers_nodup rules entry.1.1) (hconsumers entry.1.1)]
  have hunits : assembledUnits U rules componentStock velocity =
      assembledUnits U rules componentStock velocity' := by
    funext s w components
    unfold assembledUnits
    rw [halloc]
  unfold computeMappedStockByCountry
  rw [hunits]

theorem loadMappedStock_velocity {rules : MappingRules} {sku : String}
    (h : ∀ t, t ≠ sku → rules.get? t = none) (resolver : PhysicalSkuResolver)
    (euCountries : List String) (velocity velocity' : Velocity) :
    loadMappedStock U plan db resolver euCountries rules velocity =
      loadMappedStock U plan db resolver euCountries rules velocity' := by
  unfold loadMappedStock mappedStock
  simp only [computeMapped_velocity U h _ (some velocity) (some velocity')]

/-- **Runs that assemble the same for a SKU say the same of it.** -/
theorem sameFor_of_mapped {table : RuleTable} {resolver : PhysicalSkuResolver}
    {euCountries : List String} {velocity : Velocity} {sku : String} {skus : List String}
    (hs : sku ∈ skus) (h : ∀ country, (loadMappedStock U plan db resolver euCountries
        (loadActiveMappingRules table (some [sku]) resolver.skuToGroupKey)
        (Dict.empty.set sku (velocity.getD sku .empty))).get? (sku, country) =
      (loadMappedStock U plan' db resolver euCountries
        (loadActiveMappingRules table (some skus) resolver.skuToGroupKey) velocity).get?
        (sku, country)) :
    SameFor sku
      (runStep2 U plan db table resolver euCountries (Dict.empty.set sku (velocity.getD sku .empty))
        (some [sku])) (runStep2 U plan' db table resolver euCountries velocity (some skus)) := by
  have hstock : ∀ country, (runStep2 U plan db table resolver euCountries
        (Dict.empty.set sku (velocity.getD sku .empty)) (some [sku])).2.get? (sku, country) =
      (runStep2 U plan' db table resolver euCountries velocity (some skus)).2.get?
          (sku, country) := by
    intro country
    rw [get?_runStep2, get?_runStep2, h country,
      loadThirdPartyInventory_solo U plan db euCountries hs country,
      loadInTransit_solo U plan db hs country, loadThirdPartyInventory_order U plan db plan',
      loadInTransit_order U plan db plan']
  refine ⟨hstock, fun country => ?_⟩
  have hv : ((Dict.empty.set sku (velocity.getD sku .empty)).getD sku .empty : Dict String ℚ) =
      velocity.getD sku .empty := by simp [Dict.getD]
  rw [fst_runStep2, fst_runStep2, get?_saleDays, get?_saleDays, hstock country, hv]

/-- Without a formula of the SKU the runs agree, in whatever order their groups come. -/
theorem sameFor_of_no_formula {table : RuleTable} (resolver : PhysicalSkuResolver)
    (euCountries : List String) (velocity : Velocity) {sku : String} {skus : List String}
    (hs : sku ∈ skus) (h : ¬ ActiveFormula table sku) :
    SameFor sku
      (runStep2 U plan db table resolver euCountries (Dict.empty.set sku (velocity.getD sku .empty))
        (some [sku])) (runStep2 U plan' db table resolver euCountries velocity (some skus)) := by
  refine sameFor_of_mapped U plan plan' db hs fun country => ?_
  rw [get?_loadMappedStock_none U plan db (loadRules_eq_none fun _ => h),
    get?_loadMappedStock_none U plan' db (loadRules_eq_none fun _ => h)]

/-- Without a second formula in the list they agree where a warehouse that is counted for a
country holds units of that country only. -/
theorem sameFor_of_one_formula {table : RuleTable} {resolver : PhysicalSkuResolver}
    {euCountries : List String} (velocity : Velocity) {sku : String} {skus : List String}
    (hs : sku ∈ skus) (honly : ∀ t ∈ skus, t ≠ sku → ¬ ActiveFormula table t)
    (hone : OneCountry U (runQuery db table resolver euCountries (some [sku]))) :
    SameFor sku
      (runStep2 U plan db table resolver euCountries (Dict.empty.set sku (velocity.getD sku .empty))
        (some [sku])) (runStep2 U plan' db table resolver euCountries velocity (some skus)) := by
  refine sameFor_of_mapped U plan plan' db hs fun country => ?_
  rw [hone.loadMappedStock_congr _ plan plan', loadRules_eq_solo hs honly,
    loadMappedStock_velocity U plan' db
    fun t (ht : t ≠ sku) => loadRules_eq_none fun hts => honly t hts ht]

end Agree

/-! ### Any component stock of one warehouse, in transit -/

section Transit

variable (U : CharTable) (aliases : PhysicalItemTable)

/-- A SKU under which the stock of a component is kept. -/
def sourceOf (key : String) : String := ((loadPhysicalSkuResolver aliases).sourceSkus key).headD key

theorem sourceOf_mem (key : String) :
    sourceOf aliases key ∈ (loadPhysicalSkuResolver aliases).sourceSkus key := by
  obtain ⟨sku, hs⟩ := exists_mem_sourceSkus aliases key
  rw [sourceOf]
  cases h : (loadPhysicalSkuResolver aliases).sourceSkus key with
  | nil => rw [h] at hs; simp at hs
  | cons a l => simp

/-- The component stock as goods in transit to the overseas warehouse `W`. -/
def transitDb (componentStock : ComponentStock) : StockDb where
  thirdPartyWarehouses := .empty
  thirdPartyInventory := []
  warehouses := Dict.empty.set "W" 3
  inTransitRecords := (Dict.empty.set "US" ⟨some "W", some "US", true⟩).set "EU"
    ⟨some "W", some "EU", true⟩
  inTransitItems := componentStock.items.map fun entry =>
    ⟨textOr entry.2.country, sourceOf aliases entry.1.1, entry.2.total⟩
  unique_inventory := by simp

/-- A stock of components in the warehouse `W`, American or European. -/
def InW (componentStock : ComponentStock) : Prop :=
  ∀ entry ∈ componentStock.items, entry.1.2 = "W" ∧
    (entry.2.country = some "US" ∨ entry.2.country = some "EU") ∧
    ∃ y, resolveSku (loadPhysicalSkuResolver aliases).skuToGroupKey y = entry.1.1

variable {aliases}

theorem resolve_sourceOf {componentStock : ComponentStock} (h : InW aliases componentStock) :
    ∀ entry ∈ componentStock.items,
      resolveSku (loadPhysicalSkuResolver aliases).skuToGroupKey (sourceOf aliases entry.1.1) =
      entry.1.1 :=
  fun entry he => mem_sourceSkus aliases (h entry he).2.2 (sourceOf_mem aliases entry.1.1)

/-- The rows that the query for some SKUs returns. -/
def transitRows (aliases : PhysicalItemTable) (querySkus : List String)
    (componentStock : ComponentStock) : List ((String × String × String) × ℤ) :=
  (componentStock.items.filter fun entry => sourceOf aliases entry.1.1 ∈ querySkus).map fun entry =>
    ((sourceOf aliases entry.1.1, "W", textOr entry.2.country), entry.2.total)

theorem get?_transitRecords (componentStock : ComponentStock) {country : Option String}
    (h : country = some "US" ∨ country = some "EU") :
    (transitDb aliases componentStock).inTransitRecords.get? (textOr country) =
    some ⟨some "W", country, true⟩ := by
  have hrecords : (transitDb aliases componentStock).inTransitRecords =
      (Dict.empty.set "US" ⟨some "W", some "US", true⟩).set "EU" ⟨some "W", some "EU", true⟩ := rfl
  rcases h with rfl | rfl
  · rw [hrecords, textOr, Option.getD_some, Dict.get?_set_ne _ _ (by decide), Dict.get?_set_self]
  · rw [hrecords, textOr, Option.getD_some, Dict.get?_set_self]

theorem warehouseTransitRows_transitDb {componentStock : ComponentStock}
    (h : InW aliases componentStock) (querySkus : List String) :
    warehouseTransitRows (transitDb aliases componentStock) querySkus =
      transitRows aliases querySkus componentStock := by
  unfold warehouseTransitRows transitRows
  have hitems : (transitDb aliases componentStock).inTransitItems =
      componentStock.items.map fun entry =>
    ⟨textOr entry.2.country, sourceOf aliases entry.1.1, entry.2.total⟩ := rfl
  have hW : (transitDb aliases componentStock).warehouses.get? "W" = some 3 := rfl
  have hlocal : (3 : ℤ) ∉ localWarehouseTypes := by decide
  rw [hitems, List.filterMap_map, ← List.filterMap_eq_map, List.filterMap_filter]
  refine List.filterMap_congr fun entry he => ?_
  obtain ⟨-, hc, -⟩ := h entry he
  have hget : (transitDb aliases componentStock).inTransitRecords.get?
      (textOr entry.2.country) = _ :=
    get?_transitRecords componentStock hc
  obtain ⟨country, hcountry⟩ : ∃ country, entry.2.country = some country := by
    rcases hc with hc | hc <;> exact ⟨_, hc⟩
  rw [hcountry] at hget
  by_cases hq : sourceOf aliases entry.1.1 ∈ querySkus
  · simp only [Function.comp_apply, hcountry, hget, hq, hW]
    simp [textOr, hlocal]
  · simp only [Function.comp_apply, hcountry, hget, hq]
    simp

theorem loadInTransitTotals_eq (plan : Plan) {componentStock : ComponentStock}
    (h : InW aliases componentStock) (querySkus : List String)
    (skuToGroupKey : Dict String String) :
    loadInTransitTotalsByWarehouse plan (transitDb aliases componentStock) querySkus skuToGroupKey =
      stockByWarehouse plan skuToGroupKey some (transitRows aliases querySkus componentStock) :=
  congrArg (stockByWarehouse plan skuToGroupKey some) (warehouseTransitRows_transitDb h querySkus)

/-- Where the components that are asked for are on their way for one country, each is of one
country. -/
theorem oneCountry_transitDb {componentStock : ComponentStock} (h : InW aliases componentStock)
    (querySkus : List String) (skuToGroupKey : Dict String String) (euCountries : List String)
    {c : String} (hc : ∀ entry ∈ componentStock.items, sourceOf aliases entry.1.1 ∈ querySkus →
    entry.2.country = some c) :
    OneCountry U ⟨transitDb aliases componentStock, querySkus, skuToGroupKey, euCountries⟩ := by
  refine OneCountry.of_own (c := c) fun key w d hown => ?_
  rcases hown with hthird | htransit
  · obtain ⟨row, hrow, -⟩ := hthird
    exact absurd hrow List.not_mem_nil
  · obtain ⟨row, hrow, -, -, hd⟩ := htransit
    rw [warehouseTransitRows_transitDb h] at hrow
    obtain ⟨entry, he, rfl⟩ := List.mem_map.mp hrow
    obtain ⟨he, hasked⟩ := List.mem_filter.mp he
    have hcountry := hc entry he (of_decide_eq_true hasked)
    rw [hcountry] at hd
    exact (Option.some.inj hd).symm

theorem loadInTransitTotalsByCountry_nil (plan : Plan) (componentStock : ComponentStock)
    (h : InW aliases componentStock) (querySkus : List String) (skuToGroupKey : Dict String String)
    (key : String × String) :
    (loadInTransitTotalsByCountry U plan (transitDb aliases componentStock) querySkus
      skuToGroupKey).get? key = none := by
  have hitems : (transitDb aliases componentStock).inTransitItems =
      componentStock.items.map fun entry =>
    ⟨textOr entry.2.country, sourceOf aliases entry.1.1, entry.2.total⟩ := rfl
  rw [loadInTransitTotalsByCountry, get?_sumRows, Dict.get?_sumBy, if_pos]
  rw [valuesAt_rekey_eq_nil]
  intro p hp
  rw [hitems, List.filterMap_map, List.mem_filterMap] at hp
  obtain ⟨entry, he, hrow⟩ := hp
  rw [Function.comp_apply, get?_transitRecords componentStock (h entry he).2.1] at hrow
  simp at hrow

/-- **What a run loads from the goods in transit**: the stock of the SKUs it asks for. -/
theorem stockByWarehouse_transitRows {componentStock : ComponentStock}
    (h : InW aliases componentStock) (querySkus : List String) :
    stockByWarehouse Plan.identity (loadPhysicalSkuResolver aliases).skuToGroupKey some
      (transitRows aliases querySkus componentStock) =
      componentStock.filter fun key _ => sourceOf aliases key.1 ∈ querySkus := by
  set l := componentStock.items.filter fun entry => sourceOf aliases entry.1.1 ∈ querySkus with hl
  have hsub : ∀ entry ∈ l, entry ∈ componentStock.items := fun entry he => List.mem_of_mem_filter he
  have hnd : (l.map Prod.fst).Nodup := componentStock.nodup.sublist (List.filter_sublist.map _)
  -- different entries have different source SKUs, since these resolve to their keys
  have hsource : (l.map fun entry =>
      (sourceOf aliases entry.1.1, "W", textOr entry.2.country)).Nodup := by
    refine List.Nodup.map_on ?_ (List.Nodup.of_map _ hnd)
    intro a ha b hb hab
    have hkey : a.1.1 = b.1.1 := by
      rw [← resolve_sourceOf h a (hsub a ha), ← resolve_sourceOf h b (hsub b hb),
        (Prod.mk.inj hab).1]
    have hw : a.1.2 = b.1.2 := (h a (hsub a ha)).1.trans (h b (hsub b hb)).1.symm
    exact List.inj_on_of_nodup_map hnd ha hb (Prod.ext hkey hw)
  have hgroups : groupSum (transitRows aliases querySkus componentStock) =
      transitRows aliases querySkus componentStock := by
    refine (Dict.items_mergeAll _ _ Dict.empty ?_).trans (List.nil_append _)
    simpa [transitRows, Dict.empty, List.map_map, Function.comp_def] using hsource
  have hrows : (transitRows aliases querySkus componentStock).filterMap (fun row =>
      (some row.1.2.2).map fun mapped =>
        ((resolveSku (loadPhysicalSkuResolver aliases).skuToGroupKey row.1.1, row.1.2.1),
        (⟨some mapped, row.2⟩ : WarehouseStock))) = l := by
    rw [transitRows, List.filterMap_map, ← hl]
    refine (List.filterMap_congr fun entry he => ?_).trans List.filterMap_some
    obtain ⟨hw, hc, -⟩ := h entry (hsub entry he)
    have hcountry : some (textOr entry.2.country) = entry.2.country := by
      rcases hc with hc | hc <;> rw [hc] <;> rfl
    simp only [Function.comp_apply, Option.map_some, resolve_sourceOf h entry (hsub entry he),
      hcountry, ← hw]
  ext1
  rw [stockByWarehouse, show Plan.identity.order (groupSum _) = groupSum _ from rfl, hgroups, hrows]
  exact (Dict.items_mergeAll _ _ Dict.empty hnd).trans (List.nil_append _)

theorem mem_componentSkusForRules {rules : MappingRules} {key : String} :
    key ∈ componentSkusForRules rules ↔
      ∃ sku groups, rules.get? sku = some groups ∧
      ∃ group ∈ groups, ∃ c ∈ group, c.inventorySku = key := by
  simp only [componentSkusForRules, List.mem_insertionSort, List.mem_dedup, List.mem_flatMap,
    List.mem_map, Dict.values, Dict.get?_eq_some_iff]
  constructor
  · rintro ⟨groups, ⟨⟨sku, groups'⟩, hm, rfl⟩, hg⟩
    exact ⟨sku, groups', hm, hg⟩
  · rintro ⟨sku, groups, hm, hg⟩
    exact ⟨groups, ⟨(sku, groups), hm, rfl⟩, hg⟩

/-- Every key of a loaded rule resolves some SKU. -/
def Resolved (aliases : PhysicalItemTable) (rules : MappingRules) : Prop :=
  ∀ key ∈ componentSkusForRules rules, ∃ y,
    resolveSku (loadPhysicalSkuResolver aliases).skuToGroupKey y = key

/-- The query for the components of the rules asks for a component's stock exactly
if a rule uses it. -/
theorem sourceOf_mem_query {rules : MappingRules} (hr : Resolved aliases rules) {key : String}
    (hkey : ∃ y, resolveSku (loadPhysicalSkuResolver aliases).skuToGroupKey y = key) :
    sourceOf aliases key ∈ componentQuerySkus (loadPhysicalSkuResolver aliases) rules ↔
      key ∈ componentSkusForRules rules := by
  simp only [componentQuerySkus, List.mem_insertionSort, List.mem_dedup, List.mem_flatMap]
  constructor
  · rintro ⟨key', hk', hm⟩
    have h1 := mem_sourceSkus aliases hkey (sourceOf_mem aliases key)
    have h2 := mem_sourceSkus aliases (hr key' hk') hm
    rwa [← h1, h2]
  · intro hk
    exact ⟨key, hk, sourceOf_mem aliases key⟩

/-- **What a run assembles from the goods in transit.** -/
theorem loadMappedStock_transitDb {rules : MappingRules} (hr : Resolved aliases rules)
    {componentStock : ComponentStock} (h : InW aliases componentStock) (euCountries : List String)
    (velocity : Velocity) (hne : componentSkusForRules rules ≠ []) :
    loadMappedStock U Plan.identity (transitDb aliases componentStock)
    (loadPhysicalSkuResolver aliases) euCountries
      rules velocity = computeMappedStockByCountry U rules
        (componentStock.filter fun key _ => key.1 ∈ componentSkusForRules rules)
        (some velocity) := by
  have hthird : loadThirdPartyComponentInventoryByWarehouse U Plan.identity
      (transitDb aliases componentStock)
      (componentQuerySkus (loadPhysicalSkuResolver aliases) rules)
        (loadPhysicalSkuResolver aliases).skuToGroupKey
      euCountries = Dict.empty := rfl
  have hfilter : (componentStock.filter fun key _ => sourceOf aliases key.1 ∈
      componentQuerySkus (loadPhysicalSkuResolver aliases) rules) =
      componentStock.filter fun key _ => key.1 ∈ componentSkusForRules rules := by
    ext1
    refine List.filter_congr fun entry he => ?_
    rw [decide_eq_decide]
    exact sourceOf_mem_query hr (h entry he).2.2
  have hmerge : ∀ stock : ComponentStock, mergeWarehouseStock [Dict.empty, stock] = stock := by
    intro stock
    ext1
    have hitems : [Dict.empty, stock].flatMap Dict.items = stock.items := by simp [Dict.empty]
    rw [mergeWarehouseStock, hitems]
    exact (Dict.items_mergeAll _ _ Dict.empty stock.nodup).trans (List.nil_append _)
  have hcountry : (loadInTransitTotalsByCountry U Plan.identity (transitDb aliases componentStock)
      (componentQuerySkus (loadPhysicalSkuResolver aliases) rules)
      (loadPhysicalSkuResolver aliases).skuToGroupKey).items = [] := by
    rw [List.eq_nil_iff_forall_not_mem]
    intro p hp
    have hget := Dict.get?_eq_some_iff.mpr hp
    rw [loadInTransitTotalsByCountry_nil U _ _ h] at hget
    exact absurd hget (by simp)
  unfold loadMappedStock
  rw [if_neg hne]
  simp only [hthird, loadInTransitTotals_eq Plan.identity h, stockByWarehouse_transitRows h,
    hfilter, hmerge]
  rw [mappedStock, if_pos hcountry]

end Transit

/-! ### Stock of one warehouse -/

section OneWarehouse

variable (U : CharTable) {rules : MappingRules} {componentStock : ComponentStock}
    {velocity : Option Velocity}
variable {sku country : String}

theorem dedup_eq_singleton {a : String} :
    ∀ {l : List String}, l ≠ [] → (∀ b ∈ l, b = a) → l.dedup = [a]
  | [], hne, _ => absurd rfl hne
  | [b], _, h => by rw [h b (by simp)]; rfl
  | b :: c :: l, _, h => by
    have hmem : b ∈ c :: l := by
      rw [h b (by simp), ← h c (by simp)]
      exact List.mem_cons_self
    rw [List.dedup_cons_of_mem hmem]
    exact dedup_eq_singleton (List.cons_ne_nil _ _) fun d hd => h d (List.mem_cons_of_mem _ hd)

/-- In a stock of one warehouse a commodity has what its groups count there, in
the country of the warehouse. -/
theorem getD_computeMapped_one (hne : componentStock.items ≠ [])
    (hW : ∀ entry ∈ componentStock.items, entry.1.2 = "W") :
    (computeMappedStockByCountry U rules componentStock velocity).getD (sku, country) 0 =
      if textOr (countryByWarehouse componentStock "W") = country then
        ((rules.getD sku []).map fun group =>
          (assembledUnits U rules componentStock velocity sku "W" group).getD 0).sum
      else 0 := by
  have hids : warehouseIds componentStock = ["W"] := by
    refine dedup_eq_singleton ?_ ?_
    · simpa [Dict.keys] using hne
    · intro w hw
      simp only [Dict.keys, List.mem_map] at hw
      obtain ⟨key, ⟨entry, he, rfl⟩, rfl⟩ := hw
      exact hW entry he
  rw [getD_computeMappedStockByCountry, hids]
  by_cases h : textOr (countryByWarehouse componentStock "W") = country
  · simp [h]
  · simp [h]

theorem countryByWarehouse_cons {key : String} {total : ℤ}
    {rest : List ((String × String) × WarehouseStock)}
    (hitems : componentStock.items = ((key, "W"), ⟨some country, total⟩) :: rest)
    (hc : country ≠ "") :
    countryByWarehouse componentStock "W" = some country := by
  simp [countryByWarehouse, hitems, textOr, hc]

/-- A commodity that is the only one with a rule gets all of its components. -/
theorem partOf_only (honly : ∀ t, t ≠ sku → rules.get? t = none) {key warehouseId : String}
    {kept : WarehouseStock} (hmem : sku ∈ (mappingComponentConsumers rules).getD key [])
    (hget : componentStock.get? (key, warehouseId) = some kept) (hpos : 0 < kept.total) :
    partOf rules componentStock velocity sku warehouseId key = some kept.total := by
  have hall : ∀ c ∈ (mappingComponentConsumers rules).getD key [], c = sku := by
    intro c hc
    by_contra hne
    obtain ⟨groups, hg, -⟩ := mem_consumers.mp hc
    rw [honly c hne] at hg
    exact absurd hg (by simp)
  have hcons : (mappingComponentConsumers rules).getD key [] = [sku] := by
    have hnd := consumers_nodup rules key
    rcases hl : (mappingComponentConsumers rules).getD key [] with - | ⟨c, - | ⟨d, l⟩⟩
    · rw [hl] at hmem
      simp at hmem
    · rw [hall c (by rw [hl]; simp)]
    · rw [hl] at hnd hall
      rw [hall c (by simp), hall d (by simp)] at hnd
      simp at hnd
  rw [partOf_eq, hget, Option.bind_some, hcons]
  unfold allocateIntegerQuantity
  rw [if_neg (not_le.mpr hpos)]
  simp

end OneWarehouse

/-! ### Where the runs differ -/

section Differ

variable {U : CharTable} {table : RuleTable} {aliases : PhysicalItemTable} {skus : List String}
    {sku : String}

/-- The physical items of a rule. -/
def keysOf (skuGroups : Dict String String) (row : SkuMappingRule) : List String :=
  (row.components.map fun c => resolveSku skuGroups c.inventorySku).dedup

theorem mem_keysOf {skuGroups : Dict String String} {row : SkuMappingRule} {key : String} :
    key ∈ keysOf skuGroups row ↔
    ∃ c ∈ row.components, resolveSku skuGroups c.inventorySku = key := by
  simp [keysOf]

/-- The components of the loaded rules are the items of the active rows. -/
theorem mem_componentSkus_iff {skuGroups : Dict String String} {key : String} :
    key ∈ componentSkusForRules (loadActiveMappingRules table (some skus) skuGroups) ↔
      ∃ row ∈ activeRows table (some skus), key ∈ keysOf skuGroups row := by
  rw [mem_componentSkusForRules]
  constructor
  · rintro ⟨s, groups, hget, group, hg, m, hm, rfl⟩
    obtain ⟨row, hrow, -, -, rfl⟩ :=
      (loadActiveMappingRules_get? skuGroups table _ s groups).mp hget
    obtain ⟨group', hk, rfl⟩ := List.mem_map.mp hg
    exact ⟨row, hrow, mem_keysOf.mpr (exists_component_of_kept hk hm)⟩
  · rintro ⟨row, hrow, hkey⟩
    obtain ⟨c, hc, rfl⟩ := mem_keysOf.mp hkey
    exact ⟨row.commoditySku, mem_consumers.mp (mem_consumers_of_component hrow hc)⟩

theorem resolved_loadRules : Resolved aliases
    (loadActiveMappingRules table (some skus) (loadPhysicalSkuResolver aliases).skuToGroupKey) := by
  intro key hk
  obtain ⟨row, -, hkey⟩ := mem_componentSkus_iff.mp hk
  obtain ⟨c, -, rfl⟩ := mem_keysOf.mp hkey
  exact ⟨c.inventorySku, rfl⟩

theorem mem_activeRows_solo {row : SkuMappingRule} (hrow : row ∈ activeRows table (some skus)) :
    row ∈ activeRows table (some [row.commoditySku]) := by
  rw [mem_activeRows] at hrow ⊢
  exact ⟨hrow.1, hrow.2.1, by simp⟩

/-- The one active row of a commodity. -/
theorem activeRows_solo_unique {row row' : SkuMappingRule}
    (hrow : row ∈ activeRows table (some skus))
    (hrow' : row' ∈ activeRows table (some [row.commoditySku])) : row' = row := by
  rw [mem_activeRows] at hrow hrow'
  exact List.inj_on_of_nodup_map table.unique_commodities hrow'.1 hrow.1
    (List.mem_singleton.mp hrow'.2.2)

/-- Runs on goods in transit that agree assemble the same. -/
theorem mapped_of_sameFor {componentStock : ComponentStock} {euCountries : List String}
    {velocity velocity' : Velocity} {skus' : List String} (h : SameFor sku
      (runStep2 U Plan.identity (transitDb aliases componentStock) table
        (loadPhysicalSkuResolver aliases) euCountries
        velocity (some skus))
      (runStep2 U Plan.identity (transitDb aliases componentStock) table
        (loadPhysicalSkuResolver aliases) euCountries
        velocity' (some skus'))) (country : String) :
    (loadMappedStock U Plan.identity (transitDb aliases componentStock)
      (loadPhysicalSkuResolver aliases) euCountries
      (loadActiveMappingRules table (some skus) (loadPhysicalSkuResolver aliases).skuToGroupKey)
      velocity).getD
        (sku, country) 0 =
    (loadMappedStock U Plan.identity (transitDb aliases componentStock)
      (loadPhysicalSkuResolver aliases) euCountries
      (loadActiveMappingRules table (some skus') (loadPhysicalSkuResolver aliases).skuToGroupKey)
      velocity').getD
        (sku, country) 0 := by
  have hheld : ∀ l, (loadThirdPartyInventory U Plan.identity
      (transitDb aliases componentStock) (some l)
      euCountries).get? (sku, country) = none := fun l => rfl
  have havail : ∀ (m t : Option ℤ), (stockFrom none m t).elim 0 InventoryStock.available =
      m.getD 0 := by
    intro m t
    cases m <;> cases t <;> simp [stockFrom, Dict.combine]
  have hstock := congrArg (fun o => Option.elim o 0 InventoryStock.available) (h.stock country)
  simp only [get?_runStep2, hheld, havail] at hstock
  exact hstock

/-- The stock in `W` of the items of a rule. -/
def stockOfRow (skuGroups : Dict String String) (row : SkuMappingRule) (country : String)
    (total : String → ℤ) : ComponentStock :=
  ⟨(keysOf skuGroups row).map fun key => ((key, "W"), ⟨some country, total key⟩), by
    rw [List.map_map]
    exact (List.nodup_dedup _).map fun a b hab => (Prod.mk.inj hab).1⟩

/-- Enough of every component of a rule for one unit, all for the EU. -/
def enoughForOne (skuGroups : Dict String String) (row : SkuMappingRule) : ComponentStock :=
  stockOfRow skuGroups row "EU" fun _ => (((row.components.map (·.quantity)).sum : ℕ) : ℤ) + 1

section StockOfRow

variable {skuGroups : Dict String String} {row : SkuMappingRule} {country : String}
    {total : String → ℤ}

theorem get?_stockOfRow {key : String} (h : key ∈ keysOf skuGroups row) :
    (stockOfRow skuGroups row country total).get? (key, "W") = some ⟨some country, total key⟩ :=
  Dict.get?_eq_some_iff.mpr (List.mem_map.mpr ⟨key, h, rfl⟩)

theorem stockOfRow_ne_nil (h : row.components ≠ []) :
    (stockOfRow skuGroups row country total).items ≠ [] := by
  obtain ⟨c, hc⟩ := List.exists_mem_of_ne_nil _ h
  exact List.ne_nil_of_mem (List.mem_map.mpr ⟨_, mem_keysOf.mpr ⟨c, hc, rfl⟩, rfl⟩)

theorem stockOfRow_W :
    ∀ entry ∈ (stockOfRow skuGroups row country total).items, entry.1.2 = "W" := by
  intro entry he
  obtain ⟨key, -, rfl⟩ := List.mem_map.mp he
  rfl

theorem countryByWarehouse_stockOfRow (h : row.components ≠ []) (hc : country ≠ "") :
    countryByWarehouse (stockOfRow skuGroups row country total) "W" = some country := by
  have hne : (stockOfRow skuGroups row country total).items ≠ [] := stockOfRow_ne_nil h
  cases hl : keysOf skuGroups row with
  | nil => simp [stockOfRow, hl] at hne
  | cons key keys =>
    have hitems : (stockOfRow skuGroups row country total).items =
        ((key, "W"), ⟨some country, total key⟩) :: keys.map fun k =>
            ((k, "W"), ⟨some country, total k⟩) := by
      show (keysOf skuGroups row).map _ = _
      rw [hl, List.map_cons]
    exact countryByWarehouse_cons hitems hc

/-- Every rule of the list that contains this one asks for all of its stock. -/
theorem filter_stockOfRow (hrow : row ∈ activeRows table (some skus)) :
    ((stockOfRow skuGroups row country total).filter fun key _ =>
      key.1 ∈ componentSkusForRules (loadActiveMappingRules table (some skus) skuGroups)) =
      stockOfRow skuGroups row country total := by
  ext1
  refine List.filter_eq_self.mpr fun entry he => ?_
  obtain ⟨key, hk, rfl⟩ := List.mem_map.mp he
  exact decide_eq_true (mem_componentSkus_iff.mpr ⟨row, hrow, hk⟩)

/-- The commodity alone counts every group as often as the stock allows. -/
theorem le_units_of_kept (hrow : row ∈ activeRows table (some skus)) {stock : ComponentStock}
    (hcountry : countryByWarehouse stock "W" = some country)
    (hreport : isReportableCountryCode U (.str country) = true) {velocity : Option Velocity}
    {group : ℕ × MappingGroup} (hg : group ∈ keptGroups skuGroups row.components) {x : ℤ}
      (hkept : ∀ m ∈ group.2, ∃ kept, stock.get? (m.inventorySku, "W") = some kept ∧
      0 < kept.total ∧ x * m.quantity ≤ kept.total) :
    x ≤ (assembledUnits U (loadActiveMappingRules table (some [row.commoditySku]) skuGroups)
      stock velocity
      row.commoditySku "W" group.2).getD 0 := by
  refine le_assembledUnits U hcountry hreport (keptGroup_ne_nil hg) (quantity_pos_of_kept hg)
    fun m hm => ?_
  obtain ⟨c, hc, hk⟩ := exists_component_of_kept hg hm
  obtain ⟨kept, hget, hpos, hx⟩ := hkept m hm
  refine ⟨kept.total, ?_, hx⟩
  exact partOf_only (fun t ht => loadRules_eq_none fun hts => absurd (List.mem_singleton.mp hts) ht)
    (hk ▸ mem_consumers_of_component (mem_activeRows_solo hrow) hc) hget hpos

theorem le_units_solo (hrow : row ∈ activeRows table (some skus)) (hpos : ∀ key, 0 < total key)
    (hreport : isReportableCountryCode U (.str country) = true) (hc : country ≠ "")
    {velocity : Option Velocity} {group : ℕ × MappingGroup}
    (hg : group ∈ keptGroups skuGroups row.components) {x : ℤ}
    (hx : ∀ m ∈ group.2, x * m.quantity ≤ total m.inventorySku) :
    x ≤ (assembledUnits U (loadActiveMappingRules table (some [row.commoditySku]) skuGroups)
      (stockOfRow skuGroups row country total) velocity row.commoditySku "W" group.2).getD 0 := by
  obtain ⟨⟨d, hd, -⟩, -, -⟩ := (mem_keptGroups skuGroups).mp hg
  refine le_units_of_kept hrow (countryByWarehouse_stockOfRow (List.ne_nil_of_mem hd) hc) hreport hg
    fun m hm => ?_
  obtain ⟨c, hc', hk⟩ := exists_component_of_kept hg hm
  exact ⟨_, get?_stockOfRow (mem_keysOf.mpr ⟨c, hc', hk⟩), hpos _, hx m hm⟩

end StockOfRow

theorem inW_stockOfRow {row : SkuMappingRule} {country : String} {total : String → ℤ}
    (hc : country = "US" ∨ country = "EU") :
    InW aliases (stockOfRow (loadPhysicalSkuResolver aliases).skuToGroupKey row country total) := by
  intro entry he
  obtain ⟨key, hk, rfl⟩ := List.mem_map.mp he
  obtain ⟨c, -, hkey⟩ := mem_keysOf.mp hk
  refine ⟨rfl, ?_, c.inventorySku, hkey⟩
  rcases hc with rfl | rfl
  · exact Or.inl rfl
  · exact Or.inr rfl

theorem inW_enoughForOne (row : SkuMappingRule) :
    InW aliases (enoughForOne (loadPhysicalSkuResolver aliases).skuToGroupKey row) :=
  inW_stockOfRow (Or.inr rfl)

/-- All of it for one country, whatever query reads it. -/
theorem oneCountry_stockOfRow {row : SkuMappingRule} {country : String} {total : String → ℤ}
    (hc : country = "US" ∨ country = "EU") (euCountries : List String)
    (runSkus : Option (List String)) :
    OneCountry U (runQuery (transitDb aliases
      (stockOfRow (loadPhysicalSkuResolver aliases).skuToGroupKey row country total)) table
      (loadPhysicalSkuResolver aliases) euCountries runSkus) := by
  refine oneCountry_transitDb U (inW_stockOfRow hc) _ _ _ (c := country) fun entry he _ => ?_
  obtain ⟨key, -, rfl⟩ := List.mem_map.mp he
  rfl

theorem componentSkus_ne_nil {row : SkuMappingRule} {skuGroups : Dict String String}
    (hrow : row ∈ activeRows table (some skus)) (hne : row.components ≠ []) :
    componentSkusForRules (loadActiveMappingRules table (some skus) skuGroups) ≠ [] := by
  obtain ⟨c, hc⟩ := List.exists_mem_of_ne_nil _ hne
  exact List.ne_nil_of_mem (mem_componentSkus_iff.mpr ⟨row, hrow, mem_keysOf.mpr ⟨c, hc, rfl⟩⟩)

theorem groups_of_row {row : SkuMappingRule} {skuGroups : Dict String String}
    (hrow : row ∈ activeRows table (some skus)) (hne : row.components ≠ []) :
    (loadActiveMappingRules table (some skus) skuGroups).getD row.commoditySku [] =
      (keptGroups skuGroups row.components).map Prod.snd := by
  obtain ⟨hr, he, hs⟩ := mem_activeRows.mp hrow
  rw [Dict.getD, loadRules_get?_iff.mpr ⟨hs, row, hr, he, rfl, hne, rfl⟩, Option.getD_some]

/-- The parts of a component that sells alike everywhere: every consumer gets one
as soon as there is one for each. -/
theorem one_le_partOf {row : SkuMappingRule} {skuGroups : Dict String String}
    {componentStock : ComponentStock} {key : String} {total : ℤ}
    (hrow : row ∈ activeRows table (some skus)) (hkey : key ∈ keysOf skuGroups row)
    (hget : componentStock.get? (key, "W") = some ⟨some "US", total⟩)
    (htotal : ((activeRows table (some skus)).length : ℤ) ≤ total) :
    1 ≤ (partOf (loadActiveMappingRules table (some skus) skuGroups) componentStock
      (some (velocityAlone table (some skus) row.commoditySku 1)) row.commoditySku "W" key).getD
      0 := by
  set rules := loadActiveMappingRules table (some skus) skuGroups with hrules
  set consumers := (mappingComponentConsumers rules).getD key [] with hcons
  set weights := weightsIn (some (velocityAlone table (some skus) row.commoditySku 1))
    (some "US") with hws
  obtain ⟨c, hc, rfl⟩ := mem_keysOf.mp hkey
  have hmem : row.commoditySku ∈ consumers := mem_consumers_of_component hrow hc
  have hweights : ∀ s ∈ consumers, weights s = 1 := by
    intro s hs
    obtain ⟨r, hr, rfl⟩ := consumers_active hs
    rw [hws, weightsIn_velocityAlone hr, ite_self]
  have hlen : consumers.length ≤ (activeRows table (some skus)).length := by
    rw [← List.length_map (f := fun r : SkuMappingRule => r.commoditySku)]
    refine (consumers_nodup _ _).subperm (fun s hs => ?_) |>.length_le
    obtain ⟨r, hr, rfl⟩ := consumers_active hs
    exact List.mem_map_of_mem hr
  have htotal0 : 0 < total := by
    have := List.length_pos_of_mem hrow
    omega
  have hfst : (allocateIntegerQuantity total consumers weights).map Prod.fst = consumers :=
    map_fst_allocate
  obtain ⟨⟨s, n⟩, hn, hs⟩ := List.mem_map.mp (hfst.symm ▸ hmem)
  obtain rfl : s = row.commoditySku := hs
  have hone : 1 ≤ n := by
    refine le_allocate htotal0 (fun s hs => by rw [hweights s hs]; exact one_pos) hn ?_
    have hsum : consumers.map weights = consumers.map fun _ => (1 : ℚ) :=
      List.map_congr_left hweights
    rw [hweights _ hmem, hsum]
    simp only [List.map_const', List.sum_replicate, nsmul_eq_mul, mul_one, Int.cast_one, one_mul]
    exact_mod_cast (by omega : (consumers.length : ℤ) ≤ total)
  have hpart : partOf rules componentStock
      (some (velocityAlone table (some skus) row.commoditySku 1))
      row.commoditySku "W" (resolveSku skuGroups c.inventorySku) = some n := by
    rw [partOf_eq, hget, Option.bind_some, Dict.lookup_eq_some_iff]
    · exact hn
    · rw [map_fst_allocate]
      exact consumers_nodup _ _
  rw [hpart, Option.getD_some]
  exact hone

/-- What a run assembles of a commodity from the stock of its rule in `W`. -/
theorem getD_mapped_stockOfRow {row : SkuMappingRule} {country : String} {total : String → ℤ}
    (hrow : row ∈ activeRows table (some skus)) (hne : row.components ≠ [])
    (hc : country = "US" ∨ country = "EU") (euCountries : List String) (velocity : Velocity) :
    (loadMappedStock U Plan.identity
      (transitDb aliases (stockOfRow (loadPhysicalSkuResolver aliases).skuToGroupKey row
      country total)) (loadPhysicalSkuResolver aliases) euCountries
      (loadActiveMappingRules table (some skus) (loadPhysicalSkuResolver aliases).skuToGroupKey)
      velocity).getD
        (row.commoditySku, country) 0 =
    ((keptGroups (loadPhysicalSkuResolver aliases).skuToGroupKey row.components).map fun group =>
      (assembledUnits U (loadActiveMappingRules table (some skus)
        (loadPhysicalSkuResolver aliases).skuToGroupKey)
        (stockOfRow (loadPhysicalSkuResolver aliases).skuToGroupKey row country total)
          (some velocity)
        row.commoditySku "W" group.2).getD 0).sum := by
  have hc0 : country ≠ "" := by rcases hc with rfl | rfl <;> decide
  rw [loadMappedStock_transitDb U resolved_loadRules (inW_stockOfRow hc) _ _
    (componentSkus_ne_nil hrow hne), filter_stockOfRow hrow,
    getD_computeMapped_one U (stockOfRow_ne_nil hne) stockOfRow_W,
    countryByWarehouse_stockOfRow hne hc0, groups_of_row hrow hne, List.map_map]
  rw [textOr, Option.getD_some, if_pos rfl]
  rfl

/-- A kept group lists no more of a component than the rule lists of all. -/
theorem quantity_le_sum_of_kept {skuGroups : Dict String String}
    {components : List SkuMappingComponent} {no : ℕ} {group : MappingGroup}
    (hg : (no, group) ∈ keptGroups skuGroups components) {m : MappingComponent} (hm : m ∈ group) :
    (m.quantity : ℤ) ≤ ((components.map (·.quantity)).sum : ℕ) := by
  obtain ⟨hmq, -⟩ := ((formula_keptGroup skuGroups hg).mem m).mp hm
  rw [← hmq]
  exact_mod_cast maxQuantity_le_rawQuantity.trans (rawQuantity_le_sum _ _ _)

/-- Enough of every component for the whole formula: the commodity alone counts a unit. -/
theorem one_le_units_of_enough {row : SkuMappingRule} {skuGroups : Dict String String}
    (hrow : row ∈ activeRows table (some skus)) (hne : row.components ≠ [])
    {stock : ComponentStock} {country : String}
    (hcountry : countryByWarehouse stock "W" = some country)
    (hreport : isReportableCountryCode U (.str country) = true) (velocity : Option Velocity)
    (henough : ∀ key ∈ keysOf skuGroups row, ∃ kept, stock.get? (key, "W") = some kept ∧
      (((row.components.map (·.quantity)).sum : ℕ) : ℤ) + 1 ≤ kept.total) :
    1 ≤ ((keptGroups skuGroups row.components).map fun group =>
      (assembledUnits U (loadActiveMappingRules table (some [row.commoditySku]) skuGroups)
        stock velocity row.commoditySku "W" group.2).getD 0).sum := by
  obtain ⟨g, hg⟩ := List.exists_mem_of_ne_nil _
    (keptGroups_eq_nil_iff.not.mpr hne : keptGroups skuGroups _ ≠ [])
  have hunit : 1 ≤ (assembledUnits U
      (loadActiveMappingRules table (some [row.commoditySku]) skuGroups)
      stock velocity row.commoditySku "W" g.2).getD 0 := by
    refine le_units_of_kept hrow hcountry hreport hg fun m hm => ?_
    obtain ⟨c, hc, hk⟩ := exists_component_of_kept hg hm
    obtain ⟨kept, hget, hle⟩ := henough _ (mem_keysOf.mpr ⟨c, hc, hk⟩)
    have hqb := quantity_le_sum_of_kept hg hm
    exact ⟨kept, hget, by omega, by omega⟩
  exact hunit.trans
    (Sums.le_sum (fun g' hg' => (units_mul_le U (quantity_pos_of_kept hg')).1) hg)

section Parts

variable {rules : MappingRules} {velocity : Option Velocity} {row : SkuMappingRule}
    {skuGroups : Dict String String} {country sku key : String} {total : String → ℤ}

/-- No commodity gets more of a component than the stock holds. -/
theorem partOf_stockOfRow_le (hkey : key ∈ keysOf skuGroups row) (hpos : 0 < total key) :
    (partOf rules (stockOfRow skuGroups row country total) velocity sku "W" key).getD 0 ≤
      total key := by
  have hle := sum_partOf_le rules (stockOfRow skuGroups row country total) velocity
    (List.nodup_singleton sku) "W" key
  rw [stockOf, get?_stockOfRow hkey, Option.elim_some, max_eq_left hpos.le] at hle
  simpa using hle

/-- Where another commodity gets some of it, a commodity gets less than all. -/
theorem partOf_stockOfRow_lt {sku' : String} (hne : sku' ≠ sku)
    (hkey : key ∈ keysOf skuGroups row) (hpos : 0 < total key)
    (hother : 1 ≤
      (partOf rules (stockOfRow skuGroups row country total) velocity sku' "W" key).getD 0) :
    (partOf rules (stockOfRow skuGroups row country total) velocity sku "W" key).getD 0 <
      total key := by
  have hnd : [sku, sku'].Nodup := by simpa using hne.symm
  have hle := sum_partOf_le rules (stockOfRow skuGroups row country total) velocity hnd "W" key
  rw [stockOf, get?_stockOfRow hkey, Option.elim_some, max_eq_left hpos.le] at hle
  simp only [List.map_cons, List.map_nil, List.sum_cons, List.sum_nil, add_zero] at hle
  linarith

end Parts

/-- One more row of a component that no rule of the list asks for is filtered out. -/
theorem filter_cons_of_not_asked {stock rest : ComponentStock} {key warehouse : String}
    {row : WarehouseStock} {keys : List String}
    (hstock : stock.items = ((key, warehouse), row) :: rest.items) (hkey : key ∉ keys)
    (hrest : (rest.filter fun k _ => k.1 ∈ keys) = rest) :
    (stock.filter fun k _ => k.1 ∈ keys) = rest := by
  ext1
  show stock.items.filter _ = _
  rw [hstock, List.filter_cons, if_neg (by simpa using hkey)]
  exact congrArg Dict.items hrest

theorem filter_cons_of_asked {stock rest : ComponentStock} {key warehouse : String}
    {row : WarehouseStock} {keys : List String}
    (hstock : stock.items = ((key, warehouse), row) :: rest.items) (hkey : key ∈ keys)
    (hrest : (rest.filter fun k _ => k.1 ∈ keys) = rest) :
    (stock.filter fun k _ => k.1 ∈ keys) = stock := by
  ext1
  show stock.items.filter _ = _
  rw [hstock, List.filter_cons, if_pos (by simpa using hkey)]
  exact congrArg _ (congrArg Dict.items hrest)

/-- **A shared component is split between its commodities only in the full run.** -/
theorem exists_stock_shared {row row' : SkuMappingRule} (hrow : row ∈ activeRows table (some skus))
    (hrow' : row' ∈ activeRows table (some skus)) (hsku : row'.commoditySku ≠ row.commoditySku)
    {key : String} (hkey : key ∈ keysOf (loadPhysicalSkuResolver aliases).skuToGroupKey row)
    (hkey' : key ∈ keysOf (loadPhysicalSkuResolver aliases).skuToGroupKey row')
    (euCountries : List String) :
    ∃ componentStock velocity, OneCountry U (runQuery (transitDb aliases componentStock) table
        (loadPhysicalSkuResolver aliases) euCountries (some [row.commoditySku])) ∧
        ¬ SameFor row.commoditySku
      (runStep2 U Plan.identity (transitDb aliases componentStock) table
        (loadPhysicalSkuResolver aliases) euCountries
        (Dict.empty.set row.commoditySku (velocity.getD row.commoditySku .empty))
        (some [row.commoditySku]))
        (runStep2 U Plan.identity (transitDb aliases componentStock) table
        (loadPhysicalSkuResolver aliases) euCountries
        velocity (some skus)) := by
  set skuGroups := (loadPhysicalSkuResolver aliases).skuToGroupKey with hgroups
  obtain ⟨c, hc, hck⟩ := mem_keysOf.mp hkey
  have hne : row.components ≠ [] := List.ne_nil_of_mem hc
  obtain ⟨no, group, hg, hf⟩ :=
    exists_keptGroup skuGroups (⟨c, hc, rfl⟩ : HasGroup row.components c.groupNo)
  set q : ℤ := (maxQuantity skuGroups row.components no key : ℤ) with hq
  have hq0 : 0 < q := by
    rw [hq, hf, ← hck]
    exact_mod_cast maxQuantity_pos hc
  set n : ℤ := ((activeRows table (some skus)).length : ℤ) with hn
  have hn0 : 0 < n := by rw [hn]; exact_mod_cast List.length_pos_of_mem hrow
  set bound : ℤ := (((row.components.map (·.quantity)).sum : ℕ) : ℤ) with hbound
  set total : String → ℤ := fun k => if k = key then q * n else n * bound + 1 with htotal
  have hpos : ∀ k, 0 < total k := by
    intro k
    simp only [htotal]
    split_ifs <;> positivity
  set velocity := velocityAlone table (some skus) row'.commoditySku 1 with hvelocity
  refine ⟨stockOfRow skuGroups row "US" total, velocity,
    oneCountry_stockOfRow (Or.inl rfl) _ _, fun h => ?_⟩
  have hsum := mapped_of_sameFor h "US"
  rw [getD_mapped_stockOfRow (mem_activeRows_solo hrow) hne (Or.inl rfl),
    getD_mapped_stockOfRow hrow hne (Or.inl rfl)] at hsum
  -- what the full run counts, the commodity alone counts too
  set full := loadActiveMappingRules table (some skus) skuGroups with hfull
  set stock := stockOfRow skuGroups row "US" total with hstock
  have hstrict : (partOf full stock (some velocity) row.commoditySku "W" key).getD 0 <
      q * n := by
    have hother : 1 ≤ (partOf full stock (some velocity) row'.commoditySku "W" key).getD 0 :=
      one_le_partOf hrow' hkey' (get?_stockOfRow hkey) (by simp only [htotal, if_pos]; nlinarith)
    have hlt := partOf_stockOfRow_lt hsku hkey (hpos key) hother
    simpa only [htotal, if_pos] using hlt
  refine absurd hsum (ne_of_gt (List.sum_lt_sum _ _ ?_ ⟨(no, group), hg, ?_⟩))
  · intro g hgk
    refine le_units_solo hrow hpos (isReportable_US U) (by decide) hgk fun m hm => ?_
    exact ((units_mul_le U (quantity_pos_of_kept hgk)).2 m hm).trans
      (partOf_stockOfRow_le (mem_keysOf.mpr (exists_component_of_kept hgk hm)) (hpos _))
  · -- the shared component allows one unit less
    have hm : (⟨key, maxQuantity skuGroups row.components no key⟩ : MappingComponent) ∈ group :=
      ((formula_keptGroup skuGroups hg).mem _).mpr ⟨rfl, Int.natCast_pos.mp hq0⟩
    have hless : (assembledUnits U full stock (some velocity) row.commoditySku "W" group).getD 0 <
        n := by
      have hle := (units_mul_le U (quantity_pos_of_kept hg)).2 _ hm |>.trans_lt hstrict
      rw [mul_comm q n] at hle
      exact lt_of_mul_lt_mul_right hle hq0.le
    refine hless.trans_le (le_units_solo hrow hpos (isReportable_US U) (by decide) hg
      fun m hm => ?_)
    obtain ⟨hmq, -⟩ := ((formula_keptGroup skuGroups hg).mem m).mp hm
    simp only [htotal]
    split_ifs with he
    · rw [← hmq, he, mul_comm]
    · have hqb : (m.quantity : ℤ) ≤ bound := quantity_le_sum_of_kept hg hm
      nlinarith

section OneMore

variable {row row' : SkuMappingRule} {key : String} {stock : ComponentStock}

/-- One unit of another component, for the US, before the stock of a rule for the EU. -/
theorem exists_one_more {skuGroups : Dict String String} (hkey : key ∉ keysOf skuGroups row) :
    ∃ stock : ComponentStock, stock.items =
      ((key, "W"), ⟨some "US", 1⟩) :: (enoughForOne skuGroups row).items := by
  refine ⟨⟨_, ?_⟩, rfl⟩
  rw [List.map_cons, List.nodup_cons]
  refine ⟨fun hm => ?_, (enoughForOne skuGroups row).nodup⟩
  obtain ⟨entry, he, hek⟩ := List.mem_map.mp hm
  obtain ⟨k, hk, rfl⟩ := List.mem_map.mp he
  exact hkey ((Prod.mk.inj hek).1 ▸ hk)

variable (hstock : stock.items = ((key, "W"), ⟨some "US", 1⟩) ::
    (enoughForOne (loadPhysicalSkuResolver aliases).skuToGroupKey row).items)
variable (hkey' : key ∈ keysOf (loadPhysicalSkuResolver aliases).skuToGroupKey row')

include hstock hkey'

theorem inW_one_more : InW aliases stock := by
  intro entry he
  rw [hstock] at he
  rcases List.mem_cons.mp he with rfl | he
  · obtain ⟨c, -, hc⟩ := mem_keysOf.mp hkey'
    exact ⟨rfl, Or.inl rfl, c.inventorySku, hc⟩
  · exact inW_enoughForOne row entry he

/-- A query that does not ask for the one unit sees goods of the EU only. -/
theorem oneCountry_one_more (hno : key ∉ componentSkusForRules (loadActiveMappingRules table
      (some [row.commoditySku]) (loadPhysicalSkuResolver aliases).skuToGroupKey))
    (euCountries : List String) :
    OneCountry U (runQuery (transitDb aliases stock) table (loadPhysicalSkuResolver aliases)
      euCountries (some [row.commoditySku])) := by
  refine oneCountry_transitDb U (inW_one_more hstock hkey') _ _ _ (c := "EU")
    fun entry he hasked => ?_
  rw [hstock] at he
  rcases List.mem_cons.mp he with rfl | he
  · obtain ⟨c, -, hc⟩ := mem_keysOf.mp hkey'
    exact absurd ((sourceOf_mem_query resolved_loadRules ⟨c.inventorySku, hc⟩).mp hasked) hno
  · obtain ⟨k, -, rfl⟩ := List.mem_map.mp he
    rfl

end OneMore

/-- The rule of a commodity asks for its own components only. -/
theorem not_asked_solo {row : SkuMappingRule} {skuGroups : Dict String String} {key : String}
    (hrow : row ∈ activeRows table (some skus)) (hkey : key ∉ keysOf skuGroups row) :
    key ∉ componentSkusForRules
      (loadActiveMappingRules table (some [row.commoditySku]) skuGroups) := by
  intro hm
  obtain ⟨r, hr, hk⟩ := mem_componentSkus_iff.mp hm
  exact hkey (activeRows_solo_unique hrow hr ▸ hk)

/-- **A warehouse takes its country from the first component row**, which the
commodity alone may not load. -/
theorem exists_stock_country {row row' : SkuMappingRule} (hrow : row ∈ activeRows table (some skus))
    (hrow' : row' ∈ activeRows table (some skus)) (hne : row.components ≠ []) {key : String}
    (hkey : key ∉ keysOf (loadPhysicalSkuResolver aliases).skuToGroupKey row)
    (hkey' : key ∈ keysOf (loadPhysicalSkuResolver aliases).skuToGroupKey row')
    (euCountries : List String) :
    ∃ componentStock velocity, OneCountry U (runQuery (transitDb aliases componentStock) table
        (loadPhysicalSkuResolver aliases) euCountries (some [row.commoditySku])) ∧
        ¬ SameFor row.commoditySku
      (runStep2 U Plan.identity (transitDb aliases componentStock) table
        (loadPhysicalSkuResolver aliases) euCountries
        (Dict.empty.set row.commoditySku (velocity.getD row.commoditySku .empty))
        (some [row.commoditySku]))
        (runStep2 U Plan.identity (transitDb aliases componentStock) table
        (loadPhysicalSkuResolver aliases) euCountries
        velocity (some skus)) := by
  set skuGroups := (loadPhysicalSkuResolver aliases).skuToGroupKey with hgroups
  obtain ⟨stock, hstock⟩ := exists_one_more hkey
  have hin : InW aliases stock := inW_one_more hstock hkey'
  have hno := not_asked_solo hrow hkey
  refine ⟨stock, .empty, oneCountry_one_more hstock hkey' hno _, fun h => ?_⟩
  have hsum := mapped_of_sameFor h "EU"
  have hsolo : (stock.filter fun k _ => k.1 ∈ componentSkusForRules (loadActiveMappingRules table
      (some [row.commoditySku]) skuGroups)) = enoughForOne skuGroups row :=
    filter_cons_of_not_asked hstock hno (filter_stockOfRow (mem_activeRows_solo hrow))
  have hfull : (stock.filter fun k _ => k.1 ∈ componentSkusForRules (loadActiveMappingRules table
      (some skus) skuGroups)) = stock :=
    filter_cons_of_asked hstock (mem_componentSkus_iff.mpr ⟨row', hrow', hkey'⟩)
      (filter_stockOfRow hrow)
  have hW : ∀ entry ∈ stock.items, entry.1.2 = "W" := fun entry he => (hin entry he).1
  rw [loadMappedStock_transitDb U resolved_loadRules hin _ _
    (componentSkus_ne_nil (mem_activeRows_solo hrow) hne),
    loadMappedStock_transitDb U resolved_loadRules hin _ _ (componentSkus_ne_nil hrow hne),
    hsolo, hfull, enoughForOne,
    getD_computeMapped_one U (stockOfRow_ne_nil hne) stockOfRow_W,
    getD_computeMapped_one U (by rw [hstock]; exact List.cons_ne_nil _ _) hW,
    countryByWarehouse_stockOfRow hne (by decide), countryByWarehouse_cons hstock (by decide),
    groups_of_row (mem_activeRows_solo hrow) hne, List.map_map, textOr, Option.getD_some,
      if_pos rfl, textOr,
    Option.getD_some, if_neg (by decide)] at hsum
  -- the commodity alone counts at least one unit in the other country
  have hcountry : countryByWarehouse (enoughForOne skuGroups row) "W" = some "EU" :=
    countryByWarehouse_stockOfRow hne (by decide)
  have hunit := one_le_units_of_enough hrow hne hcountry (isReportable_EU U)
    (some (Dict.empty.set row.commoditySku ((Dict.empty : Velocity).getD row.commoditySku .empty)))
    fun k hk => ⟨_, get?_stockOfRow hk, le_rfl⟩
  rw [Function.comp_def] at hsum
  exact absurd (hunit.trans hsum.le) (by decide)

end Differ

/-! ### Where two orders differ -/

section Order

variable {U : CharTable} {table : RuleTable} {aliases : PhysicalItemTable} {skus : List String}
variable {q : ComponentQuery} {plan : Plan}

/-- Goods on their way to a warehouse are kept with it. -/
theorem le_total_componentStock (hno : ∀ key w d, ¬ThirdParty U q key w d)
    (hnonneg : ∀ row ∈ warehouseTransitRows q.db q.inventorySkus, 0 ≤ row.2)
    {row : (String × String × String) × ℤ}
    (hrow : row ∈ warehouseTransitRows q.db q.inventorySkus) :
    ∃ kept, (componentStock U q plan).get?
      (resolveSku q.skuToGroupKey row.1.1, row.1.2.1) = some kept ∧ row.2 ≤ kept.total := by
  obtain ⟨kept, hkept⟩ := Option.isSome_iff_exists.mp ((@isSome_componentStock U q plan _ _).mpr
    ⟨row.1.2.2, Or.inr ⟨row, hrow, rfl, rfl, rfl⟩⟩)
  refine ⟨kept, hkept, ?_⟩
  have hfirst : (loadThirdPartyComponentInventoryByWarehouse U plan q.db q.inventorySkus
      q.skuToGroupKey
      q.euCountries).get? (resolveSku q.skuToGroupKey row.1.1, row.1.2.1) = none := by
    rw [← Option.not_isSome_iff_eq_none]
    intro hsome
    obtain ⟨d, hd⟩ := isSome_stockByWarehouse.mp hsome
    exact hno _ _ d hd
  have htotal := @total_stockByWarehouse q.skuToGroupKey some plan
    (warehouseTransitRows q.db q.inventorySkus)
    (resolveSku q.skuToGroupKey row.1.1) row.1.2.1
  have hsecond : (stockByWarehouse plan q.skuToGroupKey
      some (warehouseTransitRows q.db q.inventorySkus)).get?
      (resolveSku q.skuToGroupKey row.1.1, row.1.2.1) = some kept :=
        (get?_merge_of_second hfirst).symm.trans hkept
  rw [hsecond, Option.map_some, Dict.get?_sumBy] at htotal
  split_ifs at htotal
  rw [Option.some.inj htotal]
  refine List.single_le_sum (fun n hn => ?_) _
    (Dict.mem_valuesAt.mpr (List.mem_filterMap.mpr ⟨row, hrow, rfl⟩))
  obtain ⟨row', hrow', he⟩ := List.mem_filterMap.mp (Dict.mem_valuesAt.mp hn)
  obtain ⟨-, rfl⟩ := Prod.mk.inj (Option.some.inj he)
  exact hnonneg row' hrow'

/-- What a run finds of a commodity whose components are on their way to `W` only. -/
theorem available_of_transit {db : StockDb} {row : SkuMappingRule} {country : String}
    (hrow : row ∈ activeRows table (some [row.commoditySku])) (hne : row.components ≠ [])
    (hstored : db.thirdPartyInventory = []) (euCountries : List String) (velocity : Velocity)
    (hq : q = runQuery db table (loadPhysicalSkuResolver aliases) euCountries
      (some [row.commoditySku]))
      (hW : ∀ r ∈ warehouseTransitRows q.db q.inventorySkus, r.1.2.1 = "W")
      (hlevel : ¬CountryLevel U q country) (hitems : (componentStock U q plan).items ≠ []) :
    ((runStep2 U plan db table (loadPhysicalSkuResolver aliases) euCountries velocity
      (some [row.commoditySku])).2.get?
      (row.commoditySku, country)).elim 0 InventoryStock.available = if textOr
      (countryByWarehouse (componentStock U q plan) "W") = country then
        (((keptGroups (loadPhysicalSkuResolver aliases).skuToGroupKey row.components).map
          Prod.snd).map fun group =>
          (assembledUnits U (loadActiveMappingRules table (some [row.commoditySku])
            (loadPhysicalSkuResolver aliases).skuToGroupKey) (componentStock U q plan)
              (some velocity) row.commoditySku "W"
              group).getD 0).sum
      else 0 := by
  have hthird : ∀ key w d, ¬ThirdParty U q key w d := by
    rintro key w d ⟨r, hr, -⟩
    rw [hq] at hr
    have hnil : thirdPartyComponentRows db
        (runQuery db table (loadPhysicalSkuResolver aliases) euCountries
        (some [row.commoditySku])).inventorySkus = [] := by
      unfold thirdPartyComponentRows
      rw [hstored]
      rfl
    exact absurd (hnil ▸ hr) List.not_mem_nil
  have hheld : (loadThirdPartyInventory U plan db (some [row.commoditySku]) euCountries).get?
      (row.commoditySku, country) = none := by
    have hnil : thirdPartyRows db (some [row.commoditySku]) = [] := by
      unfold thirdPartyRows
      rw [hstored]
      rfl
    rw [loadThirdPartyInventory, get?_sumRows, hnil]
    rfl
  have havail : ∀ (m t : Option ℤ), (stockFrom none m t).elim 0 InventoryStock.available =
      m.getD 0 := by
    intro m t
    cases m <;> cases t <;> simp [stockFrom, Dict.combine]
  have hwarehouse : ∀ entry ∈ (componentStock U q plan).items, entry.1.2 = "W" := by
    intro entry he
    obtain ⟨d, hown⟩ := isSome_componentStock.mp
      (Option.isSome_iff_exists.mpr ⟨_, Dict.get?_eq_some_iff.mpr he⟩)
    rcases hown with hown | ⟨r, hr, -, hw, -⟩
    · exact absurd hown (hthird _ _ _)
    · exact hw.symm.trans (hW r hr)
  have hmapped : loadMappedStock U plan db (loadPhysicalSkuResolver aliases) euCountries
      (loadActiveMappingRules table (some [row.commoditySku])
        (loadPhysicalSkuResolver aliases).skuToGroupKey) velocity =
      mappedStock U (loadActiveMappingRules table (some [row.commoditySku])
        (loadPhysicalSkuResolver aliases).skuToGroupKey)
        (componentStock U q plan)
            (loadInTransitTotalsByCountry U plan q.db q.inventorySkus q.skuToGroupKey)
            velocity := by
    rw [hq]
    exact if_neg (componentSkus_ne_nil hrow hne)
  rw [get?_runStep2, hheld, havail, hmapped, get?_mappedStock,
    if_neg (mt mem_countryTransit.mp hlevel)]
  refine (getD_computeMapped_one U hitems hwarehouse).trans ?_
  rw [groups_of_row hrow hne]

/-- The stock of components in transit to `W`, and one unit of a component that goes there
for the US. -/
def twoCountryDb (aliases : PhysicalItemTable) (goods : ComponentStock) (key : String) : StockDb :=
  { transitDb aliases goods with
    inTransitItems := ⟨"US", sourceOf aliases key, 1⟩ :: (transitDb aliases goods).inTransitItems }

variable {goods : ComponentStock} {key : String}

/-- The one unit is a row of its own. -/
theorem warehouseTransitRows_twoCountryDb (h : InW aliases goods) {querySkus : List String}
    (hasked : sourceOf aliases key ∈ querySkus) :
    warehouseTransitRows (twoCountryDb aliases goods key) querySkus =
      ((sourceOf aliases key, "W", "US"), 1) :: transitRows aliases querySkus goods := by
  have hlocal : (3 : ℤ) ∉ localWarehouseTypes := by decide
  have hW : (twoCountryDb aliases goods key).warehouses.get? "W" = some 3 := rfl
  have hrecord : (twoCountryDb aliases goods key).inTransitRecords.get? "US" =
      some ⟨some "W", some "US", true⟩ := rfl
  rw [← warehouseTransitRows_transitDb h]
  refine List.filterMap_cons_some ?_
  simp only [hrecord, hW, Option.elim_some]
  exact if_pos ⟨hasked, trivial, decide_eq_true hlocal⟩

theorem countryTransitRows_twoCountryDb (h : InW aliases goods) (querySkus : List String) :
    countryTransitRows (twoCountryDb aliases goods key) querySkus = [] := by
  refine List.filterMap_eq_nil_iff.mpr fun item hitem => ?_
  have hrecord : ∃ country, (transitDb aliases goods).inTransitRecords.get? item.saihuOutRecordId =
      some ⟨some "W", country, true⟩ := by
    rcases List.mem_cons.mp hitem with rfl | hitem
    · exact ⟨some "US", rfl⟩
    · obtain ⟨entry, he, rfl⟩ := List.mem_map.mp hitem
      exact ⟨_, get?_transitRecords goods (h entry he).2.1⟩
  obtain ⟨country, hrecord⟩ := hrecord
  have hrecord' : (twoCountryDb aliases goods key).inTransitRecords.get? item.saihuOutRecordId =
      some ⟨some "W", country, true⟩ := hrecord
  simp only [hrecord']
  exact if_neg (by simp)

section Query

variable {row : SkuMappingRule}
variable (hrow : row ∈ activeRows table (some [row.commoditySku]))
variable (hkey : key ∈ keysOf (loadPhysicalSkuResolver aliases).skuToGroupKey row)
    {euCountries : List String}
variable (hq : q = runQuery
    (twoCountryDb aliases (enoughForOne (loadPhysicalSkuResolver aliases).skuToGroupKey row) key)
  table (loadPhysicalSkuResolver aliases) euCountries (some [row.commoditySku]))

include hrow hq

/-- The query asks for the components of the rule. -/
theorem asked_of_enoughForOne {k : String}
    (hk : k ∈ keysOf (loadPhysicalSkuResolver aliases).skuToGroupKey row) :
    sourceOf aliases k ∈ q.inventorySkus := by
  obtain ⟨c, -, hc⟩ := mem_keysOf.mp hk
  rw [hq]
  exact (sourceOf_mem_query resolved_loadRules ⟨c.inventorySku, hc⟩).mpr
    (mem_componentSkus_iff.mpr ⟨row, hrow, hk⟩)

include hkey

/-- One unit for the US, and the rest for the EU. -/
theorem rows_of_enoughForOne :
    warehouseTransitRows q.db q.inventorySkus = ((sourceOf aliases key, "W", "US"), 1) ::
    transitRows aliases q.inventorySkus
    (enoughForOne (loadPhysicalSkuResolver aliases).skuToGroupKey row) := by
  have hrows := warehouseTransitRows_twoCountryDb (inW_enoughForOne row)
    (asked_of_enoughForOne hrow hq hkey)
  rw [← hrows]
  exact congrArg (fun db => warehouseTransitRows db q.inventorySkus) (by rw [hq]; rfl)

theorem row_of_enoughForOne {k : String}
    (hk : k ∈ keysOf (loadPhysicalSkuResolver aliases).skuToGroupKey row) :
    ((sourceOf aliases k, "W", "EU"), (((row.components.map (·.quantity)).sum : ℕ) : ℤ) + 1) ∈
      warehouseTransitRows q.db q.inventorySkus := by
  rw [rows_of_enoughForOne hrow hkey hq]
  refine List.mem_cons_of_mem _ (List.mem_map.mpr ⟨((k, "W"), ⟨some "EU", _⟩), ?_, rfl⟩)
  exact List.mem_filter.mpr
    ⟨List.mem_map.mpr ⟨k, hk, rfl⟩, decide_eq_true (asked_of_enoughForOne hrow hq hk)⟩

theorem inW_of_enoughForOne : ∀ r ∈ warehouseTransitRows q.db q.inventorySkus, r.1.2.1 = "W" ∧
    0 ≤ r.2 := by
  intro r hr
  rw [rows_of_enoughForOne hrow hkey hq] at hr
  rcases List.mem_cons.mp hr with rfl | hr
  · exact ⟨rfl, zero_le_one⟩
  · obtain ⟨entry, he, rfl⟩ := List.mem_map.mp hr
    obtain ⟨k, -, rfl⟩ := List.mem_map.mp (List.mem_filter.mp he).1
    exact ⟨rfl, Int.add_nonneg (Int.natCast_nonneg _) zero_le_one⟩

omit hrow hkey in
theorem not_thirdParty_of_enoughForOne (k w d : String) : ¬ThirdParty U q k w d := by
  rintro ⟨r, hr, -⟩
  rw [hq] at hr
  exact absurd hr List.not_mem_nil

omit hrow hkey in
theorem not_countryLevel_of_enoughForOne (country : String) : ¬CountryLevel U q country := by
  rintro ⟨-, r, hr, -⟩
  have hnil := @countryTransitRows_twoCountryDb aliases _ key (inW_enoughForOne row) q.inventorySkus
  rw [hq] at hr hnil
  exact absurd (hnil ▸ hr) List.not_mem_nil

/-- Enough of every component is kept. -/
theorem kept_of_enoughForOne (plan : Plan) {k : String}
    (hk : k ∈ keysOf (loadPhysicalSkuResolver aliases).skuToGroupKey row) :
    ∃ kept, (componentStock U q plan).get? (k, "W") = some kept ∧
      (((row.components.map (·.quantity)).sum : ℕ) : ℤ) + 1 ≤ kept.total := by
  obtain ⟨kept, hget, hle⟩ := @le_total_componentStock U q plan (not_thirdParty_of_enoughForOne hq)
    (fun r hr => (inW_of_enoughForOne hrow hkey hq r hr).2) _ (row_of_enoughForOne hrow hkey hq hk)
  have hsame : resolveSku q.skuToGroupKey (sourceOf aliases k) = k := by
    rw [hq]
    exact resolve_sourceOf (inW_enoughForOne row) ((k, "W"), ⟨some "EU", _⟩)
      (List.mem_map.mpr ⟨k, hk, rfl⟩)
  rw [hsame] at hget
  exact ⟨kept, hget, hle⟩

/-- Either country can come first. -/
theorem leads_of_enoughForOne : Leads U q "W" "US" ∧ Leads U q "W" "EU" := by
  have hlead : ∀ {k country n}, ((sourceOf aliases k, "W", country), n) ∈
      warehouseTransitRows q.db q.inventorySkus → Leads U q "W" country := fun hr =>
    Or.inr ⟨fun k d => not_thirdParty_of_enoughForOne hq k "W" d, _, _, hr, rfl, rfl, rfl⟩
  exact ⟨hlead (rows_of_enoughForOne hrow hkey hq ▸ List.mem_cons_self),
    hlead (row_of_enoughForOne hrow hkey hq hkey)⟩

end Query

/-- **What a commodity is given depends on the order of the groups** where a warehouse is the
goal of its components for two countries. -/
theorem exists_stock_order {row : SkuMappingRule} (hactive : row ∈ activeRows table (some skus))
    (hne : row.components ≠ []) (euCountries : List String) (velocity : Velocity) :
    ∃ (db : StockDb) (plan plan' : Plan),
      (runStep2 U plan db table (loadPhysicalSkuResolver aliases) euCountries velocity
        (some [row.commoditySku])).2.get?
          (row.commoditySku, "EU") ≠
        (runStep2 U plan' db table (loadPhysicalSkuResolver aliases) euCountries velocity
          (some [row.commoditySku])).2.get? (row.commoditySku, "EU") := by
  have hrow : row ∈ activeRows table (some [row.commoditySku]) := mem_activeRows_solo hactive
  obtain ⟨c, hc⟩ := List.exists_mem_of_ne_nil _ hne
  obtain ⟨key, hkey⟩ : ∃ key, key ∈ keysOf (loadPhysicalSkuResolver aliases).skuToGroupKey row :=
    ⟨_, mem_keysOf.mpr ⟨c, hc, rfl⟩⟩
  obtain ⟨q, hq⟩ : ∃ q, q = runQuery (twoCountryDb aliases
    (enoughForOne (loadPhysicalSkuResolver aliases).skuToGroupKey row) key) table
      (loadPhysicalSkuResolver aliases)
      euCountries (some [row.commoditySku]) := ⟨_, rfl⟩
  have hitems : ∀ plan, (componentStock U q plan).items ≠ [] := by
    intro plan
    obtain ⟨kept, hget, -⟩ := @kept_of_enoughForOne U _ _ _ _ _ hrow hkey _ hq plan _ hkey
    exact List.ne_nil_of_mem (Dict.get?_eq_some_iff.mp hget)
  have hfound := fun plan => available_of_transit hrow hne rfl euCountries velocity hq
    (fun r hr => (inW_of_enoughForOne hrow hkey hq r hr).1)
      (not_countryLevel_of_enoughForOne hq "EU") (hitems plan)
  obtain ⟨hUS, hEU⟩ := @leads_of_enoughForOne U _ _ _ _ _ hrow hkey _ hq
  obtain ⟨planUS, hplanUS⟩ := exists_plan_leads (by decide) hUS
  obtain ⟨planEU, hplanEU⟩ := exists_plan_leads (by decide) hEU
  have hzero := hfound planUS
  rw [hplanUS, textOr, Option.getD_some, if_neg (by decide)] at hzero
  have hsome := hfound planEU
  rw [hplanEU, textOr, Option.getD_some, if_pos rfl, List.map_map] at hsome
  -- where the EU comes first, every group is built at least once
  have hunit := one_le_units_of_enough hrow hne hplanEU (isReportable_EU U) (some velocity)
    fun k hk => kept_of_enoughForOne hrow hkey hq planEU hk
  refine ⟨twoCountryDb aliases (enoughForOne (loadPhysicalSkuResolver aliases).skuToGroupKey row)
    key, planUS, planEU, fun h => ?_⟩
  rw [h] at hzero
  exact absurd (hunit.trans (hsome.symm.trans hzero).le) (by decide)

end Order

/-! ### When a recalculation agrees -/

/-- **One SKU alone and among the others**, where warehouses hold goods of one country: with
these rules, aliases and SKUs the short run and the full run agree on all stock tables and
sales, and in whatever order their groups come, exactly if there are no two formulas that
could meet. -/
theorem sameFor_iff (U : CharTable) (table : RuleTable) (aliases : PhysicalItemTable)
    (euCountries : List String) {sku : String} {skus : List String} (hs : sku ∈ skus) :
    (∀ db : StockDb, OneCountry U
      (runQuery db table (loadPhysicalSkuResolver aliases) euCountries (some [sku])) →
      ∀ (plan plan' : Plan) (velocity : Velocity), SameFor sku
        (runStep2 U plan db table (loadPhysicalSkuResolver aliases) euCountries
          (Dict.empty.set sku (velocity.getD sku .empty)) (some [sku]))
        (runStep2 U plan' db table (loadPhysicalSkuResolver aliases) euCountries velocity
          (some skus))) ↔
      ¬ ActiveFormula table sku ∨ ∀ t ∈ skus, t ≠ sku → ¬ ActiveFormula table t := by
  constructor
  · intro h
    by_contra hno
    push Not at hno
    obtain ⟨⟨row, hr, he, rfl, hne⟩, t, ht, hts, row', hr', he', rfl, hne'⟩ := hno
    have hrow : row ∈ activeRows table (some skus) := mem_activeRows.mpr ⟨hr, he, hs⟩
    have hrow' : row' ∈ activeRows table (some skus) := mem_activeRows.mpr ⟨hr', he', ht⟩
    obtain ⟨c, hc⟩ := List.exists_mem_of_ne_nil _ hne'
    have hkey' := mem_keysOf.mpr
      ⟨c, hc, (rfl : resolveSku (loadPhysicalSkuResolver aliases).skuToGroupKey _ = _)⟩
    by_cases hkey : resolveSku (loadPhysicalSkuResolver aliases).skuToGroupKey c.inventorySku ∈
        keysOf (loadPhysicalSkuResolver aliases).skuToGroupKey row
    · obtain ⟨stock, velocity, hone, hdiff⟩ :=
        exists_stock_shared hrow hrow' hts hkey hkey' euCountries
      exact hdiff (h _ hone Plan.identity Plan.identity velocity)
    · obtain ⟨stock, velocity, hone, hdiff⟩ :=
        exists_stock_country hrow hrow' hne hkey hkey' euCountries
      exact hdiff (h _ hone Plan.identity Plan.identity velocity)
  · intro h db hone plan plan' velocity
    rcases h with hno | honly
    · exact sameFor_of_no_formula U plan plan' db _ _ velocity hs hno
    · exact sameFor_of_one_formula U plan plan' db velocity hs honly hone

/-- Whatever the warehouses hold, they agree exactly if the SKU has no formula. -/
theorem sameFor_always_iff (U : CharTable) (table : RuleTable) (aliases : PhysicalItemTable)
    (euCountries : List String) {sku : String} {skus : List String} (hs : sku ∈ skus) :
    (∀ (db : StockDb) (plan plan' : Plan) (velocity : Velocity), SameFor sku
        (runStep2 U plan db table (loadPhysicalSkuResolver aliases) euCountries
          (Dict.empty.set sku (velocity.getD sku .empty)) (some [sku]))
        (runStep2 U plan' db table (loadPhysicalSkuResolver aliases) euCountries velocity
          (some skus))) ↔
      ¬ ActiveFormula table sku := by
  constructor
  · rintro h ⟨row, hr, he, rfl, hne⟩
    have hrow : row ∈ activeRows table (some skus) := mem_activeRows.mpr ⟨hr, he, hs⟩
    obtain ⟨db, plan, plan', hdiff⟩ :=
      @exists_stock_order U table aliases skus row hrow hne euCountries
      (Dict.empty.set row.commoditySku ((Dict.empty : Velocity).getD row.commoditySku .empty))
    -- two runs for the SKU alone would both say what the full run says
    exact hdiff (((h db plan plan .empty).stock "EU").trans
      ((h db plan' plan .empty).stock "EU").symm)
  · intro h db plan plan' velocity
    exact sameFor_of_no_formula U plan plan' db _ _ velocity hs h

end Restock
