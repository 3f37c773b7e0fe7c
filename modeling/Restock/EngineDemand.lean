/-
# What a run reads of the orders

The order tables come in through two queries, one for the sales and one for the split by
postal code. Both keep the same rows (`demandRows`), and neither the order of the rows nor
any other row of the two tables has an influence on what a run inserts: two runs on the
same multiset of rows insert the same items (`run_reads_demand_only`). Sales and weights
are rational numbers here, so sums do not depend on the order of their terms. The items
are compared as the JSON objects that they become, so by the entries of their maps.

The two runs may also get the groups of the stock queries in different orders, where a
warehouse that is counted for a country holds goods of that country only.
-/
import Restock.CountryQty
import Restock.EngineOrder
import Restock.EngineTables
import Restock.Lib.SameEntries

namespace Restock

open PyText Query

/-! ### The sales as a map -/

/-- The same sales of every SKU in every country. -/
def SameSales (velocity velocity' : Velocity) : Prop :=
  ∀ sku, Dict.Same (velocity.getD sku .empty) (velocity'.getD sku .empty)

section Sales

variable {velocity velocity' : Velocity}

theorem velocityAt_eq_getD (velocity : Velocity) (sku country : String) :
    velocityAt velocity sku country = (velocity.getD sku .empty).get? country := by
  rw [velocityAt, Dict.getD]
  cases velocity.get? sku <;> rfl

theorem SameSales.velocityAt_eq (h : SameSales velocity velocity') (sku country : String) :
    velocityAt velocity sku country = velocityAt velocity' sku country := by
  rw [velocityAt_eq_getD, velocityAt_eq_getD]
  exact h sku country

/-- The weights of the components of a country. -/
theorem countryWeights_eq (h : SameSales velocity velocity') (country sku : String) :
    ((countryWeightsBySku velocity).getD country .empty).getD sku 0 =
      ((countryWeightsBySku velocity').getD country .empty).getD sku 0 := by
  have heq := h.velocityAt_eq sku country
  unfold velocityAt at heq
  rw [Dict.getD, get?_countryWeightsBySku, heq, ← get?_countryWeightsBySku]
  rfl

/-- The weights of the components at home are sums over the countries. -/
theorem localWeights_same (h : SameSales velocity velocity') (country sku : String) :
    ((localWeightsBySku velocity).getD country .empty).getD sku 0 =
      ((localWeightsBySku velocity').getD country .empty).getD sku 0 := by
  have hsum : ∀ velocity : Velocity,
      ((velocity.mapVal fun _ countryMap => countryMap.values.sum).getD sku 0) =
      (velocity.getD sku .empty).values.sum := by
    intro velocity
    rw [Dict.getD, Dict.get?_mapVal, Dict.getD]
    cases velocity.get? sku <;> rfl
  have hget : ∀ velocity : Velocity, ((localWeightsBySku velocity).getD country .empty).getD sku 0 =
      if country = "" then (velocity.getD sku .empty).values.sum else 0 := by
    intro velocity
    show (((Dict.empty.set "" (velocity.mapVal fun _ countryMap => countryMap.values.sum)).get?
      country).getD .empty).getD
      sku 0 = _
    rw [Dict.get?_set]
    split_ifs
    · exact hsum velocity
    · rfl
  rw [hget, hget, (h sku).sum_values]

/-- Splitting the stock of the components sees the weights only. -/
theorem buildComponentAllocation_congr {weights weights' : Dict String (Dict String ℚ)}
    (h : ∀ country sku, (weights.getD country .empty).getD sku 0 =
      (weights'.getD country .empty).getD sku 0) (rules : MappingRules) (componentStock :
      ComponentStock) (fixedWeightCountry : Option String) :
    buildComponentAllocation rules componentStock weights fixedWeightCountry =
      buildComponentAllocation rules componentStock weights' fixedWeightCountry := by
  unfold buildComponentAllocation
  simp only [h]

theorem computeMappedStockByCountry_congr (U : CharTable) (h : SameSales velocity velocity')
    (rules : MappingRules) (componentStock : ComponentStock) :
    computeMappedStockByCountry U rules componentStock (some velocity) =
    computeMappedStockByCountry U rules componentStock (some velocity') := by
  have halloc : allocationByCountry rules componentStock (some velocity) =
      allocationByCountry rules componentStock (some velocity') :=
    buildComponentAllocation_congr (countryWeights_eq h) rules componentStock none
  unfold computeMappedStockByCountry assembledUnits
  rw [halloc]

theorem computeMappedStockTotalBySku_congr (h : SameSales velocity velocity') (rules : MappingRules)
    (componentStock : ComponentStock) :
    computeMappedStockTotalBySku rules componentStock (some velocity) =
    computeMappedStockTotalBySku rules componentStock (some velocity') := by
  have halloc := buildComponentAllocation_congr (localWeights_same h) rules componentStock (some "")
  unfold computeMappedStockTotalBySku
  simp only [Option.elim_some, halloc]

/-- **The stock of a run** depends on the sales as a map. -/
theorem snd_runStep2_congr (U : CharTable) (plan : Plan) (db : StockDb) (rules : RuleTable)
    (resolver : PhysicalSkuResolver) (euCountries : List String) (h : SameSales velocity velocity')
    (commoditySkus : Option (List String)) :
    (runStep2 U plan db rules resolver euCountries velocity commoditySkus).2 =
      (runStep2 U plan db rules resolver euCountries velocity' commoditySkus).2 := by
  unfold runStep2 loadMappedStock mappedStock
  simp only [computeMappedStockByCountry_congr U h]

/-- So does the stock at home, whatever the order of the groups. -/
theorem localStockTotal_congr (plan plan' : Plan) (warehouses : Dict String Warehouse)
    (table : RuleTable) (inventory : InventoryTable) (commoditySkus : Option (List String))
    (h : SameSales velocity velocity') (resolver : PhysicalSkuResolver) (sku : String) :
    ((loadLocalInventory plan warehouses table inventory commoditySkus (some velocity)
      resolver).get? sku).elim 0
        LocalStock.total =
      ((loadLocalInventory plan' warehouses table inventory commoditySkus (some velocity')
        resolver).get? sku).elim 0
        LocalStock.total := by
  have htotal : ∀ stock : Dict String LocalStock, (stock.get? sku).elim 0 LocalStock.total =
      (localStockOf stock sku).total := by
    intro stock
    rw [localStockOf, Dict.getD]
    cases stock.get? sku <;> rfl
  have hsales : loadLocalInventory plan' warehouses table inventory commoditySkus
      (some velocity) resolver = loadLocalInventory plan' warehouses table inventory commoditySkus
      (some velocity') resolver := by
    unfold loadLocalInventory
    simp only [computeMappedStockTotalBySku_congr h]
  rw [htotal, htotal, ← hsales, loadLocalInventory_congr plan plan' warehouses fun _ _ _ => rfl]

end Sales

/-! ### The split -/

section Split

variable {orders orders' : List (Option String × ℤ)}

/-- The split of a country does not see the order of its orders. -/
theorem explainCountryQtySplit_perm (matchWarehouses : Option String → List String) (countryQty : ℤ)
    (h : orders.Perm orders') (countryWarehouses : List String) :
    explainCountryQtySplit matchWarehouses countryQty orders countryWarehouses =
      explainCountryQtySplit matchWarehouses countryQty orders' countryWarehouses := by
  have hpos : (positiveOrders orders).Perm (positiveOrders orders') := h.filter _
  have hsum : ∀ p : Option String × ℤ → Bool,
      (((positiveOrders orders).filter p).map Prod.snd).sum =
      (((positiveOrders orders').filter p).map Prod.snd).sum :=
      fun p => ((hpos.filter p).map _).sum_eq
  have hcounts : ∀ eligible, Dict.Same (knownCounts matchWarehouses eligible orders)
      (knownCounts matchWarehouses eligible orders') :=
        fun eligible => Dict.same_sumBy (hpos.flatMap_right _)
  unfold explainCountryQtySplit matchedOrderQty unknownOrderQty
  simp only [hsum, (hcounts _).sum_values, splitKnownUnknown, hcounts _ _]

end Split

/-! ### The items -/

/-- The same item, its maps compared by their entries. -/
structure SameItem (item item' : SuggestionItem) : Prop where
  commoditySku : item.commoditySku = item'.commoditySku
  totalQty : item.totalQty = item'.totalQty
  purchaseQty : item.purchaseQty = item'.purchaseQty
  urgent : item.urgent = item'.urgent
  calculationWarnings : item.calculationWarnings = item'.calculationWarnings
  countryBreakdown : Dict.Same item.countryBreakdown item'.countryBreakdown
  warehouseBreakdown : Dict.Same item.warehouseBreakdown item'.warehouseBreakdown
  allocationSnapshot : ∃ m m', item.allocationSnapshot = some m ∧
    item'.allocationSnapshot = some m' ∧ Dict.Same m m'
  velocitySnapshot : Dict.Same item.velocitySnapshot item'.velocitySnapshot
  saleDaysSnapshot : Dict.Same item.saleDaysSnapshot item'.saleDaysSnapshot
  restockDates : Dict.Same item.restockDates item'.restockDates

/-- Two runs that read the same, apart from the order of their orders and sales. -/
structure SameReads (env env' : EngineEnv) : Prop where
  config : env.config = env'.config
  demandDays : env.demandDays = env'.demandDays
  demandDate : env.demandDate = env'.demandDate
  skuConfigs : env.skuConfigs = env'.skuConfigs
  plan : env.plan = env'.plan
  stock : env.stock = env'.stock
  rules : env.rules = env'.rules
  aliases : env.aliases = env'.aliases
  euCountries : env.euCountries = env'.euCountries
  localStock : ∀ sku, (env.localStock.get? sku).elim 0 LocalStock.total =
    (env'.localStock.get? sku).elim 0 LocalStock.total
  countryWarehouses : env.countryWarehouses = env'.countryWarehouses
  matchWarehouses : env.matchWarehouses = env'.matchWarehouses
  velocity : SameSales env.velocity env'.velocity
  orders : ∀ key, (env.orders.getD key []).Perm (env'.orders.getD key [])

section Items

variable {U : CharTable} {env env' : EngineEnv}

/-- The sales of the countries that count. -/
theorem SameSales.filter_reportable (U : CharTable) {velocity velocity' : Velocity}
    (h : SameSales velocity velocity') :
    SameSales (velocity.mapVal fun _ m => filterReportableCountryMap U m)
      (velocity'.mapVal fun _ m => filterReportableCountryMap U m) := by
  have hget : ∀ (velocity : Velocity) (sku : String),
      (velocity.mapVal fun _ m => filterReportableCountryMap U m).getD sku .empty =
        filterReportableCountryMap U (velocity.getD sku .empty) := by
    intro velocity sku
    rw [Dict.getD, Dict.get?_mapVal, Dict.getD]
    cases velocity.get? sku <;> rfl
  intro sku
  rw [hget, hget]
  exact (h sku).filter fun _ _ _ => rfl

theorem SameReads.engineVelocity (h : SameReads env env') :
    SameSales (engineVelocity U env) (engineVelocity U env') :=
  h.velocity.filter_reportable U

theorem SameReads.enabledSkus (h : SameReads env env') : enabledSkus env = enabledSkus env' := by
  unfold Restock.enabledSkus
  rw [h.skuConfigs]

/-- The stock records are the same. -/
theorem SameReads.inventory (h : SameReads env env') :
    (engineStep2 U env).2 = (engineStep2 U env').2 := by
  unfold engineStep2
  simp only [h.plan, h.stock, h.rules, h.aliases, h.euCountries, h.enabledSkus,
    snd_runStep2_congr U _ _ _ _ _ h.engineVelocity]

/-- So are the days. -/
theorem SameReads.saleDays (h : SameReads env env') (sku : String) :
    Dict.Same ((engineStep2 U env).1.getD sku .empty) ((engineStep2 U env').1.getD sku .empty) := by
  intro country
  rw [get?_engineSaleDays, get?_engineSaleDays, fst_runStep2, fst_runStep2, get?_saleDays,
    get?_saleDays, h.engineVelocity sku country, h.plan, h.stock, h.rules, h.aliases, h.euCountries,
    h.enabledSkus,
    snd_runStep2_congr U _ _ _ _ _ h.engineVelocity]

theorem SameReads.countryQty (h : SameReads env env') (sku : String) :
    Dict.Same (engineCountryQty U env sku) (engineCountryQty U env' sku) := by
  unfold engineCountryQty filterAllowedCountryMap filterReportableCountryMap effectiveTargetDays
  rw [h.config, h.demandDays]
  refine Dict.Same.filter (Dict.Same.filter (fun country => ?_) fun _ _ _ => rfl) fun _ _ _ => rfl
  rw [get?_countryQtyOf, get?_countryQtyOf, h.engineVelocity sku country, h.inventory]

theorem SameReads.allocations (h : SameReads env env') (sku : String) :
    Dict.Same (engineAllocations U env sku) (engineAllocations U env' sku) := by
  unfold engineAllocations
  refine ((h.countryQty sku).filter fun _ _ _ => rfl).mapVal fun country qty _ => ?_
  have hfound : env.foundWarehouses country = env'.foundWarehouses country := by
    funext postalCode
    unfold EngineEnv.foundWarehouses
    rw [h.matchWarehouses]
  rw [hfound, h.countryWarehouses]
  exact explainCountryQtySplit_perm _ _ (h.orders (sku, country)) _

theorem SameReads.warehouseBreakdown (h : SameReads env env') (sku : String) :
    Dict.Same (engineWarehouseBreakdown U env sku) (engineWarehouseBreakdown U env' sku) :=
  Dict.Same.filter ((h.allocations sku).mapVal fun _ _ _ => rfl) fun _ _ _ => rfl

theorem positiveQtyCountries_perm {qty qty' : Dict String ℤ} (h : Dict.Same qty qty') :
    (positiveQtyCountries qty).Perm (positiveQtyCountries qty') := (h.items_perm.filter _).map _

/-- The warnings are those of the sorted countries. -/
theorem buildCalculationWarnings_congr {qty qty' : Dict String ℤ}
    {saleDays saleDays' : Dict String ℚ} {missing missing' : List String}
    (hqty : Dict.Same qty qty') (hdays : Dict.Same saleDays saleDays')
    (hmissing : missing.Perm missing') (added : List String) :
    buildCalculationWarnings U qty saleDays added missing =
    buildCalculationWarnings U qty' saleDays' added missing' := by
  have hcountries := Dict.insertionSort_eq ((positiveQtyCountries_perm hqty).union hmissing)
  have hwarning : ∀ country, warningOf U saleDays added missing country =
      warningOf U saleDays' added missing' country := by
    intro country
    unfold warningOf
    rw [hdays country]
    simp only [hmissing.mem_iff]
  unfold buildCalculationWarnings
  rw [hcountries]
  simp only [hwarning]

theorem SameReads.missing (h : SameReads env env') (sku : String) :
    (missingInventoryCountries U ((Restock.engineVelocity U env).getD sku .empty)
      (engineStep2 U env).2 sku
      env.config.allowedCountries).Perm
    (missingInventoryCountries U ((Restock.engineVelocity U env').getD sku .empty)
      (engineStep2 U env').2 sku
      env'.config.allowedCountries) := by
  unfold missingInventoryCountries
  rw [h.inventory, h.config]
  exact ((h.engineVelocity sku).filter fun _ _ _ => rfl).keys_perm

/-- **The items of two runs that read the same.** -/
theorem SameReads.item (h : SameReads env env') (leadTimeDays : ℤ) (sku : String) :
    (engineItem U env leadTimeDays sku = none ∧ engineItem U env' leadTimeDays sku = none) ∨
      ∃ item item', engineItem U env leadTimeDays sku = some item ∧
        engineItem U env' leadTimeDays sku = some item' ∧ SameItem item item' := by
  have hqty : Dict.Same (engineCountryQty U env sku) (engineCountryQty U env' sku) :=
    h.countryQty sku
  have hsales := h.engineVelocity (U := U) sku
  have htotal : computeTotal (engineCountryQty U env sku)
      ((Restock.engineVelocity U env).getD sku .empty)
      (env.localStock.get? sku) env.config.safetyStockDays =
    computeTotal (engineCountryQty U env' sku) ((Restock.engineVelocity U env').getD sku .empty)
      (env'.localStock.get? sku) env'.config.safetyStockDays := by
    unfold computeTotal
    rw [hqty.sum_values, hsales.sum_values, h.localStock sku, h.config]
  have hlead : engineLeadTime env leadTimeDays sku = engineLeadTime env' leadTimeDays sku := by
    unfold engineLeadTime
    rw [h.skuConfigs]
  unfold engineItem
  simp only [htotal, hqty.sum_values]
  by_cases hneed : computeTotal (engineCountryQty U env' sku)
      ((Restock.engineVelocity U env').getD sku .empty)
      (env'.localStock.get? sku) env'.config.safetyStockDays ≤ 0 ∧
        (engineCountryQty U env' sku).values.sum ≤ 0
  · exact Or.inl ⟨if_pos hneed, if_pos hneed⟩
  · right
    rw [if_neg hneed, if_neg hneed]
    refine ⟨_, _, rfl, rfl, ⟨rfl, rfl, rfl, ?_, ?_, hqty, h.warehouseBreakdown sku,
      ⟨_, _, rfl, rfl, (h.allocations sku).mapVal fun _ _ _ => rfl⟩, hsales, h.saleDays sku, ?_⟩⟩
    · show hasUrgentSaleDays _ _ _ = hasUrgentSaleDays _ _ _
      unfold hasUrgentSaleDays
      rw [hlead, Bool.eq_iff_iff, List.any_eq_true, List.any_eq_true]
      simp only [(h.saleDays sku) _, (positiveQtyCountries_perm hqty).mem_iff]
    · exact buildCalculationWarnings_congr hqty (h.saleDays sku) (h.missing sku) []
    · show Dict.Same (demandRestockDates _ _) (demandRestockDates _ _)
      unfold demandRestockDates
      rw [h.demandDate]
      exact (hqty.filter fun _ _ _ => rfl).mapVal fun _ _ _ => rfl

end Items

/-! ### The rows that count -/

/-- What a run reads of an order row. -/
structure DemandRow where
  commoditySku : String
  country : String
  day : ℤ
  postalCode : Option String
  quantity : ℤ
deriving DecidableEq, Repr

def DemandRow.key (row : DemandRow) : String × String := (row.commoditySku, row.country)

section Rows

variable (U : CharTable)

/-- An order of the packages that was not cancelled, of a country that counts, of the
thirty days before today, with a positive quantity of a listed SKU. -/
def isDemanded (skus : List String) (today : ℤ) (row : DemandItem × DemandOrder) : Bool :=
  decide (row.2.source = orderSourcePackage) && decide
    (row.2.packageStatus.getD "" ≠ canceledStatus) && decide (row.2.header.countryCode ≠ "ZZ") &&
    isInWindow (beijingDate row.2.header.purchaseDate) today windowDays &&
    decide (row.1.commoditySku ∈ skus) && isReportableCountryCode U
      (.str row.2.header.countryCode) &&
    decide (0 < row.1.quantityOrdered)

/-- The rows of the two order tables that count. -/
def demandRows (demand : DemandDb) (skus : List String) (today : ℤ) : List DemandRow :=
  (demand.joined.filter (isDemanded U skus today)).map fun row =>
    ⟨row.1.commoditySku, row.2.header.countryCode, beijingDate row.2.header.purchaseDate,
      row.2.header.postalCode, row.1.quantityOrdered⟩

end Rows

section Reads

variable {U : CharTable} {plan plan' : Plan} {demand demand' : DemandDb}
    {skus : List String} {today : ℤ}

theorem isDemanded_iff {row : DemandItem × DemandOrder} : isDemanded U skus today row = true ↔
    row.2.source = orderSourcePackage ∧ row.2.packageStatus.getD "" ≠ canceledStatus ∧
      row.2.header.countryCode ≠ "ZZ" ∧
      (beijingMidnight (today - windowDays) ≤ row.2.header.purchaseDate ∧
      row.2.header.purchaseDate < beijingMidnight today) ∧ row.1.commoditySku ∈ skus ∧
      isReportableCountryCode U (.str row.2.header.countryCode) = true ∧
      0 < row.1.quantityOrdered := by
  unfold isDemanded
  rw [between_midnights_iff]
  simp only [Bool.and_eq_true, decide_eq_true_eq, and_assoc]

/-- The rows that step 1 counts for a key. -/
theorem soldRows_perm_demandRows (key : String × String) :
    (soldRows (loadVelocityInputs U plan demand (some skus) today none) key).Perm
      (((demandRows U demand skus today).filter fun row => row.key = key).map fun row =>
        ⟨row.commoditySku, row.country, row.day, row.quantity⟩) := by
  have hearliest : today - 1 - (windowDays - 1) = today - windowDays := by omega
  refine List.Perm.trans ((((plan.perm _).filter _).map _).filter _) (List.Perm.of_eq ?_)
  unfold demandRows
  rw [List.filter_map, List.filter_map, List.map_map, List.filter_filter, List.filter_filter,
    List.filter_filter, hearliest]
  refine congrArg (List.map _) (List.filter_congr fun row _ => ?_)
  rw [Bool.eq_iff_iff]
  simp only [Function.comp_apply, VelocityItem.key, DemandRow.key, Bool.and_eq_true,
    decide_eq_true_eq, Option.all_some, Option.all_none, and_true, isDemanded_iff]
  constructor
  · rintro ⟨⟨⟨hkey, hsold⟩, hrep⟩, ⟨⟨⟨⟨hsource, hstatus⟩, hknown⟩, hstart⟩, hend⟩, hlisted⟩
    exact ⟨hkey, hsource, hstatus, hknown, ⟨hstart, hend⟩, hlisted, hrep, hsold⟩
  · rintro ⟨hkey, hsource, hstatus, hknown, ⟨hstart, hend⟩, hlisted, hrep, hsold⟩
    exact ⟨⟨⟨hkey, hsold⟩, hrep⟩, ⟨⟨⟨⟨hsource, hstatus⟩, hknown⟩, hstart⟩, hend⟩, hlisted⟩

/-- Rows with the same multiset for a key sell alike. -/
theorem velocityAt_runStep1_congr
    (h : (demandRows U demand skus today).Perm (demandRows U demand' skus today))
      (sku country : String) :
      velocityAt (runStep1 U plan demand (some skus) today none) sku country = velocityAt
      (runStep1 U plan' demand' (some skus) today none) sku country := by
  have hsold : (soldRows (loadVelocityInputs U plan demand (some skus) today none)
      (sku, country)).Perm
      (soldRows (loadVelocityInputs U plan' demand' (some skus) today none) (sku, country)) :=
    (soldRows_perm_demandRows _).trans
      (((h.filter _).map _).trans (soldRows_perm_demandRows _).symm)
  have hnil : soldRows (loadVelocityInputs U plan demand (some skus) today none)
      (sku, country) ≠ [] ↔ soldRows (loadVelocityInputs U plan' demand' (some skus) today none)
      (sku, country) ≠ [] := by
    rw [Ne, Ne, ← List.length_eq_zero_iff, ← List.length_eq_zero_iff, hsold.length_eq]
  unfold runStep1
  rw [velocityAt_eq, velocityAt_eq]
  refine if_congr (and_congr_right fun _ => hnil)
    (congrArg some (Finset.sum_congr rfl fun age _ => ?_)) rfl
  unfold dayTotal
  rw [((hsold.filter _).map _).sum_eq]

/-- The orders that step 5 gathers for a key. -/
theorem orders_perm_demandRows (allowedCountries : Option (List String)) (key : String × String) :
    ((loadAllSkuCountryOrders U plan demand skus today allowedCountries).getD key []).Perm
      (((demandRows U demand skus today).filter fun row =>
        decide (row.key = key) && allowedCountries.all fun countries =>
            row.country ∈ countries).map fun row =>
          (row.postalCode, row.quantity)) := by
  unfold loadAllSkuCountryOrders
  by_cases hskus : skus = []
  · have hnone : demandRows U demand skus today = [] := by
      unfold demandRows isDemanded
      rw [hskus]
      simp
    rw [if_pos hskus, hnone]
    exact List.Perm.of_eq rfl
  · rw [if_neg hskus]
    simp only
    rw [Dict.getD_gather_rows
      (fun row : DemandItem × DemandOrder => !isReportableCountryCode U
      (.str row.2.header.countryCode) || decide (max row.1.quantityOrdered 0 ≤ 0))]
    refine List.Perm.trans (((plan.perm _).filter _).map _) (List.Perm.of_eq ?_)
    unfold demandRows
    rw [List.filter_map, List.map_map, List.filter_filter, List.filter_filter]
    have hmax : ∀ q : ℤ, ¬ max q 0 ≤ 0 ↔ 0 < q := by
      intro q
      omega
    refine Eq.trans (congrArg (List.map _) (List.filter_congr fun row _ => ?_))
      (List.map_congr_left fun row hr => ?_)
    · refine Bool.eq_iff_iff.mpr ?_
      simp only [Function.comp_apply, DemandRow.key, Bool.and_eq_true, Bool.not_eq_true',
        Bool.or_eq_false_iff, Bool.not_eq_false', decide_eq_true_eq, decide_eq_false_iff_not, hmax,
        isDemanded_iff]
      constructor
      · rintro ⟨⟨⟨hrep, hsold⟩, hkey⟩,
          ⟨⟨⟨⟨⟨hlisted, hstart⟩, hend⟩, hsource⟩, hstatus⟩, hknown⟩, hallowed⟩
        exact ⟨⟨decide_eq_true hkey, hallowed⟩, hsource, hstatus, hknown, ⟨hstart, hend⟩, hlisted,
          hrep, hsold⟩
      · rintro ⟨⟨hkey, hallowed⟩, hsource, hstatus, hknown, ⟨hstart, hend⟩, hlisted, hrep, hsold⟩
        exact ⟨⟨⟨hrep, hsold⟩, of_decide_eq_true hkey⟩,
          ⟨⟨⟨⟨⟨hlisted, hstart⟩, hend⟩, hsource⟩, hstatus⟩, hknown⟩, hallowed⟩
    · have hdemanded := isDemanded_iff.mp (Bool.and_eq_true_iff.mp (List.mem_filter.mp hr).2).2
      have hq : max row.1.quantityOrdered 0 = row.1.quantityOrdered :=
        max_eq_left hdemanded.2.2.2.2.2.2.le
      simp only [Function.comp_apply, hq]

/-- **What the loaders return for the same rows.** -/
theorem sameReads_of_perm (N : NumberReader) (isoformat : ℤ → String) {db : EngineDb}
    {demand' : DemandDb} (today demandDate : ℤ)
    (h : (demandRows U db.demand (enabledSkuList db.skuConfigs) today).Perm
    (demandRows U demand' (enabledSkuList db.skuConfigs) today)) (allowedCountries :
    Option (List String)) :
    SameReads (engineEnv U N plan isoformat db today demandDate allowedCountries)
      { engineEnv U N plan' isoformat { db with
        demand := demand' } today demandDate allowedCountries with plan := plan } := by
  have hsales : SameSales
      (runStep1 U plan db.demand (some (enabledSkuList db.skuConfigs)) today none)
      (runStep1 U plan' demand' (some (enabledSkuList db.skuConfigs)) today none) := by
    intro sku country
    rw [← velocityAt_eq_getD, ← velocityAt_eq_getD]
    exact velocityAt_runStep1_congr h sku country
  refine ⟨rfl, rfl, rfl, rfl, rfl, rfl, rfl, rfl, rfl, ?_, rfl, rfl, hsales, fun key => ?_⟩
  · exact localStockTotal_congr plan plan' db.warehouses db.mappingRules db.inventory
      (some (enabledSkuList db.skuConfigs))
      (hsales.filter_reportable U) _
  · exact (orders_perm_demandRows allowedCountries key).trans
      (((h.filter _).map _).trans (orders_perm_demandRows allowedCountries key).symm)

/-- The codes that two such runs match are the same. -/
theorem SameReads.mem_matchedCodes {env env' : EngineEnv} (h : SameReads env env') {sku : String}
    {code : String × Option String} :
    code ∈ matchedCodes U env sku ↔ code ∈ matchedCodes U env' sku := by
  unfold matchedCodes
  rw [List.mem_flatMap, List.mem_flatMap]
  refine exists_congr fun country => ?_
  have horders : (positiveOrders (env.orders.getD (sku, country) [])).Perm
      (positiveOrders (env'.orders.getD (sku, country) [])) := (h.orders (sku, country)).filter _
  rw [(positiveQtyCountries_perm (h.countryQty sku)).mem_iff,
    (horders.map fun order => (country, order.1)).mem_iff]

/-- Items of the same SKUs that are pairwise the same. -/
theorem forall₂_filterMap {A B : Type} {r : B → B → Prop} {f f' : A → Option B} : ∀ {l : List A},
    (∀ a ∈ l, (f a = none ∧ f' a = none) ∨ ∃ b b', f a = some b ∧ f' a = some b' ∧ r b b') →
      List.Forall₂ r (l.filterMap f) (l.filterMap f')
  | [], _ => List.Forall₂.nil
  | a :: l, h => by
    have hrest := forall₂_filterMap fun a' ha' => h a' (List.mem_cons_of_mem _ ha')
    rcases h a List.mem_cons_self with ⟨hnone, hnone'⟩ | ⟨b, b', hb, hb', hr⟩
    · rw [List.filterMap_cons_none hnone, List.filterMap_cons_none hnone']
      exact hrest
    · rw [List.filterMap_cons_some hb, List.filterMap_cons_some hb']
      exact List.Forall₂.cons hr hrest

end Reads

/-- What step 2 of a run reads for the components of the active rules. -/
def EngineDb.stockQuery (db : EngineDb) : ComponentQuery :=
  runQuery db.stockDb db.mappingRules (loadPhysicalSkuResolver db.aliases) db.euCountries
    (some (enabledSkuList db.skuConfigs))

/-- The groups of the stock queries come in one order, or it does not matter which. -/
def SameStockOrder (U : CharTable) (db : EngineDb) (plan plan' : Plan) : Prop :=
  plan = plan' ∨ OneCountry U db.stockQuery

section Order

variable {U : CharTable} {db : EngineDb} {plan plan' : Plan} {env : EngineEnv}

/-- A run in one order is a run in the other. -/
theorem SameStockOrder.runReturns (h : SameStockOrder U db plan plan') (hplan : env.plan = plan')
    (hquery : engineQuery env = db.stockQuery) {leadTimeDays : ℤ} :
    RunReturns U { env with plan := plan } leadTimeDays → RunReturns U env leadTimeDays := by
  rcases h with rfl | h
  · rw [← hplan]
    exact fun h => h
  · rw [← hquery] at h
    exact fun hret => ⟨hret.enabled, hret.config, fun sku hs code hc =>
      hret.codes sku hs code (by rw [matchedCodes_order h]; exact hc)⟩

theorem SameStockOrder.item (h : SameStockOrder U db plan plan') (hplan : env.plan = plan')
    (hquery : engineQuery env = db.stockQuery) (leadTimeDays : ℤ) (sku : String) :
    engineItem U { env with plan := plan } leadTimeDays sku =
    engineItem U env leadTimeDays sku := by
  rcases h with rfl | h
  · rw [← hplan]
  · rw [← hquery] at h
    exact engineItem_order h plan leadTimeDays sku

end Order

/-- **A run reads the rows that count, as a multiset.** If the order tables are replaced by
others with the same rows that count, in any order and among any other rows, a run that
returned items returns the same items, whatever order its queries return their rows in. -/
theorem run_reads_demand_only (U : CharTable) (N : NumberReader) (plan plan' : Plan)
    (isoformat : ℤ → String) (db : EngineDb) (demand' : DemandDb) (today demandDate : ℤ)
    (horder : SameStockOrder U db plan plan')
    (h : (demandRows U db.demand (enabledSkuList db.skuConfigs) today).Perm
    (demandRows U demand' (enabledSkuList db.skuConfigs) today)) {items : List SuggestionItem}
    (hrun : runOnTables U N plan isoformat db today demandDate = .ok items) :
    ∃ items', runOnTables U N plan' isoformat { db with demand := demand' } today demandDate =
      .ok items' ∧ List.Forall₂ SameItem items items' := by
  rcases runOnTables_ok_iff.mp hrun with ⟨hgen, rfl⟩ | ⟨allowedCountries, leadTimeDays, hret, rfl⟩
  · exact ⟨[], runOnTables_ok_iff.mpr (Or.inl ⟨hgen, rfl⟩), List.Forall₂.nil⟩
  set env' := engineEnv U N plan' isoformat { db with demand := demand' }
    today demandDate allowedCountries with henv'
  have hsame : SameReads (engineEnv U N plan isoformat db today demandDate allowedCountries)
      { env' with plan := plan } :=
    sameReads_of_perm N isoformat today demandDate h allowedCountries
  have hreturns : RunReturns U { env' with plan := plan } leadTimeDays :=
    ⟨hret.run.enabled, hret.run.config,
      fun sku hs code hc => hret.run.codes sku hs code (hsame.mem_matchedCodes.mpr hc)⟩
  refine ⟨_, runOnTables_ok_iff.mpr (Or.inr ⟨allowedCountries, leadTimeDays,
    ⟨hret.regions, horder.runReturns rfl rfl hreturns⟩, rfl⟩), ?_⟩
  refine forall₂_filterMap fun sku _ => ?_
  have hitem : engineItem U { env' with plan := plan } leadTimeDays sku =
      engineItem U env' leadTimeDays sku :=
    horder.item rfl rfl leadTimeDays sku
  rw [← henv', ← hitem]
  exact hsame.item leadTimeDays sku

/-- The order of `usTables` among one that was cancelled and one of today. -/
def moreOrders : DemandDb :=
  ⟨[⟨⟨3, "US", none, "M", none, beijingMidnight 100, 0, false⟩, orderSourcePackage, none⟩,
      ⟨⟨2, "US", none, "M", none, beijingMidnight 99, 0, false⟩, orderSourcePackage,
        some canceledStatus⟩,
      ⟨⟨1, "US", none, "M", some "94107", beijingMidnight 99, 0, false⟩, orderSourcePackage, none⟩],
    [⟨3, "A", 70⟩, ⟨2, "A", 80⟩, ⟨1, "A", 30⟩, ⟨1, "B", 90⟩]⟩

theorem run_reads_demand_only_us : ∃ items items',
    runOnTables .ascii .digits .identity toString usTables 100 100 = .ok items ∧ items ≠ [] ∧
    runOnTables .ascii .digits (.rotate 1) toString { usTables with demand := moreOrders } 100 100 =
      .ok items' ∧ List.Forall₂ SameItem items items' := by
  have hrows : demandRows .ascii usTables.demand (enabledSkuList usTables.skuConfigs) 100 =
      demandRows .ascii moreOrders (enabledSkuList usTables.skuConfigs) 100 := by decide +kernel
  obtain ⟨items, hrun, item, hi, -⟩ := usTables_run .identity (Or.inl rfl) 30 (Or.inl rfl)
  obtain ⟨items', hrun', hsame⟩ :=
    run_reads_demand_only .ascii .digits .identity (.rotate 1) toString usTables moreOrders
    100 100 (Or.inr (OneCountry.of_not_asked rfl)) (List.Perm.of_eq hrows) hrun
  exact ⟨items, items', hrun, List.ne_nil_of_mem hi, hrun', hsame⟩

end Restock
