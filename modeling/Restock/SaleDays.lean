/-
# Days of sale from overseas stock (`engine/step2_sale_days.py`)

The stock of a SKU in a country is what third-party warehouses hold there, what is
in transit there, and what can be assembled there from the components of its
mapping rule. The stock divided by the daily sales is the number of days it lasts.

A run loads the rows of a list of SKUs. Restricted to the rows of one SKU, what a
run loads for it does not depend on the other SKUs of the list
(`loadThirdPartyInventory_solo`, `loadInTransit_solo`); what it assembles does.
-/
import Restock.CountryMapping
import Restock.PhysicalItem
import Restock.SkuMapping
import Restock.Lib.Query

namespace Restock

open PyText Query

/-! ### The tables -/

/-- The stock of a SKU in a third-party warehouse. -/
structure ThirdPartyInventoryCurrent where
  warehouseId : ℕ
  commoditySku : String
  available : ℤ
  reserved : ℤ
deriving DecidableEq, Repr

/-- What step 2 reads of an `InTransitRecord`. -/
structure InTransitTarget where
  targetWarehouseId : Option String
  targetCountry : Option String
  isInTransit : Bool
deriving DecidableEq, Repr

/-- An item of an out-record. -/
structure InTransitItem where
  saihuOutRecordId : String
  commoditySku : String
  goods : ℤ
deriving DecidableEq, Repr

/-- The stock tables: the country of a third-party warehouse by its number, the
type of a warehouse by its id. -/
structure StockDb where
  thirdPartyWarehouses : Dict ℕ (Option String)
  thirdPartyInventory : List ThirdPartyInventoryCurrent
  warehouses : Dict String ℤ
  inTransitRecords : Dict String InTransitTarget
  inTransitItems : List InTransitItem
  unique_inventory : (thirdPartyInventory.map fun row => (row.warehouseId, row.commoditySku)).Nodup

theorem noInventory_nodup : (([] : List ThirdPartyInventoryCurrent).map
    fun row => (row.warehouseId, row.commoditySku)).Nodup :=
  List.nodup_nil

/-- The stock of a SKU in a country. -/
structure InventoryStock where
  available : ℤ
  reserved : ℤ
  inTransit : ℤ
deriving DecidableEq, Repr

/-- The stock that the engine plans with. -/
def InventoryStock.total (stock : InventoryStock) :
    ℤ := stock.available + stock.reserved + stock.inTransit

/-- The stock by SKU and country. -/
abbrev InventoryMap := Dict (String × String) InventoryStock

/-- The days of sale by SKU and country. -/
abbrev SaleDaysMap := Dict String (Dict String ℚ)

/-- `LOCAL_WAREHOUSE_TYPES`. -/
def localWarehouseTypes : List ℤ := [0, 1]

/-- `column in (…)`, every value for `none`. -/
def inSkus (commoditySkus : Option (List String)) (sku : String) :
    Bool := commoditySkus.all fun skus => sku ∈ skus

section Loaders

variable (U : CharTable) (plan : Plan) (db : StockDb)

/-! ### Stock of a SKU -/

/-- The country of a third-party row as the engine counts it. -/
def thirdPartyCountry (euCountries : List String) (country : String) : Option String :=
  (applyEuMapping U (some country) euCountries).filter fun mapped =>
    isReportableCountryCode U (.str mapped)

/-- The third-party rows with the country of their warehouse. -/
def thirdPartyRows (db : StockDb) (commoditySkus : Option (List String)) :
    List ((String × String) × ℤ × ℤ) :=
  (db.thirdPartyInventory.filter
      fun row => inSkus commoditySkus row.commoditySku).filterMap fun row =>
    (db.thirdPartyWarehouses.getD row.warehouseId none).map fun country =>
      ((row.commoditySku, country), row.available, row.reserved)

/-- Available and reserved units by SKU and country. -/
def loadThirdPartyInventory (commoditySkus : Option (List String)) (euCountries : List String) :
    Dict (String × String) (ℤ × ℤ) :=
  sumRows plan (fun key => (thirdPartyCountry U euCountries key.2).map
    fun country => (key.1, country))
    (thirdPartyRows db commoditySkus)

/-- Goods on their way to a country, not to a warehouse at home. -/
def inTransitRows (db : StockDb) (commoditySkus : Option (List String)) :
    List ((String × String) × ℤ) :=
  (db.inTransitItems.filter
      fun item => inSkus commoditySkus item.commoditySku).filterMap fun item =>
    match db.inTransitRecords.get? item.saihuOutRecordId with
    | none => none
    | some record =>
      if record.isInTransit ∧ (record.targetWarehouseId.elim true fun id =>
          (db.warehouses.get? id).elim false fun type => type ∉ localWarehouseTypes) then
        record.targetCountry.map fun country => ((item.commoditySku, country), item.goods)
      else none

/-- `load_in_transit`. -/
def loadInTransit (commoditySkus : Option (List String)) : Dict (String × String) ℤ :=
  sumRows plan (fun key => if isReportableCountryCode U (.str key.2) then some key else none)
    (inTransitRows db commoditySkus)

/-! ### Stock of the components -/

/-- `a.country or b.country`, with the totals added. -/
def addStock (a b : WarehouseStock) : WarehouseStock :=
  ⟨if textOr a.country ≠ "" then a.country else b.country, a.total + b.total⟩

/-- A grouped query by SKU, warehouse and country, and the loop that adds its rows
by physical item and warehouse. -/
def stockByWarehouse (resolver : Dict String String) (country : String → Option String)
    (rows : List ((String × String × String) × ℤ)) : ComponentStock :=
  Dict.mergeAll addStock .empty ((plan.order (groupSum rows)).filterMap fun row =>
    (country row.1.2.2).map fun mapped =>
      ((resolveSku resolver row.1.1, row.1.2.1), ⟨some mapped, row.2⟩))

/-- The name of a third-party warehouse beside the ids of the others. -/
def thirdPartyWarehouseKey (warehouseId : ℕ) : String := s!"third_party:{warehouseId}"

/-- The component stock in the third-party warehouses. -/
def loadThirdPartyComponentInventoryByWarehouse (inventorySkus : List String)
    (skuToGroupKey : Dict String String) (euCountries : List String) : ComponentStock :=
  stockByWarehouse plan skuToGroupKey (thirdPartyCountry U euCountries)
    (db.thirdPartyInventory.filterMap fun row =>
      if row.commoditySku ∈ inventorySkus then
        (db.thirdPartyWarehouses.getD row.warehouseId none).map fun country =>
          ((row.commoditySku, thirdPartyWarehouseKey row.warehouseId, country),
            row.available + row.reserved)
      else none)

/-- `load_in_transit_totals_by_warehouse`, as step 2 calls it: warehouses at home
are left out. -/
def loadInTransitTotalsByWarehouse (inventorySkus : List String)
    (skuToGroupKey : Dict String String) : ComponentStock :=
  stockByWarehouse plan skuToGroupKey some
    (db.inTransitItems.filterMap fun item =>
      match db.inTransitRecords.get? item.saihuOutRecordId with
      | none => none
      | some record =>
        match record.targetWarehouseId, record.targetCountry with
        | some warehouseId, some country =>
          if item.commoditySku ∈ inventorySkus ∧ record.isInTransit ∧
              ((db.warehouses.get? warehouseId).elim false
                  fun type => type ∉ localWarehouseTypes) then
            some ((item.commoditySku, warehouseId, country), item.goods)
          else none
        | _, _ => none)

/-- Goods that have a country to go to but no warehouse. -/
def loadInTransitTotalsByCountry (inventorySkus : List String)
    (skuToGroupKey : Dict String String) : Dict (String × String) ℤ :=
  sumRows plan (fun key => if isReportableCountryCode U (.str key.2) then
      some (resolveSku skuToGroupKey key.1, key.2) else none)
    (db.inTransitItems.filterMap fun item =>
      match db.inTransitRecords.get? item.saihuOutRecordId with
      | none => none
      | some record =>
        if item.commoditySku ∈ inventorySkus ∧ record.isInTransit ∧
            record.targetWarehouseId = none then
          record.targetCountry.map fun country => ((item.commoditySku, country), item.goods)
        else none)

/-- The component stock of several sources together. -/
def mergeWarehouseStock (stockMaps : List ComponentStock) : ComponentStock :=
  Dict.mergeAll addStock .empty (stockMaps.flatMap Dict.items)

/-- The name of the pool of a country. -/
def countryLevelWarehouseId (country : String) : String := s!"__country_pool__:{country}"

/-- The component stock as one warehouse for every country. -/
def aggregateComponentStockByCountry (warehouseStock : ComponentStock)
    (countryStock : Dict (String × String) ℤ) : ComponentStock :=
  Dict.mergeAll (fun current stock => ⟨stock.country, current.total + stock.total⟩) .empty
    ((warehouseStock.items.filterMap fun entry =>
        if textOr entry.2.country ≠ "" ∧
            isReportableCountryCode U (.str (textOr entry.2.country)) then
          some ((entry.1.1, countryLevelWarehouseId (textOr entry.2.country)), entry.2)
        else none) ++
      countryStock.items.filterMap fun entry =>
        if isReportableCountryCode U (.str entry.1.2) then
          some ((entry.1.1, countryLevelWarehouseId entry.1.2), ⟨some entry.1.2, entry.2⟩)
        else none)

/-- The SKUs of all components. -/
def componentSkusForRules (rules : MappingRules) : List String :=
  ((rules.values.flatMap fun groups => groups.flatMap
    fun group => group.map (·.inventorySku)).dedup).insertionSort
    (· ≤ ·)

/-! ### The step -/

/-- The assembled stock; a country with goods that have no warehouse yet is counted
as one pool. -/
def mappedStock (rules : MappingRules) (warehouseStock : ComponentStock)
    (countryTransit : Dict (String × String) ℤ) (velocity : Velocity) : Dict (String × String) ℤ :=
  let mapped := computeMappedStockByCountry U rules warehouseStock (some velocity)
  if countryTransit.items = [] then mapped
  else
    let countryLevelCountries := countryTransit.keys.map Prod.snd
    let countryMapped := computeMappedStockByCountry U rules
      (aggregateComponentStockByCountry U warehouseStock countryTransit) (some velocity)
    (countryMapped.items.filter fun entry => entry.1.2 ∈ countryLevelCountries).foldl
      (fun d p => d.set p.1 p.2)
      (mapped.filter fun key _ => key.2 ∉ countryLevelCountries)

/-- The SKUs that the component queries ask for. -/
def componentQuerySkus (resolver : PhysicalSkuResolver) (rules : MappingRules) : List String :=
  (((componentSkusForRules rules).flatMap resolver.sourceSkus).dedup).insertionSort (· ≤ ·)

/-- What a run assembles. -/
def loadMappedStock (resolver : PhysicalSkuResolver) (euCountries : List String)
    (rules : MappingRules) (velocity : Velocity) : Dict (String × String) ℤ :=
  if componentSkusForRules rules = [] then .empty
  else
    let querySkus := componentQuerySkus resolver rules
    mappedStock U rules
      (mergeWarehouseStock
        [loadThirdPartyComponentInventoryByWarehouse U plan db querySkus resolver.skuToGroupKey
          euCountries, loadInTransitTotalsByWarehouse plan db querySkus resolver.skuToGroupKey])
      (loadInTransitTotalsByCountry U plan db querySkus resolver.skuToGroupKey) velocity

/-- The stock abroad with what is in transit. -/
def mergeInventory (oversea : Dict (String × String) (ℤ × ℤ))
    (inTransit : Dict (String × String) ℤ) : InventoryMap :=
  Dict.ofList ((oversea.keys ∪ inTransit.keys).map fun key =>
    (key, ⟨(oversea.getD key 0).1, (oversea.getD key 0).2, inTransit.getD key 0⟩))

/-- The days of one SKU, in the countries where it sells and has a stock record. -/
def saleDaysOf (inventory : InventoryMap) (sku : String) (countryMap : Dict String ℚ) :
    Dict String ℚ :=
  ((countryMap.filter fun country v => isReportableCountryCode U (.str country) && decide (0 < v) &&
    (inventory.get? (sku, country)).isSome)).mapVal fun country v =>
      (inventory.get? (sku, country)).elim 0 fun stock => stock.total / v

/-- The days of sale of every SKU that sells. -/
def computeSaleDays (velocity : Velocity) (inventory : InventoryMap) : SaleDaysMap :=
  (velocity.mapVal (saleDaysOf U inventory)).filter fun _ countryMap => !countryMap.items.isEmpty

/-- `run_step2`. -/
def runStep2 (rules : RuleTable) (resolver : PhysicalSkuResolver) (euCountries : List String)
    (velocity : Velocity) (commoditySkus : Option (List String)) : SaleDaysMap × InventoryMap :=
  let mapped := loadMappedStock U plan db resolver euCountries
    (loadActiveMappingRules rules commoditySkus resolver.skuToGroupKey) velocity
  let oversea := Dict.mergeAll (· + ·) (loadThirdPartyInventory U plan db commoditySkus euCountries)
    (mapped.items.map fun entry => (entry.1, (entry.2, 0)))
  let inventory := mergeInventory oversea (loadInTransit U plan db commoditySkus)
  (computeSaleDays U velocity inventory, inventory)

end Loaders

/-! ### What a run says of one SKU -/

section Lookups

variable (U : CharTable)

theorem get?_mergeInventory (oversea : Dict (String × String) (ℤ × ℤ))
    (inTransit : Dict (String × String) ℤ) (key : String × String) :
    (mergeInventory oversea inTransit).get? key = if (oversea.get? key).isSome ∨
    (inTransit.get? key).isSome then
        some ⟨(oversea.getD key 0).1, (oversea.getD key 0).2, inTransit.getD key 0⟩ else none := by
  have hmem : ∀ v : InventoryStock, (key, v) ∈ ((oversea.keys ∪ inTransit.keys).map fun key =>
        (key, (⟨(oversea.getD key 0).1, (oversea.getD key 0).2,
          inTransit.getD key 0⟩ : InventoryStock))) ↔
      ((oversea.get? key).isSome ∨ (inTransit.get? key).isSome) ∧
        v = ⟨(oversea.getD key 0).1, (oversea.getD key 0).2, inTransit.getD key 0⟩ := by
    intro v
    rw [Option.isSome_iff_exists,
      Option.isSome_iff_exists, ← Dict.mem_keys_iff, ← Dict.mem_keys_iff, ← List.mem_union_iff,
      List.mem_map]
    constructor
    · rintro ⟨k, hk, he⟩
      obtain ⟨rfl, rfl⟩ := Prod.mk.inj he
      exact ⟨hk, rfl⟩
    · rintro ⟨hk, rfl⟩
      exact ⟨key, hk, rfl⟩
  apply Option.ext
  intro v
  rw [mergeInventory, Dict.get?_ofList_iff, hmem]
  · split_ifs with h
    · simp only [h, true_and, Option.some.injEq]
      exact eq_comm
    · simp [h]
  · intro v v' hv hv'
    rw [((hmem v).mp hv).2, ((hmem v').mp hv').2]

/-- The stock record of a key from what is held, assembled and in transit. -/
def stockFrom (held : Option (ℤ × ℤ)) (mapped inTransit : Option ℤ) : Option InventoryStock :=
  let oversea := Dict.combine (· + ·) held (mapped.toList.map fun n => (n, 0))
  if oversea.isSome ∨ inTransit.isSome then
    some ⟨(oversea.getD 0).1, (oversea.getD 0).2, inTransit.getD 0⟩ else none

/-- **The stock of a run**, key by key. -/
theorem get?_runStep2 (plan : Plan) (db : StockDb) (rules : RuleTable)
    (resolver : PhysicalSkuResolver) (euCountries : List String) (velocity : Velocity)
    (commoditySkus : Option (List String)) (key : String × String) :
    (runStep2 U plan db rules resolver euCountries velocity commoditySkus).2.get? key =
      stockFrom ((loadThirdPartyInventory U plan db commoditySkus euCountries).get? key)
        ((loadMappedStock U plan db resolver euCountries
          (loadActiveMappingRules rules commoditySkus resolver.skuToGroupKey) velocity).get? key)
        ((loadInTransit U plan db commoditySkus).get? key) := by
  have hoversea : ∀ (d : Dict (String × String) (ℤ × ℤ)) (m : Dict (String × String) ℤ),
      (Dict.mergeAll (· + ·) d (m.items.map fun entry => (entry.1, ((entry.2, 0) : ℤ × ℤ)))).get?
        key = Dict.combine (· + ·) (d.get? key) ((m.get? key).toList.map fun n => (n, 0)) := by
    intro d m
    rw [Dict.get?_mergeAll, Dict.valuesAt_map (fun n : ℤ => ((n, 0) : ℤ × ℤ)), Dict.valuesAt_items]
  simp only [runStep2, get?_mergeInventory, Dict.getD, hoversea, stockFrom]

/-- The days of a run come from its stock. -/
theorem fst_runStep2 (plan : Plan) (db : StockDb) (rules : RuleTable)
    (resolver : PhysicalSkuResolver) (euCountries : List String) (velocity : Velocity)
    (commoditySkus : Option (List String)) :
    (runStep2 U plan db rules resolver euCountries velocity commoditySkus).1 =
      computeSaleDays U velocity
      (runStep2 U plan db rules resolver euCountries velocity commoditySkus).2 := by
  unfold runStep2
  rfl

/-- The days of a SKU in a country, from its sales and its stock there. -/
theorem get?_saleDays (velocity : Velocity) (inventory : InventoryMap) (sku country : String) :
    ((computeSaleDays U velocity inventory).getD sku .empty).get? country =
      ((velocity.getD sku .empty).get? country).bind fun v =>
      (inventory.get? (sku, country)).bind fun stock =>
        if isReportableCountryCode U (.str country) ∧ 0 < v then some (stock.total / v)
        else none := by
  have hof : ∀ countryMap, (saleDaysOf U inventory sku countryMap).get? country =
      (countryMap.get? country).bind fun v => (inventory.get? (sku, country)).bind fun stock =>
        if isReportableCountryCode U (.str country) ∧ 0 < v then some (stock.total / v)
        else none := by
    intro countryMap
    rw [saleDaysOf, Dict.get?_mapVal, Dict.get?_filter]
    cases countryMap.get? country with
    | none => rfl
    | some v =>
      cases inventory.get? (sku, country) with
      | none => simp [Option.filter]
      | some stock =>
        by_cases h : isReportableCountryCode U (.str country) = true ∧ 0 < v
        · simp [Option.filter, h]
        · have h' : (isReportableCountryCode U (.str country) && decide (0 < v)) =
            false := by simpa using h
          simp [Option.filter, h, h']
  rw [computeSaleDays, Dict.getD_filter_nonEmpty, Dict.getD]
  cases velocity.get? sku with
  | none => rfl
  | some countryMap => exact hof countryMap

end Lookups

/-! ### Rows of one SKU -/

section Solo

variable (U : CharTable) (plan : Plan) (db : StockDb)

/-- Two queries that return the same rows of a SKU sum up to the same for it. -/
theorem sumRows_restrict {M : Type} [AddCommMonoid M]
    {f : String × String → Option (String × String)} {sku : String}
    {rows rows' : List ((String × String) × M)}
    (hf : ∀ key key', f key = some key' → key.1 = key'.1)
    (h : rows.filter (fun row => row.1.1 = sku) = rows'.filter fun row => row.1.1 = sku)
    (country : String) :
    (sumRows plan f rows).get? (sku, country) = (sumRows plan f rows').get? (sku, country) := by
  have hvalues : ∀ l : List ((String × String) × M), Dict.valuesAt (rekey f l) (sku, country) =
      Dict.valuesAt (rekey f (l.filter fun row => row.1.1 = sku)) (sku, country) := by
    intro l
    rw [valuesAt_rekey, valuesAt_rekey, List.filter_filter]
    congr 1
    refine List.filter_congr fun row _ => ?_
    by_cases hk : f row.1 = some (sku, country)
    · simp [hk, hf _ _ hk]
    · simp [hk]
  rw [get?_sumRows, get?_sumRows, Dict.get?_sumBy, Dict.get?_sumBy, hvalues rows, hvalues rows', h]

/-- A list of SKUs selects the rows of one of them as the SKU alone does. -/
theorem filter_rows_solo {A M : Type} {skuOf : A → String}
    {rowOf : A → Option ((String × String) × M)} (hrow : ∀ a p, rowOf a = some p → p.1.1 = skuOf a)
    {sku : String} {skus : List String} (hs : sku ∈ skus) (l : List A) :
    ((l.filter fun a => inSkus (some [sku]) (skuOf a)).filterMap rowOf).filter
      (fun row => row.1.1 = sku) =
      ((l.filter fun a => inSkus (some skus) (skuOf a)).filterMap rowOf).filter fun row =>
      row.1.1 = sku := by
  induction l with
  | nil => rfl
  | cons a l ih =>
    by_cases ha : skuOf a = sku
    · have h1 : inSkus (some [sku]) (skuOf a) = true := by simp [inSkus, ha]
      have h2 : inSkus (some skus) (skuOf a) = true := by simp [inSkus, ha, hs]
      rw [List.filter_cons, List.filter_cons, if_pos h1, if_pos h2, List.filterMap_cons,
        List.filterMap_cons]
      cases rowOf a with
      | none => exact ih
      | some p => rw [List.filter_cons, List.filter_cons, ih]
    · have h1 : ¬ inSkus (some [sku]) (skuOf a) = true := by simp [inSkus, ha]
      rw [List.filter_cons, List.filter_cons, if_neg h1, ih]
      by_cases h2 : inSkus (some skus) (skuOf a) = true
      · rw [if_pos h2, List.filterMap_cons]
        cases hp : rowOf a with
        | none => rfl
        | some p =>
          have hne : ¬ p.1.1 = sku := by rwa [hrow a p hp]
          simp only [List.filter_cons, hne, decide_false, Bool.false_eq_true, if_false]
      · rw [if_neg h2]

/-- Sums do not depend on the order of the groups. -/
theorem loadThirdPartyInventory_order (plan' : Plan) (commoditySkus : Option (List String))
    (euCountries : List String) (key : String × String) :
    (loadThirdPartyInventory U plan db commoditySkus euCountries).get? key =
      (loadThirdPartyInventory U plan' db commoditySkus euCountries).get? key :=
  (get?_sumRows plan _ _ key).trans (get?_sumRows plan' _ _ key).symm

theorem loadInTransit_order (plan' : Plan) (commoditySkus : Option (List String))
    (key : String × String) :
    (loadInTransit U plan db commoditySkus).get? key =
    (loadInTransit U plan' db commoditySkus).get? key :=
  (get?_sumRows plan _ _ key).trans (get?_sumRows plan' _ _ key).symm

theorem loadThirdPartyInventory_solo (euCountries : List String) {sku : String} {skus : List String}
    (hs : sku ∈ skus) (country : String) :
    (loadThirdPartyInventory U plan db (some [sku]) euCountries).get? (sku, country) =
      (loadThirdPartyInventory U plan db (some skus) euCountries).get? (sku, country) := by
  refine sumRows_restrict plan ?_ (filter_rows_solo ?_ hs _) country
  · intro key key' hk
    obtain ⟨c, -, rfl⟩ := Option.map_eq_some_iff.mp hk
    rfl
  · intro row p hp
    obtain ⟨c, -, rfl⟩ := Option.map_eq_some_iff.mp hp
    rfl

theorem loadInTransit_solo {sku : String} {skus : List String} (hs : sku ∈ skus)
    (country : String) :
    (loadInTransit U plan db (some [sku])).get? (sku, country) =
      (loadInTransit U plan db (some skus)).get? (sku, country) := by
  refine sumRows_restrict plan ?_ (filter_rows_solo ?_ hs _) country
  · intro key key' hk
    split_ifs at hk
    rw [Option.some.inj hk]
  · intro item p hp
    split at hp
    · exact absurd hp (by simp)
    · split_ifs at hp
      obtain ⟨c, -, rfl⟩ := Option.map_eq_some_iff.mp hp
      rfl

end Solo

end Restock
