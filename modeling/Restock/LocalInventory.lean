/-
# The stock at home (`load_local_inventory`)

Step 4 counts what the warehouses at home hold of a SKU, and adds what can be assembled
there from the components of its mapping rule. Both read `inventory_snapshot_latest`, and
neither sees more of it than the stock of the pairs of a SKU and a warehouse
(`loadLocalInventory_congr`): a row without stock counts as no row.
-/
import Restock.CountrySync
import Restock.EngineRun
import Restock.LocalAssembly

namespace Restock

open Query

/-- What the engine reads of a `Warehouse`. -/
structure Warehouse where
  country : Option String
  type : ℤ
deriving DecidableEq, Repr

abbrev InventoryTable := Dict (String × String) InventorySnapshotLatest

section Loader

variable (plan : Plan) (warehouses : Dict String Warehouse)

/-- `Warehouse.type.in_(LOCAL_WAREHOUSE_TYPES)`, joined by the id. -/
def isLocalWarehouse (warehouseId : String) : Bool :=
  (warehouses.get? warehouseId).elim false fun warehouse => warehouse.type ∈ localWarehouseTypes

/-- The stock of SKUs at home, as it is summed by SKU. -/
def localStockRows (inventory : InventoryTable) (commoditySkus : Option (List String)) :
    List (String × ℤ × ℤ) :=
  (inventory.items.filter fun row => isLocalWarehouse warehouses row.1.2 &&
      inSkus commoditySkus row.1.1).map fun row =>
    (row.1.1, row.2.available, row.2.reserved)

/-- `load_inventory_totals_by_warehouse`, as step 4 calls it: the warehouses at home. -/
def loadInventoryTotalsByWarehouse (inventory : InventoryTable) (inventorySkus : List String)
    (skuToGroupKey : Dict String String) : ComponentStock :=
  Dict.mergeAll addStock .empty ((plan.order (groupSum
    ((inventory.items.filter fun row => isLocalWarehouse warehouses row.1.2 && row.1.1 ∈
        inventorySkus).map fun row =>
      ((row.1.1, row.1.2, row.2.cols.country), row.2.available + row.2.reserved)))).map fun row =>
        ((resolveSku skuToGroupKey row.1.1, row.1.2.1), ⟨row.1.2.2, row.2⟩))

/-- What is assembled adds to what is available. -/
def addMapped (current mapped : LocalStock) :
    LocalStock := ⟨current.available + mapped.available, current.reserved⟩

def loadLocalInventory (table : RuleTable) (inventory : InventoryTable)
    (commoditySkus : Option (List String)) (velocity : Option Velocity)
    (resolver : PhysicalSkuResolver) : Dict String LocalStock :=
  let result := (sumRows plan some (localStockRows warehouses inventory commoditySkus)).mapVal
      fun _ stock =>
    LocalStock.mk stock.1 stock.2
  let rules := loadActiveMappingRules table commoditySkus resolver.skuToGroupKey
  if componentSkusForRules rules = [] then result
  else
    let mappedTotals := computeMappedStockTotalBySku rules
      (loadInventoryTotalsByWarehouse plan warehouses inventory (componentQuerySkus resolver rules)
        resolver.skuToGroupKey)
      velocity
    result.mergeAll addMapped (mappedTotals.items.map fun entry => (entry.1, ⟨entry.2, 0⟩))

end Loader

/-- The stock of a pair of a SKU and a warehouse: none without a row. -/
def stockAt (inventory : InventoryTable) (key : String × String) : ℤ × ℤ :=
  (inventory.get? key).elim (0, 0) fun row => (row.available, row.reserved)

/-- What is counted at home of a SKU. -/
def localStockOf (stock : Dict String LocalStock) (sku : String) :
    LocalStock := stock.getD sku ⟨0, 0⟩

/-! ### Assembling sees the stock only -/

section Assembly

variable {part part' : String → Option ℤ}

/-- From a count that is not positive nothing is assembled. -/
theorem buildable_of_nonpos :
    ∀ (group : MappingGroup) {a : ℤ}, a ≤ 0 → max 0 ((buildable part (some a) group).getD 0) = 0
  | [], a, ha => max_eq_left ha
  | c :: group, a, ha => by
    rw [buildable]
    cases part c.inventorySku with
    | none => rfl
    | some total =>
      have hmin : min a (total / (c.quantity : ℤ)) ≤ 0 := (min_le_left _ _).trans ha
      exact buildable_of_nonpos group hmin

/-- A part of none and no part assemble alike. -/
theorem buildable_congr (h : ∀ key, (part key).getD 0 = (part' key).getD 0) :
    ∀ (group : MappingGroup) (acc : Option ℤ), max 0 ((buildable part acc group).getD 0) = max 0
    ((buildable part' acc group).getD 0)
  | [], _ => rfl
  | c :: group, acc => by
    have hc := h c.inventorySku
    have hlow : ∀ {p : String → Option ℤ} {total : ℤ}, total = 0 →
        max 0 ((buildable p (some
          (acc.elim (total / (c.quantity : ℤ)) fun a => min a (total / (c.quantity : ℤ))))
          group).getD 0)
          = 0 := by
      intro p total h0
      refine buildable_of_nonpos group ?_
      rw [h0, Int.zero_ediv]
      cases acc with
      | none => exact le_rfl
      | some a => exact min_le_right a 0
    unfold buildable
    cases hp : part c.inventorySku with
    | none =>
      rw [hp] at hc
      cases hp' : part' c.inventorySku with
      | none => rfl
      | some total' =>
        rw [hp'] at hc
        exact (hlow hc.symm).symm
    | some total =>
      rw [hp] at hc
      cases hp' : part' c.inventorySku with
      | none =>
        rw [hp'] at hc
        exact hlow hc
      | some total' =>
        rw [hp'] at hc
        obtain rfl : total = total' := hc
        exact buildable_congr h group _

variable {rules : MappingRules} {componentStock componentStock' : ComponentStock}
    {velocity : Option Velocity}

theorem lookup_allocate_of_nonpos {total : ℤ} (h : total ≤ 0) (consumers : List String)
    (weights : String → ℚ) (sku : String) :
    ((allocateIntegerQuantity total consumers weights).lookup sku).getD 0 = 0 := by
  unfold allocateIntegerQuantity
  rw [if_pos h]
  induction consumers with
  | nil => rfl
  | cons consumer consumers ih =>
    rw [List.map_cons, Dict.lookup_cons_ite]
    split_ifs
    · rfl
    · exact ih

/-- The part of a commodity comes from the stock of the component. -/
theorem localPart_getD (sku warehouseId key : String) :
    (localPart rules componentStock velocity sku warehouseId key).getD 0 =
      ((allocateIntegerQuantity (stockOf componentStock warehouseId key)
        ((mappingComponentConsumers rules).getD key [])
        (weightsFor (velocity.elim .empty localWeightsBySku) (some "") none)).lookup
        sku).getD 0 := by
  rw [localPart, total_buildComponentAllocation, stockOf]
  cases componentStock.get? (key, warehouseId) with
  | none => exact (lookup_allocate_of_nonpos le_rfl _ _ sku).symm
  | some kept => rfl

theorem localUnits_congr {warehouseId : String}
    (h : ∀ key, stockOf componentStock warehouseId key = stockOf componentStock' warehouseId key)
    (sku : String) (components : MappingGroup) :
    localUnits rules componentStock velocity sku warehouseId components =
    localUnits rules componentStock' velocity sku warehouseId components := by
  refine buildable_congr (fun key => ?_) components none
  rw [localPart_getD, localPart_getD, h]

/-- In a warehouse without stock nothing is assembled. -/
theorem localUnits_of_no_stock {warehouseId : String}
    (h : ∀ key, stockOf componentStock warehouseId key = 0) (sku : String)
    (components : MappingGroup) :
    localUnits rules componentStock velocity sku warehouseId components = 0 := by
  have hempty : localUnits rules componentStock velocity sku warehouseId components =
      max 0 ((buildable (fun _ => none) none components).getD 0) := by
    refine buildable_congr (fun key => ?_) components none
    rw [localPart_getD, h, lookup_allocate_of_nonpos le_rfl]
    rfl
  rw [hempty]
  cases components with
  | nil => rfl
  | cons c components => rfl

theorem stockOf_of_not_mem {warehouseId : String} (h : warehouseId ∉ warehouseIds componentStock)
    (key : String) : stockOf componentStock warehouseId key = 0 := by
  have hno : componentStock.get? (key, warehouseId) = none := by
    refine Dict.get?_eq_none_iff.mpr fun hkey => h ?_
    exact List.mem_dedup.mpr (List.mem_map_of_mem (f := Prod.snd) hkey)
  rw [stockOf, hno]
  rfl

/-- The total of a commodity, summed over any warehouses that are enough. -/
theorem localTotal_eq_sum (componentStock : ComponentStock) (sku : String) {s : Finset String}
    (hs : (warehouseIds componentStock).toFinset ⊆ s) :
    (computeMappedStockTotalBySku rules componentStock velocity).getD sku 0 =
      ∑ warehouseId ∈ s, ((rules.getD sku []).map
        (localUnits rules componentStock velocity sku warehouseId)).sum := by
  have hnd : (warehouseIds componentStock).Nodup := List.nodup_dedup _
  rw [getD_computeMappedStockTotalBySku, ← List.sum_toFinset _ hnd]
  refine Finset.sum_subset hs fun warehouseId _ hno => ?_
  have hstock := stockOf_of_not_mem fun hm => hno (List.mem_toFinset.mpr hm)
  refine List.sum_eq_zero fun n hn => ?_
  obtain ⟨components, -, rfl⟩ := List.mem_map.mp hn
  exact localUnits_of_no_stock hstock sku components

/-- **What is assembled depends on the stock of the components only.** -/
theorem localTotals_congr (rules : MappingRules) (velocity : Option Velocity)
    (h : ∀ warehouseId key, stockOf componentStock warehouseId key =
      stockOf componentStock' warehouseId key) (sku : String) :
    (computeMappedStockTotalBySku rules componentStock velocity).getD sku 0 =
      (computeMappedStockTotalBySku rules componentStock' velocity).getD sku 0 := by
  rw [localTotal_eq_sum componentStock sku Finset.subset_union_left,
    localTotal_eq_sum componentStock' sku Finset.subset_union_right]
  refine Finset.sum_congr rfl fun warehouseId _ =>
    congrArg List.sum (List.map_congr_left fun components _ => ?_)
  exact localUnits_congr (h warehouseId) sku components

end Assembly

/-! ### The sums over the rows -/

section Sum

variable {M : Type} [AddCommMonoid M] {inventory inventory' : InventoryTable}

/-- A sum over the rows that adds nothing for a row without stock. -/
theorem sum_rows_eq (inventory : InventoryTable) (f : String × String → ℤ × ℤ → M)
    (h0 : ∀ key, f key (0, 0) = 0) {s : Finset (String × String)}
    (hs : inventory.keys.toFinset ⊆ s) :
    (inventory.items.map fun row => f row.1 (row.2.available, row.2.reserved)).sum = ∑ key ∈ s,
    f key (stockAt inventory key) := by
  have hkeys : (inventory.items.map fun row => f row.1 (row.2.available, row.2.reserved)) =
      inventory.keys.map fun key => f key (stockAt inventory key) := by
    rw [Dict.keys, List.map_map]
    refine List.map_congr_left fun row hrow => ?_
    have hget : inventory.get? row.1 = some row.2 := Dict.get?_eq_some_iff.mpr hrow
    simp only [Function.comp_apply, stockAt, hget, Option.elim_some]
  have hnd : inventory.keys.Nodup := inventory.nodup
  rw [hkeys, ← List.sum_toFinset _ hnd]
  refine Finset.sum_subset hs fun key _ hno => ?_
  have hnone : inventory.get? key = none :=
    Dict.get?_eq_none_iff.mpr fun hm => hno (List.mem_toFinset.mpr hm)
  rw [stockAt, hnone]
  exact h0 key

/-- Such a sum depends on the stock of the pairs that add to it. -/
theorem sum_rows_congr {f : String × String → ℤ × ℤ → M} (h0 : ∀ key, f key (0, 0) = 0)
    (h : ∀ key, f key (stockAt inventory key) = f key (stockAt inventory' key)) :
    (inventory.items.map fun row => f row.1 (row.2.available, row.2.reserved)).sum =
      (inventory'.items.map fun row => f row.1 (row.2.available, row.2.reserved)).sum := by
  rw [sum_rows_eq inventory f h0 Finset.subset_union_left,
    sum_rows_eq inventory' f h0 Finset.subset_union_right]
  exact Finset.sum_congr rfl fun key _ => h key

end Sum

section Stock

variable (plan plan' : Plan) (warehouses : Dict String Warehouse)
    {inventory inventory' : InventoryTable}

/-- The stock of a component in a warehouse at home, by its rows. -/
theorem stockOf_inventoryTotals (inventory : InventoryTable) (inventorySkus : List String)
    (skuToGroupKey : Dict String String) (warehouseId key : String) :
    stockOf (loadInventoryTotalsByWarehouse plan warehouses inventory inventorySkus skuToGroupKey)
      warehouseId key = (inventory.items.map fun row => if isLocalWarehouse warehouses row.1.2 ∧
        row.1.1 ∈ inventorySkus ∧ resolveSku skuToGroupKey row.1.1 = key ∧
        row.1.2 = warehouseId then row.2.available + row.2.reserved else 0).sum := by
  set rows := (inventory.items.filter fun row => isLocalWarehouse warehouses row.1.2 && row.1.1 ∈
    inventorySkus).map
    fun row => ((row.1.1, row.1.2, row.2.cols.country), row.2.available + row.2.reserved) with hrows
  have htotal : ((loadInventoryTotalsByWarehouse plan warehouses inventory inventorySkus
      skuToGroupKey).get?
      (key, warehouseId)).map WarehouseStock.total =
      (sumRows plan (fun k : String × String × Option String =>
        some (resolveSku skuToGroupKey k.1, k.2.1)) rows).get?
        (key, warehouseId) := by
    have hadd : ∀ a b : WarehouseStock, (addStock a b).total = a.total + b.total := fun _ _ => rfl
    rw [loadInventoryTotalsByWarehouse, ← hrows, Dict.get?_mergeAll, Dict.map_combine hadd,
      sumRows, Dict.sumBy, Dict.get?_mergeAll, ← Dict.valuesAt_map WarehouseStock.total,
      List.map_map, rekey]
    simp only [Option.map_some, List.filterMap_eq_map']
    rfl
  have helim : stockOf (loadInventoryTotalsByWarehouse plan warehouses inventory inventorySkus
      skuToGroupKey) warehouseId key =
      (((loadInventoryTotalsByWarehouse plan warehouses inventory inventorySkus skuToGroupKey).get?
        (key, warehouseId)).map WarehouseStock.total).getD 0 := by
    rw [stockOf]
    cases (loadInventoryTotalsByWarehouse plan warehouses inventory inventorySkus
      skuToGroupKey).get?
      (key, warehouseId) <;> rfl
  rw [helim, htotal, get?_sumRows, ← Dict.getD, Dict.getD_sumBy, sum_valuesAt_rekey, hrows,
    List.map_map, Sums.sum_map_filter]
  refine congrArg List.sum (List.map_congr_left fun row _ => ?_)
  by_cases hlocal : isLocalWarehouse warehouses row.1.2 ∧ row.1.1 ∈ inventorySkus
  · simp [hlocal]
  · have hall : ¬ (isLocalWarehouse warehouses row.1.2 ∧ row.1.1 ∈ inventorySkus ∧
        resolveSku skuToGroupKey row.1.1 = key ∧ row.1.2 = warehouseId) :=
          fun h => hlocal ⟨h.1, h.2.1⟩
    rw [if_neg hall, if_neg (by simpa using hlocal)]

/-- What is at home of a SKU, by its rows. -/
theorem getD_localStockRows (inventory : InventoryTable) (commoditySkus : Option (List String))
    (sku : String) :
    (sumRows plan some (localStockRows warehouses inventory commoditySkus)).getD sku 0 =
      (inventory.items.map fun row => if isLocalWarehouse warehouses row.1.2 ∧
        inSkus commoditySkus row.1.1 ∧ row.1.1 = sku
        then (row.2.available, row.2.reserved) else 0).sum := by
  rw [Dict.getD, get?_sumRows, ← Dict.getD, Dict.getD_sumBy, sum_valuesAt_rekey, localStockRows,
    List.map_map]
  induction inventory.items with
  | nil => rfl
  | cons row rows ih =>
    rw [List.map_cons, List.sum_cons, ← ih, List.filter_cons]
    by_cases hlocal : isLocalWarehouse warehouses row.1.2 ∧ inSkus commoditySkus row.1.1
    · simp [hlocal]
    · have hall : ¬ (isLocalWarehouse warehouses row.1.2 ∧ inSkus commoditySkus row.1.1 ∧
        row.1.1 = sku) :=
        fun h => hlocal ⟨h.1, h.2.1⟩
      rw [if_neg (by simpa using hlocal), if_neg hall, zero_add]

/-- The mapped totals add to what is available. -/
theorem localStockOf_addMapped (result : Dict String LocalStock) (mappedTotals : Dict String ℤ)
    (sku : String) :
    localStockOf (result.mergeAll addMapped
      (mappedTotals.items.map fun entry => (entry.1, ⟨entry.2, 0⟩))) sku =
      ⟨(localStockOf result sku).available + mappedTotals.getD sku 0,
      (localStockOf result sku).reserved⟩ := by
  have hvalues : Dict.valuesAt
      (mappedTotals.items.map fun entry => (entry.1, (⟨entry.2, 0⟩ : LocalStock))) sku =
      ((mappedTotals.get? sku).map fun quantity => (⟨quantity, 0⟩ : LocalStock)).toList := by
    rw [Dict.valuesAt_map (fun quantity => (⟨quantity, 0⟩ : LocalStock)), Dict.valuesAt_items]
    cases mappedTotals.get? sku <;> rfl
  rw [localStockOf, localStockOf, Dict.getD, Dict.getD, Dict.getD, Dict.get?_mergeAll, hvalues]
  cases mappedTotals.get? sku with
  | none => cases result.get? sku <;> simp [Dict.combine]
  | some quantity => cases result.get? sku <;> simp [Dict.combine, addMapped]

variable (h : ∀ sku warehouseId, isLocalWarehouse warehouses warehouseId →
  stockAt inventory (sku, warehouseId) = stockAt inventory' (sku, warehouseId))

include h in
theorem directStock_congr (commoditySkus : Option (List String)) (sku : String) :
    localStockOf ((sumRows plan some (localStockRows warehouses inventory commoditySkus)).mapVal
      fun _ stock =>
      LocalStock.mk stock.1 stock.2) sku =
    localStockOf ((sumRows plan' some (localStockRows warehouses inventory' commoditySkus)).mapVal
        fun _ stock =>
      LocalStock.mk stock.1 stock.2) sku := by
  have hget : ∀ d : Dict String (ℤ × ℤ),
      localStockOf (d.mapVal fun _ stock => LocalStock.mk stock.1 stock.2) sku =
      ⟨(d.getD sku 0).1, (d.getD sku 0).2⟩ := by
    intro d
    rw [localStockOf, Dict.getD, Dict.getD, Dict.get?_mapVal]
    cases d.get? sku <;> rfl
  have hsum : (sumRows plan some (localStockRows warehouses inventory commoditySkus)).getD sku 0 =
      (sumRows plan' some (localStockRows warehouses inventory' commoditySkus)).getD sku 0 := by
    rw [getD_localStockRows, getD_localStockRows]
    refine sum_rows_congr (f := fun key stock => if isLocalWarehouse warehouses key.2 ∧
      inSkus commoditySkus key.1 ∧ key.1 = sku then stock else 0) (fun key => ite_self 0)
      fun key => ?_
    by_cases hlocal : isLocalWarehouse warehouses key.2
    · rw [h key.1 key.2 hlocal]
    · rw [if_neg fun hc => hlocal hc.1, if_neg fun hc => hlocal hc.1]
  rw [hget, hget, hsum]

include h in
theorem stockOf_inventoryTotals_congr (inventorySkus : List String)
    (skuToGroupKey : Dict String String) (warehouseId key : String) :
    stockOf (loadInventoryTotalsByWarehouse plan warehouses inventory inventorySkus skuToGroupKey)
      warehouseId key = stockOf
      (loadInventoryTotalsByWarehouse plan' warehouses inventory' inventorySkus skuToGroupKey)
      warehouseId key := by
  rw [stockOf_inventoryTotals, stockOf_inventoryTotals]
  refine sum_rows_congr (f := fun k stock => if isLocalWarehouse warehouses k.2 ∧
    k.1 ∈ inventorySkus ∧ resolveSku skuToGroupKey k.1 = key ∧
    k.2 = warehouseId then stock.1 + stock.2 else 0) (fun k => ite_self 0) fun k => ?_
  by_cases hlocal : isLocalWarehouse warehouses k.2
  · rw [h k.1 k.2 hlocal]
  · rw [if_neg fun hc => hlocal hc.1, if_neg fun hc => hlocal hc.1]

include h in
/-- **The stock at home is seen through the stock of the pairs**: what a table counts, in
its rows and in what can be assembled from them, is the same for every table with the same
stock in the warehouses at home, in whatever order the groups of the queries come. -/
theorem loadLocalInventory_congr (table : RuleTable) (commoditySkus : Option (List String))
    (velocity : Option Velocity) (resolver : PhysicalSkuResolver) (sku : String) :
    localStockOf (loadLocalInventory plan warehouses table inventory commoditySkus velocity
      resolver) sku = localStockOf
      (loadLocalInventory plan' warehouses table inventory' commoditySkus velocity resolver)
      sku := by
  have hdirect := directStock_congr plan plan' warehouses h commoditySkus sku
  simp only [loadLocalInventory]
  split_ifs
  · exact hdirect
  · rw [localStockOf_addMapped, localStockOf_addMapped, hdirect]
    have hstock := stockOf_inventoryTotals_congr plan plan' warehouses h
      (componentQuerySkus resolver
      (loadActiveMappingRules table commoditySkus resolver.skuToGroupKey)) resolver.skuToGroupKey
    rw [localTotals_congr _ velocity hstock sku]

end Stock

end Restock
