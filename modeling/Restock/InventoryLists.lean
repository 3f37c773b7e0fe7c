/-
# The inventory by rows and by warehouses (`api/data.py`)

The inventory of the default warehouses is listed in two ways: row by row, with a sort of the
request's choice, and in groups of a warehouse each. Each page is read by queries of its own, and
what
is known of a SKU is loaded for the SKUs of the page. The pages of either list show the same
rows, and say the same of them (`inventory_lists_agree`); only where several listings name a
SKU that is no commodity, the database chooses one of the names.
-/
import Restock.OrderList
import Restock.Lib.GroupedListing

namespace Restock

open Listing PyText Query

/-! ### The tables -/

/-- `InventorySnapshotLatest`, as it is listed. -/
structure StockRow where
  commoditySku : String
  warehouseId : String
  country : Option String
  available : ℤ
  reserved : ℤ
  updatedAt : ℤ
deriving DecidableEq, Repr

/-- What the lists read of a warehouse. -/
structure StockWarehouse where
  name : String
  type : ℤ
deriving DecidableEq, Repr

/-- A name and an image. -/
abbrev SkuDisplay := Option String × Option String

/-- The tables that the lists are made from. -/
structure StockListDb where
  inventory : List StockRow
  warehouses : Dict String StockWarehouse
  commodities : Dict String SkuDisplay
  listings : List (Option String × SkuDisplay)
  /-- `SkuMappingComponent.inventory_sku`. -/
  components : List String
  unique : (inventory.map fun row => (row.commoditySku, row.warehouseId)).Nodup

/-- A row with its warehouse. -/
structure StockLine extends StockRow where
  warehouse : StockWarehouse
deriving DecidableEq, Repr

/-- The query parameters that both lists have. -/
structure StockFilter where
  country : Option String := none
  sku : Option String := none
  onlyNonzero : Bool := true
  isPackage : Option Bool := none

/-- An entry of the list. -/
structure DataInventoryItem where
  commoditySku : String
  commodityName : Option String
  mainImage : Option String
  isPackage : Bool
  warehouseId : String
  warehouseName : String
  warehouseType : ℤ
  country : Option String
  stockAvailable : ℤ
  stockOccupy : ℤ
  updatedAt : ℤ
deriving DecidableEq, Repr

/-- The answer to a request for the list. -/
structure DataInventoryListOut where
  items : List DataInventoryItem
  total : ℕ
  page : ℕ
  pageSize : ℕ

/-- The stock of a warehouse. -/
structure DataInventoryWarehouseGroup where
  warehouseId : String
  warehouseName : String
  warehouseType : ℤ
  skuCount : ℕ
  totalAvailable : ℤ
  totalOccupy : ℤ
  items : List DataInventoryItem

/-- The answer to a request for the groups. -/
structure DataInventoryWarehouseGroupListOut where
  items : List DataInventoryWarehouseGroup
  total : ℕ
  page : ℕ
  pageSize : ℕ

/-! ### Rows, columns and names -/

section Request

variable (U : CharTable) (S : Sorting) (db : StockListDb)

/-- The join with the warehouse, in `_apply_default_warehouse_scope`. -/
def stockLines : List StockLine :=
  db.inventory.filterMap fun row =>
    ((db.warehouses.get? row.warehouseId).filter fun warehouse => warehouse.type = 0).map
      (StockLine.mk row)

/-- `known_sku_exists`. -/
def knownSku (sku : String) : Bool :=
  (db.commodities.get? sku).isSome || (db.listings.any fun listing => listing.1 = some sku) ||
    db.components.any (· = sku)

/-- `_apply_inventory_filters`. -/
def StockFilter.selects (filter : StockFilter) (warehouseId : Option String) (line : StockLine) :
    Bool :=
  ((filter.country.bind nonEmpty).all fun country => line.country = some (upper U country)) &&
  ((warehouseId.bind nonEmpty).all fun id => line.warehouseId = id) &&
  ((filter.sku.bind nonEmpty).all fun sku => ilikeKeyword S.fold (some line.commoditySku) sku) &&
  (!filter.onlyNonzero || decide (0 < line.available) || decide (0 < line.reserved)) &&
  filter.isPackage.all fun isPackage =>
    (if isPackage then !knownSku db line.commoditySku else knownSku db line.commoditySku)

/-- `_apply_inventory_sort`. -/
def inventoryColumns (sortBy : Option String) (ascending : Bool) : List (Column StockLine) :=
  let sku : Column StockLine := S.text fun line => line.commoditySku
  let warehouse : Column StockLine := S.text fun line => line.warehouseId
  let sortMap : List (String × List (Column StockLine)) :=
    [("commoditySku", [sku]),
      ("warehouseName", [missingLast fun line => some line.warehouse.name,
        S.text fun line => line.warehouse.name]),
      ("country", [missingLast fun line => line.country, S.nullableText fun line => line.country]),
      ("stockAvailable", [.asc fun line => line.available]),
      ("stockOccupy", [.asc fun line => line.reserved]),
      ("updatedAt", [.asc fun line => line.updatedAt])]
  ((sortMap.lookup (sortBy.getD "")).getD [sku, warehouse]).map (Column.directed ascending) ++
    [sku, warehouse]

/-- The rows of `SELECT commodity_sku, commodity_name, main_image` of the listings. -/
def listingRows (codes : List String) : List (String × SkuDisplay) :=
  db.listings.filterMap fun listing => listing.1.bind fun sku => if sku ∈ codes then
    some (sku, listing.2) else none

/-- `name_map`. -/
def nameMap (plan : Plan) (codes : List String) : Dict String SkuDisplay :=
  Dict.mergeAll (fun old _ => old)
    (Dict.ofList (plan.order (db.commodities.items.filter fun entry => entry.1 ∈ codes)))
    (plan.order (listingRows db codes))

/-- `matched_skus`. -/
def matchedSkus (codes : List String) : List String :=
  ((db.commodities.items.filter fun entry => entry.1 ∈ codes).map Prod.fst) ++
    (listingRows db codes).map Prod.fst ++ db.components.filter fun sku => sku ∈ codes

/-- The entry of a row, with the name of its SKU. -/
def dataInventoryItem (plan : Plan) (codes : List String) (line : StockLine) : DataInventoryItem :=
  let display := (nameMap db plan codes).getD line.commoditySku (none, none)
  { commoditySku := line.commoditySku
    commodityName := display.1
    mainImage := display.2
    isPackage := !decide (line.commoditySku ∈ matchedSkus db codes)
    warehouseId := line.warehouseId
    warehouseName := line.warehouse.name
    warehouseType := line.warehouse.type
    country := line.country
    stockAvailable := line.available
    stockOccupy := line.reserved
    updatedAt := line.updatedAt }

/-- `list_inventory`. -/
def listInventory (plan : Plan) (filter : StockFilter) (warehouseId sortBy : Option String)
    (ascending : Bool) (page pageSize : ℕ) : DataInventoryListOut :=
  let base := (stockLines db).filter (filter.selects U S db warehouseId)
  let rows := Listing.page (orderBy plan (inventoryColumns S sortBy ascending) base) page pageSize
  { items := rows.map (dataInventoryItem db plan (rows.map fun line => line.commoditySku))
    total := base.length
    page := page
    pageSize := pageSize }

/-! ### Groups -/

/-- What tells the groups apart. -/
structure WarehouseHead where
  id : String
  name : String
  type : ℤ
deriving DecidableEq, Repr

/-- The grouping by warehouse, with its two sums. -/
def byWarehouse : Grouping StockLine String WarehouseHead (ℤ × ℤ) where
  key line := line.warehouseId
  head line := ⟨line.warehouseId, line.warehouse.name, line.warehouse.type⟩
  headKey head := head.id
  headKey_head _ := rfl
  amount line := (line.available, line.reserved)

/-- `Warehouse.name.asc(), InventorySnapshotLatest.warehouse_id.asc()`. -/
def warehouseColumns : List (Column (WarehouseHead × ℕ × ℤ × ℤ)) :=
  [S.text fun entry => entry.1.name, S.text fun entry => entry.1.id]

/-- The order of the rows of the groups. -/
def warehouseItemColumns : List (Column StockLine) :=
  [S.text fun line => line.warehouse.name, S.text fun line => line.warehouseId,
    S.text fun line => line.commoditySku]

/-- `list_inventory_warehouse_groups`. -/
def listInventoryWarehouseGroups (plan : Plan) (filter : StockFilter) (page pageSize : ℕ) :
    DataInventoryWarehouseGroupListOut :=
  let base := (stockLines db).filter (filter.selects U S db none)
  let groupRows := pageEntries byWarehouse plan (warehouseColumns S) base page pageSize
  let itemRows := loadedRows byWarehouse plan (warehouseItemColumns S) base groupRows
  let codes := itemRows.map fun line => line.commoditySku
  { items := (fillGroups byWarehouse groupRows itemRows).map fun group =>
      { warehouseId := group.head.id
        warehouseName := group.head.name
        warehouseType := group.head.type
        skuCount := group.count
        totalAvailable := group.total.1
        totalOccupy := group.total.2
        items := group.items.map (dataInventoryItem db plan codes) }
    total := (Listing.groupRows byWarehouse base).length
    page := page
    pageSize := pageSize }

end Request

/-! ### What an item says -/

section Items

variable {U : CharTable} {S : Sorting} {db : StockListDb} {plan : Plan} {codes : List String}

/-- The name of a SKU is that of the commodity, or else that of some listing. -/
def NameOf (db : StockListDb) (sku : String) (display : SkuDisplay) : Prop :=
  db.commodities.get? sku = some display ∨
    db.commodities.get? sku = none ∧ ((some sku, display) ∈ db.listings ∨
      display = (none, none) ∧ ∀ other, (some sku, other) ∉ db.listings)

/-- An item but for the name. -/
def DataInventoryItem.unnamed (item : DataInventoryItem) : DataInventoryItem :=
  { item with commodityName := none, mainImage := none }

/-- What is said of a row. -/
def stockItem (db : StockListDb) (line : StockLine) : DataInventoryItem where
  commoditySku := line.commoditySku
  commodityName := none
  mainImage := none
  isPackage := !knownSku db line.commoditySku
  warehouseId := line.warehouseId
  warehouseName := line.warehouse.name
  warehouseType := line.warehouse.type
  country := line.country
  stockAvailable := line.available
  stockOccupy := line.reserved
  updatedAt := line.updatedAt

theorem mem_listingRows {sku : String} {display : SkuDisplay} :
    (sku, display) ∈ listingRows db codes ↔ (some sku, display) ∈ db.listings ∧ sku ∈ codes := by
  unfold listingRows
  rw [List.mem_filterMap]
  constructor
  · intro h
    obtain ⟨listing, hlisting, hsome⟩ := h
    obtain ⟨sku', hsku', hif⟩ := Option.bind_eq_some_iff.mp hsome
    split_ifs at hif with hin
    obtain ⟨rfl, rfl⟩ := Prod.mk.inj (Option.some.inj hif)
    exact ⟨by rw [← hsku']; exact hlisting, hin⟩
  · intro h
    exact ⟨_, h.1, by simp [h.2]⟩

/-- A SKU of the page is matched if it is known. -/
theorem mem_matchedSkus {sku : String} (h : sku ∈ codes) :
    sku ∈ matchedSkus db codes ↔ knownSku db sku = true := by
  unfold matchedSkus knownSku
  simp only [List.mem_append, List.mem_map, List.mem_filter, decide_eq_true_eq, Bool.or_eq_true,
    List.any_eq_true, or_assoc]
  refine or_congr ?_ (or_congr ?_ ?_)
  · constructor
    · intro hm
      obtain ⟨entry, ⟨hentry, -⟩, rfl⟩ := hm
      rw [Dict.get?_eq_some_iff.mpr hentry]
      rfl
    · intro hs
      obtain ⟨display, hget⟩ := Option.isSome_iff_exists.mp hs
      exact ⟨(sku, display), ⟨Dict.get?_eq_some_iff.mp hget, h⟩, rfl⟩
  · constructor
    · intro hm
      obtain ⟨entry, hentry, rfl⟩ := hm
      exact ⟨_, (mem_listingRows.mp hentry).1, rfl⟩
    · intro hm
      obtain ⟨listing, hlisting, heq⟩ := hm
      exact ⟨(sku, listing.2), mem_listingRows.mpr ⟨heq ▸ hlisting, h⟩, rfl⟩
  · constructor
    · intro hm
      exact ⟨sku, hm.1, rfl⟩
    · intro hm
      obtain ⟨sku', hsku', rfl⟩ := hm
      exact ⟨hsku', h⟩

theorem unnamed_dataInventoryItem {line : StockLine} (h : line.commoditySku ∈ codes) :
    (dataInventoryItem db plan codes line).unnamed = stockItem db line := by
  have hmatched : decide (line.commoditySku ∈ matchedSkus db codes) =
      knownSku db line.commoditySku := by
    rw [Bool.eq_iff_iff, decide_eq_true_eq]
    exact mem_matchedSkus h
  unfold DataInventoryItem.unnamed dataInventoryItem stockItem
  simp only [hmatched]

theorem combine_keep :
    ∀ (vs : List SkuDisplay) (o : Option SkuDisplay), Dict.combine (fun old _ => old) o vs =
    o.or vs.head?
  | [], o => by cases o <;> rfl
  | v :: vs, none => combine_keep vs (some v)
  | _ :: vs, some w => combine_keep vs (some w)

/-- The name that is loaded for a SKU of the page. -/
theorem nameOf_nameMap {sku : String} (h : sku ∈ codes) :
    NameOf db sku ((nameMap db plan codes).getD sku (none, none)) := by
  have hsame : (Dict.ofList
      (plan.order (db.commodities.items.filter fun entry => entry.1 ∈ codes))).get? sku =
      db.commodities.get? sku := by
    have hfilter := Dict.same_ofList (d := db.commodities.filter fun k _ => k ∈ codes)
      (plan.perm (db.commodities.items.filter fun entry => entry.1 ∈ codes))
    rw [hfilter, Dict.get?_filter]
    cases db.commodities.get? sku <;> simp [h]
  unfold nameMap Dict.getD
  rw [Dict.get?_mergeAll, hsame, combine_keep]
  cases hcommodity : db.commodities.get? sku with
  | some display => exact Or.inl hcommodity
  | none =>
    refine Or.inr ⟨hcommodity, ?_⟩
    have hmem : ∀ display, display ∈ Dict.valuesAt (plan.order (listingRows db codes)) sku ↔
        (some sku, display) ∈ db.listings := by
      intro display
      rw [Dict.mem_valuesAt, (plan.perm _).mem_iff, mem_listingRows]
      exact and_iff_left h
    cases hvalues : Dict.valuesAt (plan.order (listingRows db codes)) sku with
    | nil =>
      exact Or.inr ⟨rfl, fun other hother => absurd ((hmem other).mpr hother)
        (hvalues ▸ List.not_mem_nil)⟩
    | cons display rest => exact Or.inl ((hmem display).mp (hvalues ▸ List.mem_cons_self))

end Items

/-! ### The lists agree -/

section Lists

variable {U : CharTable} {S : Sorting} {db : StockListDb}

theorem nodup_stockLines :
    ((stockLines db).map fun line => (line.commoditySku, line.warehouseId)).Nodup := by
  have hsub : ∀ rows : List StockRow,
      ((rows.filterMap fun row => ((db.warehouses.get? row.warehouseId).filter fun warehouse =>
      warehouse.type = 0).map (StockLine.mk row)).map fun line => (line.commoditySku,
        line.warehouseId)).Sublist
        (rows.map fun row => (row.commoditySku, row.warehouseId)) := by
    intro rows
    induction rows with
    | nil => exact List.Sublist.refl _
    | cons row rows ih =>
      rw [List.filterMap_cons, List.map_cons]
      cases (db.warehouses.get? row.warehouseId).filter fun warehouse => warehouse.type = 0 with
      | none => exact ih.cons _
      | some warehouse => exact ih.cons_cons _
  exact db.unique.sublist (hsub db.inventory)

/-- The id of a warehouse says its name and type. -/
theorem warehouse_of_mem {line : StockLine} (h : line ∈ stockLines db) :
    db.warehouses.get? line.warehouseId = some line.warehouse ∧ line.warehouse.type = 0 := by
  obtain ⟨row, -, hsome⟩ := List.mem_filterMap.mp h
  obtain ⟨warehouse, hfilter, rfl⟩ := Option.map_eq_some_iff.mp hsome
  obtain ⟨hget, htype⟩ := Option.filter_eq_some_iff.mp hfilter
  exact ⟨hget, of_decide_eq_true htype⟩

theorem ties_inventoryColumns {sortBy : Option String} {ascending : Bool} {lines : List StockLine}
    (hnodup : (lines.map fun line => (line.commoditySku, line.warehouseId)).Nodup) :
    ∀ a ∈ lines, ∀ b ∈ lines, Ties (inventoryColumns S sortBy ascending) a b → a = b := by
  intro a ha b hb hties
  have hsku : a.commoditySku = b.commoditySku :=
    hties (S.text fun line => line.commoditySku) (by simp [inventoryColumns])
  have hid : a.warehouseId = b.warehouseId :=
    hties (S.text fun line => line.warehouseId) (by simp [inventoryColumns])
  exact List.inj_on_of_nodup_map hnodup ha hb (Prod.ext hsku hid)

/-- What the groups say of their rows. -/
structure DataInventoryWarehouseGroup.Counts (group : DataInventoryWarehouseGroup) : Prop where
  rows : group.skuCount = group.items.length
  available : group.totalAvailable = (group.items.map fun item => item.stockAvailable).sum
  occupy : group.totalOccupy = (group.items.map fun item => item.stockOccupy).sum
  warehouse : ∀ item ∈ group.items,
    item.warehouseId = group.warehouseId ∧ item.warehouseName = group.warehouseName ∧
      item.warehouseType = group.warehouseType
  skus : (group.items.map fun item => item.commoditySku).Nodup

theorem sum_amounts (lines : List StockLine) : (lines.map byWarehouse.amount).sum =
    ((lines.map fun line => line.available).sum, (lines.map fun line => line.reserved).sum) := by
  induction lines with
  | nil => rfl
  | cons line lines ih =>
    simp only [List.map_cons, List.sum_cons, ih]
    rfl

/-- A group without the names of its SKUs. -/
def DataInventoryWarehouseGroup.unnamed (group : DataInventoryWarehouseGroup) :
    DataInventoryWarehouseGroup :=
  { group with items := group.items.map DataInventoryItem.unnamed }

/-- The group of the answer. -/
def stockGroup (db : StockListDb) (group : Group StockLine WarehouseHead (ℤ × ℤ)) :
    DataInventoryWarehouseGroup :=
  ⟨group.head.id, group.head.name, group.head.type, group.count, group.total.1, group.total.2,
    group.items.map (stockItem db)⟩

theorem counts_unnamed {group : DataInventoryWarehouseGroup} (h : group.unnamed.Counts) :
    group.Counts := by
  have hunnamed : group.unnamed.items = group.items.map DataInventoryItem.unnamed := rfl
  obtain ⟨hrows, havailable, hoccupy, hwarehouse, hskus⟩ := h
  rw [hunnamed, List.length_map] at hrows
  rw [hunnamed, List.map_map] at havailable hoccupy hskus
  exact ⟨hrows, havailable, hoccupy,
    fun item hitem => hwarehouse item.unnamed (List.mem_map_of_mem hitem), hskus⟩

theorem stockItem_skus (lines : List StockLine) :
    (lines.map (stockItem db)).map (fun item => item.commoditySku) = lines.map fun line =>
    line.commoditySku := by
  rw [List.map_map]
  rfl

section Pages

variable {filter : StockFilter} {sortBy : Option String} {ascending : Bool} {plan : Plan}
    {pageNo size : ℕ}

/-- The selected rows. -/
abbrev selectedLines (U : CharTable) (S : Sorting) (db : StockListDb) (filter : StockFilter) :
    List StockLine :=
  (stockLines db).filter (filter.selects U S db none)

/-- What holds of an item of either list. -/
structure ItemShown (db : StockListDb) (filter : StockFilter) (item : DataInventoryItem) :
    Prop where
  scope : item.warehouseType = 0
  isPackage : ∀ isPackage, filter.isPackage = some isPackage → item.isPackage = isPackage
  name : NameOf db item.commoditySku (item.commodityName, item.mainImage)

theorem itemShown {codes : List String} {line : StockLine}
    (hline : line ∈ selectedLines U S db filter) (h : line.commoditySku ∈ codes) :
    ItemShown db filter (dataInventoryItem db plan codes line) := by
  obtain ⟨hmem, hselects⟩ := List.mem_filter.mp hline
  have hunnamed : (dataInventoryItem db plan codes line).unnamed = stockItem db line :=
    unnamed_dataInventoryItem h
  have hmatched : (dataInventoryItem db plan codes line).isPackage =
      !knownSku db line.commoditySku :=
    congrArg DataInventoryItem.isPackage hunnamed
  refine ⟨(warehouse_of_mem hmem).2, fun isPackage hfilter => ?_, nameOf_nameMap h⟩
  unfold StockFilter.selects at hselects
  have hpackage := (Bool.and_eq_true_iff.mp hselects).2
  rw [hfilter, Option.all_some] at hpackage
  rw [hmatched]
  cases isPackage <;> simpa using hpackage

theorem unnamed_listInventory :
    (listInventory U S db plan filter none sortBy ascending pageNo size).items.map
      DataInventoryItem.unnamed =
    (page (orderBy plan (inventoryColumns S sortBy ascending) (selectedLines U S db filter))
      pageNo size).map (stockItem db) := by
  unfold listInventory
  rw [List.map_map]
  exact List.map_congr_left fun line hline => unnamed_dataInventoryItem (List.mem_map_of_mem hline)

theorem mem_listInventory {item : DataInventoryItem}
    (h : item ∈ (listInventory U S db plan filter none sortBy ascending pageNo size).items) :
    ItemShown db filter item := by
  obtain ⟨line, hline, rfl⟩ := List.mem_map.mp h
  have hbase := (orderBy_perm ..).mem_iff.mp (List.mem_of_mem_drop (List.mem_of_mem_take hline))
  exact itemShown hbase (List.mem_map_of_mem hline)

/-- The rows of a group are among those that were loaded. -/
theorem mem_loaded {entries : List (WarehouseHead × ℕ × ℤ × ℤ)} {loaded : List StockLine}
    {group : Group StockLine WarehouseHead (ℤ × ℤ)}
    (hgroup : group ∈ fillGroups byWarehouse entries loaded) {line : StockLine}
    (hline : line ∈ group.items) : line ∈ loaded := by
  rw [(mem_fillGroups hgroup).2] at hline
  exact (List.mem_filter.mp hline).1

theorem unnamed_listInventoryWarehouseGroups :
    (listInventoryWarehouseGroups U S db plan filter pageNo size).items.map
      DataInventoryWarehouseGroup.unnamed =
      (groupPage byWarehouse plan (warehouseColumns S) (warehouseItemColumns S)
      (selectedLines U S db filter) pageNo size).map
        (stockGroup db) := by
  unfold listInventoryWarehouseGroups groupPage
  rw [List.map_map]
  refine List.map_congr_left fun group hgroup => ?_
  simp only [Function.comp, DataInventoryWarehouseGroup.unnamed, stockGroup, List.map_map]
  refine congrArg _ (List.map_congr_left fun line hline => ?_)
  exact unnamed_dataInventoryItem (List.mem_map_of_mem (mem_loaded hgroup hline))

theorem mem_listInventoryWarehouseGroups {group : DataInventoryWarehouseGroup}
    (h : group ∈ (listInventoryWarehouseGroups U S db plan filter pageNo size).items)
    {item : DataInventoryItem} (hitem : item ∈ group.items) : ItemShown db filter item := by
  obtain ⟨found, hfound, rfl⟩ := List.mem_map.mp h
  obtain ⟨line, hline, rfl⟩ := List.mem_map.mp hitem
  have hloaded := mem_loaded hfound hline
  have hbase := (List.mem_filter.mp ((orderBy_perm ..).mem_iff.mp hloaded)).1
  exact itemShown hbase (List.mem_map_of_mem hloaded)

theorem head_of_key : ∀ a ∈ selectedLines U S db filter, ∀ b ∈ selectedLines U S db filter,
    byWarehouse.key a = byWarehouse.key b → byWarehouse.head a = byWarehouse.head b := by
  intro a ha b hb hkey
  have hid : a.warehouseId = b.warehouseId := hkey
  have hgeta := (warehouse_of_mem (List.mem_filter.mp ha).1).1
  have hgetb := (warehouse_of_mem (List.mem_filter.mp hb).1).1
  rw [hid, hgetb] at hgeta
  show WarehouseHead.mk a.warehouseId a.warehouse.name a.warehouse.type = _
  rw [hid, ← Option.some.inj hgeta]
  rfl

theorem head_of_id {head head' : WarehouseHead}
    (h : ∃ line ∈ selectedLines U S db filter, byWarehouse.head line = head)
    (h' : ∃ line ∈ selectedLines U S db filter, byWarehouse.head line = head')
    (hid : head.id = head'.id) : head = head' := by
  obtain ⟨line, hline, rfl⟩ := h
  obtain ⟨line', hline', rfl⟩ := h'
  exact head_of_key line hline line' hline' hid

theorem ties_warehouseColumns : ∀ a ∈ Listing.groupRows byWarehouse (selectedLines U S db filter),
    ∀ b ∈ Listing.groupRows byWarehouse (selectedLines U S db filter),
    Ties (warehouseColumns S) a b → a = b := by
  intro a ha b hb hties
  have hid : a.1.id = b.1.id := hties (S.text fun entry => entry.1.id) (by simp [warehouseColumns])
  exact List.inj_on_of_nodup_map nodup_groupRows ha hb
    (head_of_id (mem_groupRows.mp ha).1 (mem_groupRows.mp hb).1 hid)

/-- The counts of a group of the rows. -/
theorem counts_stockGroup {groups : List (Group StockLine WarehouseHead (ℤ × ℤ))}
    (hgrouped : Grouped byWarehouse (warehouseItemColumns S) (selectedLines U S db filter) groups)
    {group : Group StockLine WarehouseHead (ℤ × ℤ)} (hgroup : group ∈ groups) :
    (stockGroup db group).items ≠ [] ∧ (stockGroup db group).Counts := by
  have hitems := hgrouped.items group hgroup
  have htotal := hgrouped.total group hgroup
  rw [sum_amounts] at htotal
  have hhead : ∀ line ∈ group.items, byWarehouse.head line = group.head := fun line hline =>
    of_decide_eq_true (List.mem_filter.mp (hitems.mem_iff.mp hline)).2
  have hne : group.items ≠ [] := by
    obtain ⟨line, hline, hlineHead⟩ := (hgrouped.heads group.head).mp (List.mem_map_of_mem hgroup)
    have hmem := hitems.mem_iff.mpr (List.mem_filter.mpr ⟨hline, decide_eq_true hlineHead⟩)
    exact List.ne_nil_of_mem hmem
  refine ⟨fun hnil => hne (List.map_eq_nil_iff.mp hnil), ⟨?_, ?_, ?_, fun item hitem => ?_, ?_⟩⟩
  · exact (hgrouped.count group hgroup).trans (List.length_map _).symm
  · show group.total.1 = ((group.items.map (stockItem db)).map fun item => item.stockAvailable).sum
    rw [htotal, List.map_map]
    rfl
  · show group.total.2 = ((group.items.map (stockItem db)).map fun item => item.stockOccupy).sum
    rw [htotal, List.map_map]
    rfl
  · obtain ⟨line, hline, rfl⟩ := List.mem_map.mp hitem
    have heq := hhead line hline
    exact ⟨congrArg WarehouseHead.id heq, congrArg WarehouseHead.name heq,
      congrArg WarehouseHead.type heq⟩
  · show ((group.items.map (stockItem db)).map fun item => item.commoditySku).Nodup
    rw [stockItem_skus, (hitems.map _).nodup_iff]
    have hnodup : ((selectedLines U S db filter).map
        fun line => (line.commoditySku, line.warehouseId)).Nodup :=
      nodup_stockLines.sublist (List.filter_sublist.map _)
    have hwarehouse := hnodup.sublist
      ((List.filter_sublist (p := fun line => byWarehouse.head line = group.head)).map _)
    refine List.Nodup.map_on (fun a ha b hb hab => ?_) (List.Nodup.of_map _ hwarehouse)
    have hida := congrArg WarehouseHead.id (of_decide_eq_true (List.mem_filter.mp ha).2)
    have hidb := congrArg WarehouseHead.id (of_decide_eq_true (List.mem_filter.mp hb).2)
    exact List.inj_on_of_nodup_map hwarehouse ha hb (Prod.ext hab (hida.trans hidb.symm))

end Pages

/-- **Two views of the inventory.** Whatever the database chooses for each of the requests: the
pages of the rows show every selected row of a default warehouse once; the pages of the groups
show the same, each warehouse in one group, with the number of the rows that it shows and
their sums. An item is marked as a package if its SKU is known nowhere, as the filter has it. -/
theorem inventory_lists_agree (filter : StockFilter) (sortBy : Option String) (ascending : Bool)
    (plans plans' : ℕ → Plan) (size size' n n' : ℕ) :
    let answer i := listInventory U S db (plans i) filter none sortBy ascending (i + 1) size
    let answer' i := listInventoryWarehouseGroups U S db (plans' i) filter (i + 1) size'
    let items := (List.range n).flatMap fun i => (answer i).items
    let groups := (List.range n').flatMap fun i => (answer' i).items
    (answer 0).total ≤ n * size → (answer' 0).total ≤ n' * size' →
    (items.map DataInventoryItem.unnamed).Perm ((selectedLines U S db filter).map (stockItem db)) ∧
    ((groups.flatMap fun group => group.items).map DataInventoryItem.unnamed).Perm
    (items.map DataInventoryItem.unnamed) ∧ (groups.map fun group => group.warehouseId).Nodup ∧
    (∀ group ∈ groups, group.items ≠ [] ∧ group.Counts) ∧
    ∀ item ∈ items ++ groups.flatMap fun group => group.items, ItemShown db filter item := by
  intro answer answer' items groups hall hall'
  have hnodup : ((selectedLines U S db filter).map
      fun line => (line.commoditySku, line.warehouseId)).Nodup :=
    nodup_stockLines.sublist (List.filter_sublist.map _)
  have hitems : items.map DataInventoryItem.unnamed =
      (orderBy (plans 0) (inventoryColumns S sortBy ascending) (selectedLines U S db filter)).map
          (stockItem db) := by
    have hpages := pages_of_unique (@ties_inventoryColumns S sortBy ascending _ hnodup) plans
      (plans 0) hall
    rw [← hpages]
    unfold pages
    rw [List.map_flatMap, List.map_flatMap]
    exact congrArg ((List.range n).flatMap ·) (funext fun i => unnamed_listInventory)
  have hflat : (items.map DataInventoryItem.unnamed).Perm
      ((selectedLines U S db filter).map (stockItem db)) := by
    rw [hitems]
    exact (orderBy_perm ..).map _
  let found := (List.range n').flatMap fun i =>
    groupPage byWarehouse (plans' i) (warehouseColumns S) (warehouseItemColumns S)
      (selectedLines U S db filter) (i + 1) size'
  have hgrouped : Grouped byWarehouse (warehouseItemColumns S)
      (selectedLines U S db filter) found :=
    (grouped_pages head_of_key ties_warehouseColumns plans' hall').1
  have hgroups : groups.map DataInventoryWarehouseGroup.unnamed = found.map (stockGroup db) := by
    rw [List.map_flatMap, List.map_flatMap]
    exact congrArg ((List.range n').flatMap ·)
      (funext fun i => unnamed_listInventoryWarehouseGroups)
  refine ⟨hflat, ?_, ?_, fun group hgroup => ?_, fun item hitem => ?_⟩
  · have hrows : (groups.flatMap fun group => group.items).map DataInventoryItem.unnamed =
        (found.flatMap Group.items).map (stockItem db) := by
      have hleft : (groups.flatMap fun group => group.items).map DataInventoryItem.unnamed =
          (groups.map DataInventoryWarehouseGroup.unnamed).flatMap fun group => group.items := by
        rw [List.map_flatMap, List.flatMap_map]
        rfl
      rw [hleft, hgroups, List.flatMap_map, List.map_flatMap]
      rfl
    rw [hrows]
    exact (hgrouped.items_perm.map _).trans hflat.symm
  · have hids : (groups.map fun group => group.warehouseId) =
      (found.map Group.head).map WarehouseHead.id := by
      have hleft : (groups.map fun group => group.warehouseId) =
          (groups.map DataInventoryWarehouseGroup.unnamed).map fun group => group.warehouseId := by
        rw [List.map_map]
        rfl
      rw [hleft, hgroups, List.map_map, List.map_map]
      rfl
    rw [hids]
    refine List.Nodup.map_on (fun head hhead head' hhead' hid => ?_) hgrouped.nodup
    exact head_of_id ((hgrouped.heads head).mp hhead) ((hgrouped.heads head').mp hhead') hid
  · have hmem : group.unnamed ∈ found.map (stockGroup db) := hgroups ▸ List.mem_map_of_mem hgroup
    obtain ⟨g, hg, heq⟩ := List.mem_map.mp hmem
    obtain ⟨hne, hcounts⟩ := counts_stockGroup hgrouped hg
    rw [heq] at hne hcounts
    refine ⟨fun hnil => hne ?_, counts_unnamed hcounts⟩
    show group.items.map DataInventoryItem.unnamed = []
    rw [hnil]
    rfl
  · rcases List.mem_append.mp hitem with hrow | hgroup
    · obtain ⟨i, -, hi⟩ := List.mem_flatMap.mp hrow
      exact mem_listInventory hi
    · obtain ⟨group, hgroup, hitem'⟩ := List.mem_flatMap.mp hgroup
      obtain ⟨i, -, hi⟩ := List.mem_flatMap.mp hgroup
      exact mem_listInventoryWarehouseGroups hi hitem'

/-- Two SKUs in one warehouse. -/
def oneShelf : StockListDb where
  inventory := [⟨"A", "w", none, 3, 1, 0⟩, ⟨"B", "w", none, 0, 2, 0⟩]
  warehouses := .ofList [("w", ⟨"W", 0⟩)]
  commodities := .ofList [("A", (some "Lamp", none))]
  listings := [(some "B", (some "Shade", none)), (some "B", (none, none))]
  components := []
  unique := by decide

/-- Two SKUs of one warehouse, on two pages of rows and in one group. -/
theorem inventory_lists_agree_shelf :
    let items := (List.range 2).flatMap fun i =>
      (listInventory .ascii plainSorting oneShelf (bookPlans i) {} none none true (i + 1) 1).items
    let groups := (List.range 1).flatMap fun i =>
      (listInventoryWarehouseGroups .ascii plainSorting oneShelf (bookPlans i) {} (i + 1) 1).items
    ((groups.flatMap fun group => group.items).map DataInventoryItem.unnamed).Perm
        (items.map DataInventoryItem.unnamed) :=
  (inventory_lists_agree {} none true bookPlans bookPlans 1 1 2 1 (by decide +kernel)
    (by decide +kernel)).2.1

end Lists

end Restock
