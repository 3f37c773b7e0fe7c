/-
# The exported workbooks (`api/snapshot.py`, `services/excel_export.py`)

An export takes items of a draft, puts what the builders read of each into a dictionary,
and the builders write rows from the dictionaries. For items as a run stored them the
restock workbook adds up (`restockFaithful_of_engineItems`), and the procurement sheet says
what the items hold but for the stock at home: the dictionaries have no `local_stock`, and
the builder reads a missing one as none. So that sheet is right exactly for items whose
stock at home was none (`workbooks_faithful_iff`).

A sheet is its title, its header and its rows; the cells of a row are the fields of its
type in their order.
-/
import Restock.InputsSnapshot
import Restock.SuggestionCounts

namespace Restock

open PyText

/-! ### What the builders read -/

/-- An exported item. A field that is an option is a key that the dictionary may lack. -/
structure ExportItem where
  commoditySku : String
  commodityName : Option String
  mainImageUrl : Option String
  totalQty : ℤ
  countryBreakdown : Dict String ℤ
  warehouseBreakdown : Dict String (Dict String ℤ)
  restockDates : Dict String (Option String)
  purchaseQty : Option ℤ
  urgent : Bool
  velocitySnapshot : Dict String ℚ
  saleDaysSnapshot : Dict String ℚ
  calculationWarnings : List CalculationWarning
  localStock : Option (Dict String ℤ)

/-- What the sheets show of `global_config_snapshot`; `none` is a missing key. -/
structure ConfigSnapshot where
  bufferDays : Option ℤ
  targetDays : Option ℤ
  leadTimeDays : Option ℤ
  safetyStockDays : Option ℤ
  restockRegions : List String
  euCountries : List String

/-- `exportedAt` is the time as the meta sheet formats it. -/
structure SnapshotExportContext where
  suggestionId : ℕ
  snapshotType : SnapshotType
  version : ℕ
  exportedAt : String
  exportedByName : Option String
  note : Option String
  demandDate : Option String
  globalConfig : ConfigSnapshot
  items : List ExportItem

/-! ### Sheets -/

/-- A value of a cell that the exports write. -/
inductive CellValue
  | text (s : String)
  | number (n : ℤ)
deriving DecidableEq, Repr

/-- A sheet: its title, its header and its rows. -/
structure Sheet (Row : Type) where
  title : String
  header : List String
  rows : List Row

/-- A row of the procurement sheet. -/
structure ProcurementRow where
  sku : String
  commodityName : String
  imageUrl : String
  purchaseQty : ℤ
  velocitySum : ℚ
  localStock : ℤ
  safetyStockDays : CellValue
deriving DecidableEq, Repr

/-- A row of the sheet of SKUs. -/
structure SkuRow where
  sku : String
  commodityName : String
  totalQty : ℤ
  urgent : String
  warnings : String
deriving DecidableEq, Repr

/-- A row of the sheet of countries. -/
structure CountryRow where
  sku : String
  country : String
  qty : ℤ
  restockDate : String
  warnings : String
deriving DecidableEq, Repr

/-- A row of the sheet of warehouses. -/
structure WarehouseRow where
  sku : String
  country : String
  warehouseId : String
  qty : ℤ
  restockDate : String
  warnings : String
deriving DecidableEq, Repr

/-- `build_procurement_workbook` makes such a workbook. -/
structure ProcurementWorkbook where
  metaSheet : Sheet (String × CellValue)
  details : Sheet ProcurementRow

/-- `build_restock_workbook` makes such a workbook. -/
structure RestockWorkbook where
  metaSheet : Sheet (String × CellValue)
  skus : Sheet SkuRow
  countries : Sheet CountryRow
  warehouses : Sheet WarehouseRow

/-- The workbook of a snapshot. -/
inductive ExportWorkbook
  | procurement (workbook : ProcurementWorkbook)
  | restock (workbook : RestockWorkbook)

/-! ### The builders -/

/-- `config.get(key, "")`. -/
def cellOr (value : Option ℤ) : CellValue := value.elim (.text "") .number

/-- The text of a type in the database. -/
def snapshotTypeText : SnapshotType → String
  | .procurement => "procurement"
  | .restock => "restock"

/-- The code of a warning as it is stored. -/
def warningCodeText : WarningCode → String
  | .missingInventoryRecord => "missing_inventory_record"
  | .countryAddedAfterGeneration => "country_added_after_generation"
  | .missingVelocity => "missing_velocity"
  | .nonReportableCountry => "non_reportable_country"

/-- The first sheet of either workbook. -/
def buildMetaSheet (ctx : SnapshotExportContext) : Sheet (String × CellValue) where
  title := "主数据"
  header := []
  rows :=
    [("建议单 ID", .number ctx.suggestionId), ("快照类型", .text (snapshotTypeText ctx.snapshotType)),
      ("版本", .text s!"v{ctx.version}"), ("导出时间", .text ctx.exportedAt),
      ("导出人", .text ((ctx.exportedByName.bind nonEmpty).getD "系统")),
        ("备注", .text (ctx.note.getD "")),
      ("补货日期", .text (ctx.demandDate.getD "")), ("buffer_days", cellOr ctx.globalConfig.bufferDays),
      ("target_days", cellOr ctx.globalConfig.targetDays),
        ("lead_time_days", cellOr ctx.globalConfig.leadTimeDays),
      ("safety_stock_days", cellOr ctx.globalConfig.safetyStockDays),
      ("restock_regions", .text (", ".intercalate ctx.globalConfig.restockRegions)),
      ("eu_countries", .text (", ".intercalate ctx.globalConfig.euCountries))]

/-- The row of an item in the procurement workbook. -/
def procurementRow (ctx : SnapshotExportContext) (item : ExportItem) : ProcurementRow :=
  let localStock := item.localStock.getD .empty
  { sku := item.commoditySku
    commodityName := item.commodityName.getD ""
    imageUrl := item.mainImageUrl.getD ""
    purchaseQty := item.purchaseQty.getD 0
    velocitySum := item.velocitySnapshot.values.sum
    localStock := localStock.getD "available" 0 + localStock.getD "reserved" 0
    safetyStockDays := cellOr ctx.globalConfig.safetyStockDays }

/-- `build_procurement_workbook`. -/
def buildProcurementWorkbook (ctx : SnapshotExportContext) : ProcurementWorkbook where
  metaSheet := buildMetaSheet ctx
  details :=
    { title := "采购明细"
      header := ["SKU", "商品名", "图片 URL", "采购量", "各国动销合计", "本地库存可用+占用", "安全库存天数"]
      rows := ctx.items.map (procurementRow ctx) }

section Restock

variable (U : CharTable)

/-- One warning of `_format_warnings`. -/
def formatWarning (warning : CalculationWarning) : Option String :=
  let message := strip U ((nonEmpty warning.message).getD (warningCodeText warning.code))
  let country := strip U warning.country
  if message = "" then none
  else if country = "" then some message
  else some s!"{country}: {message}"

/-- The warnings of a country, or all of them. -/
def formatWarnings (warnings : List CalculationWarning) (country : Option String) : String :=
  "；".intercalate ((warnings.filter fun warning => country.all (warning.country = ·)).filterMap
    (formatWarning U))

/-- The row of an item in the sheet of SKUs. -/
def skuRow (item : ExportItem) : SkuRow where
  sku := item.commoditySku
  commodityName := item.commodityName.getD ""
  totalQty := item.totalQty
  urgent := if item.urgent then "是" else ""
  warnings := formatWarnings U item.calculationWarnings none

/-- The rows of an item in the sheet of countries. -/
def countryRows (restockDate : String) (item : ExportItem) : List CountryRow :=
  item.countryBreakdown.items.map fun entry =>
    ⟨item.commoditySku, entry.1, entry.2, restockDate,
      formatWarnings U item.calculationWarnings (some entry.1)⟩

/-- The rows of an item in the sheet of warehouses. -/
def warehouseRows (restockDate : String) (item : ExportItem) : List WarehouseRow :=
  item.warehouseBreakdown.items.flatMap fun entry => entry.2.items.map fun split =>
    ⟨item.commoditySku, entry.1, split.1, split.2, restockDate,
      formatWarnings U item.calculationWarnings (some entry.1)⟩

/-- `build_restock_workbook`. -/
def buildRestockWorkbook (ctx : SnapshotExportContext) : RestockWorkbook :=
  let restockDate := ctx.demandDate.getD ""
  { metaSheet := buildMetaSheet ctx
    skus := ⟨"SKU汇总", ["SKU", "商品名", "补货总量", "紧急", "计算诊断"], ctx.items.map (skuRow U)⟩
    countries := ⟨"SKU×国家", ["SKU", "国家", "补货量", "补货日期", "计算诊断"],
      ctx.items.flatMap (countryRows U restockDate)⟩
    warehouses := ⟨"SKU×国家×仓库", ["SKU", "国家", "仓库", "补货量", "补货日期", "计算诊断"],
      ctx.items.flatMap (warehouseRows U restockDate)⟩ }

/-! ### The export -/

/-- `SnapshotCreateRequest`. -/
structure SnapshotCreateRequest where
  itemIds : List ℕ
  note : Option String
  some_item : itemIds ≠ []

/-- What an export reads besides the suggestion: the name and the image of the listings in
the order of the query, the snapshots there are, who exports and when. -/
structure ExportSurroundings where
  products : List (String × Option String × Option String)
  snapshotVersions : List ℕ
  exportedAt : String
  exportedByName : Option String
  globalConfig : ConfigSnapshot

/-- The items that are asked for, by their ids. -/
def chosenItems (suggestion : Suggestion) (itemIds : List ℕ) : List (ℕ × SuggestionItem) :=
  (suggestion.items.items.filter fun entry => entry.1 ∈ itemIds).insertionSort fun a b => a.1 ≤ b.1

/-- What `_validate_restock_snapshot_items` finds in the splits of a country. -/
def exportSplitErrors (id : ℕ) (countryBreakdown : Dict String ℤ) (country : String)
    (warehouseMap : Dict String ℤ) : List String :=
  if country ∉ countryBreakdown.keys then [s!"{id}:{country} 仓库拆分缺少国家补货量"]
  else if warehouseMap.items = [] then []
  else
    let splitTotal := ((warehouseMap.items.filter fun entry => 0 < entry.2).map Prod.snd).sum
    (warehouseMap.items.filterMap fun entry =>
      if 0 < entry.2 then none
      else some (let warehouseId := entry.1; s!"{id}:{country}:{warehouseId} 仓库补货量必须为正整数")) ++
    if splitTotal ≠ countryBreakdown.getD country 0 then
      [s!"{id}:{country} 仓库拆分合计必须等于国家补货量"] else []

/-- What it finds in the quantity of a country. -/
def exportCountryError (id : ℕ) (country : String) (qty : ℤ) : Option String :=
  if !isReportableCountryCode U (.str country) then some s!"{id}:{country} 国家不可报表展示"
  else if qty ≤ 0 then some s!"{id}:{country} 补货量必须为正整数"
  else none

/-- What is wrong with an item to be exported. -/
def exportItemErrors (id : ℕ) (item : SuggestionItem) : List String :=
  let accepted := item.countryBreakdown.items.filter fun entry =>
    (exportCountryError U id entry.1 entry.2).isNone
  (item.countryBreakdown.items.filterMap fun entry => exportCountryError U id entry.1 entry.2) ++
    (if (accepted.map Prod.snd).sum ≤ 0 then [s!"{id}:补货快照仅允许补货量 > 0 的条目"] else []) ++
    item.warehouseBreakdown.items.flatMap fun entry =>
      exportSplitErrors id item.countryBreakdown entry.1 entry.2

/-- The check of the items: the detail of the error. -/
def checkItems (type : SnapshotType) (items : List (ℕ × SuggestionItem)) : Except String Unit :=
  match type with
  | .procurement =>
    let invalidItems := (items.filter fun entry => entry.2.purchaseQty ≤ 0).map Prod.fst
    if invalidItems = [] then .ok () else .error s!"采购快照仅允许 purchase_qty > 0 的条目：{invalidItems}"
  | .restock =>
    let errors := items.flatMap fun entry => exportItemErrors U entry.1 entry.2
    if errors = [] then .ok () else .error ("; ".intercalate errors)

/-- The text of a status in the database. -/
def suggestionStatusText : SuggestionStatus → String
  | .draft => "draft"
  | .archived => "archived"
  | .error => "error"

/-- The dictionary that `_create_snapshot` makes of an item; the first listing of a SKU
gives its name and its image. -/
def exportItem (products : List (String × Option String × Option String))
    (demandDate : Option String) (item : SuggestionItem) : ExportItem :=
  let product := (products.lookup item.commoditySku).getD (none, none)
  { commoditySku := item.commoditySku
    commodityName := product.1
    mainImageUrl := product.2
    totalQty := item.totalQty
    countryBreakdown := item.countryBreakdown
    warehouseBreakdown := item.warehouseBreakdown
    restockDates := demandRestockDates item.countryBreakdown demandDate
    purchaseQty := some item.purchaseQty
    urgent := item.urgent
    velocitySnapshot := item.velocitySnapshot
    saleDaysSnapshot := item.saleDaysSnapshot
    calculationWarnings := item.calculationWarnings
    localStock := none }

/-- What the workbook is built from. -/
def exportContext (surroundings : ExportSurroundings) (suggestionId : ℕ) (suggestion : Suggestion)
    (type : SnapshotType) (request : SnapshotCreateRequest) : SnapshotExportContext where
  suggestionId := suggestionId
  snapshotType := type
  version := surroundings.snapshotVersions.foldr max 0 + 1
  exportedAt := surroundings.exportedAt
  exportedByName := surroundings.exportedByName
  note := request.note
  demandDate := suggestion.snapshotDemandDate
  globalConfig := surroundings.globalConfig
  items := (chosenItems suggestion request.itemIds).map fun entry =>
    exportItem surroundings.products suggestion.snapshotDemandDate entry.2

/-- The workbook of the type. -/
def buildWorkbook (ctx : SnapshotExportContext) : ExportWorkbook :=
  match ctx.snapshotType with
  | .procurement => .procurement (buildProcurementWorkbook ctx)
  | .restock => .restock (buildRestockWorkbook U ctx)

/-- `_create_snapshot` up to the workbook, or the status code and the detail of its refusal. -/
def createSnapshot (suggestions : Dict ℕ Suggestion) (surroundings : ExportSurroundings)
    (suggestionId : ℕ) (type : SnapshotType) (request : SnapshotCreateRequest) :
    Except (ℕ × String) ExportWorkbook :=
  match suggestions.get? suggestionId with
  | none => .error (404, "建议单不存在")
  | some suggestion =>
    if suggestion.status ≠ .draft then
      let status := suggestionStatusText suggestion.status
      .error (409, s!"建议单状态 {status}，不可导出")
    else if (chosenItems suggestion request.itemIds).length ≠ request.itemIds.length then
      .error (422, "存在不属于当前建议单的条目")
    else match checkItems U type (chosenItems suggestion request.itemIds) with
      | .error detail => .error (422, detail)
      | .ok () =>
        .ok (buildWorkbook U (exportContext surroundings suggestionId suggestion type request))

end Restock

/-! ### What the sheets should say -/

/-- A row of the procurement sheet says what the item and its stored inputs say. -/
structure RowSays (stored : Dict ℕ CalculationInputs) (entry : ℕ × SuggestionItem)
    (row : ProcurementRow) : Prop where
  sku : row.sku = entry.2.commoditySku
  purchase : row.purchaseQty = entry.2.purchaseQty
  velocity : row.velocitySum = entry.2.velocitySnapshot.values.sum
  localStock : ∃ inputs, stored.get? entry.1 = some inputs ∧
    row.localStock = inputs.purchase.localStockTotal

/-- The total of a SKU is the sum of its country rows; the warehouse rows of a SKU and a
country, where it has any, add up to its one country row. -/
structure RestockFaithful (workbook : RestockWorkbook) : Prop where
  totals : ∀ row ∈ workbook.skus.rows,
    row.totalQty = ((workbook.countries.rows.filter fun r => r.sku = row.sku).map
      CountryRow.qty).sum
  splits : ∀ sku country,
    (workbook.warehouses.rows.filter fun r => r.sku = sku ∧ r.country = country) ≠ [] →
      ∃ row, (workbook.countries.rows.filter fun r => r.sku = sku ∧ r.country = country) = [row] ∧
      row.qty = ((workbook.warehouses.rows.filter fun r => r.sku = sku ∧ r.country = country).map
      WarehouseRow.qty).sum

/-- **The workbook says what the engine computed**: the procurement sheet has a row for
every chosen item in order, the restock sheets add up. -/
def Faithful (stored : Dict ℕ CalculationInputs) (chosen : List (ℕ × SuggestionItem)) :
    ExportWorkbook → Prop
  | .procurement workbook => List.Forall₂ (RowSays stored) chosen workbook.details.rows
  | .restock workbook => RestockFaithful workbook

/-! ### The restock sheets -/

section Sums

/-- Of rows made for different keys those of one key are the rows made for it. -/
theorem filter_flatMap_key {A R K : Type} [DecidableEq K] (key : R → K) (keyOf : A → K)
    {rows : A → List R} (hkey : ∀ a, ∀ r ∈ rows a, key r = keyOf a) :
    ∀ {l : List A}, (l.map keyOf).Nodup → ∀ {a : A}, a ∈ l →
    (l.flatMap rows).filter (fun r => key r = keyOf a) = rows a
  | b :: l, hnd, a, ha => by
    rw [List.map_cons, List.nodup_cons] at hnd
    rw [List.flatMap_cons, List.filter_append]
    have hrest : ∀ {c : A}, c ∉ l → keyOf c ∉ l.map keyOf →
        (l.flatMap rows).filter (fun r => key r = keyOf c) = [] := by
      intro c _ hc
      refine List.filter_eq_nil_iff.mpr fun r hr => ?_
      obtain ⟨d, hd, hrd⟩ := List.mem_flatMap.mp hr
      rw [hkey d r hrd, decide_eq_true_eq]
      exact fun he => hc (he ▸ List.mem_map_of_mem hd)
    by_cases hab : a = b
    · subst hab
      have hself : (rows a).filter (fun r => key r = keyOf a) = rows a :=
        List.filter_eq_self.mpr fun r hr => decide_eq_true (hkey a r hr)
      rw [hself, hrest (fun h => hnd.1 (List.mem_map_of_mem h)) hnd.1, List.append_nil]
    · have hal : a ∈ l := (List.mem_cons.mp ha).resolve_left hab
      have hother : (rows b).filter (fun r => key r = keyOf a) = [] := by
        refine List.filter_eq_nil_iff.mpr fun r hr => ?_
        rw [hkey b r hr, decide_eq_true_eq]
        exact fun he => hnd.1 (he ▸ List.mem_map_of_mem hal)
      rw [hother, List.nil_append]
      exact filter_flatMap_key key keyOf hkey hnd.2 hal

/-- An exported item whose parts add up. -/
structure AddsUp (item : ExportItem) : Prop where
  total : item.totalQty = item.countryBreakdown.values.sum
  splits : ∀ country warehouseMap, item.warehouseBreakdown.get? country = some warehouseMap →
    warehouseMap.items ≠ [] → item.countryBreakdown.get? country = some warehouseMap.values.sum

variable (U : CharTable) (restockDate : String) {items : List ExportItem}

theorem countryRows_of_sku (hnd : (items.map ExportItem.commoditySku).Nodup) {item : ExportItem}
    (hitem : item ∈ items) :
    (items.flatMap (countryRows U restockDate)).filter (fun r => r.sku = item.commoditySku) =
    countryRows U restockDate item := by
  refine filter_flatMap_key CountryRow.sku ExportItem.commoditySku (fun a r hr => ?_) hnd hitem
  obtain ⟨entry, -, rfl⟩ := List.mem_map.mp hr
  rfl

theorem warehouseRows_of_sku (hnd : (items.map ExportItem.commoditySku).Nodup) {item : ExportItem}
    (hitem : item ∈ items) :
    (items.flatMap (warehouseRows U restockDate)).filter (fun r => r.sku = item.commoditySku) =
      warehouseRows U restockDate item := by
  refine filter_flatMap_key WarehouseRow.sku ExportItem.commoditySku (fun a r hr => ?_) hnd hitem
  obtain ⟨entry, -, hr⟩ := List.mem_flatMap.mp hr
  obtain ⟨split, -, rfl⟩ := List.mem_map.mp hr
  rfl

/-- The country rows of an item in a country: one or none. -/
theorem countryRows_of_country {item : ExportItem} {country : String} {qty : ℤ}
    (h : item.countryBreakdown.get? country = some qty) : ∃ row,
      (countryRows U restockDate item).filter (fun r => r.country = country) = [row] ∧
      row.qty = qty := by
  have hnd : (item.countryBreakdown.items.map Prod.fst).Nodup := item.countryBreakdown.nodup
  have hmem : (country, qty) ∈ item.countryBreakdown.items := Dict.get?_eq_some_iff.mp h
  refine ⟨⟨item.commoditySku, country, qty, restockDate,
    formatWarnings U item.calculationWarnings (some country)⟩, ?_, rfl⟩
  rw [countryRows, List.map_eq_flatMap]
  refine filter_flatMap_key CountryRow.country Prod.fst (fun entry r hr => ?_) hnd hmem
  rw [List.mem_singleton.mp hr]

/-- The warehouse rows of an item in a country are its split there. -/
theorem warehouseRows_of_country {item : ExportItem} {country : String}
    (h : (warehouseRows U restockDate item).filter (fun r => r.country = country) ≠ []) :
    ∃ warehouseMap, item.warehouseBreakdown.get? country = some warehouseMap ∧
      warehouseMap.items ≠ [] ∧
      ((warehouseRows U restockDate item).filter fun r => r.country = country).map
      WarehouseRow.qty = warehouseMap.values := by
  have hkey : ∀ (entry : String × Dict String ℤ),
      ∀ r ∈ entry.2.items.map (fun split =>
      (⟨item.commoditySku, entry.1, split.1, split.2, restockDate,
      formatWarnings U item.calculationWarnings (some entry.1)⟩ : WarehouseRow)),
      r.country = entry.1 := by
    intro entry r hr
    obtain ⟨split, -, rfl⟩ := List.mem_map.mp hr
    rfl
  obtain ⟨r, hr⟩ := List.exists_mem_of_ne_nil _ h
  obtain ⟨hrow, hcountry⟩ := List.mem_filter.mp hr
  obtain ⟨entry, hentry, hsplit⟩ := List.mem_flatMap.mp hrow
  have hc : entry.1 = country := (hkey entry r hsplit).symm.trans (of_decide_eq_true hcountry)
  have hrows := filter_flatMap_key WarehouseRow.country Prod.fst hkey
    item.warehouseBreakdown.nodup hentry
  rw [← hc]
  refine ⟨entry.2, Dict.get?_eq_some_iff.mpr hentry, ?_, ?_⟩
  · intro hnil
    rw [hnil] at hsplit
    simp at hsplit
  · rw [warehouseRows, hrows, List.map_map]
    rfl

/-- **The restock workbook adds up** if its items do and no SKU has two of them. -/
theorem restockFaithful_of_addsUp {ctx : SnapshotExportContext}
    (hnd : (ctx.items.map ExportItem.commoditySku).Nodup)
    (hitems : ∀ item ∈ ctx.items, AddsUp item) : RestockFaithful (buildRestockWorkbook U ctx) := by
  have hboth : ∀ {R : Type} (skuOf countryOf : R → String) (rows : List R) (sku country : String),
      rows.filter (fun r => skuOf r = sku ∧ countryOf r = country) =
        (rows.filter fun r => skuOf r = sku).filter fun r => countryOf r = country := by
    intro R skuOf countryOf rows sku country
    rw [List.filter_filter]
    refine List.filter_congr fun r _ => ?_
    simp [Bool.and_comm]
  refine ⟨fun row hrow => ?_, fun sku country hne => ?_⟩
  · obtain ⟨item, hitem, rfl⟩ := List.mem_map.mp hrow
    have hrows := countryRows_of_sku U (ctx.demandDate.getD "") hnd hitem
    show item.totalQty = (((ctx.items.flatMap (countryRows U (ctx.demandDate.getD ""))).filter
      fun r => r.sku = item.commoditySku).map CountryRow.qty).sum
    rw [hrows, (hitems item hitem).total, countryRows, List.map_map]
    rfl
  · show ∃ row, (ctx.items.flatMap (countryRows U (ctx.demandDate.getD ""))).filter
      (fun r => r.sku = sku ∧ r.country = country)
      = [row] ∧ row.qty = (((ctx.items.flatMap (warehouseRows U (ctx.demandDate.getD ""))).filter
        fun r => r.sku = sku ∧ r.country = country).map WarehouseRow.qty).sum
    have hne' : (ctx.items.flatMap (warehouseRows U (ctx.demandDate.getD ""))).filter
      (fun r => r.sku = sku ∧ r.country = country) ≠ [] := hne
    rw [hboth CountryRow.sku CountryRow.country, hboth WarehouseRow.sku WarehouseRow.country]
    rw [hboth WarehouseRow.sku WarehouseRow.country] at hne'
    obtain ⟨r, hr⟩ := List.exists_mem_of_ne_nil _ hne'
    obtain ⟨hsku, -⟩ := List.mem_filter.mp hr
    obtain ⟨hrow, hsku⟩ := List.mem_filter.mp hsku
    obtain ⟨item, hitem, hrow⟩ := List.mem_flatMap.mp hrow
    obtain ⟨entry, -, hrow⟩ := List.mem_flatMap.mp hrow
    obtain ⟨split, -, rfl⟩ := List.mem_map.mp hrow
    obtain rfl : item.commoditySku = sku := of_decide_eq_true hsku
    rw [warehouseRows_of_sku U _ hnd hitem] at hne' ⊢
    rw [countryRows_of_sku U _ hnd hitem]
    obtain ⟨warehouseMap, hget, hsome, hqty⟩ := warehouseRows_of_country U _ hne'
    obtain ⟨row, hone, hrowQty⟩ := countryRows_of_country U (ctx.demandDate.getD "")
      ((hitems item hitem).splits country _ hget hsome)
    exact ⟨row, hone, by rw [hrowQty, hqty]⟩

end Sums

/-! ### Items that a run has stored -/

section Stored

theorem mem_chosenItems {suggestion : Suggestion} {itemIds : List ℕ} {entry : ℕ × SuggestionItem} :
    entry ∈ chosenItems suggestion itemIds ↔ suggestion.items.get? entry.1 = some entry.2 ∧
    entry.1 ∈ itemIds := by
  rw [chosenItems, List.mem_insertionSort, List.mem_filter, decide_eq_true_eq,
    Dict.get?_eq_some_iff]

theorem chosenItems_nodup (suggestion : Suggestion) (itemIds : List ℕ) :
    (chosenItems suggestion itemIds).Nodup := by
  have hitems : suggestion.items.items.Nodup := List.Nodup.of_map _ suggestion.items.nodup
  exact (List.perm_insertionSort _ _).nodup_iff.mpr (hitems.filter _)

theorem enabledSkus_nodup (env : EngineEnv) : (enabledSkus env).Nodup :=
  (List.perm_insertionSort _ _).nodup_iff.mpr (Dict.nodup _)

variable {U : CharTable} {env : EngineEnv} {generatedAt : String} {db db' : SuggestionDb}
    {s : Suggestion}

/-- No two rows of a run have the same SKU. -/
theorem engineRows_skus_nodup (leadTimeDays : ℤ) :
    ((engineRows U env generatedAt leadTimeDays).map fun row => row.1.commoditySku).Nodup := by
  rw [engineRows, List.map_filterMap]
  refine (enabledSkus_nodup env).filterMap fun a a' sku ha ha' => ?_
  have hsku : ∀ b, ((engineItem U env leadTimeDays b).map
      fun item => (item, engineInputs U env generatedAt b)).map
      (fun row => row.1.commoditySku) = some sku → b = sku := by
    intro b hb
    rw [Option.map_map] at hb
    obtain ⟨item, hitem, he⟩ := Option.map_eq_some_iff.mp hb
    exact (fields_of_engineItem hitem).commoditySku.symm.trans he
  exact (hsku a ha).trans (hsku a' ha').symm

/-- Items of one SKU are one item. -/
theorem Persisted.sku_inj (h : Persisted U env db db' s) {i j : ℕ} {a b : SuggestionItem}
    (hi : s.items.get? i = some a) (hj : s.items.get? j = some b)
    (hab : a.commoditySku = b.commoditySku) : i = j := by
  obtain ⟨leadTimeDays, -, hitems⟩ := h.items_eq ""
  rw [hitems, get?_numberRows, List.getElem?_map, Option.map_eq_some_iff] at hi hj
  obtain ⟨hile, row, hrow, rfl⟩ := hi
  obtain ⟨hjle, row', hrow', rfl⟩ := hj
  have hnd := @engineRows_skus_nodup U env "" leadTimeDays
  have hget : ∀ {k : ℕ} {r : SuggestionItem × CalculationInputs},
      (engineRows U env "" leadTimeDays)[k]? = some r →
      ((engineRows U env "" leadTimeDays).map fun row => row.1.commoditySku)[k]? =
      some r.1.commoditySku := by
    intro k r hr
    rw [List.getElem?_map, hr, Option.map_some]
  have hlt : i - db.nextItemId <
      ((engineRows U env "" leadTimeDays).map fun row => row.1.commoditySku).length := by
    rw [List.length_map]
    exact (List.getElem?_eq_some_iff.mp hrow).1
  have hsame : i - db.nextItemId = j - db.nextItemId :=
    (List.getElem?_inj hlt hnd).mp ((hget hrow).trans (by rw [hget hrow', hab]))
  omega

end Stored

/-! ### The export of such items -/

section Export

variable {U : CharTable} {env : EngineEnv} {db db' : SuggestionDb} {s suggestion : Suggestion}
  {suggestions : Dict ℕ Suggestion} {surroundings : ExportSurroundings} {suggestionId : ℕ}
  {type : SnapshotType}
  {request : SnapshotCreateRequest} {workbook : ExportWorkbook}

/-- An export that is accepted builds the workbook of its context. -/
theorem createSnapshot_ok (hs : suggestions.get? suggestionId = some suggestion)
    (h : createSnapshot U suggestions surroundings suggestionId type request = .ok workbook) :
    workbook = buildWorkbook U
    (exportContext surroundings suggestionId suggestion type request) := by
  unfold createSnapshot at h
  rw [hs] at h
  simp only at h
  split_ifs at h
  cases hcheck : checkItems U type (chosenItems suggestion request.itemIds) with
  | error detail =>
    rw [hcheck] at h
    cases h
  | ok u =>
    rw [hcheck] at h
    exact (Except.ok.inj h).symm

/-- The row of an item says what the item says exactly if its stock at home was none. -/
theorem rowSays_iff {stored : Dict ℕ CalculationInputs} {entry : ℕ × SuggestionItem}
    {inputs : CalculationInputs} (h : stored.get? entry.1 = some inputs)
    (ctx : SnapshotExportContext) (products : List (String × Option String × Option String))
    (demandDate : Option String) :
    RowSays stored entry (procurementRow ctx (exportItem products demandDate entry.2)) ↔
      inputs.purchase.localStockTotal = 0 := by
  constructor
  · intro hsays
    obtain ⟨inputs', hget, hlocal⟩ := hsays.localStock
    rw [Option.some.inj (h.symm.trans hget)]
    exact hlocal.symm
  · intro hzero
    exact ⟨rfl, rfl, rfl, inputs, h, hzero.symm⟩

/-- The procurement sheet is right exactly if no item had stock at home. -/
theorem procurementRows_iff (hp : Persisted U env db db' s) (generatedAt : String)
    (hitem : ∀ entry ∈ chosenItems suggestion request.itemIds,
      s.items.get? entry.1 = some entry.2) :
    Faithful (storedInputs U env generatedAt db) (chosenItems suggestion request.itemIds)
        (buildWorkbook U (exportContext surroundings suggestionId suggestion
          .procurement request)) ↔
      ∀ entry ∈ chosenItems suggestion request.itemIds, ∀ inputs,
        (storedInputs U env generatedAt db).get? entry.1 = some inputs →
        inputs.purchase.localStockTotal = 0 := by
  show List.Forall₂ _ _ (((chosenItems suggestion request.itemIds).map fun entry =>
    exportItem surroundings.products suggestion.snapshotDemandDate entry.2).map
      (procurementRow _)) ↔ _
  rw [List.map_map, List.forall₂_map_right_iff, List.forall₂_same]
  refine forall₂_congr fun entry hentry => ?_
  obtain ⟨_, sku, -, hstored⟩ := hp.stored_row generatedAt (hitem entry hentry)
  rw [Function.comp_apply, rowSays_iff hstored]
  constructor
  · intro hzero inputs' hget
    rw [Option.some.inj (hget.symm.trans hstored)]
    exact hzero
  · intro hall
    exact hall _ hstored

/-- The parts of an item of a run add up. -/
theorem addsUp_exportItem {leadTimeDays : ℤ} {sku : String} {item : SuggestionItem}
    (h : engineItem U env leadTimeDays sku = some item)
    (products : List (String × Option String × Option String)) (demandDate : Option String) :
    AddsUp (exportItem products demandDate item) := by
  have hengine := engineItem_spec h
  refine ⟨hengine.total, fun country warehouseMap hget hsome => ?_⟩
  obtain ⟨hcountry, -⟩ := hengine.warehouses country warehouseMap hget
  obtain ⟨qty, hqty⟩ := Option.isSome_iff_exists.mp hcountry
  show item.countryBreakdown.get? country = _
  rw [hqty, hengine.splits country qty hqty
    (hengine.countries country qty hqty).2 warehouseMap hget hsome]

/-- The restock workbook of items as a run stored them adds up. -/
theorem restockFaithful_of_engineItems (hp : Persisted U env db db' s)
    (hitem : ∀ entry ∈ chosenItems suggestion request.itemIds,
      s.items.get? entry.1 = some entry.2) :
    RestockFaithful (buildRestockWorkbook U
      (exportContext surroundings suggestionId suggestion .restock request)) := by
  refine restockFaithful_of_addsUp U ?_ fun item hmem => ?_
  · show (((chosenItems suggestion request.itemIds).map
      fun entry => exportItem surroundings.products
      suggestion.snapshotDemandDate entry.2).map ExportItem.commoditySku).Nodup
    rw [List.map_map]
    refine (chosenItems_nodup suggestion request.itemIds).map_on fun a ha b hb hab => ?_
    have hid : a.1 = b.1 := hp.sku_inj (hitem a ha) (hitem b hb) hab
    have hsame : some a.2 = some b.2 := (hitem a ha).symm.trans (hid ▸ hitem b hb)
    exact Prod.ext hid (Option.some.inj hsame)
  · obtain ⟨entry, hentry, rfl⟩ := List.mem_map.mp hmem
    obtain ⟨_, sku, hsku, -⟩ := hp.stored_row "" (hitem entry hentry)
    exact addsUp_exportItem hsku _ _

/-- **The exported workbooks say what the engine computed exactly if**, for an export of the
procurement, no chosen item had stock at home. -/
theorem workbooks_faithful_iff (U : CharTable) (env : EngineEnv) (generatedAt : String)
    (hp : Persisted U env db db' s) (hs : suggestions.get? suggestionId = some suggestion)
    (hunedited : ∀ id ∈ request.itemIds, suggestion.items.get? id = s.items.get? id)
    (hcreate : createSnapshot U suggestions surroundings suggestionId type request = .ok workbook) :
    Faithful (storedInputs U env generatedAt db) (chosenItems suggestion request.itemIds) workbook ↔
      (type = .procurement → ∀ entry ∈ chosenItems suggestion request.itemIds, ∀ inputs,
        (storedInputs U env generatedAt db).get? entry.1 = some inputs →
        inputs.purchase.localStockTotal = 0) := by
  rw [createSnapshot_ok hs hcreate]
  have hitem : ∀ entry ∈ chosenItems suggestion request.itemIds,
      s.items.get? entry.1 = some entry.2 := by
    intro entry hentry
    obtain ⟨hget, hid⟩ := mem_chosenItems.mp hentry
    rw [← hunedited entry.1 hid]
    exact hget
  cases type with
  | procurement =>
    rw [forall_prop_of_true rfl]
    exact procurementRows_iff hp generatedAt hitem
  | restock =>
    exact iff_of_true (restockFaithful_of_engineItems hp hitem) (fun htype => by cases htype)

/-- A stored item that is to be bought can be exported on its own. -/
theorem createSnapshot_single (hp : Persisted U env db db' s) {itemId : ℕ} {item : SuggestionItem}
    (hi : s.items.get? itemId = some item) (hpos : 0 < item.purchaseQty)
    (hids : request.itemIds = [itemId]) :
    chosenItems s request.itemIds = [(itemId, item)] ∧
      createSnapshot U db'.suggestions surroundings db.nextSuggestionId .procurement request =
        .ok (buildWorkbook U (exportContext surroundings db.nextSuggestionId s .procurement
          request)) := by
  have hchosen : chosenItems s request.itemIds = [(itemId, item)] := by
    refine List.perm_singleton.mp
      ((List.perm_ext_iff_of_nodup (chosenItems_nodup _ _) (List.nodup_singleton _)).mpr ?_)
    intro entry
    rw [mem_chosenItems, hids, List.mem_singleton, List.mem_singleton]
    constructor
    · intro h
      refine Prod.ext h.2 (Option.some.inj (h.1.symm.trans ?_))
      rw [h.2]
      exact hi
    · intro h
      rw [h]
      exact ⟨hi, rfl⟩
  obtain ⟨items, -, -, -, hs⟩ := persisted_iff.mp hp
  have hdraft : s.status = .draft := by rw [hs]; rfl
  refine ⟨hchosen, ?_⟩
  unfold createSnapshot
  rw [hp.stored]
  simp only
  rw [if_neg (not_not.mpr hdraft), if_neg (by rw [hchosen, hids]; exact not_not.mpr rfl), hchosen]
  have hcheck : checkItems U .procurement [(itemId, item)] = .ok () := by
    simp [checkItems, hpos]
  rw [hcheck]

end Export

/-! ### Stock at home -/

/-- Nobody is named, and no listing is known. -/
def plainSurroundings : ExportSurroundings where
  products := []
  snapshotVersions := []
  exportedAt := "2026-04-20 08:00:00"
  exportedByName := none
  globalConfig := ⟨some 0, some 30, some 10, some 15, [], []⟩

def onlyItem (itemId : ℕ) : SnapshotCreateRequest := ⟨[itemId], none, List.cons_ne_nil _ _⟩

theorem workbooks_faithful_iff_us :
    ∃ db' s itemId workbook, Persisted .ascii (usEnv none 10) ⟨.empty, 1, 1⟩ db' s ∧
    createSnapshot .ascii db'.suggestions plainSurroundings 1 .procurement (onlyItem itemId) =
      .ok workbook ∧ (Faithful (storedInputs .ascii (usEnv none 10) "" ⟨.empty, 1, 1⟩)
        (chosenItems s [itemId]) workbook ↔
          (SnapshotType.procurement = .procurement →
          ∀ entry ∈ chosenItems s [itemId], ∀ inputs,
          (storedInputs .ascii (usEnv none 10) "" ⟨.empty, 1, 1⟩).get? entry.1 = some inputs →
          inputs.purchase.localStockTotal = 0)) := by
  have hsku : "A" ∈ enabledSkus (usEnv none 10) := by decide +kernel
  have hpos : 0 < enginePurchaseQty .ascii (usEnv none 10) "A" := by decide +kernel
  obtain ⟨db', s, itemId, item, hp, hi, hitem⟩ :=
    exists_stored_item (runReturns_usEnv none 10) hsku needed_usEnv ⟨.empty, 1, 1⟩
  have hbuy : 0 < item.purchaseQty := by rw [(fields_of_engineItem hitem).purchase]; exact hpos
  obtain ⟨-, hcreate⟩ :=
    @createSnapshot_single _ _ _ _ _ plainSurroundings (onlyItem itemId) hp itemId item hi hbuy rfl
  exact ⟨db', s, itemId, _, hp, hcreate,
    workbooks_faithful_iff .ascii (usEnv none 10) "" hp hp.stored (fun _ _ => rfl) hcreate⟩

/-- `A` has five units at home as well. -/
def homeEnv : EngineEnv := { usEnv none 10 with localStock := .set .empty "A" ⟨5, 0⟩ }

theorem homeEnv_returns : RunReturns .ascii homeEnv 10 :=
  ⟨rfl, rfl, (runReturns_usEnv none 10).codes⟩

/-- The sheet has no stock at home for an item that was computed with five units. -/
theorem homeStock_not_exported :
    ∃ db' s itemId workbook, Persisted .ascii homeEnv ⟨.empty, 1, 1⟩ db' s ∧
    createSnapshot .ascii db'.suggestions plainSurroundings 1 .procurement (onlyItem itemId) =
    .ok workbook ∧ ¬ Faithful (storedInputs .ascii homeEnv "" ⟨.empty, 1, 1⟩)
    (chosenItems s [itemId]) workbook := by
  have hsku : "A" ∈ enabledSkus homeEnv := by decide +kernel
  have hpos : 0 < enginePurchaseQty .ascii homeEnv "A" := by decide +kernel
  obtain ⟨db', s, itemId, item, hp, hi, hitem⟩ :=
    exists_stored_item homeEnv_returns hsku (Or.inl hpos) ⟨.empty, 1, 1⟩
  have hf := fields_of_engineItem hitem
  have hbuy : 0 < item.purchaseQty := by rw [hf.purchase]; exact hpos
  obtain ⟨hchosen, hcreate⟩ :=
    @createSnapshot_single _ _ _ _ _ plainSurroundings (onlyItem itemId) hp itemId item hi hbuy rfl
  refine ⟨db', s, itemId, _, hp, hcreate, fun hfaithful => ?_⟩
  have hrows : List.Forall₂ (RowSays (storedInputs .ascii homeEnv "" ⟨.empty, 1, 1⟩))
      (chosenItems s [itemId])
      (((chosenItems s [itemId]).map fun entry => exportItem [] s.snapshotDemandDate entry.2).map
          (procurementRow _)) :=
    hfaithful
  have hchosen' : chosenItems s [itemId] = [(itemId, item)] := hchosen
  rw [hchosen', List.map_cons, List.map_cons, List.forall₂_cons] at hrows
  obtain ⟨inputs, hget, hlocal⟩ := hrows.1.localStock
  obtain ⟨_, sku, hsku', hinputs⟩ := hp.stored_row "" hi
  obtain rfl : sku = "A" := (fields_of_engineItem hsku').commoditySku.symm.trans hf.commoditySku
  rw [Option.some.inj (hget.symm.trans hinputs)] at hlocal
  have hfive : (engineInputs .ascii homeEnv "" "A").purchase.localStockTotal =
    5 := by decide +kernel
  rw [hfive] at hlocal
  have hzero : (0 : ℤ) = 5 := hlocal
  omega

end Restock
