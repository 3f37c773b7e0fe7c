/-
# The third-party inventory by warehouses (`api/data.py`)

The third-party inventory is listed in groups of a warehouse each, and a group is marked
as participating if the warehouse has a country. Countries are checked when they are set, so
whatever requests were served, the marked groups are those whose stock the engine counts, and
what it counts for a SKU in a country is the sum over the items that are shown for them
(`participating_counted`).
-/
import Restock.InventoryHistory
import Restock.InventoryLists

namespace Restock

open Listing PyText Query Transaction

/-! ### The list -/

/-- A row of the inventory with its warehouse. -/
structure ThirdPartyLine where
  id : ℕ
  row : CurrentRow
  warehouse : ThirdPartyWarehouse
deriving DecidableEq

/-- What a request filters by. -/
structure ThirdPartyFilter where
  warehouseKeyword : Option String := none
  sku : Option String := none
  country : Option String := none
  onlyMissingCountry : Bool := false
  onlyParticipating : Option Bool := none
  onlyNonzero : Bool := false

/-- What tells the groups apart. -/
structure ThirdPartyHead where
  id : ℕ
  name : String
  country : Option String
deriving DecidableEq, Repr

/-- An entry of a group. -/
structure ThirdPartyInventoryItemOut where
  id : ℕ
  warehouseId : ℕ
  warehouseName : String
  country : Option String
  participates : Bool
  commoditySku : String
  available : ℤ
  reserved : ℤ
  sourceBatchId : Option ℕ
  lastOperation : LastOperation
deriving DecidableEq, Repr

/-- The stock of a third-party warehouse. -/
structure ThirdPartyInventoryWarehouseGroup where
  warehouseId : ℕ
  warehouseName : String
  country : Option String
  participates : Bool
  skuCount : ℕ
  totalAvailable : ℤ
  totalReserved : ℤ
  items : List ThirdPartyInventoryItemOut
deriving DecidableEq, Repr

/-- The answer to a request. -/
structure ThirdPartyInventoryWarehouseGroupListOut where
  items : List ThirdPartyInventoryWarehouseGroup
  total : ℕ
  page : ℕ
  pageSize : ℕ

/-- The current rows with their warehouses. -/
def InventoryTables.lines (t : InventoryTables) : List ThirdPartyLine :=
  t.current.rows.items.filterMap fun entry =>
    (t.warehouses.get? entry.2.warehouseId).map (ThirdPartyLine.mk entry.1 entry.2)

section Request

variable (U : CharTable) (S : Sorting) (t : InventoryTables)

/-- `_apply_third_party_inventory_filters`. -/
def ThirdPartyFilter.selects (filter : ThirdPartyFilter) (line : ThirdPartyLine) : Bool :=
  ((filter.warehouseKeyword.bind nonEmpty).all fun keyword => ilikeKeyword S.fold
    (some line.warehouse.name) keyword) &&
  ((filter.sku.bind nonEmpty).all fun sku => ilikeKeyword S.fold
    (some line.row.commoditySku) sku) &&
  ((filter.country.bind nonEmpty).all fun country => line.warehouse.country =
    some (upper U country)) &&
  (!filter.onlyMissingCountry || line.warehouse.country.isNone) &&
  (filter.onlyParticipating.all fun participating =>
    if participating then line.warehouse.country.isSome else line.warehouse.country.isNone) &&
  (!filter.onlyNonzero || decide (0 < line.row.available) || decide (0 < line.row.reserved))

/-- The grouping by warehouse, with its two sums. -/
def byThirdPartyWarehouse : Grouping ThirdPartyLine ℕ ThirdPartyHead (ℤ × ℤ) where
  key line := line.row.warehouseId
  head line := ⟨line.row.warehouseId, line.warehouse.name, line.warehouse.country⟩
  headKey head := head.id
  headKey_head _ := rfl
  amount line := (line.row.available, line.row.reserved)

/-- `ThirdPartyWarehouse.name.asc(), ThirdPartyInventoryCurrent.warehouse_id.asc()`. -/
def thirdPartyColumns : List (Column (ThirdPartyHead × ℕ × ℤ × ℤ)) :=
  [S.text fun entry => entry.1.name, .asc fun entry => entry.1.id]

/-- The order of the rows of the groups. -/
def thirdPartyItemColumns : List (Column ThirdPartyLine) :=
  [S.text fun line => line.warehouse.name, S.text fun line => line.row.commoditySku]

/-- The entry of a row. -/
def thirdPartyInventoryItemOut (line : ThirdPartyLine) : ThirdPartyInventoryItemOut where
  id := line.id
  warehouseId := line.row.warehouseId
  warehouseName := line.warehouse.name
  country := line.warehouse.country
  participates := line.warehouse.country.isSome
  commoditySku := line.row.commoditySku
  available := line.row.available
  reserved := line.row.reserved
  sourceBatchId := line.row.sourceBatchId
  lastOperation := line.row.lastOperation

/-- The group of the answer. -/
def thirdPartyGroupOut (group : Group ThirdPartyLine ThirdPartyHead (ℤ × ℤ)) :
    ThirdPartyInventoryWarehouseGroup where
  warehouseId := group.head.id
  warehouseName := group.head.name
  country := group.head.country
  participates := group.head.country.isSome
  skuCount := group.count
  totalAvailable := group.total.1
  totalReserved := group.total.2
  items := group.items.map thirdPartyInventoryItemOut

def listThirdPartyInventoryWarehouseGroups (plan : Plan) (filter : ThirdPartyFilter)
    (page pageSize : ℕ) : ThirdPartyInventoryWarehouseGroupListOut :=
  let base := t.lines.filter (filter.selects U S)
  let groupRows := pageEntries byThirdPartyWarehouse plan (thirdPartyColumns S) base page pageSize
  let itemRows := loadedRows byThirdPartyWarehouse plan (thirdPartyItemColumns S) base groupRows
  { items := (fillGroups byThirdPartyWarehouse groupRows itemRows).map thirdPartyGroupOut
    total := (Listing.groupRows byThirdPartyWarehouse base).length
    page := page
    pageSize := pageSize }

end Request

/-! ### The pages -/

section Pages

variable {U : CharTable} {S : Sorting} {t : InventoryTables} {filter : ThirdPartyFilter}

theorem mem_lines {line : ThirdPartyLine} : line ∈ t.lines ↔
    t.current.get? line.id = some line.row ∧
    t.warehouses.get? line.row.warehouseId = some line.warehouse := by
  unfold InventoryTables.lines
  rw [List.mem_filterMap]
  constructor
  · intro h
    obtain ⟨entry, hentry, hsome⟩ := h
    obtain ⟨warehouse, hget, rfl⟩ := Option.map_eq_some_iff.mp hsome
    exact ⟨UniqueTable.mem_items_iff.mp hentry, hget⟩
  · intro h
    exact ⟨(line.id, line.row), UniqueTable.mem_items_iff.mpr h.1, by rw [h.2]; rfl⟩

theorem thirdParty_head_of_key :
    ∀ a ∈ t.lines.filter (filter.selects U S), ∀ b ∈ t.lines.filter (filter.selects U S),
      byThirdPartyWarehouse.key a = byThirdPartyWarehouse.key b →
      byThirdPartyWarehouse.head a = byThirdPartyWarehouse.head b := by
  intro a ha b hb hkey
  have hid : a.row.warehouseId = b.row.warehouseId := hkey
  have hgeta := (mem_lines.mp (List.mem_filter.mp ha).1).2
  have hgetb := (mem_lines.mp (List.mem_filter.mp hb).1).2
  rw [hid, hgetb] at hgeta
  show ThirdPartyHead.mk a.row.warehouseId a.warehouse.name a.warehouse.country = _
  rw [hid, ← Option.some.inj hgeta]
  rfl

theorem ties_thirdPartyColumns :
    ∀ a ∈ Listing.groupRows byThirdPartyWarehouse (t.lines.filter (filter.selects U S)),
      ∀ b ∈ Listing.groupRows byThirdPartyWarehouse (t.lines.filter (filter.selects U S)),
      Ties (thirdPartyColumns S) a b → a = b := by
  intro a ha b hb hties
  have hid : a.1.id = b.1.id := hties (.asc fun entry => entry.1.id) (by simp [thirdPartyColumns])
  obtain ⟨line, hline, hlineHead⟩ := (mem_groupRows.mp ha).1
  obtain ⟨line', hline', hlineHead'⟩ := (mem_groupRows.mp hb).1
  have hhead : a.1 = b.1 := by
    rw [← hlineHead, ← hlineHead']
    refine thirdParty_head_of_key line hline line' hline' ?_
    rw [← byThirdPartyWarehouse.headKey_head, ← byThirdPartyWarehouse.headKey_head,
      hlineHead, hlineHead']
    exact hid
  exact List.inj_on_of_nodup_map nodup_groupRows ha hb hhead

/-- The groups of all pages. -/
theorem exists_grouped_thirdParty (plans : ℕ → Plan) {size n : ℕ}
    (hall : (listThirdPartyInventoryWarehouseGroups U S t (plans 0) filter 1 size).total ≤
      n * size) :
    ∃ found, Grouped byThirdPartyWarehouse (thirdPartyItemColumns S)
      (t.lines.filter (filter.selects U S)) found ∧
        ((List.range n).flatMap
        fun i => (listThirdPartyInventoryWarehouseGroups U S t (plans i) filter (i + 1)
        size).items) = found.map thirdPartyGroupOut := by
  refine ⟨_, (grouped_pages thirdParty_head_of_key ties_thirdPartyColumns plans hall).1, ?_⟩
  rw [List.map_flatMap]
  rfl

end Pages

/-! ### What the engine counts -/

section Engine

variable (t : InventoryTables) (db : StockDb)

theorem unique_stockDb :
    ((t.current.rows.values.map CurrentRow.toThirdPartyInventoryCurrent).map fun row =>
    (row.warehouseId, row.commoditySku)).Nodup := by
  have h := t.current.nodup_keys
  unfold Dict.values
  rw [List.map_map, List.map_map]
  exact h

/-- The third-party tables as the engine reads them. -/
def InventoryTables.stockDb : StockDb :=
  { db with
    thirdPartyWarehouses := t.warehouses.rows.mapVal fun _ warehouse => warehouse.country
    thirdPartyInventory := t.current.rows.values.map CurrentRow.toThirdPartyInventoryCurrent
    unique_inventory := unique_stockDb t }

variable {t db}

theorem thirdPartyRows_stockDb : thirdPartyRows (t.stockDb db) none = t.lines.filterMap fun line =>
    line.warehouse.country.map fun country =>
        ((line.row.commoditySku, country), line.row.available, line.row.reserved) := by
  unfold thirdPartyRows InventoryTables.lines InventoryTables.stockDb Dict.values
  simp only
  have hall : ∀ rows : List ThirdPartyInventoryCurrent,
      rows.filter (fun row => inSkus none row.commoditySku) = rows :=
    fun rows => List.filter_eq_self.mpr fun _ _ => rfl
  rw [hall, List.map_map, List.filterMap_map, List.filterMap_filterMap]
  refine List.filterMap_congr fun entry _ => ?_
  simp only [Function.comp, Dict.getD, Dict.get?_mapVal, UniqueTable.get?]
  cases t.warehouses.rows.get? entry.2.warehouseId <;> rfl

/-- The country that the stock of a warehouse counts for. -/
def countedCountry (U : CharTable) (euCountries : List String) (country : Option String) :
    Option String :=
  country.bind (thirdPartyCountry U euCountries)

/-- The stock of a SKU in a country is that of the rows whose warehouse counts for it. -/
theorem getD_loadThirdPartyInventory {U : CharTable} (plan : Plan) (euCountries : List String)
    (sku country : String) :
    (loadThirdPartyInventory U plan (t.stockDb db) none euCountries).getD (sku, country) 0 =
      ((t.lines.filter fun line => countedCountry U euCountries line.warehouse.country =
        some country ∧ line.row.commoditySku = sku).map byThirdPartyWarehouse.amount).sum := by
  have hvalues : ∀ lines : List ThirdPartyLine,
      ((lines.filterMap fun line => line.warehouse.country.map fun country =>
        ((line.row.commoditySku, country), line.row.available, line.row.reserved)).filter fun p =>
          (thirdPartyCountry U euCountries p.1.2).map (fun country => (p.1.1, country)) =
            some (sku, country)).map Prod.snd =
      (lines.filter fun line => countedCountry U euCountries line.warehouse.country = some country ∧
        line.row.commoditySku = sku).map byThirdPartyWarehouse.amount := by
    intro lines
    induction lines with
    | nil => rfl
    | cons line lines ih =>
      rw [List.filterMap_cons, List.filter_cons]
      cases hcountry : line.warehouse.country with
      | none => simpa [countedCountry, hcountry] using ih
      | some c =>
        have hiff : (thirdPartyCountry U euCountries c).map
            (fun country => (line.row.commoditySku, country)) = some (sku, country) ↔
            countedCountry U euCountries (some c) = some country ∧ line.row.commoditySku = sku := by
          unfold countedCountry
          rw [Option.bind_some]
          cases thirdPartyCountry U euCountries c <;> simp [and_comm]
        rw [Option.map_some, List.filter_cons]
        by_cases h : countedCountry U euCountries (some c) = some country ∧
          line.row.commoditySku = sku
        · rw [if_pos (decide_eq_true (hiff.mpr h)), if_pos (decide_eq_true h), List.map_cons,
            List.map_cons, ih]
          rfl
        · rw [if_neg (by simpa using mt hiff.mp h), if_neg (by simpa using h), ih]
  unfold Dict.getD loadThirdPartyInventory
  rw [get?_sumRows, ← Dict.getD, Dict.getD_sumBy, valuesAt_rekey, thirdPartyRows_stockDb, hvalues]

end Engine

/-! ### The countries of the warehouses -/

/-- A country that is set was checked. -/
def ThirdPartyWarehouse.Checked (U : CharTable) (warehouse : ThirdPartyWarehouse) : Prop :=
  ∀ country, warehouse.country = some country → IsNormalized U country ∧ country ≠ "ZZ"

/-- Every warehouse has passed the check of its country. -/
def InventoryTables.Checked (U : CharTable) (t : InventoryTables) : Prop :=
  ∀ id warehouse, t.warehouses.get? id = some warehouse → warehouse.Checked U

/-- The engine counts the stock of a warehouse if its country is set. -/
theorem isSome_countedCountry {U : CharTable} {warehouse : ThirdPartyWarehouse}
    (h : warehouse.Checked U) (euCountries : List String) :
    (countedCountry U euCountries warehouse.country).isSome = warehouse.country.isSome := by
  unfold countedCountry
  cases hcountry : warehouse.country with
  | none => rfl
  | some c =>
    obtain ⟨hnormalized, hZZ⟩ := h c hcountry
    have hcanonical : normalizeObservedCountryCode U (.str c) = some c := hnormalized
    have hc := isReportable_of_isNormalized U hnormalized hZZ
    rw [Option.bind_some]
    unfold thirdPartyCountry applyEuMapping
    simp only [hcanonical, Option.getD_some]
    split_ifs <;> simp [isReportable_EU, hc]

section Keep

variable {refuses : InventoryStatement → Option String} {U : ReadTable}

theorem checked_none {name : String} : (ThirdPartyWarehouse.mk name none).Checked U.toCharTable :=
  fun _ h => (by cases h)

theorem keeps_insertWarehouse_checked {warehouse : ThirdPartyWarehouse}
    (h : warehouse.Checked U.toCharTable) :
    Keeps (fun db => db.tables.Checked U.toCharTable) (insertWarehouse refuses warehouse) := by
  refine (keeps_send _).bind fun _ => keeps_nextWarehouseId.bind fun id =>
    Keeps.bind ?_ fun _ => keeps_pure
  refine keeps_tryTables fun t t' ht ht' => ?_
  obtain ⟨w, hw, rfl⟩ := Option.map_eq_some_iff.mp ht'
  intro id' warehouse' hget
  have hget' : w.get? id' = some warehouse' := hget
  rw [(UniqueTable.insert?_eq_some hw).2] at hget'
  split_ifs at hget'
  · rwa [← Option.some.inj hget']
  · exact ht id' warehouse' hget'

theorem keeps_updateWarehouse_checked (id : ℕ) {warehouse : ThirdPartyWarehouse}
    (h : warehouse.Checked U.toCharTable) :
    Keeps (fun db => db.tables.Checked U.toCharTable) (updateWarehouse refuses id warehouse) := by
  refine (keeps_send _).bind fun _ => keeps_tryTables fun t t' ht ht' => ?_
  obtain ⟨w, hw, rfl⟩ := Option.map_eq_some_iff.mp ht'
  intro id' warehouse' hget
  have hget' : w.get? id' = some warehouse' := hget
  rw [get?_update? hw] at hget'
  split_ifs at hget'
  · rwa [← Option.some.inj hget']
  · exact ht id' warehouse' hget'

/-- A statement on another table. -/
theorem keeps_other {statement : InventoryStatement} {f : InventoryTables → Option InventoryTables}
    (hf : ∀ t t', f t = some t' → t'.warehouses = t.warehouses) :
    Keeps (fun db => db.tables.Checked U.toCharTable)
    (send refuses statement >>= fun _ => tryTables f) :=
  (keeps_send _).bind fun _ => keeps_tryTables fun t t' ht ht' => by
    unfold InventoryTables.Checked
    rw [hf t t' ht']
    exact ht

theorem keeps_updateItems_checked (f : BatchItem → Option ℕ) :
    Keeps (fun db => db.tables.Checked U.toCharTable) (updateItems refuses f) :=
  (keeps_send _).bind fun _ => keeps_writeTables fun _ ht => ht

theorem keeps_updateBatch_checked (batchId : ℕ) (batch : ImportBatch) :
    Keeps (fun db => db.tables.Checked U.toCharTable) (updateBatch refuses batchId batch) :=
  (keeps_send _).bind fun _ => keeps_writeTables fun _ ht => ht

theorem keeps_writeCurrent_checked
    (write : UniqueTable (fun row : CurrentRow => row.key) →
      Option (UniqueTable fun row : CurrentRow => row.key))
    (row : CurrentRow) : Keeps (fun db => db.tables.Checked U.toCharTable)
    (writeCurrent refuses write row) := by
  refine keeps_other fun t t' ht' => ?_
  obtain ⟨c, -, rfl⟩ := Option.map_eq_some_iff.mp ht'
  rfl

theorem keeps_replaceCurrent_checked (rows : List CurrentRow) :
    Keeps (fun db => db.tables.Checked U.toCharTable) (replaceCurrent refuses rows) := by
  refine (keeps_send _).bind fun _ => Keeps.bind (keeps_writeTables fun t ht => ?_) fun _ => ?_
  · exact ht
  split_ifs
  · exact keeps_pure
  · refine (keeps_send _).bind fun _ => (keeps_nextCurrentId _).bind fun id =>
      keeps_tryTables fun t t' ht ht' => ?_
    obtain ⟨c, -, rfl⟩ := Option.map_eq_some_iff.mp ht'
    exact ht

theorem keeps_insertMissing_checked (warehouseByName : Dict String ℕ) (name : String) :
    Keeps (fun db => db.tables.Checked U.toCharTable)
    (insertMissing refuses warehouseByName name) := by
  unfold insertMissing
  split_ifs
  · exact keeps_pure
  · exact (keeps_insertWarehouse_checked checked_none).bind fun _ => keeps_pure

/-- What `normalize_third_party_country` lets pass. -/
theorem checked_of_normalize {country normalized : Option String} {name : String}
    {db db' : InventoryDb}
    (h : normalizeThirdPartyCountry U.toCharTable country db = (.ok normalized, db')) :
    (ThirdPartyWarehouse.mk name normalized).Checked U.toCharTable := by
  intro c hc
  have hc' : normalized = some c := hc
  cases country with
  | none =>
    obtain ⟨rfl, -⟩ := pure_eq_ok.mp h
    cases hc'
  | some country =>
    obtain ⟨code, db₁, hcode, hreturn⟩ := bind_eq_ok.mp h
    obtain ⟨rfl, -⟩ := pure_eq_ok.mp hreturn
    obtain rfl := Option.some.inj hc'
    have hreport := (ofOption_eq_ok.mp hcode).1
    unfold normalizeReportableCountryCode at hreport
    cases hobserved : normalizeObservedCountryCode U.toCharTable (.str country) with
    | none => simp [hobserved] at hreport
    | some observed =>
      rw [hobserved] at hreport
      simp only at hreport
      split_ifs at hreport with hZZ
      obtain rfl := Option.some.inj hreport
      exact ⟨isNormalized_of_normalize U.toCharTable hobserved, hZZ⟩

variable {Content : Type} {load : Content → Except String (List (List Cell))}

/-- **Every request keeps the countries checked.** -/
theorem keeps_run_checked (r : InventoryRequest Content) :
    Keeps (fun db => db.tables.Checked U.toCharTable) (r.run refuses U load) := by
  cases r with
  | preview filename content createdBy =>
    refine Keeps.bind (keeps_ofExcept.bind fun parsed => ?_) fun _ => keeps_pure
    refine (keeps_send _).bind fun _ => keeps_read.bind fun _ => Keeps.bind ?_ fun _ =>
      Keeps.bind ?_ fun _ => keeps_pure
    · refine (keeps_send _).bind fun _ => keeps_nextBatchId.bind fun id =>
        Keeps.bind ?_ fun _ => keeps_pure
      refine keeps_tryTables fun t t' ht ht' => ?_
      unfold InventoryTables.insertBatch? at ht'
      split_ifs at ht'
      rw [← Option.some.inj ht']
      exact ht
    · refine keeps_other fun t t' ht' => ?_
      unfold InventoryTables.insertItems? at ht'
      split_ifs at ht'
      rw [← Option.some.inj ht']
  | confirm batchId confirmedBy now =>
    refine Keeps.bind ?_ fun _ => keeps_pure
    refine keeps_read.bind fun _ => keeps_ofOption.bind fun _ => keeps_require.bind fun _ =>
        keeps_require.bind fun _ =>
      (keeps_send _).bind fun _ => (keeps_foldlM keeps_insertMissing_checked _ _).bind fun _ => ?_
    exact (keeps_replaceCurrent_checked _).bind fun _ =>
        (keeps_updateBatch_checked _ _).bind fun _ =>
      (keeps_updateItems_checked _).bind fun _ => keeps_pure
  | cancel batchId =>
    exact keeps_read.bind fun _ => keeps_ofOption.bind fun _ => keeps_require.bind fun _ =>
      keeps_updateBatch_checked _ _
  | upsertItem warehouseId commoditySku available reserved =>
    exact keeps_read.bind fun _ => keeps_require.bind fun _ => (keeps_nextCurrentId 1).bind fun _ =>
      keeps_writeCurrent_checked _ _
  | patchItem itemId warehouseId commoditySku available reserved =>
    exact keeps_read.bind fun _ => keeps_ofOption.bind fun _ => keeps_require.bind fun _ =>
      (keeps_writeCurrent_checked _ _).mapError
  | deleteItem itemId =>
    exact keeps_read.bind fun _ => keeps_require.bind fun _ => (keeps_send _).bind fun _ =>
      keeps_writeTables fun _ ht => ht
  | createWarehouse name country =>
    refine (keeps_normalizeThirdPartyCountry _ _).bind_of fun db normalized db' hdb hnormalize => ?_
    have hkept := keeps_normalizeThirdPartyCountry (Q := fun db => db.tables.Checked U.toCharTable)
      U.toCharTable country db hdb
    rw [hnormalize] at hkept
    exact Keeps.mapError ((keeps_insertWarehouse_checked
        (checked_of_normalize hnormalize)).bind fun _ =>
      keeps_updateItems_checked _) db' hkept
  | patchWarehouse id name country =>
    refine keeps_read.bind_of fun db read db' hdb hread => ?_
    obtain ⟨rfl, rfl⟩ := read_eq_ok.mp hread
    refine (keeps_ofOption (P := fun db => db.tables.Checked U.toCharTable)).bind_of
      (fun s warehouse s' hs hfound => ?_) db hdb
    obtain ⟨hget, rfl⟩ := ofOption_eq_ok.mp hfound
    have hold := hdb id warehouse hget
    have hcountry : Keeps (fun db => db.tables.Checked U.toCharTable)
        (country.elim (pure warehouse.country) (normalizeThirdPartyCountry U.toCharTable)) := by
      cases country with
      | none => exact keeps_pure
      | some country => exact keeps_normalizeThirdPartyCountry _ _
    refine hcountry.bind_of (fun s₁ normalized s₂ hs₁ hnormalize => ?_) s hs
    have hkept := hcountry s₁ hs₁
    rw [hnormalize] at hkept
    have hchecked : (ThirdPartyWarehouse.mk (name.getD warehouse.name) normalized).Checked
        U.toCharTable := by
      cases country with
      | none =>
        obtain ⟨rfl, -⟩ := pure_eq_ok.mp hnormalize
        exact hold
      | some country => exact checked_of_normalize hnormalize
    exact Keeps.mapError ((keeps_updateItems_checked _).bind
      fun _ => keeps_updateWarehouse_checked id hchecked) s₂ hkept
  | deleteWarehouse id =>
    refine keeps_read.bind fun _ => keeps_require.bind fun _ => keeps_require.bind fun _ =>
        (keeps_send _).bind fun _ =>
      keeps_writeTables fun t ht id' warehouse hget => ?_
    have hget' : (t.warehouses.delete id).get? id' = some warehouse := hget
    unfold UniqueTable.delete UniqueTable.get? at hget'
    rw [Dict.get?_filter, Option.filter_eq_some_iff] at hget'
    exact ht id' warehouse hget'.1

theorem checked_serveAll (requests : List (InventoryRequest Content)) {db : InventoryDb}
    (h : db.tables.Checked U.toCharTable) :
    (serveAll refuses U load requests db).tables.Checked U.toCharTable := by
  induction requests generalizing db with
  | nil => exact h
  | cons r requests ih =>
    have hkeeps : Keeps (fun db => db.tables.Checked U.toCharTable)
        (serve (r.run refuses U load)) :=
      (keeps_run_checked r).request fun _ _ hs => hs
    exact ih (hkeeps db h)

end Keep

/-! ### What is shown and what is counted -/

section Counted

variable {U : CharTable} {S : Sorting} {t : InventoryTables}

theorem selects_all (line : ThirdPartyLine) : ThirdPartyFilter.selects U S {} line = true := rfl

/-- Every row has a warehouse, so the join loses none. -/
theorem lines_ids (h : t.Traced) : t.lines.map ThirdPartyLine.id = t.current.rows.keys := by
  have hall : ∀ entries : List (ℕ × CurrentRow),
      (∀ entry ∈ entries, (t.warehouses.get? entry.2.warehouseId).isSome = true) →
      (entries.filterMap fun entry => (t.warehouses.get? entry.2.warehouseId).map
        (ThirdPartyLine.mk entry.1 entry.2)).map
        ThirdPartyLine.id = entries.map Prod.fst := by
    intro entries hentries
    induction entries with
    | nil => rfl
    | cons entry entries ih =>
      obtain ⟨warehouse, hget⟩ := Option.isSome_iff_exists.mp (hentries entry List.mem_cons_self)
      have hrest := ih fun entry' hentry' => hentries entry' (List.mem_cons_of_mem _ hentry')
      rw [List.filterMap_cons, hget, List.map_cons, ← hrest]
      rfl
  exact hall _ fun entry hentry => h.located entry.1 entry.2 (UniqueTable.mem_items_iff.mp hentry)

/-- What a group says of its items. -/
structure ThirdPartyInventoryWarehouseGroup.Counts (group : ThirdPartyInventoryWarehouseGroup) :
    Prop where
  rows : group.skuCount = group.items.length
  available : group.totalAvailable = (group.items.map fun item => item.available).sum
  reserved : group.totalReserved = (group.items.map fun item => item.reserved).sum
  warehouse : ∀ item ∈ group.items, item.warehouseId = group.warehouseId ∧
    item.participates = group.participates

theorem counts_thirdPartyGroupOut {lines : List ThirdPartyLine}
    {found : List (Group ThirdPartyLine ThirdPartyHead (ℤ × ℤ))}
    (h : Grouped byThirdPartyWarehouse (thirdPartyItemColumns S) lines found)
    {group : Group ThirdPartyLine ThirdPartyHead (ℤ × ℤ)} (hgroup : group ∈ found) :
    (thirdPartyGroupOut group).Counts := by
  have hsum : ∀ lines : List ThirdPartyLine, (lines.map byThirdPartyWarehouse.amount).sum =
      ((lines.map fun line => line.row.available).sum,
          (lines.map fun line => line.row.reserved).sum) := by
    intro lines
    induction lines with
    | nil => rfl
    | cons line lines ih =>
      simp only [List.map_cons, List.sum_cons, ih]
      rfl
  have htotal := (h.total group hgroup).trans (hsum group.items)
  refine ⟨(h.count group hgroup).trans (List.length_map _).symm, ?_, ?_, fun item hitem => ?_⟩
  · show group.total.1 =
      ((group.items.map thirdPartyInventoryItemOut).map fun item => item.available).sum
    rw [htotal, List.map_map]
    rfl
  · show group.total.2 =
      ((group.items.map thirdPartyInventoryItemOut).map fun item => item.reserved).sum
    rw [htotal, List.map_map]
    rfl
  · obtain ⟨line, hline, rfl⟩ := List.mem_map.mp hitem
    have hhead := (h.head_of_mem hgroup hline).2
    exact ⟨congrArg ThirdPartyHead.id hhead,
      congrArg (fun head : ThirdPartyHead => head.country.isSome) hhead⟩

/-- **What is marked as participating is what the engine counts.** Whatever requests were served
and whatever the database chooses for each page: the pages show each row of the inventory
once, in the group of its warehouse with its totals; a group is marked exactly if the engine
counts its stock for some country, and what it counts of a SKU for a country is the sum over
the items of the groups of that country. -/
theorem participating_counted {Content : Type} {refuses : InventoryStatement → Option String}
    {U : ReadTable} {load : Content → Except String (List (List Cell))} {S : Sorting}
    (requests : List (InventoryRequest Content)) (hrequests : ∀ r ∈ requests, r.Checked)
    {start : InventoryDb} (htraced : start.tables.Traced)
    (hchecked : start.tables.Checked U.toCharTable) (stock : StockDb) (plan : Plan)
    (euCountries : List String)
    (plans : ℕ → Plan) (size n : ℕ) :
    let t := (serveAll refuses U load requests start).tables
    let answer i := listThirdPartyInventoryWarehouseGroups U.toCharTable S t (plans i) {} (i + 1) size
    let groups := (List.range n).flatMap fun i => (answer i).items
    (answer 0).total ≤ n * size →
    ((groups.flatMap fun group => group.items).map fun item => item.id).Perm t.current.rows.keys ∧
    (groups.map fun group => group.warehouseId).Nodup ∧ (∀ group ∈ groups, group.Counts) ∧
    (∀ group ∈ groups, group.participates =
      (countedCountry U.toCharTable euCountries group.country).isSome) ∧
      ∀ sku country, (loadThirdPartyInventory U.toCharTable plan (t.stockDb stock)
      none euCountries).getD (sku, country) 0 =
      ((((groups.filter fun group => countedCountry U.toCharTable euCountries group.country =
      some country).flatMap
        fun group => group.items).filter fun item => item.commoditySku = sku).map fun item =>
          (item.available, item.reserved)).sum := by
  intro t answer groups hall
  have ht : t.Traced := traced_serveAll requests hrequests htraced
  have hwarehouses : t.Checked U.toCharTable := checked_serveAll requests hchecked
  obtain ⟨found, hgrouped, hfound⟩ := exists_grouped_thirdParty plans hall
  have hselected : t.lines.filter (ThirdPartyFilter.selects U.toCharTable S {}) = t.lines :=
    List.filter_eq_self.mpr fun line _ => selects_all line
  rw [hselected] at hgrouped
  have hgroups : groups = found.map thirdPartyGroupOut := hfound
  have hitems : ∀ groups : List (Group ThirdPartyLine ThirdPartyHead (ℤ × ℤ)),
      ((groups.map thirdPartyGroupOut).flatMap fun group => group.items) =
        (groups.flatMap Group.items).map thirdPartyInventoryItemOut := by
    intro groups
    rw [List.flatMap_map, List.map_flatMap]
    rfl
  refine ⟨?_, ?_, fun group hgroup => ?_, fun group hgroup => ?_, fun sku country => ?_⟩
  · rw [hgroups, hitems, ← lines_ids ht, List.map_map]
    exact hgrouped.items_perm.map _
  · have hids : (groups.map fun group => group.warehouseId) =
      (found.map Group.head).map ThirdPartyHead.id := by
      rw [hgroups, List.map_map, List.map_map]
      rfl
    rw [hids]
    refine List.Nodup.map_on (fun head hhead head' hhead' hid => ?_) hgrouped.nodup
    obtain ⟨line, hline, rfl⟩ := (hgrouped.heads head).mp hhead
    obtain ⟨line', hline', rfl⟩ := (hgrouped.heads head').mp hhead'
    rw [← hselected] at hline hline'
    exact thirdParty_head_of_key line hline line' hline' hid
  · rw [hgroups] at hgroup
    obtain ⟨g, hg, rfl⟩ := List.mem_map.mp hgroup
    exact counts_thirdPartyGroupOut hgrouped hg
  · rw [hgroups] at hgroup
    obtain ⟨g, hg, rfl⟩ := List.mem_map.mp hgroup
    obtain ⟨line, hline, hhead⟩ := (hgrouped.heads g.head).mp (List.mem_map_of_mem hg)
    have hcountry : line.warehouse.country = g.head.country := congrArg ThirdPartyHead.country hhead
    have hcounted := isSome_countedCountry (hwarehouses _ _ (mem_lines.mp hline).2) euCountries
    rw [hcountry] at hcounted
    exact hcounted.symm
  · have hfilter : (groups.filter
        fun group => countedCountry U.toCharTable euCountries group.country = some country) =
        (found.filter fun group => countedCountry U.toCharTable euCountries group.head.country =
        some country).map
          thirdPartyGroupOut := by
      rw [hgroups, List.filter_map]
      rfl
    have hperm := hgrouped.filter_perm fun head =>
      countedCountry U.toCharTable euCountries head.country = some country
    have hsku := (hperm.filter fun line => line.row.commoditySku = sku).map
      byThirdPartyWarehouse.amount
    rw [getD_loadThirdPartyInventory, hfilter, hitems, List.filter_map, List.map_map]
    refine Eq.trans ?_ hsku.sum_eq.symm
    rw [List.filter_filter]
    refine congrArg (fun lines : List ThirdPartyLine =>
      (lines.map byThirdPartyWarehouse.amount).sum)
      (List.filter_congr fun line _ => ?_)
    rw [Bool.decide_and, Bool.and_comm]
    rfl

theorem checked_emptyInventory : emptyInventory.tables.Checked .ascii := fun _ _ h => (by cases h)

/-- A warehouse in the US and an operator's row. -/
def usRequests : List (InventoryRequest (List (List Cell))) :=
  [.createWarehouse "V" (some "us"), .upsertItem 1 "C" 7 0]

def usInventory : InventoryTables :=
  (serveAll (fun _ => none) .ascii (fun sheet => .ok sheet) usRequests emptyInventory).tables

def noStock : StockDb := ⟨.empty, [], .empty, .empty, [], noInventory_nodup⟩

theorem participating_counted_us :
    let groups := (List.range 1).flatMap fun i =>
      (listThirdPartyInventoryWarehouseGroups .ascii plainSorting usInventory (bookPlans i) {}
        (i + 1) 5).items
    ∀ sku country, (loadThirdPartyInventory .ascii .identity (usInventory.stockDb noStock) none
      []).getD (sku, country) 0 =
      ((((groups.filter fun group => countedCountry .ascii [] group.country = some country).flatMap
        fun group => group.items).filter fun item => item.commoditySku = sku).map fun item =>
          (item.available, item.reserved)).sum := by
  have hrequests : ∀ r ∈ usRequests, r.Checked := by
    intro r hr
    simp only [usRequests, List.mem_cons, List.not_mem_nil, or_false] at hr
    rcases hr with rfl | rfl
    · trivial
    · exact ⟨by decide, by decide⟩
  exact (participating_counted (U := .ascii)
    usRequests hrequests traced_emptyInventory checked_emptyInventory noStock
    .identity [] bookPlans 5 1 (by decide +kernel)).2.2.2.2

end Counted

end Restock
