/-
# Requests on third-party inventory (`services/third_party_inventory.py`, `api/data.py`)

A preview stores the parsed rows of a workbook as the items of a batch; confirming the batch
replaces the current inventory by the totals of its valid items, under the warehouses that
have their names by then. Other requests create, rename or delete warehouses, edit the
inventory, and cancel batches. Each is one transaction, here one after the other;
confirmations side by side are in `ImportConfirm`.

What the database refuses for other reasons than a unique key, such as a value that does not
fit its column, `refuses` says of each statement. What the statements do to the tables is in
the lemmas of the section `Succeed`, and what no request breaks is shown once for all of them
(`keeps_run`).
-/
import Restock.Countries
import Restock.ImportConfirm
import Restock.InventoryRows
import Restock.Lib.Transaction
import Restock.Lib.UniqueTable

namespace Restock

open PyText Transaction

/-! ### The tables -/

/-- A row of `third_party_warehouse`; its name is unique. -/
structure ThirdPartyWarehouse where
  name : String
  country : Option String
deriving DecidableEq, Repr

/-- What wrote a row last. -/
inductive LastOperation
  | manual | import
deriving DecidableEq, Repr

/-- A row of the current inventory. -/
structure CurrentRow extends ThirdPartyInventoryCurrent where
  sourceBatchId : Option ℕ
  lastOperation : LastOperation
deriving DecidableEq, Repr

/-- `ThirdPartyInventoryImportItem`. -/
structure BatchItem extends ImportItem where
  batchId : ℕ
  warehouseId : Option ℕ
  sourceRowNo : ℕ
deriving DecidableEq, Repr

/-- A row of the sheet that the preview reports. -/
structure PreviewIssue where
  row : ℕ
  warehouseName : Option String
  commoditySku : Option String
  message : Option String
deriving DecidableEq, Repr

/-- What the preview says of an upload. -/
structure PreviewSummary where
  newWarehouses : List String
  unmaintainedWarehouses : List String
  issues : List PreviewIssue
  issueCount : ℕ
deriving DecidableEq, Repr

/-- `ThirdPartyInventoryImportBatch`. -/
structure ImportBatch where
  filename : String
  status : ImportStatus
  rowCount : ℕ
  validRowCount : ℕ
  skippedRowCount : ℕ
  newWarehouseCount : ℕ
  createdBy : Option String
  confirmedBy : Option String
  confirmedAt : Option ℤ
  summary : PreviewSummary
deriving DecidableEq, Repr

/-- Every item is one of a batch that is there. -/
structure InventoryTables where
  warehouses : UniqueTable ThirdPartyWarehouse.name
  batches : Dict ℕ ImportBatch
  items : List BatchItem
  current : UniqueTable fun row : CurrentRow => row.key
  itemsBatch : ∀ item ∈ items, (batches.get? item.batchId).isSome = true

/-- The ids that come next. -/
structure InventorySequences where
  warehouse : ℕ
  batch : ℕ
  current : ℕ
deriving DecidableEq, Repr

/-- The tables, and the numbers that the sequences give next. -/
structure InventoryDb where
  tables : InventoryTables
  sequences : InventorySequences

/-- A rollback restores the tables. -/
def InventoryDb.restore (before after : InventoryDb) :
    InventoryDb := { after with tables := before.tables }

namespace InventoryTables

variable (tables : InventoryTables)

def setWarehouses (warehouses : UniqueTable ThirdPartyWarehouse.name) :
    InventoryTables := { tables with warehouses := warehouses }

def setCurrent (current : UniqueTable fun row : CurrentRow => row.key) :
    InventoryTables := { tables with current := current }

theorem itemsBatch_set (batchId : ℕ) (batch : ImportBatch) :
    ∀ item ∈ tables.items,
    ((tables.batches.set batchId batch).get? item.batchId).isSome = true := by
  intro item hitem
  rw [Dict.get?_set]
  split_ifs
  · rfl
  · exact tables.itemsBatch item hitem

def setBatch (batchId : ℕ) (batch : ImportBatch) : InventoryTables :=
  { tables with batches := tables.batches.set batchId batch, itemsBatch := tables.itemsBatch_set batchId batch }

/-- A batch under a new number. -/
def insertBatch? (batchId : ℕ) (batch : ImportBatch) : Option InventoryTables :=
  if (tables.batches.get? batchId).isSome then none else some (tables.setBatch batchId batch)

theorem itemsBatch_append {items : List BatchItem}
    (h : ∀ item ∈ items, (tables.batches.get? item.batchId).isSome = true) :
    ∀ item ∈ tables.items ++ items, (tables.batches.get? item.batchId).isSome = true := by
  intro item hitem
  rcases List.mem_append.mp hitem with hold | hnew
  · exact tables.itemsBatch item hold
  · exact h item hnew

/-- The items of a batch, whose foreign key must hold. -/
def insertItems? (items : List BatchItem) : Option InventoryTables :=
  if h : ∀ item ∈ items, (tables.batches.get? item.batchId).isSome = true then
    some { tables with items := tables.items ++ items, itemsBatch := tables.itemsBatch_append h }
  else none

theorem itemsBatch_map (f : BatchItem → Option ℕ) :
    ∀ item ∈ tables.items.map fun item => { item with warehouseId := f item },
      (tables.batches.get? item.batchId).isSome = true := by
  intro item hitem
  obtain ⟨item', hitem', rfl⟩ := List.mem_map.mp hitem
  exact tables.itemsBatch item' hitem'

/-- `UPDATE` of the items' warehouses. -/
def setWarehouseIds (f : BatchItem → Option ℕ) : InventoryTables :=
  { tables with
    items := tables.items.map fun item => { item with warehouseId := f item }
    itemsBatch := tables.itemsBatch_map f }

/-- The items of a batch in the order of their rows. -/
def itemRows (batchId : ℕ) : List BatchItem :=
  (tables.items.filter fun item => item.batchId = batchId).insertionSort fun a b =>
    a.sourceRowNo ≤ b.sourceRowNo

end InventoryTables

/-! ### Statements -/

/-- What a request fails with. -/
inductive InventoryError
  | validationFailed (message : String)
  | notFound (message : String)
  | conflict (message : String)
  /-- A unique key that is there already. -/
  | integrity
  | database (message : String)
  | raised (message : String)
deriving DecidableEq, Repr

/-- The statements that the database may refuse. -/
inductive InventoryStatement
  | selectWarehouses (names : List String)
  | insertBatch (batch : ImportBatch)
  | updateBatch (batch : ImportBatch)
  | insertItems (items : List BatchItem)
  | updateItems (warehouseIds : BatchItem → Option ℕ)
  | writeWarehouse (warehouse : ThirdPartyWarehouse)
  | deleteWarehouse (warehouseId : ℕ)
  | insertCurrent (rows : List CurrentRow)
  | writeCurrent (row : CurrentRow)
  | deleteCurrent

/-- A request before its commit. -/
abbrev InventoryTransaction := Transaction InventoryDb InventoryError

section Requests

variable (refuses : InventoryStatement → Option String)

/-- What of a statement does not depend on the tables. -/
def send (statement : InventoryStatement) : InventoryTransaction Unit :=
  (refuses statement).elim (pure ()) fun message => fail (.database message)

/-- The tables after a statement. -/
def writeTables (f : InventoryTables → InventoryTables) : InventoryTransaction Unit :=
  change fun db => { db with tables := f db.tables }

/-- A write that a constraint may refuse. -/
def tryTables (f : InventoryTables → Option InventoryTables) : InventoryTransaction Unit :=
  attempt (fun db => (f db.tables).map fun tables => { db with tables := tables }) .integrity

/-- The next ids of the sequences. -/
def nextWarehouseId : InventoryTransaction ℕ := do
  let db ← read
  change fun db => { db with
    sequences := { db.sequences with warehouse := db.sequences.warehouse + 1 } }
  return db.sequences.warehouse

/-- `nextval` of the sequence of the batches; a rollback does not take it back. -/
def nextBatchId : InventoryTransaction ℕ := do
  let db ← read
  change fun db => { db with sequences := { db.sequences with batch := db.sequences.batch + 1 } }
  return db.sequences.batch

/-- So many values of the sequence of the current rows; the first of them. -/
def nextCurrentId (count : ℕ) : InventoryTransaction ℕ := do
  let db ← read
  change fun db => { db with
    sequences := { db.sequences with current := db.sequences.current + count } }
  return db.sequences.current

def insertWarehouse (warehouse : ThirdPartyWarehouse) : InventoryTransaction ℕ := do
  send refuses (.writeWarehouse warehouse)
  let id ← nextWarehouseId
  tryTables fun tables => (tables.warehouses.insert? id warehouse).map tables.setWarehouses
  return id

def updateWarehouse (id : ℕ) (warehouse : ThirdPartyWarehouse) : InventoryTransaction Unit := do
  send refuses (.writeWarehouse warehouse)
  tryTables fun tables => (tables.warehouses.update? id warehouse).map tables.setWarehouses

def updateBatch (batchId : ℕ) (batch : ImportBatch) : InventoryTransaction Unit := do
  send refuses (.updateBatch batch)
  writeTables fun tables => tables.setBatch batchId batch

/-- An `UPDATE` of `warehouse_id` of the items. -/
def updateItems (f : BatchItem → Option ℕ) : InventoryTransaction Unit := do
  send refuses (.updateItems f)
  writeTables fun tables => tables.setWarehouseIds f

/-- `INSERT` of several rows of the current inventory. -/
def insertCurrent (rows : List CurrentRow) : InventoryTransaction Unit := do
  send refuses (.insertCurrent rows)
  let id ← nextCurrentId rows.length
  tryTables fun tables => (tables.current.insertAll? id rows).map tables.setCurrent

/-! ### Previews -/

def ParseFailure.toInventoryError : ParseFailure → InventoryError
  | .validationFailed message => .validationFailed message
  | .raised message => .raised message

/-- The item that a row of the sheet is stored as. -/
def ParsedRow.item (row : ParsedRow) : ImportItem :=
  ⟨row.warehouseName, row.commoditySku, row.available, row.reserved, row.errorMessage⟩

/-- What the preview reports for a row with an error. -/
def ParsedRow.issue (row : ParsedRow) : PreviewIssue :=
  ⟨row.sourceRowNo, nonEmpty row.warehouseName, row.commoditySku, row.errorMessage⟩

/-- The rows without an error. -/
def validRows (parsed : List ParsedRow) :
    List ParsedRow := parsed.filter fun row => row.errorMessage = none

/-- `valid_warehouse_names`. -/
def validWarehouseNames (parsed : List ParsedRow) : List String :=
  (Dict.fromKeys ((validRows parsed).map ParsedRow.warehouseName)).insertionSort (· ≤ ·)

/-- `PREVIEW_ISSUE_LIMIT`. -/
def previewIssueLimit : ℕ := 20

/-- The summary of a preview; `names` is in order, so the names among it are. -/
def previewSummary (parsed : List ParsedRow) (names : List String)
    (country : String → Option (Option String)) : PreviewSummary where
  newWarehouses := names.filter fun name => (country name).isNone
  unmaintainedWarehouses := names.filter fun name => (country name).join.isNone
  issues := ((parsed.filter fun row => row.errorMessage ≠ none).map ParsedRow.issue).take
    previewIssueLimit
  issueCount := (parsed.filter fun row => row.errorMessage ≠ none).length

/-- The batch of a preview. -/
def previewBatch (filename : String) (createdBy : Option String) (parsed : List ParsedRow)
    (summary : PreviewSummary) : ImportBatch where
  filename := (nonEmpty (String.ofList (filename.toList.take 255))).getD
    "third-party-inventory.xlsx"
  status := .pending
  rowCount := parsed.length
  validRowCount := (validRows parsed).length
  skippedRowCount := parsed.length - (validRows parsed).length
  newWarehouseCount := summary.newWarehouses.length
  createdBy := createdBy
  confirmedBy := none
  confirmedAt := none
  summary := summary

def insertBatch (batch : ImportBatch) : InventoryTransaction ℕ := do
  send refuses (.insertBatch batch)
  let batchId ← nextBatchId
  tryTables fun tables => tables.insertBatch? batchId batch
  return batchId

/-- `INSERT` of the items of a batch. -/
def insertItems (items : List BatchItem) : InventoryTransaction Unit := do
  send refuses (.insertItems items)
  tryTables fun tables => tables.insertItems? items

/-- `create_import_preview`, from the parsed rows on. -/
def storePreview (filename : String) (createdBy : Option String) (parsed : List ParsedRow) :
    InventoryTransaction ℕ := do
  let names := validWarehouseNames parsed
  send refuses (.selectWarehouses names)
  let db ← read
  let warehouseByName := db.tables.warehouses.idsAmong names
  let country name := ((warehouseByName.get? name).bind db.tables.warehouses.get?).map
    ThirdPartyWarehouse.country
  let batchId ← insertBatch refuses
    (previewBatch filename createdBy parsed (previewSummary parsed names country))
  insertItems refuses (parsed.map
    fun row => ⟨row.item, batchId, warehouseByName.get? row.warehouseName, row.sourceRowNo⟩)
  return batchId

/-- `create_import_preview`: the sheet is parsed and stored as a pending batch. -/
def createImportPreview {Content : Type} (U : ReadTable)
    (load : Content → Except String (List (List Cell))) (filename : String)
    (content : Option Content) (createdBy : Option String) : InventoryTransaction ℕ := do
  let parsed ← ofExcept ((parseThirdPartyInventoryWorkbook U load content).mapError
    ParseFailure.toInventoryError)
  storePreview refuses filename createdBy parsed

/-! ### Confirmations -/

/-- One round of the loop over the names. -/
def insertMissing (warehouseByName : Dict String ℕ) (name : String) :
    InventoryTransaction (Dict String ℕ) :=
  if (warehouseByName.get? name).isSome then pure warehouseByName
  else do
    let id ← insertWarehouse refuses ⟨name, none⟩
    return warehouseByName.set name id

/-- The items of a batch with the warehouses that they are confirmed for. -/
def confirmedWarehouse (batchId : ℕ) (warehouseByName : Dict String ℕ) (item : BatchItem) :
    Option ℕ :=
  if item.batchId = batchId ∧ item.valid = true then warehouseByName.get? item.warehouseNameRaw
  else item.warehouseId

/-- `insert_values`. -/
def importValues (batchId : ℕ) (warehouseByName : Dict String ℕ) (items : List ImportItem) :
    List CurrentRow :=
  (importRows warehouseByName items).map fun row => ⟨row, some batchId, .import⟩

/-- The current inventory is replaced. -/
def replaceCurrent (rows : List CurrentRow) : InventoryTransaction Unit := do
  send refuses .deleteCurrent
  writeTables fun tables => tables.setCurrent .clear
  if rows = [] then pure () else insertCurrent refuses rows

/-- The statements of `confirm_import_batch` after its checks. -/
def applyImport (batchId : ℕ) (batch : ImportBatch) (items : List ImportItem)
    (found : Dict String ℕ) :
    InventoryTransaction ImportBatch := do
  let warehouseByName ← (importNames items).foldlM (insertMissing refuses) found
  replaceCurrent refuses (importValues batchId warehouseByName items)
  updateBatch refuses batchId batch
  updateItems refuses (confirmedWarehouse batchId warehouseByName)
  return batch

/-- `confirm_import_batch`. -/
def confirmImportBatch (batchId : ℕ) (confirmedBy : Option String) (now : ℤ) :
    InventoryTransaction ImportBatch := do
  let db ← read
  let batch ← ofOption (db.tables.batches.get? batchId) (.notFound "导入批次不存在")
  require (batch.status = .pending) (.conflict "只有待确认批次可以确认导入")
  let items := (db.tables.itemRows batchId).map BatchItem.toImportItem
  require (items.any ImportItem.valid = true) (.validationFailed "导入批次没有有效库存行")
  send refuses (.selectWarehouses (importNames items))
  applyImport refuses batchId
    { batch with status := .applied, confirmedBy := confirmedBy, confirmedAt := some now } items
    (db.tables.warehouses.idsAmong (importNames items))

def expirePendingBatch (batchId : ℕ) : InventoryTransaction Unit := do
  let db ← read
  let batch ← ofOption (db.tables.batches.get? batchId) (.notFound "导入批次不存在")
  require (batch.status = .pending) (.conflict "只有待确认批次可以取消")
  updateBatch refuses batchId { batch with status := .expired }

/-! ### The inventory and the warehouses -/

def writeCurrent (write : UniqueTable (fun row : CurrentRow => row.key) →
    Option (UniqueTable fun row : CurrentRow => row.key))
    (row : CurrentRow) : InventoryTransaction Unit := do
  send refuses (.writeCurrent row)
  tryTables fun tables => (write tables.current).map tables.setCurrent

/-- `upsert_current_item`. -/
def upsertCurrentItem (warehouseId : ℕ) (commoditySku : String) (available reserved : ℤ) :
    InventoryTransaction Unit := do
  let db ← read
  require ((db.tables.warehouses.get? warehouseId).isSome = true) (.notFound "海外仓不存在")
  let row : CurrentRow := ⟨⟨warehouseId, commoditySku, available, reserved⟩, none, .manual⟩
  let id ← nextCurrentId 1
  writeCurrent refuses (fun current => (current.idOf row.key).elim (current.insert? id row)
    fun old => current.update? old row) row

/-- A field of the patch that is none is not given. -/
def patchCurrentItem (itemId : ℕ) (warehouseId : Option ℕ) (commoditySku : Option String)
    (available reserved : Option ℤ) :
    InventoryTransaction Unit := do
  let db ← read
  let item ← ofOption (db.tables.current.get? itemId) (.notFound "海外库存明细不存在")
  let warehouseId := (warehouseId.filter (· ≠ 0)).getD item.warehouseId
  require ((db.tables.warehouses.get? warehouseId).isSome = true) (.notFound "海外仓不存在")
  let row : CurrentRow :=
    ⟨⟨warehouseId, (commoditySku.bind nonEmpty).getD item.commoditySku,
    available.getD item.available, reserved.getD item.reserved⟩, none, .manual⟩
  (writeCurrent refuses (fun current => current.update? itemId row) row).mapError fun _ =>
    .conflict "同一海外仓下 SKU 已存在"

/-- `delete_current_item`. -/
def deleteCurrentItem (itemId : ℕ) : InventoryTransaction Unit := do
  let db ← read
  require ((db.tables.current.get? itemId).isSome = true) (.notFound "海外库存明细不存在")
  send refuses .deleteCurrent
  writeTables fun tables => tables.setCurrent (tables.current.delete itemId)

/-- A country that is given must normalise to a code that can be reported. -/
def normalizeThirdPartyCountry (U : CharTable) :
    Option String → InventoryTransaction (Option String)
  | none => pure none
  | some country => do
    let normalized ← ofOption (normalizeReportableCountryCode U (.str country))
      (.validationFailed "国家代码无效")
    return some normalized

/-- Items without an error that name the warehouse get its number. -/
def syncImportItemsWarehouseId (id : ℕ) (name : String) : InventoryTransaction Unit :=
  updateItems refuses fun item =>
    if item.warehouseNameRaw = name ∧ item.warehouseId = none ∧ item.errorMessage = none then
      some id else item.warehouseId

def InventoryError.ofWarehouse : InventoryError → InventoryError
  | .integrity => .conflict "海外仓名称已存在"
  | error => error

/-- The endpoint that adds a warehouse. -/
def createThirdPartyWarehouse (U : CharTable) (name : String) (country : Option String) :
    InventoryTransaction Unit := do
  let country ← normalizeThirdPartyCountry U country
  Transaction.mapError InventoryError.ofWarehouse do
    let id ← insertWarehouse refuses ⟨name, country⟩
    syncImportItemsWarehouseId refuses id name

/-- The endpoint that changes a warehouse: only what the body has. -/
def patchThirdPartyWarehouse (U : CharTable) (id : ℕ) (name : Option String)
    (country : Option (Option String)) :
    InventoryTransaction Unit := do
  let db ← read
  let warehouse ← ofOption (db.tables.warehouses.get? id) (.notFound "海外仓不存在")
  let country ← country.elim (pure warehouse.country) (normalizeThirdPartyCountry U)
  Transaction.mapError InventoryError.ofWarehouse do
    syncImportItemsWarehouseId refuses id (name.getD warehouse.name)
    updateWarehouse refuses id ⟨name.getD warehouse.name, country⟩

/-- The endpoint that removes a warehouse, if nothing refers to it. -/
def deleteThirdPartyWarehouse (id : ℕ) : InventoryTransaction Unit := do
  let db ← read
  require (db.tables.current.rows.values.all (·.warehouseId ≠ id) = true ∧
    db.tables.items.all (·.warehouseId ≠ some id) = true)
    (.conflict "海外仓存在当前库存或导入历史，不能删除")
  require ((db.tables.warehouses.get? id).isSome = true) (.notFound "海外仓不存在")
  send refuses (.deleteWarehouse id)
  writeTables fun tables => tables.setWarehouses (tables.warehouses.delete id)

/-- The requests that write these tables. -/
inductive InventoryRequest (Content : Type)
  | preview (filename : String) (content : Option Content) (createdBy : Option String)
  | confirm (batchId : ℕ) (confirmedBy : Option String) (now : ℤ)
  | cancel (batchId : ℕ)
  | upsertItem (warehouseId : ℕ) (commoditySku : String) (available reserved : ℤ)
  | patchItem (itemId : ℕ) (warehouseId : Option ℕ) (commoditySku : Option String)
    (available reserved : Option ℤ)
  | deleteItem (itemId : ℕ)
  | createWarehouse (name : String) (country : Option String)
  | patchWarehouse (id : ℕ) (name : Option String) (country : Option (Option String))
  | deleteWarehouse (id : ℕ)

/-- The end of a request. -/
def serve {α : Type} (x : InventoryTransaction α) :
    InventoryTransaction α := x.request InventoryDb.restore

section Serve

variable {Content : Type} (U : ReadTable) (load : Content → Except String (List (List Cell)))

/-- The transaction of a request. -/
def InventoryRequest.run : InventoryRequest Content → InventoryTransaction Unit
  | .preview filename content createdBy =>
    do discard (createImportPreview refuses U load filename content createdBy)
  | .confirm batchId confirmedBy now =>
    do discard (confirmImportBatch refuses batchId confirmedBy now)
  | .cancel batchId => expirePendingBatch refuses batchId
  | .upsertItem warehouseId commoditySku available reserved =>
    upsertCurrentItem refuses warehouseId commoditySku available reserved
  | .patchItem itemId warehouseId commoditySku available reserved =>
    patchCurrentItem refuses itemId warehouseId commoditySku available reserved
  | .deleteItem itemId => deleteCurrentItem refuses itemId
  | .createWarehouse name country => createThirdPartyWarehouse refuses U.toCharTable name country
  | .patchWarehouse id name country =>
    patchThirdPartyWarehouse refuses U.toCharTable id name country
  | .deleteWarehouse id => deleteThirdPartyWarehouse refuses id

/-- Requests one after the other. -/
def serveAll (requests : List (InventoryRequest Content)) (db : InventoryDb) : InventoryDb :=
  requests.foldl (fun db r => (serve (r.run refuses U load) db).2) db

end Serve

end Requests

/-! ### Statements that succeed -/

section Succeed

variable {refuses : InventoryStatement → Option String} {db db' : InventoryDb} {u : Unit} {id : ℕ}

@[simp] theorem send_eq_ok {statement : InventoryStatement} :
    send refuses statement db = (.ok u, db') ↔ refuses statement = none ∧ db = db' := by
  unfold send
  cases refuses statement <;> simp

@[simp] theorem writeTables_eq_ok {f : InventoryTables → InventoryTables} :
    writeTables f db = (.ok u, db') ↔ { db with tables := f db.tables } = db' := change_eq_ok

@[simp] theorem tryTables_eq_ok {f : InventoryTables → Option InventoryTables} :
    tryTables f db = (.ok u, db') ↔ ∃ tables, f db.tables = some tables ∧
    { db with tables := tables } = db' := by
  unfold tryTables
  rw [attempt_eq_ok, Option.map_eq_some_iff]

/-- A statement that is not refused leaves the state. -/
theorem of_send {α : Type} {statement : InventoryStatement}
    {f : Unit → InventoryTransaction α} {a : α}
    (h : (send refuses statement >>= f) db = (.ok a, db')) : f () db = (.ok a, db') := by
  obtain ⟨_, db₁, hsend, h⟩ := bind_eq_ok.mp h
  rw [(send_eq_ok.mp hsend).2]
  exact h

theorem tables_nextWarehouseId (h : nextWarehouseId db = (.ok id, db')) :
    db'.tables = db.tables := by
  simp [nextWarehouseId] at h
  rw [← h.2]

theorem tables_nextBatchId (h : nextBatchId db = (.ok id, db')) : db'.tables = db.tables := by
  simp [nextBatchId] at h
  rw [← h.2]

theorem tables_nextCurrentId {count : ℕ} (h : nextCurrentId count db = (.ok id, db')) :
    db'.tables = db.tables := by
  simp [nextCurrentId] at h
  rw [← h.2]

theorem insertWarehouse_ok {warehouse : ThirdPartyWarehouse}
    (h : insertWarehouse refuses warehouse db = (.ok id, db')) :
    ∃ w, db.tables.warehouses.insert? id warehouse = some w ∧
    db'.tables = db.tables.setWarehouses w := by
  obtain ⟨id', db₁, hid, h⟩ := bind_eq_ok.mp (of_send h)
  obtain ⟨_, db₂, hinsert, h⟩ := bind_eq_ok.mp h
  obtain ⟨rfl, rfl⟩ := pure_eq_ok.mp h
  obtain ⟨tables, ht, rfl⟩ := tryTables_eq_ok.mp hinsert
  rw [tables_nextWarehouseId hid] at ht
  obtain ⟨w, hw, rfl⟩ := Option.map_eq_some_iff.mp ht
  exact ⟨w, hw, rfl⟩

theorem insertBatch_ok {batch : ImportBatch} (h : insertBatch refuses batch db = (.ok id, db')) :
    db.tables.insertBatch? id batch = some db'.tables := by
  obtain ⟨id', db₁, hid, h⟩ := bind_eq_ok.mp (of_send h)
  obtain ⟨_, db₂, hinsert, h⟩ := bind_eq_ok.mp h
  obtain ⟨rfl, rfl⟩ := pure_eq_ok.mp h
  obtain ⟨tables, ht, rfl⟩ := tryTables_eq_ok.mp hinsert
  rw [tables_nextBatchId hid] at ht
  exact ht

theorem insertItems_ok {items : List BatchItem} (h : insertItems refuses items db = (.ok u, db')) :
    db.tables.insertItems? items = some db'.tables := by
  obtain ⟨tables, ht, rfl⟩ := tryTables_eq_ok.mp (of_send h)
  exact ht

theorem insertCurrent_ok {rows : List CurrentRow}
    (h : insertCurrent refuses rows db = (.ok u, db')) :
    ∃ id current, db.tables.current.insertAll? id rows = some current ∧
    db'.tables = db.tables.setCurrent current := by
  obtain ⟨id, db₁, hid, h⟩ := bind_eq_ok.mp (of_send h)
  obtain ⟨tables, ht, rfl⟩ := tryTables_eq_ok.mp h
  rw [tables_nextCurrentId hid] at ht
  obtain ⟨current, hcurrent, rfl⟩ := Option.map_eq_some_iff.mp ht
  exact ⟨id, current, hcurrent, rfl⟩

/-- The current inventory is replaced by the rows. -/
theorem replaceCurrent_ok {rows : List CurrentRow}
    (h : replaceCurrent refuses rows db = (.ok u, db')) :
    ∃ current, db'.tables = db.tables.setCurrent current ∧
    ∀ row, (∃ id, current.get? id = some row) ↔ row ∈ rows := by
  have hclear : ∀ row, ¬ ∃ id,
      (UniqueTable.clear : UniqueTable fun row : CurrentRow => row.key).get? id = some row := by
    intro row hrow
    obtain ⟨id, hid⟩ := hrow
    cases hid
  obtain ⟨_, db₁, hwrite, h⟩ := bind_eq_ok.mp (of_send h)
  obtain rfl := writeTables_eq_ok.mp hwrite
  split_ifs at h with hrows
  · obtain ⟨-, rfl⟩ := pure_eq_ok.mp h
    refine ⟨_, rfl, fun row => iff_of_false (hclear row) ?_⟩
    simp [hrows]
  · obtain ⟨id, current, hcurrent, htables⟩ := insertCurrent_ok h
    refine ⟨current, htables, fun row => ?_⟩
    rw [UniqueTable.exists_insertAll? hcurrent]
    exact or_iff_left (hclear row)

theorem updateBatch_ok {batchId : ℕ} {batch : ImportBatch}
    (h : updateBatch refuses batchId batch db = (.ok u, db')) :
    db'.tables = db.tables.setBatch batchId batch := by
  obtain rfl := writeTables_eq_ok.mp (of_send h)
  rfl

theorem updateItems_ok {f : BatchItem → Option ℕ} (h : updateItems refuses f db = (.ok u, db')) :
    db'.tables = db.tables.setWarehouseIds f := by
  obtain rfl := writeTables_eq_ok.mp (of_send h)
  rfl

end Succeed

/-! ### What the requests keep -/

/-- What no request of its own can break. -/
structure InventoryTables.Stable (P : InventoryTables → Prop) : Prop where
  warehouses : ∀ {t : InventoryTables} w, P t → P (t.setWarehouses w)
  current : ∀ {t : InventoryTables} c, P t → P (t.setCurrent c)
  warehouseIds : ∀ {t : InventoryTables} f, P t → P (t.setWarehouseIds f)
  settled : ∀ {t : InventoryTables} {batchId batch}, batch.status ≠ .pending → P t →
    P (t.setBatch batchId batch)
  insertBatch : ∀ {t t' : InventoryTables} {batchId batch}, P t →
    t.insertBatch? batchId batch = some t' → P t'
  insertItems : ∀ {t t' t'' : InventoryTables} {batchId batch items}, P t →
    t.insertBatch? batchId batch = some t' → (∀ item ∈ items, item.batchId = batchId) →
    t'.insertItems? items = some t'' → P t''

section Keeps

variable {refuses : InventoryStatement → Option String} {P : InventoryTables → Prop}

theorem keeps_send {Q : InventoryDb → Prop} (statement : InventoryStatement) :
    Keeps Q (send refuses statement) := by
  unfold send
  cases refuses statement with
  | none => exact keeps_pure
  | some message => exact keeps_fail

theorem keeps_writeTables {f : InventoryTables → InventoryTables} (h : ∀ t, P t → P (f t)) :
    Keeps (fun db => P db.tables) (writeTables f) := keeps_change fun db => h db.tables

theorem keeps_tryTables {f : InventoryTables → Option InventoryTables}
    (h : ∀ t t', P t → f t = some t' → P t') : Keeps (fun db => P db.tables) (tryTables f) := by
  refine keeps_attempt fun db db' hP hf => ?_
  obtain ⟨tables, ht, rfl⟩ := Option.map_eq_some_iff.mp hf
  exact h _ _ hP ht

theorem keeps_nextWarehouseId : Keeps (fun db => P db.tables) nextWarehouseId :=
  keeps_read.bind fun _ => Keeps.bind (keeps_change fun _ h => h) fun _ => keeps_pure

theorem keeps_nextBatchId : Keeps (fun db => P db.tables) nextBatchId :=
  keeps_read.bind fun _ => Keeps.bind (keeps_change fun _ h => h) fun _ => keeps_pure

theorem keeps_nextCurrentId (count : ℕ) : Keeps (fun db => P db.tables) (nextCurrentId count) :=
  keeps_read.bind fun _ => Keeps.bind (keeps_change fun _ h => h) fun _ => keeps_pure

variable (hP : InventoryTables.Stable P)

include hP

theorem keeps_insertWarehouse (warehouse : ThirdPartyWarehouse) :
    Keeps (fun db => P db.tables) (insertWarehouse refuses warehouse) := by
  refine (keeps_send _).bind fun _ => keeps_nextWarehouseId.bind fun id =>
    Keeps.bind ?_ fun _ => keeps_pure
  refine keeps_tryTables fun t t' ht ht' => ?_
  obtain ⟨w, -, rfl⟩ := Option.map_eq_some_iff.mp ht'
  exact hP.warehouses w ht

theorem keeps_updateWarehouse (id : ℕ) (warehouse : ThirdPartyWarehouse) :
    Keeps (fun db => P db.tables) (updateWarehouse refuses id warehouse) := by
  refine (keeps_send _).bind fun _ => keeps_tryTables fun t t' ht ht' => ?_
  obtain ⟨w, -, rfl⟩ := Option.map_eq_some_iff.mp ht'
  exact hP.warehouses w ht

theorem keeps_updateBatch (batchId : ℕ) {batch : ImportBatch} (h : batch.status ≠ .pending) :
    Keeps (fun db => P db.tables) (updateBatch refuses batchId batch) :=
  (keeps_send _).bind fun _ => keeps_writeTables fun _ => hP.settled h

theorem keeps_updateItems (f : BatchItem → Option ℕ) :
    Keeps (fun db => P db.tables) (updateItems refuses f) :=
  (keeps_send _).bind fun _ => keeps_writeTables fun _ => hP.warehouseIds f

theorem keeps_insertCurrent (rows : List CurrentRow) :
    Keeps (fun db => P db.tables) (insertCurrent refuses rows) := by
  refine (keeps_send _).bind fun _ => (keeps_nextCurrentId _).bind fun id =>
    keeps_tryTables fun t t' ht ht' => ?_
  obtain ⟨c, -, rfl⟩ := Option.map_eq_some_iff.mp ht'
  exact hP.current c ht

theorem keeps_writeCurrent (write : UniqueTable (fun row : CurrentRow => row.key) →
    Option (UniqueTable fun row : CurrentRow => row.key))
    (row : CurrentRow) : Keeps (fun db => P db.tables) (writeCurrent refuses write row) := by
  refine (keeps_send _).bind fun _ => keeps_tryTables fun t t' ht ht' => ?_
  obtain ⟨c, -, rfl⟩ := Option.map_eq_some_iff.mp ht'
  exact hP.current c ht

theorem keeps_insertMissing (warehouseByName : Dict String ℕ) (name : String) :
    Keeps (fun db => P db.tables) (insertMissing refuses warehouseByName name) := by
  unfold insertMissing
  split_ifs
  · exact keeps_pure
  · exact (keeps_insertWarehouse hP _).bind fun _ => keeps_pure

theorem keeps_replaceCurrent (rows : List CurrentRow) :
    Keeps (fun db => P db.tables) (replaceCurrent refuses rows) := by
  refine (keeps_send _).bind fun _ => (keeps_writeTables fun _ => hP.current _).bind fun _ => ?_
  split_ifs
  · exact keeps_pure
  · exact keeps_insertCurrent hP _

theorem keeps_applyImport (batchId : ℕ) {batch : ImportBatch} (h : batch.status ≠ .pending)
    (items : List ImportItem) (found : Dict String ℕ) :
    Keeps (fun db => P db.tables) (applyImport refuses batchId batch items found) := by
  refine (keeps_foldlM (keeps_insertMissing hP) _ _).bind fun warehouseByName =>
    (keeps_replaceCurrent hP _).bind fun _ => ?_
  exact (keeps_updateBatch hP batchId h).bind fun _ =>
    (keeps_updateItems hP _).bind fun _ => keeps_pure

theorem keeps_confirmImportBatch (batchId : ℕ) (confirmedBy : Option String) (now : ℤ) :
    Keeps (fun db => P db.tables) (confirmImportBatch refuses batchId confirmedBy now) :=
  keeps_read.bind fun _ => keeps_ofOption.bind fun _ => keeps_require.bind fun _ =>
      keeps_require.bind fun _ =>
    (keeps_send _).bind fun _ => keeps_applyImport hP batchId (by simp) _ _

theorem keeps_expirePendingBatch (batchId : ℕ) :
    Keeps (fun db => P db.tables) (expirePendingBatch refuses batchId) :=
  keeps_read.bind fun _ => keeps_ofOption.bind fun _ => keeps_require.bind fun _ =>
    keeps_updateBatch hP batchId (by simp)

theorem keeps_insertBatch (batch : ImportBatch) :
    Keeps (fun db => P db.tables) (insertBatch refuses batch) :=
  (keeps_send _).bind fun _ => keeps_nextBatchId.bind fun _ =>
    Keeps.bind (keeps_tryTables fun _ _ => hP.insertBatch) fun _ => keeps_pure

omit hP in
theorem insertItems_cases (items : List BatchItem) (db : InventoryDb) :
    (insertItems refuses items db).2.tables = db.tables ∨
    db.tables.insertItems? items = some (insertItems refuses items db).2.tables := by
  unfold insertItems send
  cases refuses (.insertItems items) with
  | some message => exact Or.inl rfl
  | none =>
    show (tryTables (fun tables => tables.insertItems? items) db).2.tables = db.tables ∨
      db.tables.insertItems? items =
        some (tryTables (fun tables => tables.insertItems? items) db).2.tables
    cases h : db.tables.insertItems? items with
    | none => simp [tryTables, attempt, h]
    | some tables => simp [tryTables, attempt, h]

omit hP in
theorem keeps_normalizeThirdPartyCountry {Q : InventoryDb → Prop} (U : CharTable)
    (country : Option String) : Keeps Q (normalizeThirdPartyCountry U country) := by
  cases country with
  | none => exact keeps_pure
  | some country => exact keeps_ofOption.bind fun _ => keeps_pure

theorem keeps_storePreview (filename : String) (createdBy : Option String)
    (parsed : List ParsedRow) :
    Keeps (fun db => P db.tables) (storePreview refuses filename createdBy parsed) := by
  refine (keeps_send _).bind fun _ => keeps_read.bind fun db => ?_
  refine (keeps_insertBatch hP _).bind_of fun db₁ batchId db₂ h₁ h₂ => ?_
  rw [snd_bind_pure]
  rcases insertItems_cases _ db₂ with hsame | hinserted
  · rw [hsame]
    exact hP.insertBatch h₁ (insertBatch_ok h₂)
  · refine hP.insertItems h₁ (insertBatch_ok h₂) (fun item hitem => ?_) hinserted
    obtain ⟨row, -, rfl⟩ := List.mem_map.mp hitem
    rfl

/-- **Every request keeps what is stable.** -/
theorem keeps_run {Content : Type} {U : ReadTable}
    {load : Content → Except String (List (List Cell))} (r : InventoryRequest Content) :
    Keeps (fun db => P db.tables) (r.run refuses U load) := by
  cases r with
  | preview filename content createdBy =>
    exact Keeps.bind (keeps_ofExcept.bind
      fun parsed => keeps_storePreview hP filename createdBy parsed) fun _ => keeps_pure
  | confirm batchId confirmedBy now =>
    exact (keeps_confirmImportBatch hP batchId confirmedBy now).bind fun _ => keeps_pure
  | cancel batchId => exact keeps_expirePendingBatch hP batchId
  | upsertItem warehouseId commoditySku available reserved =>
    exact keeps_read.bind fun _ => keeps_require.bind fun _ => (keeps_nextCurrentId 1).bind fun _ =>
      keeps_writeCurrent hP _ _
  | patchItem itemId warehouseId commoditySku available reserved =>
    exact keeps_read.bind fun _ => keeps_ofOption.bind fun _ => keeps_require.bind fun _ =>
      (keeps_writeCurrent hP _ _).mapError
  | deleteItem itemId =>
    exact keeps_read.bind fun _ => keeps_require.bind fun _ => (keeps_send _).bind fun _ =>
      keeps_writeTables fun _ => hP.current _
  | createWarehouse name country =>
    exact (keeps_normalizeThirdPartyCountry _ _).bind fun _ =>
        Keeps.mapError ((keeps_insertWarehouse hP _).bind fun _ =>
      keeps_updateItems hP _)
  | patchWarehouse id name country =>
    refine keeps_read.bind fun _ => keeps_ofOption.bind fun _ => Keeps.bind ?_ fun _ =>
      Keeps.mapError
      ((keeps_updateItems hP _).bind fun _ => keeps_updateWarehouse hP _ _)
    cases country with
    | none => exact keeps_pure
    | some country => exact keeps_normalizeThirdPartyCountry _ _
  | deleteWarehouse id =>
    exact keeps_read.bind fun _ => keeps_require.bind fun _ => keeps_require.bind fun _ =>
        (keeps_send _).bind fun _ =>
      keeps_writeTables fun _ => hP.warehouses _

/-- However many requests are served. -/
theorem keeps_serveAll {Content : Type} {U : ReadTable}
    {load : Content → Except String (List (List Cell))} (requests : List (InventoryRequest Content))
    {db : InventoryDb} (h : P db.tables) :
    P (serveAll refuses U load requests db).tables := by
  induction requests generalizing db with
  | nil => exact h
  | cons r requests ih =>
    have hkeeps : Keeps (fun db => P db.tables) (serve (r.run refuses U load)) :=
      (keeps_run hP r).request fun _ _ hs => hs
    exact ih (hkeeps db h)

end Keeps

end Restock
