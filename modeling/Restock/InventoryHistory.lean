/-
# Where the third-party inventory comes from (`services/third_party_inventory.py`)

A row of the current inventory was written by an operator or by the import that was confirmed
last. Warehouses are created and renamed in between, and creating or renaming one sets the
warehouse of the items that have its name and no warehouse yet, in every batch; an applied
batch has no such items among its valid ones. So whatever requests are served, a row that
an import has left has the sums of the valid items of its batch (`traced_serveAll`).

`InventoryEffect` says what a request that succeeds has done to the tables; that it keeps
`Traced` is shown from it.
-/
import Restock.InventoryImport

namespace Restock

open PyText Transaction

/-! ### What the tables say of each other -/

/-- The counts of a batch are those of its items. -/
structure ImportBatch.Counts (batch : ImportBatch) (items : List BatchItem) : Prop where
  row : batch.rowCount = items.length
  valid : batch.validRowCount = (items.filter fun item => item.errorMessage = none).length
  skipped : batch.skippedRowCount = (items.filter fun item => item.errorMessage ≠ none).length

def BatchItem.Nonneg (item : BatchItem) :
    Prop := 0 ≤ item.available.getD 0 ∧ 0 ≤ item.reserved.getD 0

namespace InventoryTables

def batchItems (t : InventoryTables) (batchId : ℕ) :
    List BatchItem := t.items.filter fun item => item.batchId = batchId

/-- The valid items of a batch for a warehouse and a SKU. -/
def sourceItems (t : InventoryTables) (batchId : ℕ) (key : ℕ × String) : List ImportItem :=
  ((t.batchItems batchId).filter fun item =>
    item.valid = true ∧ item.warehouseId = some key.1 ∧ item.commoditySku = some key.2).map
      BatchItem.toImportItem

/-- The row has the sums of the batch. -/
structure FromBatch (t : InventoryTables) (batchId : ℕ) (row : CurrentRow) : Prop where
  source : row.sourceBatchId = some batchId
  applied : ∃ batch, t.batches.get? batchId = some batch ∧ batch.status = .applied
  items : t.sourceItems batchId row.key ≠ []
  available : row.available =
    ((t.sourceItems batchId row.key).map fun item => item.available.getD 0).sum
  reserved : row.reserved =
    ((t.sourceItems batchId row.key).map fun item => item.reserved.getD 0).sum

/-- What every request keeps. -/
structure Traced (t : InventoryTables) : Prop where
  located : ∀ id row, t.current.get? id = some row →
    (t.warehouses.get? row.warehouseId).isSome = true
  itemLocated : ∀ item ∈ t.items, ∀ w, item.warehouseId = some w →
    (t.warehouses.get? w).isSome = true
  manual : ∀ id row, t.current.get? id = some row → row.lastOperation = .manual →
    row.sourceBatchId = none
  imported : ∀ id row, t.current.get? id = some row → row.lastOperation = .import →
    ∃ batchId, t.FromBatch batchId row
  one : ∀ id id' row row', t.current.get? id = some row → t.current.get? id' = some row' →
    row.sourceBatchId.isSome = true → row'.sourceBatchId.isSome = true →
      row.sourceBatchId = row'.sourceBatchId
  nonneg : ∀ id row, t.current.get? id = some row → 0 ≤ row.available ∧ 0 ≤ row.reserved
  itemNonneg : ∀ item ∈ t.items, item.Nonneg
  placed : ∀ item ∈ t.items, item.valid = true → ∀ batch, t.batches.get? item.batchId = some batch →
    batch.status = .applied → item.warehouseId.isSome = true
  counts : ∀ batchId batch, t.batches.get? batchId = some batch →
    batch.Counts (t.batchItems batchId)
  confirmed : ∀ batchId batch, t.batches.get? batchId = some batch →
    (batch.confirmedAt.isSome = true ↔ batch.status = .applied)

end InventoryTables

/-! ### What a request does -/

/-- `ge=0` of the request bodies. -/
def InventoryRequest.Checked {Content : Type} : InventoryRequest Content → Prop
  | .upsertItem _ _ available reserved => 0 ≤ available ∧ 0 ≤ reserved
  | .patchItem _ _ _ available reserved => 0 ≤ available.getD 0 ∧ 0 ≤ reserved.getD 0
  | _ => True

/-- No warehouse is gone. -/
def WarehousesGrow (w w' : UniqueTable ThirdPartyWarehouse.name) : Prop :=
  ∀ id, (w.get? id).isSome = true → (w'.get? id).isSome = true

/-- The batch and the items of a preview. -/
structure PreviewOf (t : InventoryTables) (batchId : ℕ) (batch : ImportBatch)
    (items : List BatchItem) : Prop where
  pending : batch.status = .pending
  unconfirmed : batch.confirmedAt = none
  batch_eq : ∀ item ∈ items, item.batchId = batchId
  counts : batch.Counts items
  located : ∀ item ∈ items, ∀ w, item.warehouseId = some w → (t.warehouses.get? w).isSome = true
  nonneg : ∀ item ∈ items, item.Nonneg

/-- The warehouses and the rows of a confirmation. -/
structure ConfirmOf (t : InventoryTables) (batchId : ℕ) (known : Dict String ℕ)
    (w : UniqueTable ThirdPartyWarehouse.name) (c : UniqueTable fun row : CurrentRow => row.key) :
    Prop where
  grow : WarehousesGrow t.warehouses w
  knows : ∀ name id, known.get? name = some id → (w.get? id).isSome = true
  names : ∀ item ∈ t.batchItems batchId, item.valid = true →
    (known.get? item.warehouseNameRaw).isSome = true
  rows : ∀ row, (∃ id, c.get? id = some row) ↔
    row ∈ importValues batchId known ((t.itemRows batchId).map BatchItem.toImportItem)

/-- A row that an operator has written. -/
structure WrittenRow (t : InventoryTables) (row : CurrentRow) : Prop where
  source : row.sourceBatchId = none
  operation : row.lastOperation = .manual
  located : (t.warehouses.get? row.warehouseId).isSome = true
  nonneg : 0 ≤ row.available ∧ 0 ≤ row.reserved

/-- The warehouses of the items after `sync_import_items_warehouse_id`. -/
def syncedWarehouse (id : ℕ) (name : String) (item : BatchItem) : Option ℕ :=
  if item.warehouseNameRaw = name ∧ item.warehouseId = none ∧ item.errorMessage = none then some id
  else item.warehouseId

/-- What a request that succeeds has done to the tables. -/
inductive InventoryEffect (t : InventoryTables) : InventoryTables → Prop
  | preview {t₁ t' : InventoryTables} {batchId : ℕ} {batch : ImportBatch} {items : List BatchItem}
      (h : PreviewOf t batchId batch items) (hbatch : t.insertBatch? batchId batch = some t₁)
      (hitems : t₁.insertItems? items = some t') : InventoryEffect t t'
  | confirm {batchId : ℕ} {old batch : ImportBatch} {known : Dict String ℕ}
      {w : UniqueTable ThirdPartyWarehouse.name}
      {c : UniqueTable fun row : CurrentRow => row.key} (hold : t.batches.get? batchId = some old)
      (hbatch : ∃ confirmedBy now,
        batch = { old with status := .applied, confirmedBy := confirmedBy, confirmedAt := some now })
      (h : ConfirmOf t batchId known w c) :
      InventoryEffect t ((((t.setWarehouses w).setCurrent c).setBatch batchId batch).setWarehouseIds
        (confirmedWarehouse batchId known))
  | cancel {batchId : ℕ} {old : ImportBatch} (hold : t.batches.get? batchId = some old)
      (hpending : old.status = .pending) :
      InventoryEffect t (t.setBatch batchId { old with status := .expired })
  | write {c : UniqueTable fun row : CurrentRow => row.key} {row : CurrentRow}
      (h : WrittenRow t row)
      (hrows : ∀ id row', c.get? id = some row' → row' = row ∨ t.current.get? id = some row') :
        InventoryEffect t (t.setCurrent c)
  | deleteItem (itemId : ℕ) : InventoryEffect t (t.setCurrent (t.current.delete itemId))
  | warehouse {w : UniqueTable ThirdPartyWarehouse.name} (id : ℕ) (name : String)
      (hid : (w.get? id).isSome = true)
      (hgrow : WarehousesGrow t.warehouses w) :
        InventoryEffect t ((t.setWarehouses w).setWarehouseIds (syncedWarehouse id name))
  | deleteWarehouse {id : ℕ} (hrows : ∀ i row, t.current.get? i = some row → row.warehouseId ≠ id)
      (hitems : ∀ item ∈ t.items, item.warehouseId ≠ some id) :
        InventoryEffect t (t.setWarehouses (t.warehouses.delete id))

/-! ### Every request has one of the effects -/

section Effect

variable {refuses : InventoryStatement → Option String} {db db' : InventoryDb} {u : Unit}

theorem grow_insert? {w w' : UniqueTable ThirdPartyWarehouse.name} {id : ℕ}
    {row : ThirdPartyWarehouse} (h : w.insert? id row = some w') :
    WarehousesGrow w w' ∧ (w'.get? id).isSome = true := by
  obtain ⟨-, hget⟩ := UniqueTable.insert?_eq_some h
  refine ⟨fun id' hid => ?_, by rw [hget, if_pos rfl]; rfl⟩
  rw [hget]
  split_ifs
  · rfl
  · exact hid

theorem get?_update? {K R : Type} [DecidableEq K] {key : R → K} {w w' : UniqueTable key}
    {id : ℕ} {row : R} (h : w.update? id row = some w') (id' : ℕ) :
    w'.get? id' = if id' = id then some row else w.get? id' := by
  unfold UniqueTable.update? at h
  split_ifs at h with hfree
  obtain rfl := Option.some.inj h
  exact UniqueTable.get?_put hfree id'

/-- The loop of a confirmation only adds warehouses. -/
theorem insertMissing_grow {known known' : Dict String ℕ} (names : List String)
    (h : names.foldlM (insertMissing refuses) known db = (.ok known', db')) :
    ∃ w, db'.tables = db.tables.setWarehouses w ∧ WarehousesGrow db.tables.warehouses w := by
  induction names generalizing known db with
  | nil =>
    obtain ⟨rfl, rfl⟩ := pure_eq_ok.mp h
    exact ⟨db.tables.warehouses, rfl, fun _ hid => hid⟩
  | cons name names ih =>
    rw [List.foldlM_cons] at h
    obtain ⟨known₁, db₁, hstep, h⟩ := bind_eq_ok.mp h
    obtain ⟨w', htables, hgrow⟩ := ih h
    unfold insertMissing at hstep
    split_ifs at hstep with hname
    · obtain ⟨-, rfl⟩ := pure_eq_ok.mp hstep
      exact ⟨w', htables, hgrow⟩
    · obtain ⟨id, db₂, hinsert, hstep⟩ := bind_eq_ok.mp hstep
      obtain ⟨-, rfl⟩ := pure_eq_ok.mp hstep
      obtain ⟨w, hw, hset⟩ := insertWarehouse_ok hinsert
      rw [hset] at htables hgrow
      exact ⟨w', htables, fun id hid => hgrow id ((grow_insert? hw).1 id hid)⟩

theorem confirm_effect {batchId : ℕ} {confirmedBy : Option String} {now : ℤ} {batch : ImportBatch}
    (h : confirmImportBatch refuses batchId confirmedBy now db = (.ok batch, db')) :
    InventoryEffect db.tables db'.tables := by
  obtain ⟨db₀, db₁, hread, h⟩ := bind_eq_ok.mp h
  obtain ⟨rfl, rfl⟩ := read_eq_ok.mp hread
  obtain ⟨old, db₂, hget, h⟩ := bind_eq_ok.mp h
  obtain ⟨hold, rfl⟩ := ofOption_eq_ok.mp hget
  obtain ⟨_, db₃, hpending, h⟩ := bind_eq_ok.mp h
  obtain ⟨-, rfl⟩ := require_eq_ok.mp hpending
  obtain ⟨_, db₄, hvalid, h⟩ := bind_eq_ok.mp h
  obtain ⟨-, rfl⟩ := require_eq_ok.mp hvalid
  obtain ⟨known, db₅, hloop, h⟩ := bind_eq_ok.mp (of_send h)
  obtain ⟨_, db₆, hreplace, h⟩ := bind_eq_ok.mp h
  obtain ⟨_, db₇, hbatch, h⟩ := bind_eq_ok.mp h
  obtain ⟨_, db₈, hids, h⟩ := bind_eq_ok.mp h
  obtain ⟨-, rfl⟩ := pure_eq_ok.mp h
  obtain ⟨hknows, hnames, -, -⟩ := insertMissing_loop _ (knows_idsAmong _ _) hloop
  obtain ⟨w, hw, hgrow⟩ := insertMissing_grow _ hloop
  obtain ⟨c, hc, hrows⟩ := replaceCurrent_ok hreplace
  rw [updateItems_ok hids, updateBatch_ok hbatch, hc, hw]
  rw [hw] at hknows
  refine .confirm hold ⟨confirmedBy, now, rfl⟩
    ⟨hgrow, fun name id hid => ?_, fun item hitem hv => ?_, hrows⟩
  · obtain ⟨row, hrow, -⟩ := UniqueTable.idOf_eq_some_iff.mp (hknows name id hid)
    show (w.get? id).isSome = true
    rw [show w.get? id = some row from hrow]
    rfl
  · have hmem : item.toImportItem ∈ (db.tables.itemRows batchId).map BatchItem.toImportItem :=
      List.mem_map_of_mem ((List.mem_insertionSort _).mpr hitem)
    exact hnames _ (mem_importNames hmem hv)

theorem nonneg_of_parseRow {U : ReadTable} {index : Dict String ℕ} {row : List Cell} {rowNo : ℕ}
    {parsed : ParsedRow} (h : parseRow U index rowNo row = .ok parsed) :
    0 ≤ parsed.available.getD 0 ∧ 0 ≤ parsed.reserved.getD 0 := by
  have hquantity : ∀ {value : Cell} {fieldName : String} {q : Except String ℤ},
      parseQuantity U value fieldName = .ok q → 0 ≤ q.toOption.getD 0 := by
    intro value fieldName q hq
    unfold parseQuantity at hq
    split_ifs at hq
    · rw [← Except.ok.inj hq]
      exact le_rfl
    · cases hread : value.readInt U with
      | error e =>
        rw [hread] at hq
        cases hq
      | ok read =>
        rw [hread] at hq
        have hcheck : checkQuantity fieldName read = q := Except.ok.inj hq
        cases q with
        | error message => exact le_rfl
        | ok n => exact (checkQuantity_eq_ok_iff.mp hcheck).2
  obtain ⟨available, reserved, ha, hr, rfl⟩ := parseRow_ok h
  unfold parsedRow
  simp only
  split_ifs
  · exact ⟨hquantity ha, hquantity hr⟩
  · exact ⟨le_rfl, le_rfl⟩

theorem parsed_nonneg {Content : Type} {U : ReadTable}
    {load : Content → Except String (List (List Cell))} {content : Option Content}
    {parsed : List ParsedRow} (h : parseThirdPartyInventoryWorkbook U load content = .ok parsed) :
    ∀ row ∈ parsed, 0 ≤ row.available.getD 0 ∧ 0 ≤ row.reserved.getD 0 := by
  have hsheet : ∃ sheet, parseSheet U sheet = .ok parsed := by
    unfold parseThirdPartyInventoryWorkbook at h
    split at h
    · cases h
    · split at h
      · cases h
      · exact ⟨_, h⟩
  obtain ⟨sheet, hsheet⟩ := hsheet
  obtain ⟨index, rows, hmap⟩ := parseSheet_ok hsheet
  intro row hrow
  obtain ⟨e, -, he⟩ := Checked.exists_of_forall₂ (Checked.mapM_ok _ hmap) hrow
  exact nonneg_of_parseRow he

theorem length_filter_ne {α β : Type} [DecidableEq β] (f : α → β) (b : β) (l : List α) :
    l.length - (l.filter fun a => f a = b).length = (l.filter fun a => f a ≠ b).length := by
  have hsum := List.length_eq_length_filter_add (l := l) (fun a => decide (f a = b))
  have hne : (l.filter fun a => !decide (f a = b)) = l.filter fun a => f a ≠ b :=
    List.filter_congr fun a _ => by simp
  rw [hne] at hsum
  omega

theorem preview_effect {Content : Type} {U : ReadTable}
    {load : Content → Except String (List (List Cell))} {filename : String}
    {content : Option Content} {createdBy : Option String} {batchId : ℕ}
    (h : createImportPreview refuses U load filename content createdBy db = (.ok batchId, db')) :
    InventoryEffect db.tables db'.tables := by
  obtain ⟨parsed, db₀, hparse, h⟩ := bind_eq_ok.mp h
  obtain ⟨hparsed, rfl⟩ := ofExcept_eq_ok.mp hparse
  have hrows : parseThirdPartyInventoryWorkbook U load content = .ok parsed := by
    cases hresult : parseThirdPartyInventoryWorkbook U load content with
    | error e =>
      rw [hresult] at hparsed
      cases hparsed
    | ok rows =>
      rw [hresult] at hparsed
      exact congrArg _ (Except.ok.inj hparsed)
  obtain ⟨db₁, db₂, hread, h⟩ := bind_eq_ok.mp (of_send h)
  obtain ⟨rfl, rfl⟩ := read_eq_ok.mp hread
  obtain ⟨id, db₃, hbatch, h⟩ := bind_eq_ok.mp h
  obtain ⟨_, db₄, hitems, h⟩ := bind_eq_ok.mp h
  obtain ⟨-, rfl⟩ := pure_eq_ok.mp h
  refine .preview ⟨rfl, rfl, fun item hitem => ?_, ⟨?_, ?_, ?_⟩, fun item hitem w hw => ?_,
    fun item hitem => ?_⟩
    (insertBatch_ok hbatch) (insertItems_ok hitems)
  · obtain ⟨row, -, rfl⟩ := List.mem_map.mp hitem
    rfl
  · rw [List.length_map]
    rfl
  · rw [List.filter_map, List.length_map]
    rfl
  · rw [List.filter_map, List.length_map]
    exact length_filter_ne ParsedRow.errorMessage none parsed
  · obtain ⟨row, -, rfl⟩ := List.mem_map.mp hitem
    obtain ⟨warehouse, hwarehouse, -⟩ :=
      UniqueTable.idOf_eq_some_iff.mp (UniqueTable.get?_idsAmong.mp hw).2
    rw [hwarehouse]
    rfl
  · obtain ⟨row, hrow, rfl⟩ := List.mem_map.mp hitem
    exact parsed_nonneg hrows row hrow

/-- An update of a row of the inventory, or a row under a new id. -/
theorem write_effect {write : UniqueTable (fun row : CurrentRow => row.key) → Option (UniqueTable fun row : CurrentRow => row.key)}
    {row : CurrentRow} (hrow : WrittenRow db.tables row)
    (hwrite : ∀ c, write db.tables.current = some c → ∀ id row', c.get? id = some row' →
      row' = row ∨ db.tables.current.get? id = some row')
    (h : writeCurrent refuses write row db = (.ok u, db')) :
    InventoryEffect db.tables db'.tables := by
  obtain ⟨tables, ht, rfl⟩ := tryTables_eq_ok.mp (of_send h)
  obtain ⟨c, hc, rfl⟩ := Option.map_eq_some_iff.mp ht
  exact .write hrow (hwrite c hc)

theorem upsert_effect {warehouseId : ℕ} {commoditySku : String} {available reserved : ℤ}
    (hchecked : 0 ≤ available ∧ 0 ≤ reserved)
    (h : upsertCurrentItem refuses warehouseId commoditySku available reserved db = (.ok u, db')) :
    InventoryEffect db.tables db'.tables := by
  obtain ⟨db₀, db₁, hread, h⟩ := bind_eq_ok.mp h
  obtain ⟨rfl, rfl⟩ := read_eq_ok.mp hread
  obtain ⟨_, db₂, hthere, h⟩ := bind_eq_ok.mp h
  obtain ⟨hlocated, rfl⟩ := require_eq_ok.mp hthere
  obtain ⟨id, db₃, hid, h⟩ := bind_eq_ok.mp h
  have hsame := tables_nextCurrentId hid
  rw [← hsame] at hlocated ⊢
  refine write_effect ⟨rfl, rfl, hlocated, hchecked⟩ (fun c hc id' row' hrow' => ?_) h
  cases hold : db₃.tables.current.idOf
      (⟨⟨warehouseId, commoditySku, available, reserved⟩, none, .manual⟩ : CurrentRow).key with
  | none =>
    rw [hold] at hc
    rw [(UniqueTable.insert?_eq_some hc).2] at hrow'
    split_ifs at hrow'
    · exact Or.inl (Option.some.inj hrow').symm
    · exact Or.inr hrow'
  | some old =>
    rw [hold] at hc
    rw [get?_update? hc] at hrow'
    split_ifs at hrow'
    · exact Or.inl (Option.some.inj hrow').symm
    · exact Or.inr hrow'

theorem mapError_eq_ok {α : Type} {g : InventoryError → InventoryError}
    {x : InventoryTransaction α} {a : α} :
    Transaction.mapError g x db = (.ok a, db') ↔ x db = (.ok a, db') := by
  unfold Transaction.mapError
  cases h : x db with
  | mk result s => cases result <;> simp

theorem patchItem_effect {itemId : ℕ} {warehouseId : Option ℕ} {commoditySku : Option String}
    {available reserved : Option ℤ} (ht : db.tables.Traced)
    (hchecked : 0 ≤ available.getD 0 ∧ 0 ≤ reserved.getD 0)
    (h : patchCurrentItem refuses itemId warehouseId commoditySku available reserved db =
    (.ok u, db')) :
    InventoryEffect db.tables db'.tables := by
  obtain ⟨db₀, db₁, hread, h⟩ := bind_eq_ok.mp h
  obtain ⟨rfl, rfl⟩ := read_eq_ok.mp hread
  obtain ⟨item, db₂, hget, h⟩ := bind_eq_ok.mp h
  obtain ⟨hitem, rfl⟩ := ofOption_eq_ok.mp hget
  obtain ⟨_, db₃, hthere, h⟩ := bind_eq_ok.mp h
  obtain ⟨hlocated, rfl⟩ := require_eq_ok.mp hthere
  have hnonneg : ∀ (new : Option ℤ) (old : ℤ), 0 ≤ new.getD 0 → 0 ≤ old → 0 ≤ new.getD old := by
    intro new old hnew hold
    cases new with
    | none => exact hold
    | some n => exact hnew
  obtain ⟨havailable, hreserved⟩ := ht.nonneg itemId item hitem
  refine write_effect ⟨rfl, rfl, hlocated, hnonneg _ _ hchecked.1 havailable,
    hnonneg _ _ hchecked.2 hreserved⟩
    (fun c hc id' row' hrow' => ?_) (mapError_eq_ok.mp h)
  rw [get?_update? hc] at hrow'
  split_ifs at hrow'
  · exact Or.inl (Option.some.inj hrow').symm
  · exact Or.inr hrow'

theorem createWarehouse_effect {U : CharTable} {name : String} {country : Option String}
    (h : createThirdPartyWarehouse refuses U name country db = (.ok u, db')) :
    InventoryEffect db.tables db'.tables := by
  obtain ⟨country', db₁, hcountry, hrest⟩ := bind_eq_ok.mp h
  have hsame : db₁ = db := by
    cases country with
    | none => exact (pure_eq_ok.mp hcountry).2.symm
    | some code =>
      obtain ⟨_, db₂, hcode, hpure⟩ := bind_eq_ok.mp hcountry
      rw [← (pure_eq_ok.mp hpure).2, ← (ofOption_eq_ok.mp hcode).2]
  subst hsame
  obtain ⟨id, db₂, hinsert, hsync⟩ := bind_eq_ok.mp (mapError_eq_ok.mp hrest)
  obtain ⟨w, hw, hset⟩ := insertWarehouse_ok hinsert
  rw [updateItems_ok hsync, hset]
  exact .warehouse id name (grow_insert? hw).2 (grow_insert? hw).1

theorem patchWarehouse_effect {U : CharTable} {id : ℕ} {name : Option String}
    {country : Option (Option String)}
    (h : patchThirdPartyWarehouse refuses U id name country db = (.ok u, db')) :
    InventoryEffect db.tables db'.tables := by
  obtain ⟨db₀, db₁, hread, h⟩ := bind_eq_ok.mp h
  obtain ⟨rfl, rfl⟩ := read_eq_ok.mp hread
  obtain ⟨warehouse, db₂, hget, h⟩ := bind_eq_ok.mp h
  obtain ⟨-, rfl⟩ := ofOption_eq_ok.mp hget
  obtain ⟨country', db₃, hcountry, hrest⟩ := bind_eq_ok.mp h
  have hsame : db₃ = db := by
    cases country with
    | none => exact (pure_eq_ok.mp hcountry).2.symm
    | some given =>
      cases given with
      | none => exact (pure_eq_ok.mp hcountry).2.symm
      | some code =>
        obtain ⟨_, db₄, hcode, hpure⟩ := bind_eq_ok.mp hcountry
        rw [← (pure_eq_ok.mp hpure).2, ← (ofOption_eq_ok.mp hcode).2]
  subst hsame
  obtain ⟨_, db₄, hsync, hupdate⟩ := bind_eq_ok.mp (mapError_eq_ok.mp hrest)
  obtain ⟨tables, htables, rfl⟩ := tryTables_eq_ok.mp (of_send hupdate)
  obtain ⟨w, hw, rfl⟩ := Option.map_eq_some_iff.mp htables
  rw [updateItems_ok hsync] at hw ⊢
  have hget := get?_update? hw
  refine .warehouse id (name.getD warehouse.name) (by rw [hget, if_pos rfl]; rfl) fun id' hid' => ?_
  rw [hget]
  split_ifs
  · rfl
  · exact hid'

/-- **What every request does.** -/
theorem InventoryRequest.effect {Content : Type} {U : ReadTable}
    {load : Content → Except String (List (List Cell))} {r : InventoryRequest Content}
    (ht : db.tables.Traced) (hr : r.Checked) (h : r.run refuses U load db = (.ok u, db')) :
    InventoryEffect db.tables db'.tables := by
  cases r with
  | preview filename content createdBy =>
    obtain ⟨id, db₁, hpreview, hpure⟩ := bind_eq_ok.mp h
    obtain ⟨-, rfl⟩ := pure_eq_ok.mp hpure
    exact preview_effect hpreview
  | confirm batchId confirmedBy now =>
    obtain ⟨batch, db₁, hconfirm, hpure⟩ := bind_eq_ok.mp h
    obtain ⟨-, rfl⟩ := pure_eq_ok.mp hpure
    exact confirm_effect hconfirm
  | cancel batchId =>
    obtain ⟨db₀, db₁, hread, h⟩ := bind_eq_ok.mp h
    obtain ⟨rfl, rfl⟩ := read_eq_ok.mp hread
    obtain ⟨old, db₂, hget, h⟩ := bind_eq_ok.mp h
    obtain ⟨hold, rfl⟩ := ofOption_eq_ok.mp hget
    obtain ⟨_, db₃, hrequire, h⟩ := bind_eq_ok.mp h
    obtain ⟨hpending, rfl⟩ := require_eq_ok.mp hrequire
    rw [updateBatch_ok h]
    exact .cancel hold hpending
  | upsertItem warehouseId commoditySku available reserved => exact upsert_effect hr h
  | patchItem itemId warehouseId commoditySku available reserved => exact patchItem_effect ht hr h
  | deleteItem itemId =>
    obtain ⟨db₀, db₁, hread, h⟩ := bind_eq_ok.mp h
    obtain ⟨rfl, rfl⟩ := read_eq_ok.mp hread
    obtain ⟨_, db₂, hrequire, h⟩ := bind_eq_ok.mp h
    obtain ⟨-, rfl⟩ := require_eq_ok.mp hrequire
    obtain rfl := writeTables_eq_ok.mp (of_send h)
    exact .deleteItem itemId
  | createWarehouse name country => exact createWarehouse_effect h
  | patchWarehouse id name country => exact patchWarehouse_effect h
  | deleteWarehouse id =>
    obtain ⟨db₀, db₁, hread, h⟩ := bind_eq_ok.mp h
    obtain ⟨rfl, rfl⟩ := read_eq_ok.mp hread
    obtain ⟨_, db₂, hrequire, h⟩ := bind_eq_ok.mp h
    obtain ⟨⟨hrows, hitems⟩, rfl⟩ := require_eq_ok.mp hrequire
    obtain ⟨_, db₃, hthere, h⟩ := bind_eq_ok.mp h
    obtain ⟨-, rfl⟩ := require_eq_ok.mp hthere
    obtain rfl := writeTables_eq_ok.mp (of_send h)
    refine .deleteWarehouse (fun i row hrow => ?_) fun item hitem =>
      of_decide_eq_true (List.all_eq_true.mp hitems item hitem)
    have hmem : row ∈ db.tables.current.rows.values :=
      List.mem_map.mpr ⟨(i, row), UniqueTable.mem_items_iff.mpr hrow, rfl⟩
    exact of_decide_eq_true (List.all_eq_true.mp hrows row hmem)

end Effect

/-! ### The effects keep it -/

namespace InventoryTables

variable {t t' : InventoryTables} {batchId : ℕ} {row : CurrentRow} {f : BatchItem → Option ℕ}

theorem batchItems_setWarehouseIds (t : InventoryTables) (f : BatchItem → Option ℕ) (batchId : ℕ) :
    (t.setWarehouseIds f).batchItems batchId = (t.batchItems batchId).map fun item =>
    { item with warehouseId := f item } :=
  List.filter_map ..

theorem sourceItems_setWarehouseIds (t : InventoryTables) (f : BatchItem → Option ℕ) (batchId : ℕ)
    (key : ℕ × String) :
    (t.setWarehouseIds f).sourceItems batchId key = ((t.batchItems batchId).filter fun item =>
      item.valid = true ∧ f item = some key.1 ∧ item.commoditySku = some key.2).map
          BatchItem.toImportItem := by
  unfold sourceItems
  rw [batchItems_setWarehouseIds, List.filter_map, List.map_map]
  rfl

theorem mem_batchItems {item : BatchItem} :
    item ∈ t.batchItems batchId ↔ item ∈ t.items ∧ item.batchId = batchId := by
  unfold batchItems
  rw [List.mem_filter, decide_eq_true_eq]

/-- A batch that still has its items and its status. -/
theorem FromBatch.congr (h : t.FromBatch batchId row)
    (hitems : t'.sourceItems batchId row.key = t.sourceItems batchId row.key)
    (happlied : ∃ batch, t'.batches.get? batchId = some batch ∧ batch.status = .applied) :
    t'.FromBatch batchId row := by
  refine ⟨h.source, happlied, ?_, ?_, ?_⟩
  · rw [hitems]
    exact h.items
  · rw [hitems]
    exact h.available
  · rw [hitems]
    exact h.reserved

theorem counts_setWarehouseIds {batch : ImportBatch} (h : batch.Counts (t.batchItems batchId)) :
    batch.Counts ((t.setWarehouseIds f).batchItems batchId) := by
  rw [batchItems_setWarehouseIds]
  refine ⟨?_, ?_, ?_⟩
  · rw [List.length_map]
    exact h.row
  · rw [List.filter_map, List.length_map]
    exact h.valid
  · rw [List.filter_map, List.length_map]
    exact h.skipped

/-- Creating or renaming a warehouse. -/
theorem Traced.sync (h : t.Traced) {w : UniqueTable ThirdPartyWarehouse.name} {id : ℕ}
    (name : String) (hid : (w.get? id).isSome = true) (hgrow : WarehousesGrow t.warehouses w) :
    ((t.setWarehouses w).setWarehouseIds (syncedWarehouse id name)).Traced := by
  have hkeeps : ∀ item ∈ t.items, item.warehouseId.isSome = true →
      syncedWarehouse id name item = item.warehouseId := by
    intro item _ hsome
    refine if_neg fun hsync => ?_
    rw [hsync.2.1] at hsome
    cases hsome
  refine ⟨fun i row hrow => hgrow _ (h.located i row hrow), fun item hitem w' hw' => ?_, h.manual,
    fun i row hrow himport => ?_, h.one, h.nonneg, fun item hitem => ?_,
    fun item hitem hvalid batch hbatch happlied => ?_,
    fun b batch hbatch => counts_setWarehouseIds (h.counts b batch hbatch), h.confirmed⟩
  · obtain ⟨old, hold, rfl⟩ := List.mem_map.mp hitem
    have hsynced : syncedWarehouse id name old = some w' := hw'
    unfold syncedWarehouse at hsynced
    split_ifs at hsynced
    · rw [← Option.some.inj hsynced]
      exact hid
    · exact hgrow _ (h.itemLocated old hold w' hsynced)
  · obtain ⟨b, hfrom⟩ := h.imported i row hrow himport
    obtain ⟨batch, hbatch, happlied⟩ := hfrom.applied
    refine ⟨b, hfrom.congr ?_ ⟨batch, hbatch, happlied⟩⟩
    rw [sourceItems_setWarehouseIds]
    refine congrArg _ (List.filter_congr fun item hitem => ?_)
    obtain ⟨hin, hb⟩ := mem_batchItems.mp hitem
    by_cases hvalid : item.valid = true
    · rw [hkeeps item hin (h.placed item hin hvalid batch (hb ▸ hbatch) happlied)]
    · simp only [hvalid, Bool.false_eq_true, false_and]
  · obtain ⟨old, hold, rfl⟩ := List.mem_map.mp hitem
    exact h.itemNonneg old hold
  · obtain ⟨old, hold, rfl⟩ := List.mem_map.mp hitem
    have hsome := h.placed old hold hvalid batch hbatch happlied
    show (syncedWarehouse id name old).isSome = true
    rw [hkeeps old hold hsome]
    exact hsome

/-! Confirmations -/

section Confirm

variable {known : Dict String ℕ}

/-- The items of the batch that has been confirmed are those that its rows were made of. -/
theorem sourceItems_confirmed (t : InventoryTables) (batchId : ℕ) (known : Dict String ℕ)
    (key : ℕ × String) :
    ((t.setWarehouseIds (confirmedWarehouse batchId known)).sourceItems batchId key).Perm
      (itemsAt known.get? ((t.itemRows batchId).map BatchItem.toImportItem) key) := by
  have hitems : (itemsAt known.get? ((t.itemRows batchId).map BatchItem.toImportItem) key).Perm
      (itemsAt known.get? ((t.batchItems batchId).map BatchItem.toImportItem) key) :=
    ((List.perm_insertionSort _ _).map _).filter _
  refine List.Perm.trans (List.Perm.of_eq ?_) hitems.symm
  rw [sourceItems_setWarehouseIds]
  unfold itemsAt
  rw [List.filter_map]
  refine congrArg _ (List.filter_congr fun item hitem => ?_)
  obtain ⟨-, hb⟩ := mem_batchItems.mp hitem
  rw [Bool.eq_iff_iff, decide_eq_true_eq]
  simp only [Function.comp_apply, Bool.and_eq_true, decide_eq_true_eq]
  by_cases hvalid : item.valid = true
  · obtain ⟨sku, hsku⟩ := commoditySku_of_valid hvalid
    have hconfirmed : confirmedWarehouse batchId known item = known.get? item.warehouseNameRaw :=
      if_pos ⟨hb, hvalid⟩
    rw [hconfirmed, hsku, Option.getD_some, Option.some.injEq, and_assoc]
  · simp only [hvalid, Bool.false_eq_true, false_and]

theorem sum_nonneg_of {items : List ImportItem} (g : ImportItem → ℤ)
    (h : ∀ item ∈ items, 0 ≤ g item) : 0 ≤ (items.map g).sum :=
  List.sum_nonneg fun x hx => by
    obtain ⟨item, hitem, rfl⟩ := List.mem_map.mp hx
    exact h item hitem

theorem Traced.confirm (h : t.Traced) {old batch : ImportBatch}
    {w : UniqueTable ThirdPartyWarehouse.name} {c : UniqueTable fun row : CurrentRow => row.key}
    (hold : t.batches.get? batchId = some old)
    (hbatch : ∃ confirmedBy now,
    batch = { old with status := .applied, confirmedBy := confirmedBy, confirmedAt := some now })
    (hc : ConfirmOf t batchId known w c) :
    ((((t.setWarehouses w).setCurrent c).setBatch batchId batch).setWarehouseIds
      (confirmedWarehouse batchId known)).Traced := by
  obtain ⟨confirmedBy, now, hnew⟩ := hbatch
  have happlied : batch.status = .applied := by rw [hnew]
  set t₁ := ((t.setWarehouses w).setCurrent c).setBatch batchId batch with ht₁
  have hsource : ∀ {i : ℕ} {row : CurrentRow}, c.get? i = some row →
      row.sourceBatchId = some batchId ∧ row.lastOperation = .import ∧
      (t₁.setWarehouseIds (confirmedWarehouse batchId known)).FromBatch batchId row := by
    intro i row hrow
    obtain ⟨htotal, hsource, hoperation⟩ := mem_importValues.mp ((hc.rows row).mp ⟨i, hrow⟩)
    obtain ⟨hne, havailable, hreserved⟩ := batchTotal_eq_some.mp htotal
    have hperm := sourceItems_confirmed t₁ batchId known row.key
    refine ⟨hsource, hoperation, hsource, ⟨batch, Dict.get?_set_self _ _ _, happlied⟩,
      fun hnil => ?_, ?_, ?_⟩
    · rw [hnil] at hperm
      exact hne hperm.symm.eq_nil
    · rw [havailable]
      exact (hperm.map _).sum_eq.symm
    · rw [hreserved]
      exact (hperm.map _).sum_eq.symm
  have hget : ∀ b, t₁.batches.get? b = if b = batchId then some batch else t.batches.get? b :=
    fun b => Dict.get?_set _ _ _ _
  refine ⟨fun i row hrow => ?_, fun item hitem w' hw' => ?_, fun i row hrow hmanual => ?_,
    fun i row hrow _ => ?_, fun i i' row row' hrow hrow' _ _ => ?_, fun i row hrow => ?_,
    fun item hitem => ?_,
    fun item hitem hvalid other hother hstatus => ?_, fun b other hother => ?_,
      fun b other hother => ?_⟩
  · obtain ⟨htotal, -⟩ := mem_importValues.mp ((hc.rows row).mp ⟨i, hrow⟩)
    obtain ⟨item, hitem⟩ := List.exists_mem_of_ne_nil _ (batchTotal_eq_some.mp htotal).1
    have hknown := (List.mem_filter.mp hitem).2
    simp only [Bool.and_eq_true, decide_eq_true_eq] at hknown
    exact hc.knows _ _ hknown.1.2
  · obtain ⟨own, hown, rfl⟩ := List.mem_map.mp hitem
    have hw : confirmedWarehouse batchId known own = some w' := hw'
    unfold confirmedWarehouse at hw
    split_ifs at hw
    · exact hc.knows _ _ hw
    · exact hc.grow _ (h.itemLocated own hown w' hw)
  · rw [(hsource hrow).2.1] at hmanual
    cases hmanual
  · exact ⟨batchId, (hsource hrow).2.2⟩
  · rw [(hsource hrow).1, (hsource hrow').1]
  · have hfrom := (hsource hrow).2.2
    have hitems : ∀ item ∈ (t₁.setWarehouseIds (confirmedWarehouse batchId known)).sourceItems batchId row.key,
        0 ≤ item.available.getD 0 ∧ 0 ≤ item.reserved.getD 0 := by
      intro item hitem
      rw [sourceItems_setWarehouseIds] at hitem
      obtain ⟨own, hown, rfl⟩ := List.mem_map.mp hitem
      exact h.itemNonneg own (mem_batchItems.mp (List.mem_filter.mp hown).1).1
    rw [hfrom.available, hfrom.reserved]
    exact ⟨sum_nonneg_of _ fun item hitem => (hitems item hitem).1,
      sum_nonneg_of _ fun item hitem => (hitems item hitem).2⟩
  · obtain ⟨own, hown, rfl⟩ := List.mem_map.mp hitem
    exact h.itemNonneg own hown
  · obtain ⟨own, hown, rfl⟩ := List.mem_map.mp hitem
    show (confirmedWarehouse batchId known own).isSome = true
    unfold confirmedWarehouse
    split_ifs with hb
    · exact hc.names own (mem_batchItems.mpr ⟨hown, hb.1⟩) hb.2
    · have hne : own.batchId ≠ batchId := fun he => hb ⟨he, hvalid⟩
      have hsame : t₁.batches.get? own.batchId = some other := hother
      rw [hget, if_neg hne] at hsame
      exact h.placed own hown hvalid other hsame hstatus
  · refine counts_setWarehouseIds ?_
    have hb : t₁.batches.get? b = some other := hother
    rw [hget] at hb
    split_ifs at hb with he
    · have hcounts := h.counts batchId old hold
      rw [← Option.some.inj hb, hnew, he]
      exact ⟨hcounts.row, hcounts.valid, hcounts.skipped⟩
    · exact h.counts b other hb
  · have hb : t₁.batches.get? b = some other := hother
    rw [hget] at hb
    split_ifs at hb
    · rw [← Option.some.inj hb, hnew]
      exact iff_of_true rfl rfl
    · exact h.confirmed b other hb

end Confirm

/-! The other effects -/

/-- A preview adds a batch of its own. -/
theorem Traced.preview (h : t.Traced) {t₁ : InventoryTables} {batch : ImportBatch}
    {items : List BatchItem} (hp : PreviewOf t batchId batch items)
    (hbatch : t.insertBatch? batchId batch = some t₁) (hitems : t₁.insertItems? items = some t') :
    t'.Traced := by
  obtain ⟨hnew, rfl⟩ := insertBatch?_eq_some hbatch
  obtain ⟨hbatches, hall⟩ := insertItems?_eq_some hitems
  have hkeeps : t'.current = t.current ∧ t'.warehouses = t.warehouses := by
    unfold insertItems? at hitems
    split_ifs at hitems
    rw [← Option.some.inj hitems]
    exact ⟨rfl, rfl⟩
  obtain ⟨hcurrent, hwarehouses⟩ := hkeeps
  have hget : ∀ b, t'.batches.get? b = if b = batchId then some batch else t.batches.get? b := by
    intro b
    rw [hbatches]
    exact get?_setBatch _ _ _ _
  have hown : ∀ item ∈ t.items, item.batchId ≠ batchId := by
    intro item hitem he
    have hthere := t.itemsBatch item hitem
    rw [he, hnew] at hthere
    cases hthere
  have hmem : ∀ {item : BatchItem}, item ∈ t'.items → item ∈ t.items ∨ item ∈ items := by
    intro item hitem
    rw [hall] at hitem
    exact List.mem_append.mp hitem
  have hof : ∀ b, t'.batchItems b = if b = batchId then items else t.batchItems b := by
    intro b
    unfold batchItems
    rw [hall]
    show (t.items ++ items).filter _ = _
    rw [List.filter_append]
    split_ifs with he
    · rw [List.filter_eq_nil_iff.mpr
        fun item hitem => by simpa [he] using hown item hitem, List.nil_append, List.filter_eq_self.mpr fun item hitem => by simpa [he] using hp.batch_eq item hitem]
    · rw [filter_other hp.batch_eq (Ne.symm he), List.append_nil]
  refine ⟨?_, fun item hitem w hw => ?_, ?_, ?_, ?_, ?_, fun item hitem => ?_,
    fun item hitem hvalid other hother hstatus => ?_, fun b other hother => ?_,
    fun b other hother => ?_⟩
  · rw [hcurrent, hwarehouses]
    exact h.located
  · rw [hwarehouses]
    rcases hmem hitem with hold | hin
    · exact h.itemLocated item hold w hw
    · exact hp.located item hin w hw
  · rw [hcurrent]
    exact h.manual
  · rw [hcurrent]
    intro i row hrow himport
    obtain ⟨b, hfrom⟩ := h.imported i row hrow himport
    obtain ⟨other, hother, hstatus⟩ := hfrom.applied
    have hne : b ≠ batchId := by
      intro he
      rw [he, hnew] at hother
      cases hother
    refine ⟨b, hfrom.congr ?_ ⟨other, by rw [hget, if_neg hne, hother], hstatus⟩⟩
    unfold sourceItems
    rw [hof, if_neg hne]
  · rw [hcurrent]
    exact h.one
  · rw [hcurrent]
    exact h.nonneg
  · rcases hmem hitem with hold | hin
    · exact h.itemNonneg item hold
    · exact hp.nonneg item hin
  · rw [hget] at hother
    rcases hmem hitem with hold | hin
    · rw [if_neg (hown item hold)] at hother
      exact h.placed item hold hvalid other hother hstatus
    · rw [if_pos (hp.batch_eq item hin)] at hother
      rw [← Option.some.inj hother, hp.pending] at hstatus
      cases hstatus
  · rw [hget] at hother
    rw [hof]
    split_ifs at hother ⊢ with he
    · rw [← Option.some.inj hother]
      exact hp.counts
    · exact h.counts b other hother
  · rw [hget] at hother
    split_ifs at hother
    · rw [← Option.some.inj hother, hp.pending, hp.unconfirmed]
      exact iff_of_false (by decide) (by decide)
    · exact h.confirmed b other hother

theorem Traced.cancel (h : t.Traced) {old : ImportBatch} (hold : t.batches.get? batchId = some old)
    (hpending : old.status = .pending) :
    (t.setBatch batchId { old with status := .expired }).Traced := by
  have hget : ∀ {b : ℕ} {other : ImportBatch},
      (t.setBatch batchId { old with status := .expired }).batches.get? b = some other →
      (b = batchId ∧ other = { old with status := .expired }) ∨
      (b ≠ batchId ∧ t.batches.get? b = some other) := by
    intro b other hother
    rw [get?_setBatch] at hother
    split_ifs at hother with he
    · exact Or.inl ⟨he, (Option.some.inj hother).symm⟩
    · exact Or.inr ⟨he, hother⟩
  refine ⟨h.located, h.itemLocated, h.manual, fun i row hrow himport => ?_, h.one, h.nonneg,
    h.itemNonneg, fun item hitem hvalid other hother hstatus => ?_, fun b other hother => ?_,
    fun b other hother => ?_⟩
  · obtain ⟨b, hfrom⟩ := h.imported i row hrow himport
    obtain ⟨other, hother, hstatus⟩ := hfrom.applied
    refine ⟨b, hfrom.congr rfl ⟨other, ?_, hstatus⟩⟩
    rw [get?_setBatch, if_neg, hother]
    intro he
    rw [he, hold] at hother
    rw [← Option.some.inj hother, hpending] at hstatus
    cases hstatus
  · rcases hget hother with ⟨-, rfl⟩ | ⟨-, hsame⟩
    · cases hstatus
    · exact h.placed item hitem hvalid other hsame hstatus
  · rcases hget hother with ⟨rfl, rfl⟩ | ⟨-, hsame⟩
    · have hcounts := h.counts _ old hold
      exact ⟨hcounts.row, hcounts.valid, hcounts.skipped⟩
    · exact h.counts b other hsame
  · rcases hget hother with ⟨-, rfl⟩ | ⟨-, hsame⟩
    · have hunconfirmed := h.confirmed _ old hold
      rw [hpending] at hunconfirmed
      exact iff_of_false (fun hsome => absurd (hunconfirmed.mp hsome) (by decide)) fun hstatus =>
        (by cases hstatus)
    · exact h.confirmed b other hsame

/-- Rows that were there, and one that an operator has written. -/
theorem Traced.write (h : t.Traced) {c : UniqueTable fun row : CurrentRow => row.key}
    {own : CurrentRow} (hown : WrittenRow t own)
    (hrows : ∀ id row, c.get? id = some row → row = own ∨ t.current.get? id = some row) :
    (t.setCurrent c).Traced := by
  refine ⟨fun i row hrow => ?_, h.itemLocated, fun i row hrow hmanual => ?_,
    fun i row hrow himport => ?_, fun i i' row row' hrow hrow' hs hs' => ?_, fun i row hrow => ?_,
    h.itemNonneg, h.placed, h.counts, h.confirmed⟩
  · rcases hrows i row hrow with rfl | hold
    · exact hown.located
    · exact h.located i row hold
  · rcases hrows i row hrow with rfl | hold
    · exact hown.source
    · exact h.manual i row hold hmanual
  · rcases hrows i row hrow with rfl | hold
    · rw [hown.operation] at himport
      cases himport
    · obtain ⟨b, hfrom⟩ := h.imported i row hold himport
      exact ⟨b, hfrom.congr rfl hfrom.applied⟩
  · rcases hrows i row hrow with rfl | hold
    · rw [hown.source] at hs
      cases hs
    · rcases hrows i' row' hrow' with rfl | hold'
      · rw [hown.source] at hs'
        cases hs'
      · exact h.one i i' row row' hold hold' hs hs'
  · rcases hrows i row hrow with rfl | hold
    · exact hown.nonneg
    · exact h.nonneg i row hold

theorem Traced.deleteItem (h : t.Traced) (itemId : ℕ) :
    (t.setCurrent (t.current.delete itemId)).Traced := by
  have hrows : ∀ {id : ℕ} {row : CurrentRow}, (t.current.delete itemId).get? id = some row →
      t.current.get? id = some row := by
    intro id row hrow
    exact (Option.filter_eq_some_iff.mp ((Dict.get?_filter _ _ _).symm.trans hrow)).1
  refine ⟨fun i row hrow => h.located i row (hrows hrow), h.itemLocated,
    fun i row hrow => h.manual i row (hrows hrow), fun i row hrow himport => ?_,
    fun i i' row row' hrow hrow' => h.one i i' row row' (hrows hrow) (hrows hrow'),
    fun i row hrow => h.nonneg i row (hrows hrow), h.itemNonneg, h.placed, h.counts, h.confirmed⟩
  obtain ⟨b, hfrom⟩ := h.imported i row (hrows hrow) himport
  exact ⟨b, hfrom.congr rfl hfrom.applied⟩

/-- A warehouse that nothing refers to. -/
theorem Traced.deleteWarehouse (h : t.Traced) {id : ℕ}
    (hrows : ∀ i row, t.current.get? i = some row → row.warehouseId ≠ id)
    (hitems : ∀ item ∈ t.items, item.warehouseId ≠ some id) :
    (t.setWarehouses (t.warehouses.delete id)).Traced := by
  have hget : ∀ w, w ≠ id → (t.warehouses.get? w).isSome = true →
      ((t.warehouses.delete id).get? w).isSome = true := by
    intro w hne hsome
    obtain ⟨warehouse, hwarehouse⟩ := Option.isSome_iff_exists.mp hsome
    have hkept : (t.warehouses.delete id).get? w = some warehouse :=
      (Dict.get?_filter _ _ _).trans
        (Option.filter_eq_some_iff.mpr ⟨hwarehouse, decide_eq_true hne⟩)
    rw [hkept]
    rfl
  refine ⟨fun i row hrow => hget _ (hrows i row hrow) (h.located i row hrow),
    fun item hitem w hw => ?_, h.manual, fun i row hrow himport => ?_, h.one, h.nonneg,
    h.itemNonneg, h.placed, h.counts, h.confirmed⟩
  · refine hget w (fun he => hitems item hitem ?_) (h.itemLocated item hitem w hw)
    rw [hw, he]
  · obtain ⟨b, hfrom⟩ := h.imported i row hrow himport
    exact ⟨b, hfrom.congr rfl hfrom.applied⟩

/-- **Every effect keeps what the tables say of each other.** -/
theorem Traced.effect (h : t.Traced) (he : InventoryEffect t t') : t'.Traced := by
  cases he with
  | preview hp hbatch hitems => exact h.preview hp hbatch hitems
  | confirm hold hbatch hc => exact h.confirm hold hbatch hc
  | cancel hold hpending => exact h.cancel hold hpending
  | write hown hrows => exact h.write hown hrows
  | deleteItem itemId => exact h.deleteItem itemId
  | warehouse id name hid hgrow => exact h.sync name hid hgrow
  | deleteWarehouse hrows hitems => exact h.deleteWarehouse hrows hitems

end InventoryTables

/-! ### Any number of requests -/

section Requests

variable {Content : Type} {U : ReadTable} {load : Content → Except String (List (List Cell))}
  {refuses : InventoryStatement → Option String}

theorem traced_serve {r : InventoryRequest Content} {db : InventoryDb} (h : db.tables.Traced)
    (hr : r.Checked) : (serve (r.run refuses U load) db).2.tables.Traced := by
  cases hserve : serve (r.run refuses U load) db with
  | mk result db' =>
    cases result with
    | ok u => exact h.effect (InventoryRequest.effect h hr (request_eq_ok.mp hserve))
    | error e =>
      rw [tables_of_serve_error hserve]
      exact h

/-- **Every row can be traced.** Whatever requests are served, of any results: a row of the
inventory is an operator's, or it has the sums of the valid items, for its warehouse and SKU,
of the one applied batch that all such rows are from. -/
theorem traced_serveAll (requests : List (InventoryRequest Content))
    (hchecked : ∀ r ∈ requests, r.Checked) {db : InventoryDb} (h : db.tables.Traced) :
    (serveAll refuses U load requests db).tables.Traced := by
  induction requests generalizing db with
  | nil => exact h
  | cons r requests ih =>
    exact ih (fun r' hr' => hchecked r' (List.mem_cons_of_mem _ hr'))
      (traced_serve h (hchecked r List.mem_cons_self))

end Requests

theorem traced_emptyInventory : emptyInventory.tables.Traced :=
  ⟨fun _ _ h => (by cases h), fun _ h => absurd h List.not_mem_nil, fun _ _ h => (by cases h),
    fun _ _ h => (by cases h), fun _ _ _ _ h => (by cases h), fun _ _ h => (by cases h),
    fun _ h => absurd h List.not_mem_nil,
    fun _ h => absurd h List.not_mem_nil, fun _ _ h => (by cases h), fun _ _ h => (by cases h)⟩

/-- A preview, a warehouse of one of its names, the confirmation, an operator's row. -/
def tracedRequests : List (InventoryRequest (List (List Cell))) :=
  [.preview "stock.xlsx" (some importSheet) none, .createWarehouse "V" none, .confirm 1 none 0,
    .upsertItem 1 "C" 7 0]

theorem traced_requests :
    (serveAll (fun _ => none) .ascii (fun sheet => .ok sheet)
    tracedRequests emptyInventory).tables.Traced := by
  refine traced_serveAll tracedRequests (fun r hr => ?_) traced_emptyInventory
  simp only [tracedRequests, List.mem_cons, List.not_mem_nil, or_false] at hr
  rcases hr with rfl | rfl | rfl | rfl
  · trivial
  · trivial
  · trivial
  · exact ⟨by decide, by decide⟩

end Restock
