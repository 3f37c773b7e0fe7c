/-
# Imports of third-party inventory conserve quantities

However many requests are served between the preview of a workbook and its confirmation, the
items of the batch stay the rows that were parsed (`stable_imported`), and a batch that is
settled stays so (`stable_settled`). A confirmation that succeeds knows every warehouse by its
name (`insertMissing_loop`), so it leaves the sums of the valid rows, once for each warehouse
and SKU (`import_conserves`).
-/
import Restock.ThirdPartyInventory

namespace Restock

open PyText Transaction

/-! ### The batch between its requests -/

/-- The items of the batch are the rows that were parsed. -/
structure InventoryTables.Imported (batchId : ℕ) (parsed : List ParsedRow) (t : InventoryTables) :
    Prop where
  batch : (t.batches.get? batchId).isSome = true
  items : (t.items.filter fun item => item.batchId = batchId).map BatchItem.toImportItem =
    parsed.map ParsedRow.item

/-- The batch is no longer to be confirmed. -/
def InventoryTables.Settled (batchId : ℕ) (t : InventoryTables) : Prop :=
  ∃ batch, t.batches.get? batchId = some batch ∧ batch.status ≠ .pending

namespace InventoryTables

variable {t t' : InventoryTables} {batchId id : ℕ} {batch : ImportBatch} {parsed : List ParsedRow}
    {items : List BatchItem}

theorem insertBatch?_eq_some (h : t.insertBatch? id batch = some t') :
    t.batches.get? id = none ∧ t' = t.setBatch id batch := by
  unfold insertBatch? at h
  split_ifs at h with hid
  exact ⟨by simpa using hid, (Option.some.inj h).symm⟩

theorem insertItems?_eq_some (h : t.insertItems? items = some t') :
    t'.batches = t.batches ∧ t'.items = t.items ++ items := by
  unfold insertItems? at h
  split_ifs at h with hitems
  obtain rfl := Option.some.inj h
  exact ⟨rfl, rfl⟩

theorem get?_setBatch (t : InventoryTables) (id : ℕ) (batch : ImportBatch) (batchId : ℕ) :
    (t.setBatch id batch).batches.get? batchId = if batchId = id then some batch
    else t.batches.get? batchId :=
  Dict.get?_set _ _ _ _

theorem filter_setWarehouseIds (t : InventoryTables) (f : BatchItem → Option ℕ) (batchId : ℕ) :
    ((t.setWarehouseIds f).items.filter fun item => item.batchId = batchId).map
      BatchItem.toImportItem = (t.items.filter fun item => item.batchId = batchId).map
      BatchItem.toImportItem := by
  show ((t.items.map fun item => { item with warehouseId := f item }).filter
    fun item => item.batchId = batchId).map
    BatchItem.toImportItem = _
  rw [List.filter_map, List.map_map]
  rfl

theorem filter_other (hitems : ∀ item ∈ items, item.batchId = id) (hne : id ≠ batchId) :
    items.filter (fun item => item.batchId = batchId) = [] := by
  rw [List.filter_eq_nil_iff]
  intro item hitem
  rw [hitems item hitem, decide_eq_true_eq]
  exact hne

theorem stable_imported (batchId : ℕ) (parsed : List ParsedRow) :
    Stable (Imported batchId parsed) where
  warehouses _ h := ⟨h.batch, h.items⟩
  current _ h := ⟨h.batch, h.items⟩
  warehouseIds f h := ⟨h.batch, (filter_setWarehouseIds _ f batchId).trans h.items⟩
  settled _ h := by
    refine ⟨?_, h.items⟩
    rw [get?_setBatch]
    split_ifs
    · rfl
    · exact h.batch
  insertBatch h hinsert := by
    obtain ⟨-, rfl⟩ := insertBatch?_eq_some hinsert
    refine ⟨?_, h.items⟩
    rw [get?_setBatch]
    split_ifs
    · rfl
    · exact h.batch
  insertItems {t t' t'' id batch items} h hinsert hitems hinserted := by
    obtain ⟨hnew, rfl⟩ := insertBatch?_eq_some hinsert
    obtain ⟨hbatches, hall⟩ := insertItems?_eq_some hinserted
    have hne : id ≠ batchId := by
      intro he
      have hbatch := h.batch
      rw [← he, hnew] at hbatch
      cases hbatch
    refine ⟨?_, ?_⟩
    · rw [hbatches, get?_setBatch, if_neg hne.symm]
      exact h.batch
    · rw [hall, List.filter_append, filter_other hitems hne, List.append_nil]
      exact h.items

theorem settled_insert (h : t.Settled batchId) (hnew : t.batches.get? id = none) :
    (t.setBatch id batch).Settled batchId := by
  obtain ⟨old, hold, hstatus⟩ := h
  refine ⟨old, ?_, hstatus⟩
  rw [get?_setBatch, if_neg, hold]
  intro he
  rw [← he, hold] at hnew
  cases hnew

theorem stable_settled (batchId : ℕ) : Stable (Settled batchId) where
  warehouses _ h := h
  current _ h := h
  warehouseIds _ h := h
  settled {t id batch} hbatch h := by
    unfold Settled
    rw [get?_setBatch]
    split_ifs
    · exact ⟨batch, rfl, hbatch⟩
    · exact h
  insertBatch {t t' id batch} h hinsert := by
    obtain ⟨hnew, rfl⟩ := insertBatch?_eq_some hinsert
    exact settled_insert h hnew
  insertItems {t t' t'' id batch items} h hinsert _ hinserted := by
    obtain ⟨hnew, rfl⟩ := insertBatch?_eq_some hinsert
    unfold Settled
    rw [(insertItems?_eq_some hinserted).1]
    exact settled_insert h hnew

end InventoryTables

/-- A preview that succeeds has stored the rows. -/
theorem imported_storePreview {refuses : InventoryStatement → Option String} {filename : String}
    {createdBy : Option String} {parsed : List ParsedRow} {db db' : InventoryDb} {batchId : ℕ}
    (h : storePreview refuses filename createdBy parsed db = (.ok batchId, db')) :
    db'.tables.Imported batchId parsed := by
  obtain ⟨db₀, db₁, hread, h⟩ := bind_eq_ok.mp (of_send h)
  obtain ⟨-, rfl⟩ := read_eq_ok.mp hread
  obtain ⟨id, db₂, hbatch, h⟩ := bind_eq_ok.mp h
  obtain ⟨_, db₃, hitems, h⟩ := bind_eq_ok.mp h
  obtain ⟨rfl, rfl⟩ := pure_eq_ok.mp h
  obtain ⟨hnew, hset⟩ := InventoryTables.insertBatch?_eq_some (insertBatch_ok hbatch)
  obtain ⟨hbatches, hall⟩ := InventoryTables.insertItems?_eq_some (insertItems_ok hitems)
  have hold : db.tables.items.filter (fun item => item.batchId = id) = [] := by
    rw [List.filter_eq_nil_iff]
    intro item hitem hid
    have hbatch := db.tables.itemsBatch item hitem
    rw [of_decide_eq_true hid, hnew] at hbatch
    cases hbatch
  refine ⟨?_, ?_⟩
  · rw [hbatches, hset, InventoryTables.get?_setBatch, if_pos rfl]
    rfl
  · rw [hall, hset]
    show ((db.tables.items ++ _).filter fun item => item.batchId = id).map
      BatchItem.toImportItem = _
    rw [List.filter_append, hold, List.nil_append, List.filter_eq_self.mpr]
    · rw [List.map_map]
      rfl
    · intro item hitem
      obtain ⟨row, -, rfl⟩ := List.mem_map.mp hitem
      exact decide_eq_true rfl

/-! ### A confirmation -/

/-- The ids are those of the warehouses with these names. -/
def InventoryTables.Knows (t : InventoryTables) (warehouseByName : Dict String ℕ) : Prop :=
  ∀ name id, warehouseByName.get? name = some id → t.warehouses.idOf name = some id

/-- The warehouses may have changed, and nothing else. -/
def InventoryTables.SameBatches (t t' : InventoryTables) :
    Prop := t'.batches = t.batches ∧ t'.items = t.items

section Confirm

variable {refuses : InventoryStatement → Option String} {db db' : InventoryDb}
    {known known' : Dict String ℕ} {name : String}

/-- A warehouse that is inserted leaves the others. -/
theorem idOf_insert? {w w' : UniqueTable ThirdPartyWarehouse.name} {id : ℕ}
    {row : ThirdPartyWarehouse} (h : w.insert? id row = some w') (name : String) :
    w'.idOf row.name = some id ∧ ∀ id', w.idOf name = some id' → w'.idOf name = some id' := by
  obtain ⟨hnew, hget⟩ := UniqueTable.insert?_eq_some h
  refine ⟨UniqueTable.idOf_eq_some_iff.mpr ⟨row, by rw [hget, if_pos rfl], rfl⟩, fun id' hid => ?_⟩
  obtain ⟨row', hrow, hname⟩ := UniqueTable.idOf_eq_some_iff.mp hid
  refine UniqueTable.idOf_eq_some_iff.mpr ⟨row', ?_, hname⟩
  rw [hget, if_neg, hrow]
  intro he
  rw [he, hnew] at hrow
  cases hrow

/-- One round: the name is known then, and what was known still is. -/
theorem insertMissing_ok (hknows : db.tables.Knows known)
    (h : insertMissing refuses known name db = (.ok known', db')) :
    db'.tables.Knows known' ∧ (known'.get? name).isSome = true ∧
      (∀ n, (known.get? n).isSome = true → (known'.get? n).isSome = true) ∧
      db.tables.SameBatches db'.tables := by
  unfold insertMissing at h
  split_ifs at h with hname
  · obtain ⟨rfl, rfl⟩ := pure_eq_ok.mp h
    exact ⟨hknows, hname, fun _ hn => hn, rfl, rfl⟩
  · obtain ⟨id, db₁, hinsert, h⟩ := bind_eq_ok.mp h
    obtain ⟨rfl, rfl⟩ := pure_eq_ok.mp h
    obtain ⟨w, hw, htables⟩ := insertWarehouse_ok hinsert
    rw [htables]
    refine ⟨fun n id' hn => ?_, by simp, fun n hn => ?_, rfl, rfl⟩
    · rw [Dict.get?_set] at hn
      split_ifs at hn with he
      · subst he
        rw [← Option.some.inj hn]
        exact (idOf_insert? hw n).1
      · exact (idOf_insert? hw n).2 id' (hknows n id' hn)
    · rw [Dict.get?_set]
      split_ifs
      · rfl
      · exact hn

/-- The loop: every name is known. -/
theorem insertMissing_loop (names : List String) (hknows : db.tables.Knows known)
    (h : names.foldlM (insertMissing refuses) known db = (.ok known', db')) :
    db'.tables.Knows known' ∧ (∀ name ∈ names, (known'.get? name).isSome = true) ∧
      (∀ n, (known.get? n).isSome = true → (known'.get? n).isSome = true) ∧
      db.tables.SameBatches db'.tables := by
  induction names generalizing known db with
  | nil =>
    obtain ⟨rfl, rfl⟩ := pure_eq_ok.mp h
    exact ⟨hknows, by simp, fun _ hn => hn, rfl, rfl⟩
  | cons name names ih =>
    rw [List.foldlM_cons] at h
    obtain ⟨known₁, db₁, hstep, h⟩ := bind_eq_ok.mp h
    obtain ⟨hknows₁, hname, hkeep₁, hsame₁⟩ := insertMissing_ok hknows hstep
    obtain ⟨hknows', hnames, hkeep, hsame⟩ := ih hknows₁ h
    refine ⟨hknows', ?_, fun n hn => hkeep n (hkeep₁ n hn), hsame.1.trans hsame₁.1,
      hsame.2.trans hsame₁.2⟩
    rw [List.forall_mem_cons]
    exact ⟨hkeep name hname, hnames⟩

/-- What a confirmation leaves. -/
structure InventoryTables.Applied (batchId : ℕ) (t t' : InventoryTables)
    (warehouseByName : Dict String ℕ) : Prop where
  knows : t'.Knows warehouseByName
  names : ∀ item ∈ (t.itemRows batchId).map BatchItem.toImportItem, item.valid = true →
    (warehouseByName.get? item.warehouseNameRaw).isSome = true
  current : ∀ row, (∃ id, t'.current.get? id = some row) ↔
    row ∈ importValues batchId warehouseByName ((t.itemRows batchId).map BatchItem.toImportItem)
  settled : t'.Settled batchId

theorem applyImport_ok {batchId : ℕ} {batch batch' : ImportBatch} {found : Dict String ℕ}
    (hknows : db.tables.Knows found) (hstatus : batch.status ≠ .pending)
    (h : applyImport refuses batchId batch ((db.tables.itemRows batchId).map BatchItem.toImportItem)
      found db = (.ok batch', db')) :
    ∃ warehouseByName, db.tables.Applied batchId db'.tables warehouseByName := by
  obtain ⟨known, db₁, hloop, h⟩ := bind_eq_ok.mp h
  obtain ⟨_, db₂, hreplace, h⟩ := bind_eq_ok.mp h
  obtain ⟨_, db₃, hbatch, h⟩ := bind_eq_ok.mp h
  obtain ⟨_, db₄, hids, h⟩ := bind_eq_ok.mp h
  obtain ⟨rfl, rfl⟩ := pure_eq_ok.mp h
  obtain ⟨hknown, hnames, -, -⟩ := insertMissing_loop _ hknows hloop
  obtain ⟨current, htables, hrows⟩ := replaceCurrent_ok hreplace
  refine ⟨known, ?_⟩
  rw [updateItems_ok hids, updateBatch_ok hbatch, htables]
  refine ⟨hknown, fun item hitem hvalid => hnames _ (mem_importNames hitem hvalid), hrows, batch,
    ?_, hstatus⟩
  show (Dict.get? (Dict.set _ _ _) _) = _
  rw [Dict.get?_set, if_pos rfl]

theorem knows_idsAmong (t : InventoryTables) (names : List String) :
    t.Knows (t.warehouses.idsAmong names) :=
  fun _ _ hid => (UniqueTable.get?_idsAmong.mp hid).2

/-- **What a confirmation that succeeds has done.** -/
theorem confirmImportBatch_ok {batchId : ℕ} {confirmedBy : Option String} {now : ℤ}
    {batch : ImportBatch} (h : confirmImportBatch refuses batchId confirmedBy now db =
    (.ok batch, db')) :
    ∃ warehouseByName, db.tables.Applied batchId db'.tables warehouseByName := by
  obtain ⟨db₀, db₁, hread, h⟩ := bind_eq_ok.mp h
  obtain ⟨rfl, rfl⟩ := read_eq_ok.mp hread
  obtain ⟨old, db₂, hold, h⟩ := bind_eq_ok.mp h
  obtain ⟨-, rfl⟩ := ofOption_eq_ok.mp hold
  obtain ⟨_, db₃, hpending, h⟩ := bind_eq_ok.mp h
  obtain ⟨-, rfl⟩ := require_eq_ok.mp hpending
  obtain ⟨_, db₄, hvalid, h⟩ := bind_eq_ok.mp h
  obtain ⟨-, rfl⟩ := require_eq_ok.mp hvalid
  have happly := of_send h
  exact applyImport_ok (knows_idsAmong _ _) (by simp) happly

/-- A batch that is settled is not confirmed. -/
theorem confirmImportBatch_settled {batchId : ℕ} (h : db.tables.Settled batchId)
    (confirmedBy : Option String) (now : ℤ) :
    confirmImportBatch refuses batchId confirmedBy now db =
    (.error (.conflict "只有待确认批次可以确认导入"), db) := by
  obtain ⟨batch, hbatch, hstatus⟩ := h
  refine (bind_of_ok rfl).trans
    ((bind_of_ok (ofOption_eq_ok.mpr ⟨hbatch, rfl⟩)).trans (bind_of_error ?_))
  unfold require
  rw [if_neg hstatus]
  rfl

end Confirm

/-! ### The inventory after an import -/

/-- The valid rows of a warehouse and a SKU. -/
def rowsAt (parsed : List ParsedRow) (name sku : String) : List ParsedRow :=
  (validRows parsed).filter fun row => row.warehouseName = name ∧ row.commoditySku = some sku

namespace InventoryTables

/-- A row of the inventory for a warehouse's name and a SKU. -/
def At (t : InventoryTables) (row : CurrentRow) (name sku : String) : Prop :=
  (t.warehouses.get? row.warehouseId).map ThirdPartyWarehouse.name = some name ∧
    row.commoditySku = sku

/-- One row for each warehouse and SKU of the valid rows, with the sums over them, and no other. -/
structure Shows (t : InventoryTables) (parsed : List ParsedRow) : Prop where
  once : ∀ name sku, rowsAt parsed name sku ≠ [] → ∃! id, ∃ row, t.current.get? id = some row ∧
    t.At row name sku
  named : ∀ id row, t.current.get? id = some row → ∃ name, t.At row name row.commoditySku
  totals : ∀ id row name sku, t.current.get? id = some row → t.At row name sku →
    rowsAt parsed name sku ≠ [] ∧
      row.available = ((rowsAt parsed name sku).map fun r => r.available.getD 0).sum ∧
      row.reserved = ((rowsAt parsed name sku).map fun r => r.reserved.getD 0).sum

variable {t : InventoryTables} {known : Dict String ℕ} {row : CurrentRow} {name sku : String}

theorem at_iff : t.At row name sku ↔ t.warehouses.idOf name = some row.warehouseId ∧
    row.commoditySku = sku := by
  unfold At
  rw [UniqueTable.idOf_eq_some_iff, Option.map_eq_some_iff]

end InventoryTables

theorem valid_item_iff {row : ParsedRow} (h : row.Complete) :
    row.item.valid = true ↔ row.errorMessage = none := by
  unfold ImportItem.valid
  simp only [Bool.and_eq_true, Option.isNone_iff_eq_none, decide_eq_true_eq]
  constructor
  · intro hvalid
    exact hvalid.1.1.1.1
  · intro hnone
    obtain ⟨hname, hsku, havailable, hreserved⟩ := h hnone
    exact ⟨⟨⟨⟨hnone, hname⟩, hsku⟩, havailable⟩, hreserved⟩

theorem commoditySku_of_valid {item : ImportItem} (h : item.valid = true) :
    ∃ sku, item.commoditySku = some sku := by
  unfold ImportItem.valid at h
  simp only [Bool.and_eq_true] at h
  obtain ⟨sku, hsku, -⟩ := (Option.any_eq_true _ _).mp h.1.1.2
  exact ⟨sku, hsku⟩

section Totals

variable {t : InventoryTables} {known : Dict String ℕ} {items : List ImportItem}
    {parsed : List ParsedRow}
  (hknows : t.Knows known)
  (hnames : ∀ item ∈ items, item.valid = true → (known.get? item.warehouseNameRaw).isSome = true)
  (hitems : items.Perm (parsed.map ParsedRow.item)) (hcomplete : ∀ row ∈ parsed, row.Complete)

include hknows hnames in
/-- A valid item counts for a warehouse by its name. -/
theorem known_eq_iff {item : ImportItem} (hitem : item ∈ items) (hvalid : item.valid = true)
    {name : String} {id : ℕ} (hid : t.warehouses.idOf name = some id) :
    known.get? item.warehouseNameRaw = some id ↔ item.warehouseNameRaw = name := by
  obtain ⟨id', hid'⟩ := Option.isSome_iff_exists.mp (hnames item hitem hvalid)
  constructor
  · intro h
    obtain ⟨row, hrow, hname⟩ := UniqueTable.idOf_eq_some_iff.mp hid
    obtain ⟨row', hrow', hname'⟩ := UniqueTable.idOf_eq_some_iff.mp (hknows _ _ h)
    rw [hrow] at hrow'
    rw [← hname', ← hname, Option.some.inj hrow']
  · intro h
    rw [h] at hid'
    rw [h, hid', ← hknows _ _ hid', hid]

include hknows hnames hitems hcomplete in
/-- The items of a warehouse and a SKU are the rows that have its name. -/
theorem itemsAt_perm {name sku : String} {id : ℕ} (hid : t.warehouses.idOf name = some id) :
    (itemsAt known.get? items (id, sku)).Perm ((rowsAt parsed name sku).map ParsedRow.item) := by
  have hfilter : itemsAt known.get? items (id, sku) =
      items.filter fun item =>
          item.valid && item.warehouseNameRaw = name && item.commoditySku = some sku := by
    refine List.filter_congr fun item hitem => ?_
    by_cases hvalid : item.valid = true
    · obtain ⟨sku', hsku'⟩ := commoditySku_of_valid hvalid
      have hsku : item.commoditySku.getD "" = sku ↔ item.commoditySku = some sku := by
        rw [hsku', Option.getD_some, Option.some.injEq]
      simp [hvalid, known_eq_iff hknows hnames hitem hvalid hid, hsku]
    · simp [hvalid]
  have hrows : (rowsAt parsed name sku).map ParsedRow.item =
      (parsed.map ParsedRow.item).filter fun item =>
          item.valid && item.warehouseNameRaw = name && item.commoditySku = some sku := by
    rw [List.filter_map, rowsAt, validRows, List.filter_filter]
    refine congrArg _ (List.filter_congr fun row hrow => ?_)
    rw [Bool.eq_iff_iff]
    have hvalid := valid_item_iff (hcomplete row hrow)
    simp only [Bool.and_eq_true, decide_eq_true_eq, Function.comp_apply, hvalid]
    show (row.warehouseName = name ∧ row.commoditySku = some sku) ∧ row.errorMessage = none ↔
      (row.errorMessage = none ∧ row.warehouseName = name) ∧ row.commoditySku = some sku
    tauto
  rw [hfilter, hrows]
  exact hitems.filter _

end Totals

theorem mem_importValues {batchId : ℕ} {known : Dict String ℕ} {items : List ImportItem}
    {row : CurrentRow} :
    row ∈ importValues batchId known items ↔
      batchTotal known.get? items (row.warehouseId, row.commoditySku) =
        some (row.available, row.reserved) ∧ row.sourceBatchId = some batchId ∧
        row.lastOperation = .import := by
  unfold importValues
  rw [List.mem_map]
  constructor
  · intro h
    obtain ⟨r, hr, rfl⟩ := h
    exact ⟨mem_importRows.mp hr, rfl, rfl⟩
  · intro h
    obtain ⟨hr, hbatch, hoperation⟩ := h
    refine ⟨row.toThirdPartyInventoryCurrent, mem_importRows.mpr hr, ?_⟩
    rw [← hbatch, ← hoperation]

/-- Of a row's warehouse and SKU there are items, and the row has their sums. -/
theorem batchTotal_eq_some {warehouses : String → Option ℕ} {items : List ImportItem}
    {key : ℕ × String} {available reserved : ℤ} :
    batchTotal warehouses items key = some (available, reserved) ↔
      itemsAt warehouses items key ≠ [] ∧
        available = ((itemsAt warehouses items key).map fun item => item.available.getD 0).sum ∧
        reserved = ((itemsAt warehouses items key).map fun item => item.reserved.getD 0).sum := by
  unfold batchTotal
  split_ifs with h
  · simp [h]
  · simp only [Option.some.injEq, Prod.mk.injEq, h, ne_eq, not_false_eq_true, true_and]
    constructor
    · intro he
      exact ⟨he.1.symm, he.2.symm⟩
    · intro he
      exact ⟨he.1.symm, he.2.symm⟩

namespace InventoryTables

variable {batchId : ℕ} {t t' : InventoryTables} {known : Dict String ℕ} {parsed : List ParsedRow}

theorem Imported.perm (h : t.Imported batchId parsed) :
    ((t.itemRows batchId).map BatchItem.toImportItem).Perm (parsed.map ParsedRow.item) := by
  rw [← h.items]
  exact (List.perm_insertionSort _ _).map _

/-- **The inventory of a batch that is confirmed is that of the rows that were parsed.** -/
theorem Applied.shows (happlied : Applied batchId t t' known)
    (himported : t.Imported batchId parsed) (hcomplete : ∀ row ∈ parsed, row.Complete) :
    t'.Shows parsed := by
  have hperm : ∀ name sku id, t'.warehouses.idOf name = some id → _ := fun name sku id hid =>
    @itemsAt_perm t' known _ parsed happlied.knows happlied.names himported.perm hcomplete
      name sku id hid
  set items := (t.itemRows batchId).map BatchItem.toImportItem with hitems
  have hrow : ∀ id row, t'.current.get? id = some row →
      batchTotal known.get? items (row.warehouseId, row.commoditySku) =
      some (row.available, row.reserved) :=
      fun id row h => (mem_importValues.mp ((happlied.current row).mp ⟨id, h⟩)).1
  refine ⟨fun name sku hsome => ?_, fun id row h => ?_, fun id row name sku h hat => ?_⟩
  · obtain ⟨r, hr⟩ := List.exists_mem_of_ne_nil _ hsome
    obtain ⟨hvalid, hat⟩ := List.mem_filter.mp hr
    obtain ⟨hparsed, hnone⟩ := List.mem_filter.mp hvalid
    obtain ⟨rfl, hsku⟩ := of_decide_eq_true hat
    have hitem : r.item ∈ items := himported.perm.mem_iff.mpr (List.mem_map_of_mem hparsed)
    have hitemValid := (valid_item_iff (hcomplete r hparsed)).mpr (of_decide_eq_true hnone)
    obtain ⟨id, hid⟩ := Option.isSome_iff_exists.mp (happlied.names r.item hitem hitemValid)
    have hidOf : t'.warehouses.idOf r.warehouseName = some id := happlied.knows _ _ hid
    have hne : itemsAt known.get? items (id, sku) ≠ [] := by
      intro he
      have hp := hperm r.warehouseName sku id hidOf
      rw [he, List.nil_perm, List.map_eq_nil_iff] at hp
      exact hsome hp
    have htotal : ∃ available reserved, batchTotal known.get? items (id, sku) =
        some (available, reserved) :=
      ⟨_, _, batchTotal_eq_some.mpr ⟨hne, rfl, rfl⟩⟩
    obtain ⟨available, reserved, htotal⟩ := htotal
    obtain ⟨id₀, hrow₀⟩ :=
      (happlied.current ⟨⟨id, sku, available, reserved⟩, some batchId, .import⟩).mpr
      (mem_importValues.mpr ⟨htotal, rfl, rfl⟩)
    refine ⟨id₀, ⟨_, hrow₀, at_iff.mpr ⟨hidOf, rfl⟩⟩, fun id' h' => ?_⟩
    obtain ⟨row', hrow', hat'⟩ := h'
    obtain ⟨hid', hsku'⟩ := at_iff.mp hat'
    refine t'.current.unique hrow' hrow₀ (Prod.ext ?_ hsku')
    exact Option.some.inj (hid'.symm.trans hidOf)
  · obtain ⟨hne, -, -⟩ := batchTotal_eq_some.mp (hrow id row h)
    obtain ⟨item, hitem⟩ := List.exists_mem_of_ne_nil _ hne
    have hknown := (List.mem_filter.mp hitem).2
    simp only [Bool.and_eq_true, decide_eq_true_eq] at hknown
    exact ⟨item.warehouseNameRaw, at_iff.mpr ⟨happlied.knows _ _ hknown.1.2, rfl⟩⟩
  · obtain ⟨hid, rfl⟩ := at_iff.mp hat
    have hp := hperm name row.commoditySku row.warehouseId hid
    obtain ⟨hne, havailable, hreserved⟩ := batchTotal_eq_some.mp (hrow id row h)
    refine ⟨fun he => ?_, ?_, ?_⟩
    · rw [he, List.map_nil] at hp
      exact hne hp.eq_nil
    · rw [havailable, (hp.map _).sum_eq, List.map_map]
      rfl
    · rw [hreserved, (hp.map _).sum_eq, List.map_map]
      rfl

end InventoryTables

/-- A request that fails leaves the tables. -/
theorem tables_of_serve_error {α : Type} {x : InventoryTransaction α} {db db' : InventoryDb}
    {e : InventoryError} (h : serve x db = (.error e, db')) : db'.tables = db.tables := by
  have hrestore := @request_of_error _ _ _ x db e InventoryDb.restore (congrArg Prod.fst h)
  have hdb : (x.request InventoryDb.restore db).2 = db' := congrArg Prod.snd h
  rw [← hdb, hrestore]
  rfl

/-- **Imports conserve quantities.** However many requests are served between the preview and
the confirmation: if it succeeds, the inventory has the sums of the valid rows, and the batch
cannot be confirmed again, whatever is served before; if it raises, the tables are as they
were. -/
theorem import_conserves {Content : Type} (U : ReadTable)
    (load : Content → Except String (List (List Cell)))
    (refuses : InventoryStatement → Option String) (filename : String) (content : Option Content)
    (createdBy : Option String) (parsed : List ParsedRow)
    (hparsed : parseThirdPartyInventoryWorkbook U load content = .ok parsed)
    (db previewed : InventoryDb) (batchId : ℕ)
    (hpreview : serve (createImportPreview refuses U load filename content createdBy) db =
    (.ok batchId, previewed)) (between : List (InventoryRequest Content)) (confirmedBy :
    Option String) (now : ℤ) :
    let before := serveAll refuses U load between previewed
    (∀ batch confirmed, serve (confirmImportBatch refuses batchId confirmedBy now) before =
      (.ok batch, confirmed) → confirmed.tables.Shows parsed ∧
        ∀ (later : List (InventoryRequest Content)) (again : Option String) (now' : ℤ),
          serve (confirmImportBatch refuses batchId again now')
          (serveAll refuses U load later confirmed) =
          (.error (.conflict "只有待确认批次可以确认导入"), serveAll refuses U load later confirmed)) ∧
    ∀ e confirmed, serve (confirmImportBatch refuses batchId confirmedBy now) before =
      (.error e, confirmed) → confirmed.tables = before.tables := by
  intro before
  have hcomplete := parsed_complete hparsed
  obtain ⟨parsed', db₁, hrows, hstore⟩ := bind_eq_ok.mp (request_eq_ok.mp hpreview)
  obtain ⟨hok, rfl⟩ := ofExcept_eq_ok.mp hrows
  rw [hparsed] at hok
  obtain rfl := Except.ok.inj hok
  have hbefore : before.tables.Imported batchId parsed :=
    keeps_serveAll (InventoryTables.stable_imported batchId parsed) between
      (imported_storePreview hstore)
  refine ⟨fun batch confirmed h => ?_, fun e confirmed h => tables_of_serve_error h⟩
  obtain ⟨known, happlied⟩ := confirmImportBatch_ok (request_eq_ok.mp h)
  refine ⟨happlied.shows hbefore hcomplete, fun later again now' => ?_⟩
  have hsettled : (serveAll refuses U load later confirmed).tables.Settled batchId :=
    keeps_serveAll (InventoryTables.stable_settled batchId) later happlied.settled
  unfold serve request
  rw [confirmImportBatch_settled hsettled]
  rfl

/-- Two rows of one SKU, one of another, and one without a SKU. -/
def importSheet : List (List Cell) :=
  [inventoryHeader, [.text "W", .text "A", .int 2, .int 1],
    [.text "W", .text "A", .text "3", .none],
    [.text "V", .text "B", .float (.finite 4) "4.0", .int 0], [.text "V", .none, .int 1, .int 1]]

def importParsed : List ParsedRow :=
  [⟨2, "W", some "A", some 2, some 1, none⟩, ⟨3, "W", some "A", some 3, some 0, none⟩,
    ⟨4, "V", some "B", some 4, some 0, none⟩, ⟨5, "V", none, none, none, some "SKU 不能为空"⟩]

theorem no_itemsBatch :
    ∀ item ∈ ([] : List BatchItem),
    ((Dict.empty : Dict ℕ ImportBatch).get? item.batchId).isSome = true :=
  fun _ h => (List.not_mem_nil h).elim

def emptyInventory : InventoryDb := ⟨⟨.clear, .empty, [], .clear, no_itemsBatch⟩, ⟨1, 1, 1⟩⟩

/-- A warehouse is created and renamed, and another one is created. -/
def importBetween : List (InventoryRequest (List (List Cell))) :=
  [.createWarehouse "W" none, .patchWarehouse 1 (some "U") none, .createWarehouse "V" (some "US")]

def importPreviewed : InventoryDb :=
  (serve (createImportPreview (fun _ => none) .ascii (fun sheet => .ok sheet) "stock.xlsx"
    (some importSheet) none) emptyInventory).2

def importBefore : InventoryDb :=
  serveAll (fun _ => none) .ascii (fun sheet => .ok sheet) importBetween importPreviewed

theorem confirm_importBefore :
    (serve (confirmImportBatch (fun _ => none) 1 none 0) importBefore).1.toOption.isSome =
    true := by
  decide +kernel

theorem import_conserves_renamed : ∃ batch confirmed,
    serve (confirmImportBatch (fun _ => none) 1 none 0) importBefore = (.ok batch, confirmed) ∧
      confirmed.tables.Shows importParsed := by
  have h := import_conserves .ascii (fun sheet => .ok sheet) (fun _ => none) "stock.xlsx"
    (some importSheet) none importParsed
    (by decide +kernel) emptyInventory importPreviewed 1 (Prod.ext (by decide +kernel) rfl)
      importBetween none 0
  have hsome := confirm_importBefore
  cases hresult : (serve (confirmImportBatch (fun _ => none) 1 none 0) importBefore).1 with
  | error e =>
    rw [hresult] at hsome
    cases hsome
  | ok batch => exact ⟨batch, _, Prod.ext hresult rfl, (h.1 batch _ (Prod.ext hresult rfl)).1⟩

end Restock
