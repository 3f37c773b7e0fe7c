/-
# The inventory sync (`sync/inventory.py`)

The pages of the remote are read one after the other and their rows written over what
`inventory_snapshot_latest` has, with a commit after every 500 rows and one at the end.
Nothing is taken away: a pair of a SKU and a warehouse that no page read mentions keeps
its stock. So the table mirrors the remote after a run exactly if those pairs had, before
it, the stock that the remote lists for them (`mirrors_iff`).
-/
import Restock.LocalInventory
import Restock.Lib.Paging
import Restock.Lib.Session

namespace Restock

open PyText Paging

/-! ### Rows -/

/-- The pair that a row is about, if it has both parts. -/
def inventoryKey (raw : RawInventory) : Option (String × String) :=
  if !raw.commoditySku.truthy ∨ raw.warehouseId.textOrEmpty = "" then none
  else some (raw.commoditySku.toText, raw.warehouseId.textOrEmpty)

/-- A row with quantities that can be read. -/
def ValidQuantities (raw : RawInventory) :
    Prop := raw.stockAvailable.isSome = true ∧ raw.stockOccupy.isSome = true

section Entries

variable (U : CharTable) (countries : Dict String (Option String)) (euCountries : List String)

/-- What is written for a row. -/
def inventoryEntry (raw : RawInventory) : Option ((String × String) × InventorySnapshotLatest) :=
  (inventoryKey raw).bind fun key =>
    (countries.get? key.2).bind fun originalCountry =>
      raw.stockAvailable.bind fun available =>
        raw.stockOccupy.map fun reserved =>
          (key, ⟨mappedCols U originalCountry euCountries, available, reserved⟩)

/-- A table after the rows. -/
def writeRows (inventory : InventoryTable) (rows : List RawInventory) : InventoryTable :=
  rows.foldl (fun inventory raw => upsertInventory U raw countries euCountries inventory) inventory

variable {U countries euCountries}

theorem upsertInventory_eq (raw : RawInventory) (inventory : InventoryTable) :
    upsertInventory U raw countries euCountries inventory =
      (inventoryEntry U countries euCountries raw).elim inventory fun entry =>
      inventory.set entry.1 entry.2 := by
  simp only [upsertInventory, inventoryEntry, inventoryKey]
  split_ifs with hkey
  · rfl
  · simp only [Option.bind_some]
    cases countries.get? raw.warehouseId.textOrEmpty <;> cases raw.stockAvailable <;>
      cases raw.stockOccupy <;> rfl

theorem writeRows_eq : ∀ (rows : List RawInventory) (inventory : InventoryTable),
    writeRows U countries euCountries inventory rows =
      (rows.filterMap (inventoryEntry U countries euCountries)).foldl
      (fun d p => d.set p.1 p.2) inventory
  | [], _ => rfl
  | raw :: rows, inventory => by
    have ih := writeRows_eq rows (upsertInventory U raw countries euCountries inventory)
    rw [writeRows, List.foldl_cons, ← writeRows, ih, upsertInventory_eq, List.filterMap_cons]
    cases inventoryEntry U countries euCountries raw <;> rfl

theorem inventoryEntry_eq_some {raw : RawInventory}
    {entry : (String × String) × InventorySnapshotLatest} :
    inventoryEntry U countries euCountries raw = some entry ↔
      ∃ originalCountry available reserved, inventoryKey raw = some entry.1 ∧
        countries.get? entry.1.2 = some originalCountry ∧ raw.stockAvailable = some available ∧
        raw.stockOccupy = some reserved ∧
        entry.2 = ⟨mappedCols U originalCountry euCountries, available, reserved⟩ := by
  obtain ⟨key, row⟩ := entry
  simp only [inventoryEntry, Option.bind_eq_some_iff, Option.map_eq_some_iff, Prod.mk.injEq]
  constructor
  · rintro ⟨key', hkey, country, hc, available, ha, reserved, hr, rfl, rfl⟩
    exact ⟨country, available, reserved, hkey, hc, ha, hr, rfl⟩
  · rintro ⟨country, available, reserved, hkey, hc, ha, hr, rfl⟩
    exact ⟨key, hkey, country, hc, available, ha, reserved, hr, rfl, rfl⟩

/-- The rows give different pairs if their pairs are different. -/
theorem entries_nodup (U : CharTable) (countries : Dict String (Option String))
    (euCountries : List String) {rows : List RawInventory}
    (h : (rows.filterMap inventoryKey).Nodup) :
    ((rows.filterMap (inventoryEntry U countries euCountries)).map Prod.fst).Nodup := by
  refine h.sublist ?_
  induction rows with
  | nil => exact List.Sublist.refl _
  | cons raw rows ih =>
    have hrest := ih (h.sublist ((List.sublist_cons_self raw rows).filterMap _))
    cases hentry : inventoryEntry U countries euCountries raw with
    | none =>
      rw [List.filterMap_cons_none hentry]
      exact hrest.trans ((List.sublist_cons_self raw rows).filterMap _)
    | some entry =>
      obtain ⟨-, -, -, hkey, -⟩ := inventoryEntry_eq_some.mp hentry
      rw [List.filterMap_cons_some hentry, List.filterMap_cons_some hkey]
      exact hrest.cons_cons entry.1

end Entries

/-! ### The run -/

/-- What a run works with: the answer to a page, or what is raised before its rows are
reached; what the database raises at the row of a number, in its upsert or in the commit
behind it, in the last commit, and later. -/
structure InventoryRun where
  warehouses : Dict String Warehouse
  euCountries : List String
  remote : ℕ → Except String (Page RawInventory)
  rowFault : ℕ → RawInventory → Option String
  commitFault : Option String
  laterFault : Option String

/-- `batch_size`. -/
def inventoryBatchSize : ℕ := 500

structure InventoryProgress where
  db : Session InventoryTable
  count : ℕ

section Sync

variable (U : CharTable) (run : InventoryRun)

/-- `_load_warehouse_countries`. -/
def InventoryRun.warehouseCountryMap :
    Dict String (Option String) := run.warehouses.mapVal fun _ warehouse => warehouse.country

def syncInventoryRow (raw : RawInventory) : Transaction InventoryProgress String Unit := do
  let progress ← Transaction.read
  Transaction.raise (run.rowFault progress.count raw)
  Transaction.change fun s =>
    ⟨s.db.write (upsertInventory U raw run.warehouseCountryMap run.euCountries), s.count + 1⟩
  Transaction.change fun s => if s.count % inventoryBatchSize = 0 then ⟨s.db.commit, s.count⟩ else s

/-- What the run ends with, and the table it leaves. -/
def syncInventory (fuel : ℕ) (inventory : InventoryTable) :
    Option (Except String ℕ × InventoryTable) :=
  (eachPage run.remote (syncInventoryRow U run) fuel 1 ⟨Session.opened inventory, 0⟩).map
      fun result =>
    match result.1, run.commitFault, run.laterFault with
    | .error e, _, _ => (.error e, result.2.db.rollback.stored)
    | .ok _, some e, _ => (.error e, result.2.db.rollback.stored)
    | .ok _, none, some e => (.error e, result.2.db.commit.stored)
    | .ok _, none, none => (.ok result.2.count, result.2.db.commit.stored)

end Sync

section Run

variable {U : CharTable} {run : InventoryRun}

theorem syncInventoryRow_ok {raw : RawInventory} {s s' : InventoryProgress}
    (h : syncInventoryRow U run raw s = (.ok (), s')) :
    s'.db.current = upsertInventory U raw run.warehouseCountryMap run.euCountries s.db.current ∧
    s'.count = s.count + 1 := by
  unfold syncInventoryRow at h
  simp only [Transaction.bind_eq_ok, Transaction.read_eq_ok, Transaction.raise_eq_ok,
    Transaction.change_eq_ok] at h
  obtain ⟨_, _, ⟨rfl, rfl⟩, _, _, ⟨-, rfl⟩, _, _, rfl, rfl⟩ := h
  split_ifs
  · exact ⟨rfl, rfl⟩
  · exact ⟨rfl, rfl⟩

/-- The rows that have been handled are written one after the other, and counted. -/
theorem handleAll_syncInventoryRow (rows : List RawInventory) {s s' : InventoryProgress}
    (h : handleAll (syncInventoryRow U run) rows s = (.ok (), s')) :
    s'.db.current = writeRows U run.warehouseCountryMap run.euCountries s.db.current rows ∧
      s'.count = s.count + rows.length := by
  have hcurrent := handleAll_fold (fun s : InventoryProgress => s.db.current)
    (fun inventory raw => upsertInventory U raw run.warehouseCountryMap run.euCountries inventory)
    (fun _ _ _ hrow => (syncInventoryRow_ok hrow).1) rows h
  have hcount := handleAll_fold InventoryProgress.count (fun count _ => count.succ)
    (fun _ _ _ hrow => (syncInventoryRow_ok hrow).2) rows h
  refine ⟨hcurrent, ?_⟩
  rw [hcount, List.foldl_const, Nat.succ_iterate]

/-- **A run that ends well** has written the rows of the pages up to the first one without
rows, and counted them. -/
theorem syncInventory_ok {total : ℤ} (hconst : ConstantTotal run.remote total) {fuel count : ℕ}
    {inventory inventory' : InventoryTable}
    (h : syncInventory U run fuel inventory = some (.ok count, inventory')) :
    inventory' = writeRows U run.warehouseCountryMap run.euCountries inventory
      (rowsRead run.remote (pagesFrom 1 total)) ∧
      count = (rowsRead run.remote (pagesFrom 1 total)).length := by
  obtain ⟨⟨result, s⟩, hpages, hend⟩ := Option.map_eq_some_iff.mp h
  cases result with
  | error e => cases hend
  | ok u =>
    cases hcommit : run.commitFault with
    | some e =>
      rw [hcommit] at hend
      cases hend
    | none =>
      cases hlater : run.laterFault with
      | some e =>
        rw [hcommit, hlater] at hend
        cases hend
      | none =>
        rw [hcommit, hlater] at hend
        obtain ⟨hcount, htable⟩ := Prod.mk.inj hend
        obtain ⟨hcurrent, hall⟩ := handleAll_syncInventoryRow _ (eachPage_ok hconst hpages)
        refine ⟨htable.symm.trans hcurrent, ?_⟩
        have hnum : s.count = count := Except.ok.inj hcount
        rw [← hnum, hall]
        exact Nat.zero_add _

/-- With as much fuel as there are pages a run ends. -/
theorem isSome_syncInventory {total : ℤ} (hconst : ConstantTotal run.remote total) {fuel : ℕ}
    (hfuel : (total - 1).toNat < fuel) (inventory : InventoryTable) :
    (syncInventory U run fuel inventory).isSome = true := by
  rw [syncInventory, Option.isSome_map]
  exact isSome_eachPage hconst fuel 1 _ (by exact_mod_cast hfuel)

end Run

/-! ### What the remote lists -/

/-- The rows list this stock for the pair. -/
def ListsStock (rows : List RawInventory) (key : String × String) (available reserved : ℤ) : Prop :=
  ∃ raw ∈ rows, inventoryKey raw = some key ∧ raw.stockAvailable = some available ∧
    raw.stockOccupy = some reserved

/-- A table with the listed rows and no others. -/
def listedInventory (U : CharTable) (run : InventoryRun) (listed : List RawInventory) :
    InventoryTable :=
  writeRows U run.warehouseCountryMap run.euCountries .empty listed

/-- **The table mirrors the remote**: the rows with stock of known warehouses are the listed
rows with stock, and what is counted at home is what the listed rows alone give. -/
structure Mirrors (U : CharTable) (run : InventoryRun) (listed : List RawInventory)
    (inventory : InventoryTable) : Prop where
  rows : ∀ key available reserved, key.2 ∈ run.warehouses.keys → (available ≠ 0 ∨ reserved ≠ 0) →
    ((∃ cols, inventory.get? key = some ⟨cols, available, reserved⟩) ↔
      ListsStock listed key available reserved)
  localStock : ∀ plan table commoditySkus velocity resolver sku,
    localStockOf (loadLocalInventory plan run.warehouses table inventory commoditySkus velocity
      resolver) sku = localStockOf
      (loadLocalInventory plan run.warehouses table (listedInventory U run listed)
      commoditySkus velocity
        resolver) sku

/-- No row with quantities that cannot be read, and one row at most for a pair. -/
structure CleanListing (listed : List RawInventory) : Prop where
  valid : ∀ raw ∈ listed, ValidQuantities raw
  unique : (listed.filterMap inventoryKey).Nodup

/-- The pairs that the rows do not mention have the stock that is listed for them. -/
def UnreadPairsAgree (U : CharTable) (run : InventoryRun) (listed read : List RawInventory)
    (inventory : InventoryTable) : Prop :=
  ∀ key, key.2 ∈ run.warehouses.keys → (∀ raw ∈ read, inventoryKey raw ≠ some key) →
    stockAt inventory key = stockAt (listedInventory U run listed) key

section Mirror

variable {U : CharTable} {run : InventoryRun} {listed read : List RawInventory}
    {inventory : InventoryTable}
  {key : String × String}

theorem stockAt_eq_iff {available reserved : ℤ} (h : available ≠ 0 ∨ reserved ≠ 0) :
    (∃ cols, inventory.get? key = some ⟨cols, available, reserved⟩) ↔
    stockAt inventory key = (available, reserved) := by
  rw [stockAt]
  cases hrow : inventory.get? key with
  | none =>
    have hne : ((0, 0) : ℤ × ℤ) ≠ (available, reserved) := by
      intro he
      obtain ⟨ha, hr⟩ := Prod.mk.inj he
      omega
    simp [hne]
  | some row =>
    obtain ⟨cols, a, r⟩ := row
    simp

theorem exists_country (h : key.2 ∈ run.warehouses.keys) :
    ∃ country, run.warehouseCountryMap.get? key.2 = some country := by
  obtain ⟨warehouse, hw⟩ := Dict.mem_keys_iff.mp h
  exact ⟨warehouse.country, by
    rw [InventoryRun.warehouseCountryMap, Dict.get?_mapVal, hw, Option.map_some]⟩

/-- A row of a known warehouse is written with its stock. -/
theorem exists_entry (U : CharTable) (hvalid : ∀ raw ∈ read, ValidQuantities raw)
    (hkey : key.2 ∈ run.warehouses.keys) {raw : RawInventory} (hraw : raw ∈ read)
      (hk : inventoryKey raw = some key) :
      ∃ cols available reserved, raw.stockAvailable = some available ∧
        raw.stockOccupy = some reserved ∧
        (key, (⟨cols, available, reserved⟩ : InventorySnapshotLatest)) ∈ read.filterMap
        (inventoryEntry U run.warehouseCountryMap run.euCountries) := by
  obtain ⟨country, hc⟩ := exists_country hkey
  obtain ⟨ha, hr⟩ := hvalid raw hraw
  obtain ⟨available, ha⟩ := Option.isSome_iff_exists.mp ha
  obtain ⟨reserved, hr⟩ := Option.isSome_iff_exists.mp hr
  refine ⟨mappedCols U country run.euCountries, available, reserved, ha, hr, ?_⟩
  exact List.mem_filterMap.mpr
    ⟨raw, hraw, inventoryEntry_eq_some.mpr ⟨country, available, reserved, hk, hc, ha, hr, rfl⟩⟩

/-- After the rows a pair has the stock of its row. -/
theorem stockAt_writeRows_of_mem (U : CharTable) (inventory : InventoryTable)
    (hclean : CleanListing read) (hkey : key.2 ∈ run.warehouses.keys) {raw : RawInventory}
      (hraw : raw ∈ read) (hk : inventoryKey raw = some key) :
      ∃ available reserved, raw.stockAvailable = some available ∧ raw.stockOccupy = some reserved ∧
      stockAt (writeRows U run.warehouseCountryMap run.euCountries inventory read) key =
      (available, reserved) := by
  obtain ⟨cols, available, reserved, ha, hr, hmem⟩ := exists_entry U hclean.valid hkey hraw hk
  refine ⟨available, reserved, ha, hr, ?_⟩
  have hnd := entries_nodup U run.warehouseCountryMap run.euCountries hclean.unique
  rw [stockAt, writeRows_eq, Dict.get?_foldl_set_of_mem inventory hnd hmem]
  rfl

/-- A pair without a row keeps its stock. -/
theorem stockAt_writeRows_of_not_mem (hno : ∀ raw ∈ read, inventoryKey raw ≠ some key) :
    stockAt (writeRows U run.warehouseCountryMap run.euCountries inventory read) key =
    stockAt inventory key := by
  have hnot : key ∉ (read.filterMap (inventoryEntry U run.warehouseCountryMap run.euCountries)).map
      Prod.fst := by
    intro hmem
    obtain ⟨entry, he, rfl⟩ := List.mem_map.mp hmem
    obtain ⟨raw, hraw, hentry⟩ := List.mem_filterMap.mp he
    obtain ⟨-, -, -, hk, -⟩ := inventoryEntry_eq_some.mp hentry
    exact hno raw hraw hk
  rw [stockAt, writeRows_eq, Dict.get?_foldl_set_of_not_mem _ inventory hnot, stockAt]

/-- The listed rows list what the table of the listed rows holds. -/
theorem listsStock_iff (U : CharTable) (run : InventoryRun) (hclean : CleanListing listed)
    (hkey : key.2 ∈ run.warehouses.keys) {available reserved : ℤ}
    (h : available ≠ 0 ∨ reserved ≠ 0) :
    ListsStock listed key available reserved ↔
    stockAt (listedInventory U run listed) key = (available, reserved) := by
  constructor
  · intro hl
    obtain ⟨raw, hraw, hk, ha, hr⟩ := hl
    obtain ⟨a, r, ha', hr', hstock⟩ := stockAt_writeRows_of_mem U .empty hclean hkey hraw hk
    rw [listedInventory, hstock, Option.some.inj (ha'.symm.trans ha),
      Option.some.inj (hr'.symm.trans hr)]
  · intro hstock
    by_contra hno
    have hnone : ∀ raw ∈ listed, inventoryKey raw ≠ some key := by
      intro raw hraw hk
      obtain ⟨a, r, ha, hr, hs⟩ := stockAt_writeRows_of_mem U .empty hclean hkey hraw hk
      obtain ⟨rfl, rfl⟩ := Prod.mk.inj (hs.symm.trans hstock)
      exact hno ⟨raw, hraw, hk, ha, hr⟩
    have hzero : stockAt (listedInventory U run listed) key = (0, 0) :=
      stockAt_writeRows_of_not_mem hnone
    obtain ⟨ha, hr⟩ := Prod.mk.inj (hzero.symm.trans hstock)
    omega

/-- Mirroring is having the listed stock. -/
theorem mirrors_iff_stockAt (hclean : CleanListing listed) : Mirrors U run listed inventory ↔
    ∀ key, key.2 ∈ run.warehouses.keys →
    stockAt inventory key = stockAt (listedInventory U run listed) key := by
  constructor
  · intro h key hkey
    have hrow : ∀ available reserved, (available ≠ 0 ∨ reserved ≠ 0) →
        (stockAt inventory key = (available, reserved) ↔
          stockAt (listedInventory U run listed) key = (available, reserved)) := by
      intro available reserved hsome
      rw [← stockAt_eq_iff hsome, ← listsStock_iff U run hclean hkey hsome]
      exact h.rows key available reserved hkey hsome
    -- a stock of none is the only one that no row is about
    by_cases hzero : (stockAt inventory key).1 ≠ 0 ∨ (stockAt inventory key).2 ≠ 0
    · exact ((hrow _ _ hzero).mp rfl).symm
    · by_cases hzero' : (stockAt (listedInventory U run listed) key).1 ≠ 0 ∨
        (stockAt (listedInventory U run listed) key).2 ≠ 0
      · exact (hrow _ _ hzero').mpr rfl
      · refine Prod.ext ?_ ?_ <;> omega
  · intro h
    refine ⟨fun key available reserved hkey hsome => ?_,
      fun plan table commoditySkus velocity resolver sku => ?_⟩
    · rw [stockAt_eq_iff hsome, listsStock_iff U run hclean hkey hsome, h key hkey]
    · refine loadLocalInventory_congr plan plan run.warehouses (fun sku' warehouseId hlocal => ?_)
        table commoditySkus velocity
        resolver sku
      refine h (sku', warehouseId) ?_
      unfold isLocalWarehouse at hlocal
      cases hw : run.warehouses.get? warehouseId with
      | none =>
        rw [hw] at hlocal
        exact absurd hlocal Bool.false_ne_true
      | some warehouse => exact Dict.mem_keys_iff.mpr ⟨warehouse, hw⟩

/-- **After a run the table mirrors the remote exactly if** the pairs on no page read had
the stock that is listed for them. -/
theorem mirrors_iff {total : ℤ} {fuel count : ℕ} {inventory' : InventoryTable}
    (hconst : ConstantTotal run.remote total)
    (hclean : CleanListing (rowsListed run.remote (pagesFrom 1 total)))
    (hrun : syncInventory U run fuel inventory = some (.ok count, inventory')) :
    Mirrors U run (rowsListed run.remote (pagesFrom 1 total)) inventory' ↔
      UnreadPairsAgree U run (rowsListed run.remote (pagesFrom 1 total))
      (rowsRead run.remote (pagesFrom 1 total)) inventory := by
  obtain ⟨rfl, -⟩ := syncInventory_ok hconst hrun
  have hinitial : rowsRead run.remote (pagesFrom 1 total) <+: rowsListed run.remote
    (pagesFrom 1 total) := rowsRead_initial _
  set listed := rowsListed run.remote (pagesFrom 1 total)
  set read := rowsRead run.remote (pagesFrom 1 total)
  have hread : CleanListing read :=
    ⟨fun raw hraw => hclean.valid raw (hinitial.subset hraw),
      hclean.unique.sublist (hinitial.sublist.filterMap _)⟩
  rw [mirrors_iff_stockAt hclean]
  constructor
  · intro h key hkey hno
    rw [← h key hkey, stockAt_writeRows_of_not_mem hno]
  · intro h key hkey
    by_cases hmem : ∃ raw ∈ read, inventoryKey raw = some key
    · obtain ⟨raw, hraw, hk⟩ := hmem
      obtain ⟨a, r, ha, hr, hstock⟩ := stockAt_writeRows_of_mem U inventory hread hkey hraw hk
      obtain ⟨a', r', ha', hr', hstock'⟩ :=
        stockAt_writeRows_of_mem U .empty hclean hkey (hinitial.subset hraw) hk
      rw [hstock, listedInventory, hstock', Option.some.inj (ha.symm.trans ha'),
        Option.some.inj (hr.symm.trans hr')]
    · push Not at hmem
      rw [stockAt_writeRows_of_not_mem hmem]
      exact h key hkey hmem

end Mirror

/-! ### Stock that is no longer listed -/

/-- A remote that lists one row. -/
def lampListing : List RawInventory := [⟨.str "lamp", .str "W", some 3, some 1⟩]

def lampRun : InventoryRun where
  warehouses := ⟨[("W", ⟨none, 1⟩)], by simp⟩
  euCountries := []
  remote := fun _ => .ok ⟨lampListing, 1⟩
  rowFault := fun _ _ => none
  commitFault := none
  laterFault := none

/-- An earlier run has left a chair. -/
def chairTable : InventoryTable := ⟨[(("chair", "W"), ⟨⟨none, none⟩, 5, 0⟩)], by simp⟩

def chairAndLampTable : InventoryTable :=
  ⟨[(("chair", "W"), ⟨⟨none, none⟩, 5, 0⟩), (("lamp", "W"), ⟨⟨none, none⟩, 3, 1⟩)], by simp⟩

theorem constantTotal_lampRun : ConstantTotal lampRun.remote 1 := by
  intro pageNo page h
  rw [← Except.ok.inj h]

theorem cleanListing_lamp : CleanListing (rowsListed lampRun.remote (pagesFrom 1 1)) where
  valid := by
    show ∀ raw ∈ lampListing, ValidQuantities raw
    simp [lampListing, ValidQuantities]
  unique := by decide

theorem syncInventory_lamp :
    syncInventory .ascii lampRun 1 chairTable = some (.ok 1, chairAndLampTable) := rfl

theorem mirrors_iff_lamp :
    Mirrors .ascii lampRun (rowsListed lampRun.remote (pagesFrom 1 1)) chairAndLampTable ↔
    UnreadPairsAgree .ascii lampRun (rowsListed lampRun.remote (pagesFrom 1 1))
    (rowsRead lampRun.remote (pagesFrom 1 1))
      chairTable :=
  mirrors_iff constantTotal_lampRun cleanListing_lamp syncInventory_lamp

/-- The chair keeps counting. -/
theorem chair_not_mirrored :
    ConstantTotal lampRun.remote 1 ∧ CleanListing (rowsListed lampRun.remote (pagesFrom 1 1)) ∧
    syncInventory .ascii lampRun 1 chairTable = some (.ok 1, chairAndLampTable) ∧
    ¬ Mirrors .ascii lampRun (rowsListed lampRun.remote (pagesFrom 1 1)) chairAndLampTable := by
  refine ⟨constantTotal_lampRun, cleanListing_lamp, syncInventory_lamp, fun h => ?_⟩
  obtain ⟨raw, hraw, hkey, -⟩ :=
    (h.rows ("chair", "W") 5 0 (by decide) (Or.inl (by decide))).mp ⟨⟨none, none⟩, rfl⟩
  obtain rfl : raw = ⟨.str "lamp", .str "W", some 3, some 1⟩ := List.mem_singleton.mp hraw
  exact absurd hkey (by decide)

end Restock
