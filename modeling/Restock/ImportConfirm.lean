/-
# Confirming imports of third-party inventory (`services/third_party_inventory.py`)

A batch of imported rows is confirmed in one transaction: warehouses that are not there
yet are inserted, all rows of the current inventory are deleted, and one row for each
warehouse and SKU is inserted with the sums of the valid rows. Any number of confirmations
run side by side.

The `DELETE` sees the rows that are committed when it begins. If no other confirmation
commits from then until the commit, the inventory is that of the batch
(`inventory_of_reach`). Otherwise the rows of the other batch are not deleted, and the
inventory is a mixture of the two (`inventory_mixed`).
-/
import Restock.SaleDays
import Restock.Lib.Processes
import Restock.Lib.ReadCommitted

namespace Restock

open ReadCommitted

/-! ### Rows and totals -/

/-- The status of an upload. -/
inductive ImportStatus
  | pending | applied | expired
deriving DecidableEq, Repr

/-- An item of an upload. -/
structure ImportItem where
  warehouseNameRaw : String
  commoditySku : Option String
  available : Option ℤ
  reserved : Option ℤ
  errorMessage : Option String
deriving DecidableEq, Repr

/-- The item has all it needs and no error. -/
def ImportItem.valid (item : ImportItem) : Bool :=
  item.errorMessage.isNone && item.warehouseNameRaw ≠ "" && item.commoditySku.any (· ≠ "") &&
    item.available.isSome && item.reserved.isSome

/-- The key of the unique constraint. -/
def ThirdPartyInventoryCurrent.key (row : ThirdPartyInventoryCurrent) :
    ℕ × String := (row.warehouseId, row.commoditySku)

/-- What the loop over the valid items adds to which key. -/
def importEntries (warehouses : Dict String ℕ) (items : List ImportItem) :
    List ((ℕ × String) × (ℤ × ℤ)) :=
  (items.filter ImportItem.valid).filterMap fun item =>
      (warehouses.get? item.warehouseNameRaw).map fun id =>
    ((id, item.commoditySku.getD ""), (item.available.getD 0, item.reserved.getD 0))

/-- `insert_values`. -/
def importRows (warehouses : Dict String ℕ) (items : List ImportItem) :
    List ThirdPartyInventoryCurrent :=
  ((Dict.sumBy (importEntries warehouses items)).items.insertionSort fun a b =>
    a.1.1 < b.1.1 ∨ (a.1.1 = b.1.1 ∧ a.1.2 ≤ b.1.2)).map fun e => ⟨e.1.1, e.1.2, e.2.1, e.2.2⟩

/-- The valid items of a warehouse and a SKU. -/
def itemsAt (warehouses : String → Option ℕ) (items : List ImportItem) (key : ℕ × String) :
    List ImportItem :=
  items.filter fun item =>
    item.valid && warehouses item.warehouseNameRaw = some key.1 && item.commoditySku.getD "" = key.2

/-- What the inventory should say of a warehouse and a SKU. -/
def batchTotal (warehouses : String → Option ℕ) (items : List ImportItem) (key : ℕ × String) :
    Option (ℤ × ℤ) :=
  if itemsAt warehouses items key = [] then none
  else some (((itemsAt warehouses items key).map fun item => item.available.getD 0).sum,
    ((itemsAt warehouses items key).map fun item => item.reserved.getD 0).sum)

theorem valuesAt_importEntries (warehouses : Dict String ℕ) (key : ℕ × String) :
    ∀ items : List ImportItem, Dict.valuesAt (importEntries warehouses items) key =
      (itemsAt warehouses.get? items key).map fun item =>
      (item.available.getD 0, item.reserved.getD 0)
  | [] => rfl
  | item :: items => by
    have ih := valuesAt_importEntries warehouses key items
    unfold importEntries itemsAt at ih ⊢
    by_cases hv : item.valid = true
    · rw [List.filter_cons_of_pos hv, List.filterMap_cons]
      cases hw : warehouses.get? item.warehouseNameRaw with
      | none => simp [hw, ih]
      | some id =>
        by_cases hk : (id, item.commoditySku.getD "") = key
        · have hself := Dict.valuesAt_cons_self
            ((id, item.commoditySku.getD ""), (item.available.getD 0, item.reserved.getD 0))
            ((items.filter ImportItem.valid).filterMap
                fun item => (warehouses.get? item.warehouseNameRaw).map fun id =>
              ((id, item.commoditySku.getD ""), (item.available.getD 0, item.reserved.getD 0)))
          simp only [hk] at hself
          simp only [Option.map_some, hk]
          rw [hself, ih, List.filter_cons_of_pos, List.map_cons]
          rw [← hk]
          simp [hv, hw]
        · simp only [Option.map_some]
          rw [Dict.valuesAt_cons_ne hk, ih, List.filter_cons_of_neg]
          intro h
          simp only [Bool.and_eq_true, decide_eq_true_eq, hw, Option.some.injEq] at h
          exact hk (Prod.ext h.1.2 h.2)
    · rw [List.filter_cons_of_neg hv, ih, List.filter_cons_of_neg]
      simp [hv]

/-- The loop makes the totals of the batch. -/
theorem get?_importTotals (warehouses : Dict String ℕ) (items : List ImportItem)
    (key : ℕ × String) :
    (Dict.sumBy (importEntries warehouses items)).get? key =
    batchTotal warehouses.get? items key := by
  have hsum : ∀ l : List ImportItem,
      (l.map fun item => (item.available.getD 0, item.reserved.getD 0)).sum =
      ((l.map fun item => item.available.getD 0).sum,
      (l.map fun item => item.reserved.getD 0).sum) := by
    intro l
    induction l with
    | nil => rfl
    | cons item l ih => simp [ih]
  rw [Dict.get?_sumBy, valuesAt_importEntries, batchTotal]
  by_cases h : itemsAt warehouses.get? items key = []
  · rw [if_pos h, if_pos (by rw [h]; rfl)]
  · rw [if_neg h, if_neg (by simpa using h), hsum]

theorem mem_importRows {warehouses : Dict String ℕ} {items : List ImportItem}
    {row : ThirdPartyInventoryCurrent} :
    row ∈ importRows warehouses items ↔
    batchTotal warehouses.get? items row.key = some (row.available, row.reserved) := by
  rw [← get?_importTotals, Dict.get?_eq_some_iff]
  unfold importRows
  rw [List.mem_map]
  constructor
  · rintro ⟨e, he, rfl⟩
    exact (List.mem_insertionSort _).mp he
  · intro h
    exact ⟨_, (List.mem_insertionSort _).mpr h, rfl⟩

theorem nodup_importRows (warehouses : Dict String ℕ) (items : List ImportItem) :
    ((importRows warehouses items).map ThirdPartyInventoryCurrent.key).Nodup := by
  have hkeys : (importRows warehouses items).map ThirdPartyInventoryCurrent.key =
      ((Dict.sumBy (importEntries warehouses items)).items.insertionSort fun a b =>
        a.1.1 < b.1.1 ∨ (a.1.1 = b.1.1 ∧ a.1.2 ≤ b.1.2)).map Prod.fst := by
    simp [importRows, ThirdPartyInventoryCurrent.key, Function.comp_def]
  rw [hkeys]
  exact ((List.perm_insertionSort _ _).map Prod.fst).nodup_iff.mpr (Dict.sumBy _).nodup

/-! ### The program -/

/-- A confirmation, with the warehouses it has by their names. -/
structure ImportCall where
  batchId : ℕ
  warehouseByName : Dict String ℕ

/-- Where a confirmation stands. -/
inductive ImportPoint
  | idle
  | reading (batchId : ℕ)
  | selecting (batchId : ℕ)
  /-- The names of the warehouses that are still to be inserted. -/
  | naming (call : ImportCall) (rest : List String)
  /-- The `DELETE`, with the commits there were when it began, and the rows it has still to
  delete. -/
  | deleting (call : ImportCall) (since : ℕ) (rest : List ℕ)
  | inserting (call : ImportCall) (since : ℕ) (rest : List ThirdPartyInventoryCurrent)
  | committing (call : ImportCall) (since : ℕ)

/-- The process does nothing. -/
def ImportPoint.isIdle : ImportPoint → Bool
  | .idle => true
  | _ => false

theorem ImportPoint.eq_idle {point : ImportPoint} (h : point.isIdle = true) : point = .idle := by
  cases point with
  | idle => rfl
  | _ => cases h

/-- What a process does next. -/
inductive ImportAction
  | confirm (batchId : ℕ)
  | statement
  | crash

/-- The tables, and the sequences of their ids. Besides, the number of confirmations that
were committed, and the batch of the last. -/
structure ImportDb (P : Type) where
  batches : Table P ℕ ImportStatus
  warehouses : Table P String ℕ
  current : Table P ℕ ThirdPartyInventoryCurrent
  nextWarehouse : ℕ
  nextRow : ℕ
  commits : ℕ
  last : Option ℕ

section Import

variable {P : Type} [DecidableEq P] (items : ℕ → List ImportItem)

namespace ImportDb

variable (db : ImportDb P) (p : P)

/-- The transaction of a process rolls back. -/
def rollback : ImportDb P :=
  { db with
    batches := db.batches.abort p
    warehouses := db.warehouses.abort p
    current := db.current.abort p }

/-- The transaction of a process commits. -/
def commit (batchId : ℕ) : ImportDb P :=
  { db with
    batches := db.batches.commit p
    warehouses := db.warehouses.commit p
    current := db.current.commit p
    commits := db.commits + 1
    last := some batchId }

/-- Another transaction that has not ended has inserted, or is deleting, a row with the key. -/
def waits (key : ℕ × String) : Bool :=
  db.current.locks.items.any fun e => e.2.1 ≠ p &&
    (e.2.2.any (·.key = key) || (db.current.committed.get? e.1).any (·.key = key))

/-- There is a row with the key. -/
def taken (key : ℕ × String) : Bool := !(db.current.select p fun row => row.key = key).isEmpty

end ImportDb

/-- The names of the warehouses of the valid items, in order. -/
def importNames (items : List ImportItem) : List String :=
  (Dict.fromKeys ((items.filter ImportItem.valid).map ImportItem.warehouseNameRaw)).insertionSort
    (· ≤ ·)

/-- One statement of `confirm_import_batch`. -/
def importNext (db : ImportDb P) (p : P) (point : ImportPoint) (action : ImportAction) :
    Option (ImportDb P × ImportPoint) :=
  match action, point with
  | .crash, _ => some (db.rollback p, .idle)
  | .confirm batchId, .idle =>
    some (db, if db.batches.view p batchId = some .pending then .reading batchId else .idle)
  | .statement, .reading batchId =>
    some (db, if (items batchId).any ImportItem.valid then .selecting batchId else .idle)
  | .statement, .selecting batchId =>
    let existing := (importNames (items batchId)).filterMap fun name =>
      (db.warehouses.view p name).map (name, ·)
    some (db, .naming ⟨batchId, .ofList existing⟩
      ((importNames (items batchId)).filter fun name => (db.warehouses.view p name).isNone))
  | .statement, .naming call (name :: rest) =>
    if db.warehouses.free p name then
      if (db.warehouses.view p name).isNone then
        some ({ db with
          warehouses := db.warehouses.write p name (some db.nextWarehouse)
          nextWarehouse := db.nextWarehouse + 1 },
          .naming { call with warehouseByName := call.warehouseByName.set name db.nextWarehouse }
            rest)
      -- the name was inserted meanwhile
      else some (db.rollback p, .idle)
    else none
  | .statement, .naming call [] =>
    some (db, .deleting call db.commits (db.current.select p fun _ => true))
  | .statement, .deleting call since (id :: rest) =>
    (db.current.update p id (fun _ => true) fun _ => none).map fun current =>
      ({ db with current := current }, .deleting call since rest)
  | .statement, .deleting call since [] =>
    some (db, .inserting call since (importRows call.warehouseByName (items call.batchId)))
  | .statement, .inserting call since (row :: rest) =>
    if db.waits p row.key then none
    else if db.taken p row.key then some (db.rollback p, .idle)
    else
      some ({ db with current := db.current.write p db.nextRow (some row), nextRow := db.nextRow + 1 },
        .inserting call since rest)
  | .statement, .inserting call since [] =>
    (db.batches.update p call.batchId (fun _ => true) fun _ => some .applied).map fun batches =>
      ({ db with batches := batches }, .committing call since)
  | .statement, .committing call _ => some (db.commit p call.batchId, .idle)
  | _, _ => none

/-- Nothing is under way, and nothing was confirmed. -/
structure ImportStart (s : Procs P ImportPoint (ImportDb P)) : Prop where
  idle : ∀ p, s.proc p = .idle
  warehouses : s.shared.warehouses.locks = .empty
  current : s.shared.current.locks = .empty
  fresh : s.shared.current.Fresh s.shared.nextRow
  last : s.shared.last = none

/-- The orders in which confirmations may alternate. -/
def importRuns : Lts (Procs P ImportPoint (ImportDb P)) (P × ImportAction) :=
  Procs.runs ImportStart (importNext items)

/-- The condition on the steps of a run: what commits has seen all commits when its
`DELETE` began. -/
def ImportGuarded (a : P × ImportAction) (s : Procs P ImportPoint (ImportDb P)) : Prop :=
  ∀ call since, s.proc a.1 = .committing call since → a.2 = .statement → since = s.shared.commits

/-- The current inventory is that of the batch: the totals of its valid items, once each. -/
structure ImportDb.Shows (db : ImportDb P) (items : List ImportItem) : Prop where
  names : ∀ item ∈ items, item.valid = true →
    (db.warehouses.committed.get? item.warehouseNameRaw).isSome = true
  rows : ∀ row, (∃ id, db.current.committed.get? id = some row) ↔
    batchTotal db.warehouses.committed.get? items row.key = some (row.available, row.reserved)
  unique : ∀ id id' row row', db.current.committed.get? id = some row →
    db.current.committed.get? id' = some row' → row.key = row'.key → id = id'

/-! ### What a statement does -/

variable {items} {db db' : ImportDb P} {p q : P} {point : ImportPoint} {action : ImportAction}

/-- The confirmation that is under way. -/
def ImportPoint.call : ImportPoint → Option ImportCall
  | .naming call _ | .deleting call _ _ | .inserting call _ _ | .committing call _ => some call
  | _ => none

/-- The names of warehouses that are still to be looked up. -/
def ImportPoint.missing : ImportPoint → List String
  | .naming _ rest => rest
  | _ => []

/-- All rows that were committed when the `DELETE` began are deleted, or still to be. -/
def ImportDb.Deletes (db : ImportDb P) (p : P) (since : ℕ) (rest : List ℕ) : Prop :=
  since ≤ db.commits ∧ (db.commits = since → ∀ id row, db.current.committed.get? id = some row →
    id ∈ rest ∨ db.current.locks.get? id = some (p, none))

/-- The rows that are inserted are the first ones of the batch, each with an id of its own. -/
def ImportDb.Inserts (db : ImportDb P) (p : P) (rows rest : List ThirdPartyInventoryCurrent) :
    Prop :=
  ∃ inserted : List (ℕ × ThirdPartyInventoryCurrent), rows = inserted.map Prod.snd ++ rest ∧
    ∀ id row, db.current.locks.get? id = some (p, some row) ↔ (id, row) ∈ inserted

/-- What holds of the inventory for a confirmation at a point. -/
def ImportDb.RowsAt (items : ℕ → List ImportItem) (db : ImportDb P) (p : P) : ImportPoint → Prop
  | .deleting _ since rest =>
    db.Deletes p since rest ∧ ∀ id row, db.current.locks.get? id ≠ some (p, some row)
  | .inserting call since rest => db.Deletes p since [] ∧
      db.Inserts p (importRows call.warehouseByName (items call.batchId)) rest
  | .committing call since => db.Deletes p since [] ∧
      db.Inserts p (importRows call.warehouseByName (items call.batchId)) []
  | _ => db.current.Unlocked p

/-- What holds for a confirmation at a point. -/
structure ImportAt (items : ℕ → List ImportItem) (p : P) (point : ImportPoint) (db : ImportDb P) :
    Prop where
  /-- It inserts names that are not there. -/
  names : ∀ name v, db.warehouses.locks.get? name = some (p, v) →
    db.warehouses.committed.get? name = none ∧ point.call ≠ none
  known : ∀ call, point.call = some call → ∀ name id, call.warehouseByName.get? name = some id →
    db.warehouses.view p name = some id
  covered : ∀ call, point.call = some call → ∀ item ∈ items call.batchId, item.valid = true →
    item.warehouseNameRaw ∈ point.missing ∨
      (call.warehouseByName.get? item.warehouseNameRaw).isSome = true
  rows : db.RowsAt items p point

/-- What holds of the tables in every state of a run. -/
structure ImportInv (items : ℕ → List ImportItem) (db : ImportDb P) : Prop where
  fresh : db.current.Fresh db.nextRow
  shows : ∀ batchId, db.last = some batchId → db.Shows (items batchId)

/-- What a statement does for the others. -/
inductive ImportEffect (db : ImportDb P) (p : P) (point : ImportPoint) (action : ImportAction)
    (db' : ImportDb P) : Prop
  | keeps : Table.Moves p db.warehouses db'.warehouses → Table.Moves p db.current db'.current →
      db'.warehouses.committed = db.warehouses.committed →
        db'.current.committed = db.current.committed →
      db'.commits = db.commits → db'.last = db.last → db'.current.Fresh db'.nextRow →
        ImportEffect db p point action db'
  | commits {call since} : point = .committing call since → action = .statement →
      db' = db.commit p call.batchId → ImportEffect db p point action db'

theorem mem_importNames {items : List ImportItem} {item : ImportItem} (h : item ∈ items)
    (hv : item.valid = true) : item.warehouseNameRaw ∈ importNames items :=
  (List.mem_insertionSort _).mpr
    (Dict.mem_fromKeys.mpr (List.mem_map_of_mem (List.mem_filter.mpr ⟨h, hv⟩)))

theorem ImportAt.unnamed (hat : ImportAt items p point db) (h : point.call = none) :
    db.warehouses.Unlocked p :=
  fun name v hl => (hat.names name v hl).2 h

/-- One who has no row. -/
theorem ImportAt.of_unlocked (hw : db.warehouses.Unlocked p) (hp : point.call = none)
    (hrows : db.RowsAt items p point) : ImportAt items p point db where
  names name v hl := absurd hl (hw name v)
  known call h := by
    rw [hp] at h
    cases h
  covered call h := by
    rw [hp] at h
    cases h
  rows := hrows

/-- The warehouses that are there are found, and the others are to be inserted. -/
theorem ImportAt.selected {batchId : ℕ} (hat : ImportAt items p (.selecting batchId) db) :
    ImportAt items p (.naming ⟨batchId, .ofList ((importNames (items batchId)).filterMap fun name =>
      (db.warehouses.view p name).map (name, ·))⟩
      ((importNames (items batchId)).filter fun name => (db.warehouses.view p name).isNone))
          db where
  names name v hl := absurd hl (hat.unnamed rfl name v)
  known call hcall name id hid := by
    obtain rfl := Option.some.inj hcall
    rcases Dict.get?_foldl_set _ Dict.empty hid with hmem | hmem
    · obtain ⟨name', -, hview⟩ := List.mem_filterMap.mp hmem
      obtain ⟨id', hid', he⟩ := Option.map_eq_some_iff.mp hview
      obtain ⟨rfl, rfl⟩ := Prod.mk.inj he
      exact hid'
    · simp at hmem
  covered call hcall item hitem hv := by
    obtain rfl := Option.some.inj hcall
    have hname := mem_importNames hitem hv
    cases hview : db.warehouses.view p item.warehouseNameRaw with
    | none => exact Or.inl (List.mem_filter.mpr ⟨hname, by simp [hview]⟩)
    | some id =>
      refine Or.inr (Dict.isSome_foldl_set _ Dict.empty (Or.inl ⟨id, ?_⟩))
      exact List.mem_filterMap.mpr ⟨_, hname, by rw [hview]; rfl⟩
  rows := hat.rows

/-- A warehouse is inserted. -/
theorem ImportAt.named {call : ImportCall} {name : String} {rest : List String}
    (hat : ImportAt items p (.naming call (name :: rest)) db)
    (hnone : db.warehouses.view p name = none) {id : ℕ} :
    ImportAt items p (.naming { call with warehouseByName := call.warehouseByName.set name id }
      rest)
      { db with warehouses := db.warehouses.write p name (some id), nextWarehouse := id + 1 } where
  names name' v hl := by
    have hl' : (db.warehouses.write p name (some id)).locks.get? name' = some (p, v) := hl
    rw [Table.get?_locks_write] at hl'
    refine ⟨?_, nofun⟩
    split_ifs at hl' with hn
    · subst hn
      rcases Table.view_cases db.warehouses p name' with hheld | ⟨-, hsame⟩
      · exact (hat.names name' _ hheld).1
      · exact hsame.symm.trans hnone
    · exact (hat.names name' v hl').1
  known call' hcall name' id' hid' := by
    obtain rfl := Option.some.inj hcall
    have hview : (db.warehouses.write p name (some id)).view p name' =
        if name' = name then some id else db.warehouses.view p name' := Table.view_write _ _ _ _ _
    have hget : (call.warehouseByName.set name id).get? name' = some id' := hid'
    rw [Dict.get?_set] at hget
    refine hview.trans ?_
    split_ifs at hget ⊢ with hn
    · exact hget
    · exact hat.known call rfl name' id' hget
  covered call' hcall item hitem hv := by
    obtain rfl := Option.some.inj hcall
    show _ ∨ ((call.warehouseByName.set name id).get? item.warehouseNameRaw).isSome = true
    rw [Dict.get?_set]
    by_cases hn : item.warehouseNameRaw = name
    · exact Or.inr (by rw [if_pos hn]; rfl)
    · rw [if_neg hn]
      rcases hat.covered call rfl item hitem hv with hmem | hsome
      · exact Or.inl (List.mem_of_ne_of_mem hn hmem)
      · exact Or.inr hsome
  rows := hat.rows

/-- The statements after the warehouses leave them. -/
theorem ImportAt.advance {point' : ImportPoint} {db' : ImportDb P} (hat : ImportAt items p point db)
    (hcall : point'.call = point.call) (hmissing : point.missing = [])
    (hw : db'.warehouses = db.warehouses) (hrows : db'.RowsAt items p point') :
    ImportAt items p point' db' where
  names name v hl := by
    rw [hw] at hl ⊢
    rw [hcall]
    exact hat.names name v hl
  known call hc name id hid := by
    rw [hw]
    exact hat.known call (hcall.symm.trans hc) name id hid
  covered call hc item hitem hv := by
    rcases hat.covered call (hcall.symm.trans hc) item hitem hv with hmem | hsome
    · rw [hmissing] at hmem
      cases hmem
    · exact Or.inr hsome
  rows := hrows

/-- A row is deleted, or it is gone already. -/
theorem deletes_update {since id : ℕ} {rest : List ℕ}
    {current : Table P ℕ ThirdPartyInventoryCurrent} (hd : db.Deletes p since (id :: rest))
    (hu : db.current.update p id (fun _ => true) (fun _ => none) = some current) :
    ImportDb.Deletes { db with current := current } p since rest := by
  refine ⟨hd.1, fun hcommits k row hrow => ?_⟩
  obtain ⟨-, ⟨v, -, -, rfl⟩ | ⟨hnone, rfl⟩⟩ := Table.update_cases hu
  · show k ∈ rest ∨ (db.current.write p id none).locks.get? k = some (p, none)
    rw [Table.get?_locks_write]
    by_cases hk : k = id
    · exact Or.inr (if_pos hk)
    · rw [if_neg hk]
      rcases hd.2 hcommits k row hrow with hmem | hlock
      · exact Or.inl (List.mem_of_ne_of_mem hk hmem)
      · exact Or.inr hlock
  · by_cases hk : k = id
    · subst hk
      right
      rcases Table.view_cases db.current p k with hheld | ⟨-, hsame⟩
      · cases hview : db.current.view p k with
        | none =>
          rw [hview] at hheld
          exact hheld
        | some v => cases hnone v hview
      · rw [show db.current.committed.get? k = some row from hrow] at hsame
        cases hnone row hsame
    · rcases hd.2 hcommits k row hrow with hmem | hlock
      · exact Or.inl (List.mem_of_ne_of_mem hk hmem)
      · exact Or.inr hlock

omit [DecidableEq P] in
/-- A row is inserted, with the next id of the sequence. -/
theorem inserts_write {rows rest : List ThirdPartyInventoryCurrent}
    {row : ThirdPartyInventoryCurrent} {next : ℕ} (hf : db.current.Fresh db.nextRow)
    (hi : db.Inserts p rows (row :: rest)) :
    ImportDb.Inserts { db with
      current := db.current.write p db.nextRow (some row), nextRow := next } p rows rest := by
  obtain ⟨inserted, hrows, hlocks⟩ := hi
  refine ⟨inserted ++ [(db.nextRow, row)], ?_, fun id row' => ?_⟩
  · rw [hrows, List.map_append, List.append_assoc]
    rfl
  · show (db.current.write p db.nextRow (some row)).locks.get? id = some (p, some row') ↔ _
    rw [Table.get?_locks_write, List.mem_append, List.mem_singleton]
    by_cases hid : id = db.nextRow
    · subst hid
      have hnew : (db.nextRow, row') ∉ inserted := by
        rw [← hlocks, (hf db.nextRow le_rfl).2]
        exact fun h => nomatch h
      rw [if_pos rfl]
      constructor
      · intro h
        obtain ⟨-, hrow⟩ := Prod.mk.inj (Option.some.inj h)
        rw [Option.some.inj hrow]
        exact Or.inr rfl
      · rintro (h | h)
        · exact absurd h hnew
        · rw [(Prod.mk.inj h).2]
    · rw [if_neg hid, hlocks]
      constructor
      · exact Or.inl
      · rintro (h | h)
        · exact h
        · exact absurd (Prod.mk.inj h).1 hid

/-- **Every statement**: what holds after it for the one who ran it, and what it does for
the others. -/
theorem importNext_spec {r : ImportDb P × ImportPoint} (hI : ImportInv items db)
    (hat : ImportAt items p point db) (h : importNext items db p point action = some r) :
    ImportAt items p r.2 r.1 ∧ ImportEffect db p point action r.1 := by
  have hpass : ImportEffect db p point action db := .keeps .same .same rfl rfl rfl rfl hI.fresh
  have hquit : ImportAt items p .idle (db.rollback p) ∧
      ImportEffect db p point action (db.rollback p) :=
    ⟨.of_unlocked (Table.unlocked_abort _ p) rfl (Table.unlocked_abort _ p),
      .keeps .abort .abort rfl rfl rfl rfl (hI.fresh.abort p)⟩
  unfold importNext at h
  split at h
  case h_1 =>
    rw [← Option.some.inj h]
    exact hquit
  case h_2 batchId =>
    rw [← Option.some.inj h]
    refine ⟨?_, hpass⟩
    split
    · exact .of_unlocked (hat.unnamed rfl) rfl hat.rows
    · exact .of_unlocked (hat.unnamed rfl) rfl hat.rows
  case h_3 batchId =>
    rw [← Option.some.inj h]
    refine ⟨?_, hpass⟩
    split
    · exact .of_unlocked (hat.unnamed rfl) rfl hat.rows
    · exact .of_unlocked (hat.unnamed rfl) rfl hat.rows
  case h_4 batchId =>
    rw [← Option.some.inj h]
    exact ⟨hat.selected, hpass⟩
  case h_5 call name rest =>
    split_ifs at h with hfree hnone
    · rw [← Option.some.inj h]
      exact ⟨hat.named (Option.isNone_iff_eq_none.mp hnone),
        .keeps (.write hfree) .same rfl rfl rfl rfl hI.fresh⟩
    · rw [← Option.some.inj h]
      exact hquit
  case h_6 call =>
    rw [← Option.some.inj h]
    have hun : db.current.Unlocked p := hat.rows
    refine ⟨hat.advance rfl rfl rfl
      ⟨⟨le_rfl, fun _ id row hrow => Or.inl ?_⟩, fun id row => hun id _⟩, hpass⟩
    exact Table.mem_select.mpr ⟨row, (hun.view id).trans hrow, rfl⟩
  case h_7 call since id rest =>
    obtain ⟨current, hu, rfl⟩ := Option.map_eq_some_iff.mp h
    obtain ⟨hdeletes, hnothing⟩ := hat.rows
    refine ⟨hat.advance rfl rfl rfl ⟨deletes_update hdeletes hu, fun k row hk => ?_⟩,
      .keeps .same (Table.moves_update hu) rfl (Table.update_committed hu) rfl rfl
        (hI.fresh.update hu)⟩
    rcases Table.update_held hu hk with hold | ⟨-, v, -, -, hv⟩
    · exact hnothing k row hold
    · cases hv
  case h_8 call since =>
    rw [← Option.some.inj h]
    obtain ⟨hdeletes, hnothing⟩ := hat.rows
    refine ⟨hat.advance rfl rfl rfl ⟨hdeletes, [], rfl, fun id row => ?_⟩, hpass⟩
    exact iff_of_false (hnothing id row) List.not_mem_nil
  case h_9 call since row rest =>
    split_ifs at h with hwaits htaken
    · rw [← Option.some.inj h]
      exact hquit
    · rw [← Option.some.inj h]
      obtain ⟨hdeletes, hinserts⟩ := hat.rows
      refine ⟨hat.advance rfl rfl rfl
        ⟨⟨hdeletes.1, fun hcommits id row' hrow' => ?_⟩, inserts_write hI.fresh hinserts⟩,
        .keeps .same (.write hI.fresh.free) rfl rfl rfl rfl (hI.fresh.insert _)⟩
      have hlock := (hdeletes.2 hcommits id row' hrow').resolve_left List.not_mem_nil
      have hne : id ≠ db.nextRow := by
        intro hid
        rw [hid, (hI.fresh db.nextRow le_rfl).2] at hlock
        cases hlock
      right
      show (db.current.write p db.nextRow (some row)).locks.get? id = some (p, none)
      rw [Table.get?_locks_write, if_neg hne]
      exact hlock
  case h_10 call since =>
    obtain ⟨batches, hu, rfl⟩ := Option.map_eq_some_iff.mp h
    exact ⟨hat.advance rfl rfl rfl hat.rows, .keeps .same .same rfl rfl rfl rfl hI.fresh⟩
  case h_11 call since =>
    rw [← Option.some.inj h]
    exact ⟨.of_unlocked (Table.unlocked_commit _ p) rfl (Table.unlocked_commit _ p),
      .commits rfl rfl rfl⟩
  case h_12 => cases h

/-! ### Committing -/

/-- Warehouses that are committed stay. -/
theorem ImportAt.warehouses_commit (hat : ImportAt items p point db) {name : String}
    {id batchId : ℕ} (h : db.warehouses.committed.get? name = some id) :
    (db.commit p batchId).warehouses.committed.get? name = some id := by
  have hget : (db.commit p batchId).warehouses.committed.get? name = db.warehouses.view p name :=
    Table.get?_commit _ _ _
  rw [hget, Table.view_of_not_held, h]
  intro v hv
  rw [(hat.names name v hv).1] at h
  cases h

/-- The totals depend on the names of the valid items only. -/
theorem batchTotal_congr {warehouses warehouses' : String → Option ℕ} {items : List ImportItem}
    (h : ∀ item ∈ items, item.valid = true →
      warehouses item.warehouseNameRaw = warehouses' item.warehouseNameRaw)
    (key : ℕ × String) : batchTotal warehouses items key = batchTotal warehouses' items key := by
  have hitems : itemsAt warehouses items key = itemsAt warehouses' items key := by
    unfold itemsAt
    refine List.filter_congr fun item hitem => ?_
    by_cases hv : item.valid = true
    · rw [h item hitem hv]
    · simp [hv]
  rw [batchTotal, batchTotal, hitems]

/-- The rows after a commit are the rows that were inserted. -/
theorem ImportDb.current_commit (batchId : ℕ) {since : ℕ}
    {inserted : List (ℕ × ThirdPartyInventoryCurrent)} (hd : db.Deletes p since [])
    (hsince : since = db.commits)
    (hlocks : ∀ id row, db.current.locks.get? id = some (p, some row) ↔ (id, row) ∈ inserted)
    (id : ℕ) (row : ThirdPartyInventoryCurrent) :
    (db.commit p batchId).current.committed.get? id = some row ↔ (id, row) ∈ inserted := by
  have hget : (db.commit p batchId).current.committed.get? id = db.current.view p id :=
    Table.get?_commit _ _ _
  rw [hget, ← hlocks]
  constructor
  · intro hview
    rcases Table.view_cases db.current p id with hheld | ⟨hno, hsame⟩
    · rw [hview] at hheld
      exact hheld
    · have hdeleted := hd.2 hsince.symm id row (hsame.symm.trans hview)
      exact absurd (hdeleted.resolve_left List.not_mem_nil) (hno none)
  · exact Table.view_of_held

/-- A commit that has seen all others leaves the inventory of its batch. -/
theorem ImportAt.shows_commit {call : ImportCall} {since : ℕ}
    (hat : ImportAt items p (.committing call since) db) (hsince : since = db.commits) :
    (db.commit p call.batchId).Shows (items call.batchId) := by
  obtain ⟨hdeletes, inserted, hrows, hlocks⟩ := hat.rows
  rw [List.append_nil] at hrows
  have hcurrent := ImportDb.current_commit call.batchId hdeletes hsince hlocks
  -- the warehouses of the call are committed with it
  have hnames : ∀ item ∈ items call.batchId, item.valid = true → ∃ id,
      call.warehouseByName.get? item.warehouseNameRaw = some id ∧
      (db.commit p call.batchId).warehouses.committed.get? item.warehouseNameRaw = some id := by
    intro item hitem hv
    have hsome := (hat.covered call rfl item hitem hv).resolve_left List.not_mem_nil
    obtain ⟨id, hid⟩ := Option.isSome_iff_exists.mp hsome
    exact ⟨id, hid, (Table.get?_commit _ _ _).trans (hat.known call rfl _ id hid)⟩
  refine ⟨fun item hitem hv => ?_, fun row => ?_, fun id id' row row' hid hid' hkey => ?_⟩
  · obtain ⟨id, -, hid⟩ := hnames item hitem hv
    rw [hid]
    rfl
  · have hsame := batchTotal_congr (fun item hitem hv => by
      obtain ⟨id, hcall, hcommitted⟩ := hnames item hitem hv
      exact hcommitted.trans hcall.symm) row.key
    rw [hsame, ← mem_importRows, hrows, List.mem_map]
    constructor
    · rintro ⟨id, hid⟩
      exact ⟨(id, row), (hcurrent id row).mp hid, rfl⟩
    · rintro ⟨⟨id, row⟩, hmem, rfl⟩
      exact ⟨id, (hcurrent id row).mpr hmem⟩
  · have hnodup : (inserted.map fun e => e.2.key).Nodup := by
      have hkeys := nodup_importRows call.warehouseByName (items call.batchId)
      rw [hrows, List.map_map] at hkeys
      exact hkeys
    have heq := List.inj_on_of_nodup_map hnodup ((hcurrent id row).mp hid)
      ((hcurrent id' row').mp hid') hkey
    exact (Prod.mk.inj heq).1

/-! ### Runs -/

/-- What others have, and what they know. -/
theorem ImportAt.other (hq : ImportAt items q point db) (hne : q ≠ p)
    (hw : Table.Moves p db.warehouses db'.warehouses) (hc : Table.Moves p db.current db'.current)
    (hstay : ∀ name id, db.warehouses.committed.get? name = some id →
      db'.warehouses.committed.get? name = some id)
    (hcommits : (db'.commits = db.commits ∧ db'.current.committed = db.current.committed) ∨
      db'.commits = db.commits + 1) :
    ImportAt items q point db' := by
  have hdeletes : ∀ since rest, db.Deletes q since rest → db'.Deletes q since rest := by
    intro since rest hd
    rcases hcommits with ⟨hsame, hrows⟩ | hmore
    · rw [ImportDb.Deletes, hsame, hrows]
      refine ⟨hd.1, fun he id row hrow => ?_⟩
      rcases hd.2 he id row hrow with hmem | hlock
      · exact Or.inl hmem
      · exact Or.inr ((hc.held_other hne).mpr hlock)
    · have hle := hd.1
      refine ⟨by omega, fun he => ?_⟩
      omega
  have hinserts : ∀ rows rest, db.Inserts q rows rest → db'.Inserts q rows rest := by
    intro rows rest hi
    obtain ⟨inserted, hrows, hlocks⟩ := hi
    exact ⟨inserted, hrows, fun id row => (hc.held_other hne).trans (hlocks id row)⟩
  refine ⟨fun name v hl => ?_, fun call hcall name id hid => ?_, hq.covered, ?_⟩
  · have hl' := (hw.held_other hne).mp hl
    exact ⟨(hw.committed_of_held hne hl').trans (hq.names name v hl').1, (hq.names name v hl').2⟩
  · have hview := hq.known call hcall name id hid
    rcases Table.view_cases db.warehouses q name with hheld | ⟨hno, hsame⟩
    · rw [hview] at hheld
      exact Table.view_of_held ((hw.held_other hne).mpr hheld)
    · rw [Table.view_of_not_held fun v hv => hno v ((hw.held_other hne).mp hv)]
      exact hstay name id (hsame.symm.trans hview)
  · have hrows := hq.rows
    cases point with
    | deleting call since rest =>
      exact ⟨hdeletes since rest hrows.1, fun id row h => hrows.2 id row ((hc.held_other hne).mp h)⟩
    | inserting call since rest => exact ⟨hdeletes since [] hrows.1, hinserts _ rest hrows.2⟩
    | committing call since => exact ⟨hdeletes since [] hrows.1, hinserts _ [] hrows.2⟩
    | idle => exact hc.unlocked_other hne hrows
    | reading batchId => exact hc.unlocked_other hne hrows
    | selecting batchId => exact hc.unlocked_other hne hrows
    | naming call rest => exact hc.unlocked_other hne hrows

variable {s : Procs P ImportPoint (ImportDb P)}

theorem importNext_own {a : ImportAction} {r : ImportDb P × ImportPoint}
    (hI : ImportInv items s.shared) (hat : ImportAt items p (s.proc p) s.shared)
    (hok : ImportGuarded (p, a) s) (h : importNext items s.shared p (s.proc p) a = some r) :
    ImportInv items r.1 ∧ ImportAt items p r.2 r.1 := by
  obtain ⟨hat', heffect⟩ := importNext_spec hI hat h
  refine ⟨?_, hat'⟩
  cases heffect with
  | keeps _ _ hwarehouses hcurrent _ hlast hfresh =>
    refine ⟨hfresh, fun batchId hb => ?_⟩
    obtain ⟨hnames, hrows, hunique⟩ := hI.shows batchId (hlast.symm.trans hb)
    exact ⟨hwarehouses ▸ hnames, hwarehouses ▸ hcurrent ▸ hrows, hcurrent ▸ hunique⟩
  | @commits call since hpoint ha hdb =>
    rw [hpoint] at hat
    rw [hdb]
    refine ⟨hI.fresh.commit p, fun batchId hb => ?_⟩
    rw [← Option.some.inj hb]
    exact hat.shows_commit (hok call since hpoint ha)

theorem importNext_other {a : ImportAction} {r : ImportDb P × ImportPoint}
    (hI : ImportInv items s.shared) (hAt : ∀ q, ImportAt items q (s.proc q) s.shared)
    (h : importNext items s.shared p (s.proc p) a = some r) (hne : q ≠ p) :
    ImportAt items q (s.proc q) r.1 := by
  obtain ⟨-, heffect⟩ := importNext_spec hI (hAt p) h
  cases heffect with
  | keeps hw hc hwarehouses hcurrent hcommits _ _ =>
    exact (hAt q).other hne hw hc (fun name id hid => hwarehouses ▸ hid)
      (Or.inl ⟨hcommits, hcurrent⟩)
  | commits hpoint _ hdb =>
    rw [hdb]
    exact (hAt q).other hne .commit .commit (fun name id hid => (hAt p).warehouses_commit hid)
      (Or.inr rfl)

/-- **Confirmations serialise**: in every state reached after a commit the current
inventory is exactly the totals of the valid items of the batch that was committed last. -/
theorem inventory_of_reach (h : (importRuns items).ReachIf ImportGuarded s) {batchId : ℕ}
    (hlast : s.shared.last = some batchId) : s.shared.Shows (items batchId) := by
  have hinv := Procs.invariant (I := ImportInv items) (Q := ImportAt items)
    (fun {t} (h0 : ImportStart t) =>
        ⟨⟨h0.fresh, fun batchId hb => by rw [h0.last] at hb; cases hb⟩, fun p => by
      rw [h0.idle p]
      refine .of_unlocked (fun name v hv => ?_) rfl fun id v hv => ?_
      · rw [h0.warehouses] at hv
        cases hv
      · rw [h0.current] at hv
        cases hv⟩)
    (fun hI hAt hok hr => importNext_own hI (hAt _) hok hr)
    (fun hI hAt _ hr hne => importNext_other hI hAt hr hne) h
  exact hinv.1.shows batchId hlast

end Import

/-! ### Two runs -/

/-- Two batches for one warehouse, each with a SKU of its own. -/
def twoBatches : ℕ → List ImportItem
  | 1 => [⟨"W", some "A", some 5, some 0, none⟩]
  | 2 => [⟨"W", some "B", some 7, some 1, none⟩, ⟨"W", some "B", some 1, some 0, none⟩]
  | _ => []

/-- Both batches are pending, and the inventory is empty. -/
def pendingBatches : Procs Bool ImportPoint (ImportDb Bool) :=
  ⟨⟨⟨.set (.set .empty 1 .pending) 2 .pending, .empty⟩, ⟨.set .empty "W" 1, .empty⟩,
    ⟨.empty, .empty⟩, 2, 1, 0, none⟩, fun _ => .idle⟩

theorem importStart_pendingBatches : ImportStart pendingBatches :=
  ⟨fun _ => rfl, rfl, rfl, fun _ _ => ⟨rfl, rfl⟩, rfl⟩

/-- A confirmation, up to where its `DELETE` has begun. -/
def begins (p : Bool) (batchId : ℕ) : List (Bool × ImportAction) :=
  [(p, .confirm batchId), (p, .statement), (p, .statement), (p, .statement)]

def seesAll (a : Bool × ImportAction) (s : Procs Bool ImportPoint (ImportDb Bool)) : Bool :=
  match s.proc a.1 with
  | .committing _ since => since = s.shared.commits
  | _ => true

theorem seesAll_spec {a : Bool × ImportAction} {s : Procs Bool ImportPoint (ImportDb Bool)}
    (h : seesAll a s = true) : ImportGuarded a s := by
  intro call since hp _
  unfold seesAll at h
  rw [hp] at h
  exact of_decide_eq_true h

/-- One batch after the other: the second replaces the first. -/
theorem inventory_of_reach_second : ∃ s : Procs Bool ImportPoint (ImportDb Bool),
    (importRuns twoBatches).ReachIf ImportGuarded s ∧ s.shared.last = some 2 ∧
    s.shared.current.committed.values = [⟨1, "B", 8, 1⟩] ∧ s.shared.Shows (twoBatches 2) := by
  have hrun : (Procs.execIf (importNext twoBatches) seesAll pendingBatches
      (begins true 1 ++ List.replicate 4 (true, .statement) ++ begins false 2 ++ List.replicate 5
        (false, .statement))).map
        (fun s => (s.shared.last, s.shared.current.committed.values)) =
          some (some 2, [⟨1, "B", 8, 1⟩]) := by decide +kernel
  obtain ⟨s, hs, hall⟩ := Option.map_eq_some_iff.mp hrun
  obtain ⟨hlast, hvalues⟩ := Prod.mk.inj hall
  have hreach : (importRuns twoBatches).ReachIf ImportGuarded s :=
    Procs.reach_execIf (.start importStart_pendingBatches) hs fun a _ s hc => seesAll_spec hc
  exact ⟨s, hreach, hlast, hvalues, inventory_of_reach hreach hlast⟩

/-- Both begin to delete before either commits: the inventory has the rows of both. -/
theorem inventory_mixed :
    ∃ s : Procs Bool ImportPoint (ImportDb Bool), (importRuns twoBatches).Reach s ∧
    (∀ p, s.proc p = .idle) ∧ s.shared.last = some 2 ∧ s.shared.commits = 2 ∧
    s.shared.current.committed.values = [⟨1, "A", 5, 0⟩, ⟨1, "B", 8, 1⟩] ∧
    ¬ s.shared.Shows (twoBatches 2) := by
  have hrun : (Procs.exec (importNext twoBatches) pendingBatches
      (begins true 1 ++ begins false 2 ++ List.replicate 4 (true, .statement) ++ List.replicate 4
        (false, .statement))).map
        (fun s => ((s.shared.last, s.shared.commits, [true, false].all fun p => (s.proc p).isIdle),
          (s.shared.current.committed.values, s.shared.current.committed.get? 1),
          batchTotal s.shared.warehouses.committed.get? (twoBatches 2) (1, "A"))) =
      some ((some 2, 2, true), ([⟨1, "A", 5, 0⟩, ⟨1, "B", 8, 1⟩], some ⟨1, "A", 5, 0⟩),
        none) := by decide +kernel
  obtain ⟨s, hs, hall⟩ := Option.map_eq_some_iff.mp hrun
  obtain ⟨hghost, hrest⟩ := Prod.mk.inj hall
  obtain ⟨hlast, hghost⟩ := Prod.mk.inj hghost
  obtain ⟨hcommits, hidle⟩ := Prod.mk.inj hghost
  obtain ⟨hrows, htotal⟩ := Prod.mk.inj hrest
  obtain ⟨hvalues, hfirst⟩ := Prod.mk.inj hrows
  have hdone : ∀ p, s.proc p = .idle := by
    intro p
    rw [List.all_eq_true] at hidle
    exact ImportPoint.eq_idle (hidle p (by cases p <;> simp))
  refine ⟨s, Procs.reach_exec (.start importStart_pendingBatches) hs fun _ _ _ => trivial, hdone,
    hlast, hcommits, hvalues, fun h => ?_⟩
  have hrow := (h.rows ⟨1, "A", 5, 0⟩).mp ⟨1, hfirst⟩
  have hsame : batchTotal s.shared.warehouses.committed.get? (twoBatches 2)
    (1, "A") = some (5, 0) := hrow
  rw [htotal] at hsame
  cases hsame

end Restock
