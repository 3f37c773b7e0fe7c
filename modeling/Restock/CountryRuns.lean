/-
# Runs of syncs, edits and EU changes

The operations that write a country, as steps on the tables: the sync jobs, the
change of the EU members with its backfill, the country of a warehouse, the
single order edit and the import. Each runs to completion before the next.

Every row should represent a normalised source country under the members in
force (`EuRepresentation`). The warehouse patch and the single edit write the
country column alone: they keep it when the new country and the original that
stays behind fit together (`StepOk`), and every other step always keeps it
(`euRepresentation_of_reach`). For the same reason a single edit of an order
that has an original does not last, while an import does
(`edit_survives_iff`).
-/
import Restock.CountryBackfill
import Restock.OrderEdit
import Restock.Lib.Lts

namespace Restock

open PyText

/-! ### The operations -/

inductive CountryOp where
  | syncWarehouse (id : String)
  | syncOrder (raw : RawPackage)
  | syncInventory (raw : RawInventory)
  | syncOutRecord (raw : RawOutRecord)
  | backfillRemarks
  | patchGlobal (euCountries : Option (List JsonValue))
  | patchWarehouseCountry (id : String) (country : Option String)
  | patchOrder (shopId amazonOrderId : String) (packageSn : Option String) (patch : DataOrderPatch)
  | importOrders (fields : { l : List EditableField // l.Nodup }) (sheet : List (List JsonValue))

section Operations

variable {U : CharTable} (C : Collation U)

def backfillEuCountryMapping (euCountries : List String) (db : CountryDb) :
    Except String CountryDb := do
  let orders ← backfillOrderEuCountryMapping C euCountries db.orders
  let inventory ← backfillInventoryEuCountryMapping C euCountries db.inventory
  let inTransit ← backfillInTransitEuCountryMapping C euCountries db.inTransit
  pure { db with orders, inventory, inTransit }

/-- `patch_global` for the EU members: the list is normalised when the request
is read, and the backfill runs only when it differs from the stored one. -/
def patchGlobal (euCountries : Option (List JsonValue)) (db : CountryDb) :
    Except String CountryDb :=
  match euCountries with
  | none => .ok db
  | some values => (normalizeCountryListForEuMembers U (some values)).bind fun updated =>
    if db.euCountries ≠ updated then
      backfillEuCountryMapping C updated { db with euCountries := updated }
    else .ok db

variable (U)

/-- `patch_warehouse_country`; the schema takes two characters, and the column
no more than two after upper-casing. -/
def patchWarehouseCountry (id : String) (country : Option String) (db : CountryDb) :
    Except String CountryDb :=
  if country.any fun c => c.length ≠ 2 then .error "String should have 2 characters"
  else match db.warehouses.get? id with
    | none => .error s!"仓库 {id} 不存在"
    | some _ =>
      let newCountry := country.map (upper U)
      if newCountry.any fun c => 2 < c.length then
        .error "value too long for type character varying(2)"
      else .ok { db with
        warehouses := db.warehouses.set id newCountry
        inventory := db.inventory.mapVal fun key row =>
          if key.2 = id then { row with cols := { row.cols with country := newCountry } } else row }

variable {U}

/-- One operation; an error leaves the database as it was. -/
def CountryOp.apply : CountryOp → CountryDb → Except String CountryDb
  | .syncWarehouse id, db => .ok (if id = "" then db
      else { db with warehouses := db.warehouses.set id (db.warehouses.getD id none) })
  | .syncOrder raw, db => (loadEuCountries U (db.euCountries.map .str)).map fun eu =>
      { db with orders := upsertPackageShipOrder U raw eu db.orders }
  | .syncInventory raw, db => (loadEuCountries U (db.euCountries.map .str)).map fun eu =>
      { db with inventory := upsertInventory U raw db.warehouses eu db.inventory }
  | .syncOutRecord raw, db => (loadEuCountries U (db.euCountries.map .str)).map fun eu =>
      { db with inTransit := upsertOutRecord U raw db.warehouses.keys eu db.inTransit }
  | .backfillRemarks, db => (loadEuCountries U (db.euCountries.map .str)).map fun eu =>
      { db with inTransit := backfillTargetCountryFromRemark U eu db.inTransit }
  | .patchGlobal euCountries, db => Restock.patchGlobal C euCountries db
  | .patchWarehouseCountry id country, db => Restock.patchWarehouseCountry U id country db
  | .patchOrder shopId amazonOrderId packageSn patch, db =>
      (patchOrderHeader U shopId amazonOrderId packageSn patch db).map Prod.snd
  | .importOrders fields sheet, db => applyOrderInfoMatch U fields sheet db

/-- The database before any sync. -/
def freshDb (E : List String) : CountryDb := ⟨E, .empty, .empty, .empty, .empty, .empty⟩

/-- Runs from a fresh database with an accepted member list. -/
def countryRuns : Lts CountryDb CountryOp where
  start db := ∃ E, EuMembers U E ∧ db = freshDb E
  step db op db' := op.apply C db = .ok db'

end Operations

/-! ### The representation of every row -/

section Representation

variable (U : CharTable)

/-- A row without a country, one outside the EU, or one merged into it. -/
def RowRepresents (E : List String) (cols : CountryCols) : Prop :=
  cols.country = none ∨ cols.country = some "" ∨
    (cols.original = none ∧ ∃ c, cols.country = some c ∧ IsNormalized U c ∧ c ∉ E) ∨
    (cols.country = some "EU" ∧ ∃ c, cols.original = some c ∧ IsNormalized U c ∧ c ∈ E)

/-- Every row of the three tables keeps its country in the form of the members in force. -/
structure EuRepresentation (db : CountryDb) : Prop where
  orders : ∀ key row, db.orders.get? key = some row → RowRepresents U db.euCountries row.cols
  inventory : ∀ key row, db.inventory.get? key = some row → RowRepresents U db.euCountries row.cols
  inTransit : ∀ key row, db.inTransit.get? key = some row → RowRepresents U db.euCountries row.cols

/-- What a row must hold to stay representable: a row without a country may
keep a normalised original, which the backfill brings back. -/
def RowKeeps (E : List String) (cols : CountryCols) : Prop :=
  (cols.country = none ∧ ∀ c, cols.original = some c → IsNormalized U c) ∨
    ∃ c, IsNormalized U c ∧ cols = represent E c

/-- The invariant of the runs that keep the representation. -/
structure CountryInv (db : CountryDb) : Prop where
  members : EuMembers U db.euCountries
  names : NamesNormalized U db.countryNames
  warehouses : ∀ id c, db.warehouses.get? id = some (some c) → IsNormalized U c
  orders : ∀ key row, db.orders.get? key = some row → RowKeeps U db.euCountries row.cols
  inventory : ∀ key row, db.inventory.get? key = some row → RowKeeps U db.euCountries row.cols
  inTransit : ∀ key row, db.inTransit.get? key = some row → RowKeeps U db.euCountries row.cols

/-- The country `c` and the original that stays in the row fit together. -/
def Fits (E : List String) (c : String) (original : Option String) : Prop :=
  (original = none ∧ c ∉ E) ∨ (c = "EU" ∧ ∃ o, original = some o ∧ o ∈ E)

/-- When a step keeps the representation: a warehouse gets no country or a
normalised one that fits the originals of its inventory rows, and a single edit
enters a code that fits the original of its order. -/
def StepOk : CountryOp → CountryDb → Prop
  | .patchWarehouseCountry id country, db => ∀ c, country = some c → IsNormalized U (upper U c) ∧
      ∀ sku row, db.inventory.get? (sku, id) = some row →
        Fits db.euCountries (upper U c) row.cols.original
  | .patchOrder shopId amazonOrderId packageSn patch, db => ∀ key row value code name,
      selectHeader db.orders shopId amazonOrderId packageSn = some (key, row) →
      patch.countryCode = some (some value) →
      normalizeCountryValue U (stringCell U (.str value)) (loadCountryOptions U db) = .ok
        (code, name) →
      Fits db.euCountries code row.originalCountryCode
  | _, _ => True

variable {U}

theorem rowRepresents_represent {E : List String} {c : String} (hc : IsNormalized U c) :
    RowRepresents U E (represent E c) := by
  unfold represent
  split_ifs with h
  · exact Or.inr (Or.inr (Or.inr ⟨rfl, c, rfl, hc, h⟩))
  · exact Or.inr (Or.inr (Or.inl ⟨rfl, c, rfl, hc, h⟩))

theorem RowKeeps.represents {E : List String} {cols : CountryCols} (h : RowKeeps U E cols) :
    RowRepresents U E cols := by
  rcases h with ⟨h, -⟩ | ⟨c, hc, rfl⟩
  · exact Or.inl h
  · exact rowRepresents_represent hc

theorem CountryInv.representation {db : CountryDb} (h : CountryInv U db) : EuRepresentation U db :=
  ⟨fun key row hr => (h.orders key row hr).represents,
    fun key row hr => (h.inventory key row hr).represents, fun key row hr =>
    (h.inTransit key row hr).represents⟩

theorem CountryInv.withOrders {db : CountryDb} (h : CountryInv U db)
    {orders : Dict OrderKey OrderHeader}
    (ho : ∀ key row, orders.get? key = some row → RowKeeps U db.euCountries row.cols) :
    CountryInv U { db with orders } :=
  ⟨h.members, h.names, h.warehouses, ho, h.inventory, h.inTransit⟩

theorem CountryInv.withInventory {db : CountryDb} (h : CountryInv U db)
    {inventory : Dict (String × String) InventorySnapshotLatest}
    (hi : ∀ key row, inventory.get? key = some row → RowKeeps U db.euCountries row.cols) :
    CountryInv U { db with inventory } :=
  ⟨h.members, h.names, h.warehouses, h.orders, hi, h.inTransit⟩

theorem CountryInv.withInTransit {db : CountryDb} (h : CountryInv U db)
    {inTransit : Dict String InTransitRecord}
    (ht : ∀ key row, inTransit.get? key = some row → RowKeeps U db.euCountries row.cols) :
    CountryInv U { db with inTransit } :=
  ⟨h.members, h.names, h.warehouses, h.orders, h.inventory, ht⟩

/-- A fitting pair is a representation. -/
theorem Fits.keeps {E : List String} (hE : EuMembers U E) {c : String} (hc : IsNormalized U c)
    {original : Option String} (h : Fits E c original) : RowKeeps U E ⟨some c, original⟩ := by
  rcases h with ⟨rfl, hm⟩ | ⟨rfl, o, rfl, hm⟩
  · exact Or.inr ⟨c, hc, (if_neg hm).symm⟩
  · exact Or.inr ⟨o, hE.normalized o hm, (if_pos hm).symm⟩

theorem keeps_mappedCols {E : List String} (hE : EuMembers U E) {country : Option String}
    (hc : ∀ c, country = some c → IsNormalized U c) : RowKeeps U E (mappedCols U country E) := by
  cases country with
  | none => exact Or.inl ⟨rfl, by simp [mappedCols_none]⟩
  | some c => exact Or.inr ⟨c, hc c rfl, mappedCols_eq hE (hc c rfl).pyCanonical⟩

/-- The backfill brings every row to the new members. -/
theorem keeps_backfillCols (C : Collation U) {E E' : List String} {cols : CountryCols}
    (h : RowKeeps U E cols) (extra : Option String) :
    RowKeeps U E' (backfillCols C E' cols extra).1 := by
  rcases h with ⟨hnone, horig⟩ | ⟨c, hc, rfl⟩
  · cases ho : cols.original with
    | none =>
      rw [backfillCols_none C E' extra (by rw [CountryCols.source, ho, hnone]; rfl)]
      exact Or.inl ⟨hnone, horig⟩
    | some c =>
      have hc := horig c ho
      have hs : cols.source = some c := by rw [CountryCols.source, ho]; rfl
      rw [backfillCols_eq C E' extra hs hc.ne_empty, normalizedCountryExpr_normalized C hc]
      exact Or.inr ⟨c, hc, rfl⟩
  · rw [backfillCols_represent C hc.ne_empty (normalizedCountryExpr_normalized C hc)]
    exact Or.inr ⟨c, hc, rfl⟩

/-- An order row always has a country, so it represents one. -/
theorem OrderHeader.represents {E : List String} {row : OrderHeader} (h : RowKeeps U E row.cols) :
    ∃ c, IsNormalized U c ∧ row.cols = represent E c := by
  rcases h with ⟨h, -⟩ | h
  · exact absurd h (by simp [OrderHeader.cols])
  · exact h

end Representation

/-! ### What each step keeps -/

section Steps

variable {U : CharTable} (C : Collation U)

/-- The stored members are read back unchanged. -/
theorem loadEuCountries_stored {E eu : List String} (hE : EuMembers U E)
    (h : loadEuCountries U (E.map .str) = .ok eu) : eu = E := by
  rw [loadEuCountries, normalizeCountryListForEuMembers_self U hE] at h
  exact (Except.ok.inj h).symm

theorem keeps_upsertPackageShipOrder {E : List String} (hE : EuMembers U E) (raw : RawPackage)
    {orders : Dict OrderKey OrderHeader}
    (h : ∀ key row, orders.get? key = some row → RowKeeps U E row.cols) :
    ∀ key row, (upsertPackageShipOrder U raw E orders).get? key = some row →
    RowKeeps U E row.cols := by
  -- a locked row keeps its columns, any other gets those of the package
  have hwrite : ∀ (order : RawPackageOrder) (old : Option OrderHeader),
      (∀ row, old = some row → RowKeeps U E row.cols) →
      RowKeeps U E (writeHeader (headerValues U raw order E) old).cols := by
    intro order old hold
    by_cases hl : ∃ row, old = some row ∧ row.manualEditLocked = true
    · obtain ⟨row, rfl, hl⟩ := hl
      have hcols : (writeHeader (headerValues U raw order E) (some row)).cols = row.cols := by
        simp only [writeHeader, updateHeader, protectManualEdit, hl, OrderHeader.cols, if_true]
      rw [hcols]
      exact hold row rfl
    · have hs : Synced U raw E (writeHeader (headerValues U raw order E) old) :=
        synced_upsert hE order old fun row hr => by
          by_contra hne
          exact hl ⟨row, hr, by simpa using hne⟩
      exact Or.inr ⟨_, isNormalized_sourceCountry U raw.marketplace, hs.cols⟩
  have hfold : ∀ (l : List RawPackageOrder) (shop sn : String) (t : Dict OrderKey OrderHeader),
      (∀ key row, t.get? key = some row → RowKeeps U E row.cols) →
      ∀ key row, (l.foldl (fun orders order =>
        upsertHeader ⟨shop, order.amazonOrderId, sn⟩ (headerValues U raw order E) orders)
          t).get? key = some row →
        RowKeeps U E row.cols := by
    intro l shop sn
    induction l with
    | nil => exact fun t ht => ht
    | cons order l ih =>
      intro t ht
      exact ih _ (Dict.forall_set ht (hwrite order _ fun row hr => ht _ row hr))
  unfold upsertPackageShipOrder
  simp only
  split_ifs
  · exact h
  · exact hfold raw.orders _ _ orders h

theorem keeps_upsertInventory {E : List String} (hE : EuMembers U E) (raw : RawInventory)
    {map : Dict String (Option String)}
    (hw : ∀ id c, map.get? id = some (some c) → IsNormalized U c)
    {inventory : Dict (String × String) InventorySnapshotLatest}
    (h : ∀ key row, inventory.get? key = some row → RowKeeps U E row.cols) :
    ∀ key row, (upsertInventory U raw map E inventory).get? key = some row →
    RowKeeps U E row.cols := by
  unfold upsertInventory
  simp only
  split_ifs
  · exact h
  · split
    next country _ _ hmap _ _ =>
      exact Dict.forall_set h (keeps_mappedCols hE fun c hc => hw _ c (by rw [hmap, hc]))
    · exact h

theorem keeps_upsertOutRecord {E : List String} (hE : EuMembers U E) (raw : RawOutRecord)
    (ids : List String) {records : Dict String InTransitRecord}
    (h : ∀ key row, records.get? key = some row → RowKeeps U E row.cols) :
    ∀ key row, (upsertOutRecord U raw ids E records).get? key = some row →
    RowKeeps U E row.cols := by
  unfold upsertOutRecord
  simp only
  split_ifs
  · exact h
  · exact Dict.forall_set h
      (keeps_mappedCols hE fun c hc => extractCountryFromRemark_normalized U hc)

theorem keeps_backfillRemarks {E : List String} (hE : EuMembers U E)
    {records : Dict String InTransitRecord}
    (h : ∀ key row, records.get? key = some row → RowKeeps U E row.cols) :
    ∀ key row, (backfillTargetCountryFromRemark U E records).get? key = some row →
    RowKeeps U E row.cols := by
  refine Dict.forall_mapVal fun key row hr => ?_
  split
  next remark _ _ =>
    split
    · exact h key row hr
    next c hc =>
      have hn := extractCountryFromRemark_normalized U hc
      exact keeps_mappedCols hE fun d hd => Option.some.inj hd ▸ hn
  · exact h key row hr

theorem inv_patchGlobal {euCountries : Option (List JsonValue)} {db db' : CountryDb}
    (h : CountryInv U db) (hs : patchGlobal C euCountries db = .ok db') : CountryInv U db' := by
  unfold patchGlobal at hs
  split at hs
  · exact Except.ok.inj hs ▸ h
  next values =>
    obtain ⟨E, hE, hs⟩ := Checked.bind_ok hs
    have hmem := normalizeCountryListForEuMembers_spec U hE
    have hself := normalizeCountryListForEuMembers_self U hmem
    split_ifs at hs with hne
    · simp only [backfillEuCountryMapping, backfillOrderEuCountryMapping,
        backfillInventoryEuCountryMapping, backfillInTransitEuCountryMapping, hself] at hs
      rw [← Except.ok.inj hs]
      refine ⟨hmem, h.names, h.warehouses, ?_, ?_, ?_⟩
      · refine Dict.forall_mapVal fun key row hr => ?_
        obtain ⟨c, hc, hcols⟩ := OrderHeader.represents (h.orders key row hr)
        exact Or.inr ⟨c, hc, (backfillOrderRow_source C hc (hcols ▸ source_represent _ c) E).1⟩
      · exact Dict.forall_mapVal fun key row hr =>
          keeps_backfillCols C (h.inventory key row hr) none
      · exact Dict.forall_mapVal fun key row hr =>
          keeps_backfillCols C (h.inTransit key row hr) none
    · exact Except.ok.inj hs ▸ h

theorem inv_patchWarehouseCountry {id : String} {country : Option String} {db db' : CountryDb}
    (h : CountryInv U db) (hok : StepOk U (.patchWarehouseCountry id country) db)
    (hs : patchWarehouseCountry U id country db = .ok db') : CountryInv U db' := by
  unfold patchWarehouseCountry at hs
  split_ifs at hs with hlen
  split at hs
  · simp only [reduceCtorEq] at hs
  next old hw =>
    simp only at hs
    split_ifs at hs with hlong
    rw [← Except.ok.inj hs]
    refine ⟨h.members, h.names, ?_, h.orders, ?_, h.inTransit⟩
    · intro i c hc
      simp only [Dict.get?_set] at hc
      split_ifs at hc with hi
      · obtain ⟨d, hd, rfl⟩ := Option.map_eq_some_iff.mp (Option.some.inj hc)
        exact (hok d hd).1
      · exact h.warehouses i c hc
    · refine Dict.forall_mapVal fun key row hr => ?_
      split_ifs with hk
      · cases country with
        | none =>
          refine Or.inl ⟨rfl, fun c hc => ?_⟩
          rcases h.inventory key row hr with ⟨-, ho⟩ | ⟨d, hd, hrep⟩
          · exact ho c hc
          · have hc' : row.cols.original = some c := hc
            rw [hrep] at hc'
            unfold represent at hc'
            split_ifs at hc'
            exact Option.some.inj hc' ▸ hd
        | some c =>
          obtain ⟨hn, hrows⟩ := hok c rfl
          have hr' : db.inventory.get? (key.1, id) = some row := by rw [← hk]; exact hr
          exact (hrows key.1 row hr').keeps h.members hn
      · exact h.inventory key row hr

theorem inv_patchOrder {shopId amazonOrderId : String} {packageSn : Option String}
    {patch : DataOrderPatch} {db db' : CountryDb} {key : OrderKey} (h : CountryInv U db)
    (hok : StepOk U (.patchOrder shopId amazonOrderId packageSn patch) db)
    (hs : patchOrderHeader U shopId amazonOrderId packageSn patch db = .ok (key, db')) :
    CountryInv U db' := by
  have hp := patchOrderHeader_ok hs
  obtain ⟨hE, hw, hi, ht⟩ := hp.tables
  obtain ⟨row, row', hsel, hrow, hset, -, horig, hunsent, hsent⟩ := hp.row
  have hcols : RowKeeps U db.euCountries row'.cols := by
    cases hc : patch.countryCode with
    | none =>
      have : row'.cols = row.cols := by rw [OrderHeader.cols, OrderHeader.cols, horig, hunsent hc]
      rw [this]
      exact h.orders key row hrow
    | some sent =>
      cases sent with
      | none => exact absurd hc hp.sent
      | some value =>
        obtain ⟨name, hn⟩ := hsent value hc
        have hnorm := normalizeCountryValue_normalized (loadCountryOptions_normalized h.names) hn
        rw [OrderHeader.cols, horig]
        exact (hok key row value _ name hsel hc hn).keeps h.members hnorm
  refine ⟨hE ▸ h.members, hp.names h.names, hw ▸ h.warehouses, ?_, ?_, ?_⟩
  · rw [hset, hE]
    exact Dict.forall_set h.orders hcols
  · rw [hi, hE]
    exact h.inventory
  · rw [ht, hE]
    exact h.inTransit

theorem inv_importOrders {fields : List EditableField} (hf : fields.Nodup)
    {sheet : List (List JsonValue)} {db db' : CountryDb} (h : CountryInv U db)
    (hs : applyOrderInfoMatch U fields sheet db = .ok db') :
    CountryInv U db' := by
  obtain ⟨E, updates, him⟩ := applyOrderInfoMatch_ok hf hs
  obtain rfl := loadEuCountries_stored h.members him.loaded
  obtain ⟨hE, hw, hi, ht⟩ := him.tables
  refine ⟨hE ▸ h.members, him.names ▸ h.names, hw ▸ h.warehouses, fun key row' hrow' => ?_, ?_, ?_⟩
  · rw [hE]
    cases hr : db.orders.get? key with
    | none => rw [him.absent key hr] at hrow'; simp at hrow'
    | some row =>
      have hrows := him.rows key row hr
      cases hu : updates.get? key.amazonOrderId with
      | none =>
        rw [hu] at hrows
        have : row = row' := Option.some.inj (hrows.symm.trans hrow')
        exact this ▸ h.orders key row hr
      | some u =>
        rw [hu] at hrows
        obtain ⟨row'', ha, hget⟩ := hrows
        obtain rfl : row'' = row' := Option.some.inj (hget.symm.trans hrow')
        obtain ⟨hc, heq⟩ := applyManualUpdates_ok ha
        rcases him.updates _ u hu with ⟨h1, h2⟩ | ⟨code, hcode, h1, h2⟩
        · have hcols : row''.cols = row.cols := by
            rw [h1] at hc
            rw [OrderHeader.cols, OrderHeader.cols, ← Option.some.inj hc, heq, h2]
            rfl
          rw [hcols]
          exact h.orders key row hr
        · refine Or.inr ⟨code, hcode, ?_⟩
          rw [h1] at hc
          rw [OrderHeader.cols, heq, h2, ← hc]
          rfl
  · rw [hi, hE]
    exact h.inventory
  · rw [ht, hE]
    exact h.inTransit

/-- **One step keeps the invariant** when it meets its condition. -/
theorem inv_step {op : CountryOp} {db db' : CountryDb} (h : CountryInv U db) (hok : StepOk U op db)
    (hs : op.apply C db = .ok db') : CountryInv U db' := by
  cases op with
  | syncWarehouse id =>
    rw [← Except.ok.inj hs]
    split_ifs
    · exact h
    · refine ⟨h.members, h.names, fun i c hc => ?_, h.orders, h.inventory, h.inTransit⟩
      simp only [Dict.get?_set] at hc
      split_ifs at hc with hi
      · refine h.warehouses id c ?_
        unfold Dict.getD at hc
        cases hg : db.warehouses.get? id with
        | none => rw [hg] at hc; simp at hc
        | some v => rw [hg] at hc; simpa using hc
      · exact h.warehouses i c hc
  | syncOrder raw =>
    obtain ⟨eu, he, rfl⟩ := Checked.map_ok hs
    obtain rfl := loadEuCountries_stored h.members he
    exact h.withOrders (keeps_upsertPackageShipOrder h.members raw h.orders)
  | syncInventory raw =>
    obtain ⟨eu, he, rfl⟩ := Checked.map_ok hs
    obtain rfl := loadEuCountries_stored h.members he
    exact h.withInventory (keeps_upsertInventory h.members raw h.warehouses h.inventory)
  | syncOutRecord raw =>
    obtain ⟨eu, he, rfl⟩ := Checked.map_ok hs
    obtain rfl := loadEuCountries_stored h.members he
    exact h.withInTransit (keeps_upsertOutRecord h.members raw db.warehouses.keys h.inTransit)
  | backfillRemarks =>
    obtain ⟨eu, he, rfl⟩ := Checked.map_ok hs
    obtain rfl := loadEuCountries_stored h.members he
    exact h.withInTransit (keeps_backfillRemarks h.members h.inTransit)
  | patchGlobal euCountries => exact inv_patchGlobal C h hs
  | patchWarehouseCountry id country => exact inv_patchWarehouseCountry h hok hs
  | patchOrder shopId amazonOrderId packageSn patch =>
    obtain ⟨⟨key, db₁⟩, hp, rfl⟩ := Checked.map_ok hs
    exact inv_patchOrder h hok hp
  | importOrders fields sheet => exact inv_importOrders fields.2 h hs

theorem inv_fresh {E : List String} (hE : EuMembers U E) : CountryInv U (freshDb E) :=
  ⟨hE, by simp [NamesNormalized, freshDb, Dict.keys, Dict.empty], by simp [freshDb], by simp [freshDb],
    by simp [freshDb], by simp [freshDb]⟩

/-- **Every row represents its source country** in every state reached by steps
that meet their condition. -/
theorem euRepresentation_of_reach {db : CountryDb} (h : (countryRuns C).ReachIf (StepOk U) db) :
    EuRepresentation U db := by
  refine CountryInv.representation (h.invariant ?_ fun hI hok hs => inv_step C hI hok hs)
  rintro _ ⟨E, hE, rfl⟩
  exact inv_fresh hE

end Steps

/-- Stock of one SKU in a warehouse. -/
def stockRow : RawInventory := ⟨.str "A", .str "w1", some 3, some 0⟩

/-- A warehouse with stock and no country yet, under the members `DE`. -/
def stockedDb : CountryDb :=
  { freshDb ["DE"] with
    warehouses := .set .empty "w1" none
    inventory := .set .empty ("A", "w1") ⟨⟨none, none⟩, 3, 0⟩ }

theorem reach_stockedDb :
    (countryRuns Collation.ascii).ReachIf (StepOk CharTable.ascii) stockedDb := by
  have h0 : (countryRuns Collation.ascii).ReachIf (StepOk CharTable.ascii) (freshDb ["DE"]) :=
    .start ⟨["DE"], euMembers_german, rfl⟩
  have h1 : (CountryOp.syncWarehouse "w1").apply Collation.ascii (freshDb ["DE"]) =
    .ok { freshDb ["DE"] with warehouses := .set .empty "w1" none } := rfl
  have h2 : (CountryOp.syncInventory stockRow).apply Collation.ascii
    { freshDb ["DE"] with warehouses := .set .empty "w1" none } = .ok stockedDb := rfl
  exact .step (a := CountryOp.syncInventory stockRow)
    (.step (a := CountryOp.syncWarehouse "w1") h0 trivial h1)
    trivial h2

/-- The state after `patch_warehouse_country`. -/
def patchedDb (country : String) : CountryDb :=
  { stockedDb with
    warehouses := .set .empty "w1" (some country)
    inventory := .set .empty ("A", "w1") ⟨⟨some country, none⟩, 3, 0⟩ }

theorem apply_patch_german :
    (CountryOp.patchWarehouseCountry "w1" (some "de")).apply Collation.ascii stockedDb = .ok
    (patchedDb "DE") :=
  rfl

/-- A German warehouse country entered while Germany is a member is not merged. -/
theorem not_euRepresentation_patched : (countryRuns Collation.ascii).Reach (patchedDb "DE") ∧
    ¬ EuRepresentation CharTable.ascii (patchedDb "DE") := by
  refine ⟨.step reach_stockedDb.reach trivial apply_patch_german, fun h => ?_⟩
  have hr := h.inventory ("A", "w1") ⟨⟨some "DE", none⟩, 3, 0⟩ rfl
  rcases hr with h | h | ⟨-, c, hc, -, hm⟩ | ⟨h, -⟩
  · exact absurd h (by decide)
  · exact absurd h (by decide)
  · cases Option.some.inj hc
    exact hm (by decide)
  · exact absurd h (by decide)

theorem apply_patch_us :
    (CountryOp.patchWarehouseCountry "w1" (some "us")).apply Collation.ascii stockedDb = .ok
    (patchedDb "US") :=
  rfl

theorem euRepresentation_patched : EuRepresentation CharTable.ascii (patchedDb "US") := by
  refine euRepresentation_of_reach Collation.ascii (.step reach_stockedDb ?_ apply_patch_us)
  intro c hc
  cases Option.some.inj hc
  refine ⟨isNormalized_of_capitals _ (by decide) (by decide) (by decide),
    fun sku row hr => Or.inl ⟨?_, by decide⟩⟩
  have hm := Dict.get?_eq_some_iff.mp hr
  rw [show stockedDb.inventory.items = [(("A", "w1"), ⟨⟨none, none⟩, 3, 0⟩)] from rfl,
    List.mem_singleton] at hm
  rw [(Prod.mk.inj hm).2]

/-! ### A manual country -/

/-- The two ways a user corrects an order. -/
inductive ManualEdit where
  | single (shopId amazonOrderId : String) (packageSn : Option String) (patch : DataOrderPatch)
  | infoMatch (fields : { l : List EditableField // l.Nodup }) (sheet : List (List JsonValue))

def ManualEdit.op : ManualEdit → CountryOp
  | .single shopId amazonOrderId packageSn patch => .patchOrder shopId amazonOrderId packageSn patch
  | .infoMatch fields sheet => .importOrders fields sheet

/-- What may happen to the order afterwards: syncs and changes of the EU members. -/
inductive LaterOp where
  | syncOrder (raw : RawPackage)
  | patchGlobal (euCountries : Option (List JsonValue))

def LaterOp.op : LaterOp → CountryOp
  | .syncOrder raw => .syncOrder raw
  | .patchGlobal euCountries => .patchGlobal euCountries

section Manual

variable (U : CharTable)

/-- The edit enters the country `code` for the order `key`, whose row is `row`. -/
def EntersCountry (db : CountryDb) (key : OrderKey) (row : OrderHeader) (code : String) :
    ManualEdit → Prop
  | .single shopId amazonOrderId packageSn patch =>
    selectHeader db.orders shopId amazonOrderId packageSn = some (key, row) ∧ ∃ value name,
      patch.countryCode = some (some value) ∧
      normalizeCountryValue U (stringCell U (.str value)) (loadCountryOptions U db) = .ok
        (code, name)
  | .infoMatch fields sheet =>
    db.orders.get? key = some row ∧ key.amazonOrderId ≠ "" ∧ ∃ cells ∈ sheet.drop 1,
      stringCell U (cellAt cells 0) = key.amazonOrderId ∧ ∃ value,
      (EditableField.countryCode, value) ∈ rawRowUpdates fields.1 cells ∧
      normalizeCountryCodeValue U (stringCell U value) = .ok code

/-- `coalesce(original_country_code, country_code)` of an order. -/
def sourceCountry (db : CountryDb) (key : OrderKey) : Option String :=
  (db.orders.get? key).bind fun row => row.cols.source

variable {U} (C : Collation U)

/-- The database after later operations; one that fails changes nothing. -/
def runLater : List LaterOp → CountryDb → CountryDb
  | [], db => db
  | op :: ops, db => runLater ops (match op.op.apply C db with | .ok db' => db' | .error _ => db)

/-- The names of new countries have normalised codes in every reachable state. -/
theorem names_step {op : CountryOp} {db db' : CountryDb} (hn : NamesNormalized U db.countryNames)
    (hs : op.apply C db = .ok db') : NamesNormalized U db'.countryNames := by
  cases op with
  | syncWarehouse id =>
    rw [← Except.ok.inj hs]
    split_ifs <;> exact hn
  | syncOrder raw | syncInventory raw | syncOutRecord raw | backfillRemarks =>
    obtain ⟨eu, -, rfl⟩ := Checked.map_ok hs
    exact hn
  | patchGlobal euCountries =>
    simp only [CountryOp.apply] at hs
    unfold patchGlobal at hs
    split at hs
    · exact Except.ok.inj hs ▸ hn
    next values =>
      obtain ⟨E, -, hs⟩ := Checked.bind_ok hs
      split_ifs at hs
      · obtain ⟨orders, -, hs⟩ := Checked.bind_ok hs
        obtain ⟨inventory, -, hs⟩ := Checked.bind_ok hs
        obtain ⟨inTransit, -, hs⟩ := Checked.bind_ok hs
        rw [← Except.ok.inj hs]
        exact hn
      · exact Except.ok.inj hs ▸ hn
  | patchWarehouseCountry id country =>
    simp only [CountryOp.apply] at hs
    unfold patchWarehouseCountry at hs
    split_ifs at hs
    split at hs
    · simp only [reduceCtorEq] at hs
    next =>
      simp only at hs
      split_ifs at hs
      rw [← Except.ok.inj hs]
      exact hn
  | patchOrder shopId amazonOrderId packageSn patch =>
    obtain ⟨⟨key, db₁⟩, hp, rfl⟩ := Checked.map_ok hs
    exact (patchOrderHeader_ok hp).names hn
  | importOrders fields sheet =>
    obtain ⟨E, updates, him⟩ := applyOrderInfoMatch_ok fields.2 hs
    exact him.names ▸ hn

theorem reach_names {db : CountryDb} (h : (countryRuns C).Reach db) :
    NamesNormalized U db.countryNames := by
  refine h.invariant (I := fun db => NamesNormalized U db.countryNames) ?_ fun hn hs =>
    names_step C hn hs
  rintro _ ⟨E, -, rfl⟩
  simp [NamesNormalized, freshDb, Dict.keys, Dict.empty]

/-- A locked order row whose source country is `code`. -/
def HoldsCountry (key : OrderKey) (code : String) (db : CountryDb) : Prop :=
  ∃ row, db.orders.get? key = some row ∧ row.manualEditLocked = true ∧ row.cols.source = some code

theorem HoldsCountry.source {key : OrderKey} {code : String} {db : CountryDb}
    (h : HoldsCountry key code db) : sourceCountry db key = some code := by
  obtain ⟨row, hrow, -, hs⟩ := h
  rw [sourceCountry, hrow]
  exact hs

/-- A sync leaves a locked row alone. -/
theorem holds_syncOrder {key : OrderKey} {code : String} (raw : RawPackage) (eu : List String)
    {db : CountryDb} (h : HoldsCountry key code db) :
    HoldsCountry key code { db with orders := upsertPackageShipOrder U raw eu db.orders } := by
  have hfold : ∀ (l : List RawPackageOrder) (shop sn : String) (t : Dict OrderKey OrderHeader),
      (∃ row, t.get? key = some row ∧ row.manualEditLocked = true ∧ row.cols.source = some code) →
      ∃ row, (l.foldl (fun orders order =>
        upsertHeader ⟨shop, order.amazonOrderId, sn⟩ (headerValues U raw order eu) orders)
          t).get? key = some row ∧
        row.manualEditLocked = true ∧ row.cols.source = some code := by
    intro l shop sn
    induction l with
    | nil => exact fun t ht => ht
    | cons order l ih =>
      rintro t ⟨row, hrow, hl, hs⟩
      refine ih _ ?_
      by_cases hk : key = ⟨shop, order.amazonOrderId, sn⟩
      · refine ⟨updateHeader row (headerValues U raw order eu), ?_, hl, ?_⟩
        · show (upsertHeader _ _ t).get? key = _
          rw [upsertHeader, ← hk, Dict.get?_set_self, hrow]
          rfl
        · rw [← hs]
          simp only [updateHeader, protectManualEdit, hl, OrderHeader.cols, if_true]
      · refine ⟨row, ?_, hl, hs⟩
        show (upsertHeader _ _ t).get? key = _
        rw [upsertHeader, Dict.get?_set_ne _ _ hk, hrow]
  unfold upsertPackageShipOrder
  simp only
  split_ifs
  · exact h
  · exact hfold raw.orders _ _ db.orders h

/-- The backfill recovers the source country of a row. -/
theorem holds_backfill {key : OrderKey} {code : String} (hc : IsNormalized U code) {E : List String}
    {orders : Dict OrderKey OrderHeader}
    (h : ∃ row, orders.get? key = some row ∧ row.manualEditLocked = true ∧
      row.cols.source = some code) :
    ∃ row, (orders.mapVal fun _ row => backfillOrderRow C E row).get? key = some row ∧
      row.manualEditLocked = true ∧ row.cols.source = some code := by
  obtain ⟨row, hrow, hl, hs⟩ := h
  refine ⟨backfillOrderRow C E row, by rw [Dict.get?_mapVal, hrow]; rfl, hl, ?_⟩
  rw [(backfillOrderRow_source C hc hs E).1, source_represent]

theorem holds_patchGlobal {key : OrderKey} {code : String} (hc : IsNormalized U code)
    {euCountries : Option (List JsonValue)} {db db' : CountryDb} (h : HoldsCountry key code db)
    (hs : patchGlobal C euCountries db = .ok db') : HoldsCountry key code db' := by
  unfold patchGlobal at hs
  split at hs
  · exact Except.ok.inj hs ▸ h
  next values =>
    obtain ⟨E, hE, hs⟩ := Checked.bind_ok hs
    split_ifs at hs
    · obtain ⟨orders, ho, hs⟩ := Checked.bind_ok hs
      obtain ⟨inventory, -, hs⟩ := Checked.bind_ok hs
      obtain ⟨inTransit, -, hs⟩ := Checked.bind_ok hs
      obtain ⟨members, -, rfl⟩ := Checked.map_ok ho
      rw [← Except.ok.inj hs]
      exact holds_backfill C hc h
    · exact Except.ok.inj hs ▸ h

theorem holds_runLater {key : OrderKey} {code : String} (hc : IsNormalized U code) :
    ∀ (ops : List LaterOp)
    {db : CountryDb}, HoldsCountry key code db → HoldsCountry key code (runLater C ops db)
  | [], _, h => h
  | op :: ops, db, h => by
    refine holds_runLater hc ops ?_
    split
    next db' hs =>
      cases op with
      | syncOrder raw =>
        obtain ⟨eu, -, rfl⟩ := Checked.map_ok hs
        exact holds_syncOrder raw eu h
      | patchGlobal euCountries => exact holds_patchGlobal C hc h hs
    next => exact h

/-- What the row of an order holds right after an edit: a single edit leaves the
original in place, an import writes the pair. -/
theorem edited_row {db db' : CountryDb} {key : OrderKey} {row : OrderHeader} {code : String}
    {edit : ManualEdit} (he : EntersCountry U db key row code edit)
    (hs : edit.op.apply C db = .ok db') :
    ∃ row', db'.orders.get? key = some row' ∧ row'.manualEditLocked = true ∧
      match edit with
      | .single .. => row'.countryCode = code ∧ row'.originalCountryCode = row.originalCountryCode
      | .infoMatch .. => row'.cols.source = some code := by
  cases edit with
  | single shopId amazonOrderId packageSn patch =>
    obtain ⟨hsel, value, name, hsent, hcode⟩ := he
    obtain ⟨⟨k, db₁⟩, hp, rfl⟩ := Checked.map_ok hs
    obtain ⟨row₁, row', hsel', -, hset, hl, horig, -, hv⟩ := (patchOrderHeader_ok hp).row
    obtain ⟨rfl, rfl⟩ := Prod.mk.inj (Option.some.inj (hsel.symm.trans hsel'))
    obtain ⟨name', hcode'⟩ := hv value hsent
    have hc : row'.countryCode = code := (Prod.mk.inj (Except.ok.inj (hcode'.symm.trans hcode))).1
    exact ⟨row', by rw [hset, Dict.get?_set_self], hl, hc, horig⟩
  | infoMatch fields sheet =>
    obtain ⟨hrow, hne, cells, hcells, hid, value, hv, hcode⟩ := he
    obtain ⟨E, updates, him⟩ := applyOrderInfoMatch_ok fields.2 hs
    obtain ⟨n, herr, hu⟩ := him.entered cells hcells (by rwa [hid])
    rw [hid] at hu
    have hrows := him.rows key row hrow
    rw [hu] at hrows
    obtain ⟨row', ha, hget⟩ := hrows
    obtain ⟨hc, heq⟩ := applyManualUpdates_ok ha
    obtain ⟨code', hcode', h1, h2⟩ :=
      infoMatch_country (by rw [map_fst_rawRowUpdates]; exact fields.2) hv herr
    obtain rfl : code' = code := Except.ok.inj (hcode'.symm.trans hcode)
    have hrep := applyImportCountryMapping_eq him.members
      (normalizeCountryCodeValue_normalized hcode)
    refine ⟨row', hget, by rw [heq], ?_⟩
    have hcols : row'.cols = represent E code' := by
      rw [h1] at hc
      rw [← hrep, OrderHeader.cols, ← Option.some.inj hc, heq, h2]
      rfl
    rw [hcols, source_represent]

/-- **When a manual country survives**: the source country of an edited order
stays the code that was entered, through any later syncs and EU changes, exactly
when the edit was an import, or the order had no original, or the same one. -/
theorem edit_survives_iff {db db' : CountryDb} {key : OrderKey} {row : OrderHeader} {code : String}
    {edit : ManualEdit} (hr : (countryRuns C).Reach db) (he : EntersCountry U db key row code edit)
    (hs : edit.op.apply C db = .ok db') :
    (∀ ops, sourceCountry (runLater C ops db') key = some code) ↔
      ((∃ fields sheet, edit = .infoMatch fields sheet) ∨ row.originalCountryCode = none ∨
        row.originalCountryCode = some code) := by
  have hnorm : IsNormalized U code := by
    cases edit with
    | single shopId amazonOrderId packageSn patch =>
      obtain ⟨-, value, name, -, hcode⟩ := he
      exact normalizeCountryValue_normalized
        (loadCountryOptions_normalized (reach_names C hr)) hcode
    | infoMatch fields sheet =>
      obtain ⟨-, -, cells, -, -, value, -, hcode⟩ := he
      exact normalizeCountryCodeValue_normalized hcode
  obtain ⟨row', hget, hl, hcase⟩ := edited_row C he hs
  constructor
  · intro hall
    have h0 : row'.cols.source = some code := by
      have := hall []
      rwa [runLater, sourceCountry, hget] at this
    cases edit with
    | infoMatch fields sheet => exact Or.inl ⟨fields, sheet, rfl⟩
    | single shopId amazonOrderId packageSn patch =>
      rw [CountryCols.source, OrderHeader.cols, hcase.2] at h0
      cases ho : row.originalCountryCode with
      | none => exact Or.inr (Or.inl rfl)
      | some o =>
        rw [ho] at h0
        exact Or.inr (Or.inr h0)
  · intro hcond ops
    have hsrc : row'.cols.source = some code := by
      cases edit with
      | infoMatch fields sheet => exact hcase
      | single shopId amazonOrderId packageSn patch =>
        rw [CountryCols.source, OrderHeader.cols, hcase.2, hcase.1]
        rcases hcond with ⟨fields, sheet, h⟩ | h | h
        · cases h
        · rw [h]
          rfl
        · rw [h]
          rfl
    exact (holds_runLater C hnorm ops ⟨row', hget, hl, hsrc⟩).source

end Manual

/-- The order of the German package, with Germany in the EU. -/
def germanRow (country : String) (locked : Bool) :
    OrderHeader := ⟨1, country, some "DE", "AMZ-DE", none, 0, 0, locked⟩

def germanDb (country : String) (locked : Bool) : CountryDb :=
  { freshDb ["DE"] with orders := .set .empty germanKey (germanRow country locked) }

theorem reach_germanDb : (countryRuns Collation.ascii).Reach (germanDb "EU" false) := by
  have h0 : (countryRuns Collation.ascii).Reach (freshDb ["DE"]) :=
    .start ⟨["DE"], euMembers_german, rfl⟩
  have h1 : (CountryOp.syncOrder germanPackage).apply Collation.ascii (freshDb ["DE"]) =
    .ok (germanDb "EU" false) := rfl
  exact .step h0 trivial h1

def enterUs : ManualEdit := .single "s1" "o1" (some "p1") ⟨some (some "US"), none⟩

theorem accepts_us (db : CountryDb) :
    normalizeCountryValue CharTable.ascii (stringCell CharTable.ascii (.str "US"))
    (loadCountryOptions CharTable.ascii db) = .ok ("US", none) :=
  normalizeCountryValue_builtin db (by decide) (by decide)

theorem enters_us : EntersCountry CharTable.ascii (germanDb "EU" false) germanKey
    (germanRow "EU" false) "US" enterUs :=
  ⟨rfl, "US", none, rfl, accepts_us _⟩

theorem apply_enterUs :
    enterUs.op.apply Collation.ascii (germanDb "EU" false) = .ok (germanDb "US" true) := by
  have hfield : normalizeUpdateField CharTable.ascii
      (.single (loadCountryOptions CharTable.ascii (germanDb "EU" false))) 0 ⟨.empty, [], []⟩
      (.countryCode, .str "US") = ⟨⟨some (some "US"), none, none⟩, [], []⟩ := by
    unfold normalizeUpdateField normalizeCountryField
    simp only [accepts_us, reduceCtorEq, if_false]
    rfl
  have hvalues : normalizeUpdateValues CharTable.ascii [(.countryCode, .str "US")] 0
      (.single (loadCountryOptions CharTable.ascii (germanDb "EU" false))) =
      ⟨⟨some (some "US"), none, none⟩, [], []⟩ := by
    rw [normalizeUpdateValues, List.foldl_cons, List.foldl_nil, hfield]
  have hupdates : (⟨some (some "US"), none⟩ : DataOrderPatch).updates =
    [(.countryCode, .str "US")] := rfl
  simp only [enterUs, ManualEdit.op, CountryOp.apply]
  unfold patchOrderHeader
  simp only [hupdates, hvalues]
  rfl

/-- The single edit of a merged order keeps the old original, which stays the
source country. -/
theorem edit_lost : (countryRuns Collation.ascii).Reach (germanDb "EU" false) ∧
    EntersCountry CharTable.ascii (germanDb "EU" false) germanKey (germanRow "EU" false)
    "US" enterUs ∧ enterUs.op.apply Collation.ascii (germanDb "EU" false) = .ok
    (germanDb "US" true) ∧
    ¬ ∀ ops, sourceCountry (runLater Collation.ascii ops (germanDb "US" true)) germanKey =
    some "US" := by
  refine ⟨reach_germanDb, enters_us, apply_enterUs, fun h => ?_⟩
  have h0 : sourceCountry (germanDb "US" true) germanKey = some "US" := h []
  exact absurd h0 (by decide)

theorem edit_survives_iff_german :
    (∀ ops, sourceCountry (runLater Collation.ascii ops (germanDb "US" true)) germanKey =
      some "US") ↔ ((∃ fields sheet, enterUs = .infoMatch fields sheet) ∨
        (germanRow "EU" false).originalCountryCode = none ∨
        (germanRow "EU" false).originalCountryCode = some "US") :=
  edit_survives_iff Collation.ascii reach_germanDb enters_us apply_enterUs

end Restock
