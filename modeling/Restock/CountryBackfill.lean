/-
# The backfill after a change of the EU members

When the member set changes, three update statements rewrite the country
columns of every order, inventory and in-transit row. On a package order the
result is what a sync of the same package under the last member set writes,
whatever member sets came before (`backfill_eq_sync`); the marketplace id of an
order is overwritten with the mapped country by the first backfill.
-/
import Restock.CountrySync

namespace Restock

open PyText

variable {U : CharTable} (C : Collation U)

def backfillOrderRow (members : List String) (row : OrderHeader) : OrderHeader :=
  let (cols, marketplaceId) := backfillCols C members row.cols (some row.marketplaceId)
  { row with
    countryCode := cols.country.getD row.countryCode
    originalCountryCode := cols.original
    marketplaceId := marketplaceId.getD row.marketplaceId }

def backfillOrderEuCountryMapping (euCountries : List String) (orders : Dict OrderKey OrderHeader) :
    Except String (Dict OrderKey OrderHeader) :=
  (normalizeCountryListForEuMembers U (some (euCountries.map .str))).map fun members =>
    orders.mapVal fun _ row => backfillOrderRow C members row

def backfillInventoryEuCountryMapping (euCountries : List String)
    (inventory : Dict (String × String) InventorySnapshotLatest) :
    Except String (Dict (String × String) InventorySnapshotLatest) :=
  (normalizeCountryListForEuMembers U (some (euCountries.map .str))).map fun members =>
    inventory.mapVal fun _ row => { row with cols := (backfillCols C members row.cols none).1 }

def backfillInTransitEuCountryMapping (euCountries : List String)
    (records : Dict String InTransitRecord) : Except String (Dict String InTransitRecord) :=
  (normalizeCountryListForEuMembers U (some (euCountries.map .str))).map fun members =>
    records.mapVal fun _ row => { row with cols := (backfillCols C members row.cols none).1 }

/-! ### One row -/

theorem represent_country_getD (E : List String) (c d : String) :
    (represent E c).country.getD d = if c ∈ E then "EU" else c := by
  unfold represent
  split_ifs <;> rfl

theorem OrderHeader.cols_represent {E : List String} {c : String} {row : OrderHeader}
    (h : row.cols = represent E c) : row.countryCode = (if c ∈ E then "EU" else c) ∧
      row.originalCountryCode = (represent E c).original := by
  rw [← h]
  refine ⟨?_, rfl⟩
  have := congrArg CountryCols.country h
  unfold represent at this
  split_ifs at this ⊢ <;> exact Option.some.inj this

/-- The backfill of an order row brings back its source country. -/
theorem backfillOrderRow_source {c : String} (hc : IsNormalized U c) {row : OrderHeader}
    (hs : row.cols.source = some c) (E : List String) :
    (backfillOrderRow C E row).cols = represent E c ∧
      (backfillOrderRow C E row).marketplaceId = (if c ∈ E then "EU" else c) := by
  have hb := backfillCols_eq C E (some row.marketplaceId) hs hc.ne_empty
  rw [normalizedCountryExpr_normalized C hc] at hb
  simp only [backfillOrderRow, hb, Option.map_some, Option.getD_some, and_true]
  simp only [OrderHeader.cols, represent_country_getD]
  unfold represent
  split_ifs <;> rfl

/-! ### Syncing an order row -/

section Sync

variable (U)

/-- What a sync of `raw` under the members `E` leaves in an unlocked row. -/
structure Synced (raw : RawPackage) (E : List String) (row : OrderHeader) : Prop where
  cols : row.cols = represent E (normalizeSourceCountryOrUnknown U raw.marketplace)
  marketplaceId : row.marketplaceId = (cleanText U raw.marketplaceId).getD row.countryCode
  unlocked : row.manualEditLocked = false

variable {U}

theorem synced_upsert {raw : RawPackage} {E : List String} (hE : EuMembers U E)
    (order : RawPackageOrder) (old : Option OrderHeader)
    (hold : ∀ row, old = some row → row.manualEditLocked = false) :
    Synced U raw E (writeHeader (headerValues U raw order E) old) := by
  have hcols := packageCols_eq hE raw.marketplace
  cases old with
  | none =>
    refine ⟨?_, ?_, ?_⟩
    · simpa only [writeHeader, headerValues, OrderHeader.cols] using hcols
    · simp only [writeHeader, headerValues]
    · simp only [writeHeader, headerValues]
  | some row =>
    have hl := hold row rfl
    refine ⟨?_, ?_, hl⟩
    · simpa only [writeHeader, updateHeader, protectManualEdit, hl, OrderHeader.cols, headerValues,
        Bool.false_eq_true, if_false] using hcols
    · simp only [writeHeader, updateHeader, protectManualEdit, hl, headerValues,
        Bool.false_eq_true, if_false]

/-- The orders of a package are upserted one by one; the row of a key is the
synced one as soon as one of them had that key. -/
theorem synced_foldl {raw : RawPackage} {E : List String} (hE : EuMembers U E) {k : OrderKey}
    (shop sn : String) :
    ∀ (l : List RawPackageOrder) (t : Dict OrderKey OrderHeader),
    (∀ row, t.get? k = some row → row.manualEditLocked = false) →
    ((∃ order ∈ l, (⟨shop, order.amazonOrderId, sn⟩ : OrderKey) = k) ∨ ∃ row, t.get? k = some row ∧
      Synced U raw E row) → ∃ row, (l.foldl (fun orders order =>
      upsertHeader ⟨shop, order.amazonOrderId, sn⟩ (headerValues U raw order E) orders)
        t).get? k = some row ∧
      Synced U raw E row
  | [], _, _, h => by simpa using h
  | order :: l, t, hun, h => by
    rw [List.foldl_cons]
    set t' := upsertHeader ⟨shop, order.amazonOrderId, sn⟩ (headerValues U raw order E) t with ht'
    by_cases hk : (⟨shop, order.amazonOrderId, sn⟩ : OrderKey) = k
    · have hnew : Synced U raw E (writeHeader (headerValues U raw order E) (t.get? k)) :=
        synced_upsert hE order (t.get? k) hun
      have hget : t'.get? k = some (writeHeader (headerValues U raw order E) (t.get? k)) := by
        rw [ht', upsertHeader, hk, Dict.get?_set_self]
      refine synced_foldl hE shop sn l t' (fun row hr => ?_) (Or.inr ⟨_, hget, hnew⟩)
      rw [hget] at hr
      exact Option.some.inj hr ▸ hnew.unlocked
    · have hget : t'.get? k =
        t.get? k := by rw [ht', upsertHeader, Dict.get?_set_ne _ _ (Ne.symm hk)]
      refine synced_foldl hE shop sn l t' (fun row hr => hun row (hget ▸ hr)) ?_
      rcases h with ⟨o, ho, hok⟩ | h
      · rcases List.mem_cons.mp ho with rfl | ho
        · exact absurd hok hk
        · exact Or.inl ⟨o, ho, hok⟩
      · exact Or.inr (hget ▸ h)

variable (U)

/-- `raw` is a package whose sync writes the row of `key`. -/
def WritesOrder (raw : RawPackage) (key : OrderKey) : Prop :=
  packageShopId U raw ≠ "" ∧ packageSnOf U raw ≠ "" ∧
    ∃ order ∈ raw.orders, (⟨packageShopId U raw, order.amazonOrderId,
      packageSnOf U raw⟩ : OrderKey) = key

variable {U}

theorem upsertPackageShipOrder_synced {raw : RawPackage} {E : List String} (hE : EuMembers U E)
    {k : OrderKey} {orders : Dict OrderKey OrderHeader} (hw : WritesOrder U raw k)
    (hun : ∀ row, orders.get? k = some row → row.manualEditLocked = false) :
    ∃ row, (upsertPackageShipOrder U raw E orders).get? k = some row ∧ Synced U raw E row := by
  unfold upsertPackageShipOrder
  simp only [hw.1, hw.2.1, or_self, if_false]
  exact synced_foldl hE _ _ raw.orders orders hun (Or.inl hw.2.2)

end Sync

/-! ### Any sequence of member sets -/

/-- The backfills for a sequence of member sets, one after the other. -/
def backfillOrders (Es : List (List String)) (orders : Dict OrderKey OrderHeader) :
    Except String (Dict OrderKey OrderHeader) :=
  Es.foldlM (fun orders E => backfillOrderEuCountryMapping C E orders) orders

def backfillInventory (Es : List (List String))
    (inventory : Dict (String × String) InventorySnapshotLatest) :
    Except String (Dict (String × String) InventorySnapshotLatest) :=
  Es.foldlM (fun inventory E => backfillInventoryEuCountryMapping C E inventory) inventory

/-- The last of a sequence of member sets that starts with `E`. -/
def lastMembers (E : List String) (Es : List (List String)) : List String := Es.getLast?.getD E

theorem lastMembers_cons (E E' : List String) (Es : List (List String)) :
    lastMembers E (E' :: Es) = lastMembers E' Es := by
  simp [lastMembers, List.getLast?_cons]

theorem lastMembers_members {E : List String} {Es : List (List String)} (hE : EuMembers U E)
    (hEs : ∀ E' ∈ Es, EuMembers U E') : EuMembers U (lastMembers E Es) := by
  unfold lastMembers
  cases h : Es.getLast? with
  | none => exact hE
  | some E' => exact hEs E' (List.mem_of_getLast? h)

theorem backfillOrders_run {k : OrderKey} {c : String} (hc : IsNormalized U c) :
    ∀ (Es : List (List String)), (∀ E' ∈ Es, EuMembers U E') →
    ∀ (E : List String) (t : Dict OrderKey OrderHeader) (row : OrderHeader), t.get? k = some row →
      row.cols = represent E c → ∃ t' row', backfillOrders C Es t = .ok t' ∧ t'.get? k = some row' ∧
      row'.cols = represent (lastMembers E Es) c ∧ row'.marketplaceId = if Es = [] then
      row.marketplaceId else row'.countryCode
  | [], _, E, t, row, hrow, hcols => ⟨t, row, rfl, hrow, hcols, (if_pos rfl).symm⟩
  | E' :: Es, hEs, E, t, row, hrow, hcols => by
    have hE' := hEs E' List.mem_cons_self
    obtain ⟨hcols', hmk⟩ := backfillOrderRow_source C hc (hcols ▸ source_represent E c) E'
    have hstep : backfillOrderEuCountryMapping C E' t =
        .ok (t.mapVal fun _ row => backfillOrderRow C E' row) := by
      rw [backfillOrderEuCountryMapping, normalizeCountryListForEuMembers_self U hE']
      rfl
    have hget : (t.mapVal fun _ row => backfillOrderRow C E' row).get? k =
        some (backfillOrderRow C E' row) := by
      rw [Dict.get?_mapVal, hrow]
      rfl
    obtain ⟨t', row', hrun, hrow', hlast, hmk'⟩ :=
      backfillOrders_run hc Es (fun E'' h => hEs E'' (List.mem_cons_of_mem _ h)) E' _ _ hget hcols'
    refine ⟨t', row', ?_, hrow', by rwa [lastMembers_cons], ?_⟩
    · rw [backfillOrders, List.foldlM_cons, hstep]
      exact hrun
    · rw [if_neg (List.cons_ne_nil _ _)]
      by_cases h0 : Es = []
      · subst h0
        rw [if_pos rfl] at hmk'
        rw [hmk', hmk, (OrderHeader.cols_represent hlast).1]
        rfl
      · rwa [if_neg h0] at hmk'

section Inventory

/-- A warehouse country that neither normalisation changes: none, the empty
text, or a text already in canonical form. -/
def CanonicalWarehouse (country : Option String) : Prop :=
  ∀ c, country = some c → c = "" ∨ PyCanonical U c ∧ normalizedCountryExpr C c = c

theorem backfill_mappedCols {country : Option String} (h : CanonicalWarehouse C country)
    {E E' : List String} (hE : EuMembers U E) (hE' : EuMembers U E') :
    (backfillCols C E' (mappedCols U country E) none).1 = mappedCols U country E' := by
  cases country with
  | none => rfl
  | some c =>
    by_cases hne : c = ""
    · subst hne
      have hpy : PyCanonical U
        "" := by rw [PyCanonical, normalizeObservedCountryCode_empty, Option.getD_none]
      have hrep : ∀ {E : List String}, EuMembers U E → represent E "" = ⟨some "", none⟩ := fun hE =>
        if_neg fun hm => (hE.normalized "" hm).ne_empty rfl
      rw [mappedCols_eq hE hpy, mappedCols_eq hE' hpy, hrep hE, hrep hE']
      simp [backfillCols, CountryCols.source]
    · obtain ⟨hpy, hsql⟩ := (h c rfl).resolve_left hne
      rw [mappedCols_eq hE hpy, mappedCols_eq hE' hpy, backfillCols_represent C hne hsql]

theorem backfillInventory_run {k : String × String} {country : Option String}
    (h : CanonicalWarehouse C country) :
    ∀ (Es : List (List String)), (∀ E' ∈ Es, EuMembers U E') → ∀ (E : List String), EuMembers U E →
    ∀ (t : Dict (String × String) InventorySnapshotLatest) (row : InventorySnapshotLatest),
    t.get? k = some row → row.cols = mappedCols U country E →
      ∃ t' row', backfillInventory C Es t = .ok t' ∧ t'.get? k = some row' ∧
      row'.cols = mappedCols U country (lastMembers E Es)
  | [], _, E, _, t, row, hrow, hcols => ⟨t, row, rfl, hrow, hcols⟩
  | E' :: Es, hEs, E, hE, t, row, hrow, hcols => by
    have hE' := hEs E' List.mem_cons_self
    set t₁ := t.mapVal fun _ row =>
      { row with cols := (backfillCols C E' row.cols none).1 } with ht₁
    have hstep : backfillInventoryEuCountryMapping C E' t = .ok t₁ := by
      rw [backfillInventoryEuCountryMapping, normalizeCountryListForEuMembers_self U hE']
      rfl
    have hget : t₁.get? k = some { row with cols := mappedCols U country E' } := by
      rw [ht₁, Dict.get?_mapVal, hrow, Option.map_some, hcols, backfill_mappedCols C h hE hE']
    obtain ⟨t', row', hrun, hrow', hlast⟩ :=
      backfillInventory_run h Es (fun E'' hm => hEs E'' (List.mem_cons_of_mem _ hm))
        E' hE' _ _ hget rfl
    refine ⟨t', row', ?_, hrow', by rwa [lastMembers_cons]⟩
    rw [backfillInventory, List.foldlM_cons, hstep]
    exact hrun

variable (U)

/-- `raw` is a row whose sync writes the inventory row of `key`, in a warehouse of country
`country`. -/
def WritesInventory (raw : RawInventory) (warehouseCountryMap : Dict String (Option String))
    (key : String × String) (country : Option String) : Prop :=
  raw.commoditySku.truthy = true ∧ raw.warehouseId.textOrEmpty ≠ "" ∧
    warehouseCountryMap.get? raw.warehouseId.textOrEmpty = some country ∧
    raw.stockAvailable.isSome ∧ raw.stockOccupy.isSome ∧
    (raw.commoditySku.toText, raw.warehouseId.textOrEmpty) = key

variable {U}

theorem upsertInventory_synced {raw : RawInventory} {map : Dict String (Option String)}
    {k : String × String} {country : Option String} (hw : WritesInventory raw map k country)
    (E : List String) (inventory : Dict (String × String) InventorySnapshotLatest) :
    ∃ row, (upsertInventory U raw map E inventory).get? k = some row ∧
    row.cols = mappedCols U country E := by
  obtain ⟨h1, h2, h3, h4, h5, h6⟩ := hw
  obtain ⟨a, ha⟩ := Option.isSome_iff_exists.mp h4
  obtain ⟨r, hr⟩ := Option.isSome_iff_exists.mp h5
  refine ⟨⟨mappedCols U country E, a, r⟩, ?_, rfl⟩
  simp only [upsertInventory, h1, h2, h3, ha, hr, Bool.not_true, Bool.false_eq_true,
    or_self, if_false]
  rw [h6, Dict.get?_set_self]

end Inventory

/-- **Backfill equals re-sync.** Syncing an unlocked order row under one member
set and running the backfill for any member sets after it leaves the country
columns of one sync under the last set; the marketplace id is that of the sync
while there was no backfill, and the mapped country after one. An inventory row
of a warehouse with a canonical country is left as one sync under the last set
writes it. -/
theorem backfill_eq_sync (E : List String) (Es : List (List String)) (hE : EuMembers U E)
    (hEs : ∀ E' ∈ Es, EuMembers U E') :
    (∀ (raw : RawPackage) (orders : Dict OrderKey OrderHeader) (k : OrderKey), WritesOrder U raw k →
      (∀ row, orders.get? k = some row → row.manualEditLocked = false) →
      ∃ t row once, backfillOrders C Es (upsertPackageShipOrder U raw E orders) = .ok t ∧
        t.get? k = some row ∧ (upsertPackageShipOrder U raw (lastMembers E Es) orders).get?
        k = some once ∧ row.countryCode = once.countryCode ∧
        row.originalCountryCode = once.originalCountryCode ∧ row.marketplaceId = if Es = [] then
        once.marketplaceId else once.countryCode) ∧
    (∀ (raw : RawInventory) (map : Dict String (Option String)) (country : Option String)
      (inventory : Dict (String × String) InventorySnapshotLatest) (k : String × String),
      WritesInventory raw map k country → CanonicalWarehouse C country →
      ∃ t row once, backfillInventory C Es (upsertInventory U raw map E inventory) = .ok t ∧
        t.get? k = some row ∧ (upsertInventory U raw map (lastMembers E Es) inventory).get? k =
        some once ∧ row.cols = once.cols) := by
  have hlast := lastMembers_members hE hEs
  constructor
  · intro raw orders k hw hun
    have hc := isNormalized_sourceCountry U raw.marketplace
    obtain ⟨row₀, hget₀, hs₀⟩ := upsertPackageShipOrder_synced hE hw hun
    obtain ⟨once, hget, hs⟩ := upsertPackageShipOrder_synced hlast hw hun
    obtain ⟨t, row, hrun, hrow, hcols, hmk⟩ :=
      backfillOrders_run C hc Es hEs E _ row₀ hget₀ hs₀.cols
    have h1 := OrderHeader.cols_represent hcols
    have h2 := OrderHeader.cols_represent hs.cols
    refine ⟨t, row, once, hrun, hrow, hget, h1.1.trans h2.1.symm, h1.2.trans h2.2.symm, ?_⟩
    by_cases h0 : Es = []
    · subst h0
      have hsame : once = row₀ := Option.some.inj (hget.symm.trans hget₀)
      rw [if_pos rfl] at hmk ⊢
      rw [hmk, hsame]
    · rw [if_neg h0] at hmk ⊢
      rw [hmk, h1.1, h2.1]
  · intro raw map country inventory k hw hcan
    obtain ⟨row₀, hget₀, hs₀⟩ := upsertInventory_synced hw E inventory
    obtain ⟨once, hget, hs⟩ := upsertInventory_synced hw (lastMembers E Es) inventory
    obtain ⟨t, row, hrun, hrow, hcols⟩ := backfillInventory_run C hcan Es hEs E hE _ row₀ hget₀ hs₀
    exact ⟨t, row, once, hrun, hrow, hget, hcols.trans hs.symm⟩

/-- A package sold in Germany, whose marketplace id is not a country. -/
def germanPackage : RawPackage where
  shopId := .str "s1"
  packageSn := .str "p1"
  packageNo := .null
  packageId := .null
  marketplace := .str "DE"
  marketplaceId := .str "AMZ-DE"
  postalCode := .null
  orders := [⟨"o1", 0, 0, 1⟩]

def germanKey : OrderKey := ⟨"s1", "o1", "p1"⟩

theorem writesOrder_german : WritesOrder CharTable.ascii germanPackage germanKey := by
  refine ⟨by decide, by decide, ⟨"o1", 0, 0, 1⟩, by simp [germanPackage], by decide⟩

/-- A backfill for an unchanged member set overwrites the marketplace id. -/
theorem backfill_ne_sync : WritesOrder CharTable.ascii germanPackage germanKey ∧
    ((backfillOrders Collation.ascii [[]]
      (upsertPackageShipOrder .ascii germanPackage [] .empty)).toOption.bind
      fun t => (t.get? germanKey).map (·.marketplaceId)) = some "DE" ∧
    ((upsertPackageShipOrder .ascii germanPackage [] .empty).get? germanKey).map (·.marketplaceId) =
      some "AMZ-DE" :=
  ⟨writesOrder_german, by decide, by decide⟩

theorem euMembers_nil : EuMembers CharTable.ascii [] := ⟨by simp, by simp, List.nodup_nil⟩

theorem euMembers_german : EuMembers CharTable.ascii ["DE"] := by
  have h : normalizeCountryListForEuMembers CharTable.ascii (some [.str "DE"]) = .ok
    ["DE"] := by decide
  exact normalizeCountryListForEuMembers_spec _ h

theorem backfill_eq_sync_german : ∃ t row once,
    backfillOrders Collation.ascii [[], ["DE"]]
      (upsertPackageShipOrder .ascii germanPackage ["DE"] .empty) = .ok t ∧
      t.get? germanKey = some row ∧
      (upsertPackageShipOrder .ascii germanPackage ["DE"] .empty).get? germanKey = some once ∧
      row.countryCode = once.countryCode ∧ row.originalCountryCode = once.originalCountryCode ∧
      row.marketplaceId = once.countryCode :=
  (backfill_eq_sync Collation.ascii ["DE"] [[], ["DE"]] euMembers_german
    (by simpa using ⟨euMembers_nil, euMembers_german⟩)).1 germanPackage .empty germanKey
      writesOrder_german (by simp)

end Restock
