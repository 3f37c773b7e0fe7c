/-
# The listing sync (`sync/product_listing.py`)

The master data and then the online listings are written over what the tables have, and
every SKU that is found there gets a `sku_config` if it has none. A listing is kept under
its shop, its mapped marketplace and its seller SKU, so the sites of several EU members
share a row, and the last listing of a row decides whose SKU it names. A SKU that a listing
names is still there at the end exactly if the last listing of some row names it, or an
earlier row that no listing is about (`keepsEverySku_iff`).
-/
import Restock.CountrySync
import Restock.EngineRun
import Restock.OrderTimes
import Restock.Lib.Paging
import Restock.Lib.Session
import Restock.Lib.Upsert

namespace Restock

open PyText

/-! ### Tables -/

/-- A row of `commodity_master`. -/
structure CommodityMaster where
  commodityId : Option String
  name : Option String
  state : Option String
  isGroup : Bool
  imgUrl : Option String
  purchaseDays : Option ℤ
deriving DecidableEq, Repr

/-- `uq_product_listing_key`. -/
structure ListingKey where
  shopId : String
  marketplaceId : String
  sellerSku : String
deriving DecidableEq, Repr

/-- A row of `product_listing`. -/
structure ProductListingRow where
  commoditySku : Option String
  commodityId : Option String
  originalMarketplaceId : Option String
  parentSku : Option String
  commodityName : JsonValue
  mainImage : JsonValue
  day7SaleNum : Option ℤ
  day14SaleNum : Option ℤ
  day30SaleNum : Option ℤ
  isMatched : Bool
  onlineStatus : String
deriving DecidableEq, Repr

/-- The tables that the sync writes. No two rows without a seller SKU conflict, and no
upsert meets one. -/
structure ProductDb where
  commodities : Dict String CommodityMaster
  listings : Dict ListingKey ProductListingRow
  withoutSellerSku : List ProductListingRow
  skuConfigs : Dict String SkuConfig

/-! ### Rows of the remote -/

/-- What the sync reads of a raw commodity. -/
structure RawCommodity where
  sku : JsonValue
  id : JsonValue
  name : JsonValue
  state : JsonValue
  isGroup : JsonValue
  imgUrl : JsonValue
  imageUrl : JsonValue
  mainImage : JsonValue
  purchaseDays : Option ℤ

/-- A listing, its numbers as `_to_int` reads them. -/
structure RawListing where
  shopId : JsonValue
  marketplaceId : JsonValue
  sku : JsonValue
  commoditySku : JsonValue
  commodityId : JsonValue
  parentSku : JsonValue
  title : JsonValue
  commodityName : JsonValue
  mainImage : JsonValue
  day7SaleNum : Option ℤ
  day14SaleNum : Option ℤ
  day30SaleNum : Option ℤ
  onlineStatus : JsonValue

section Upserts

variable (U : CharTable) (lower : String → String)

/-- `_normalize_online_status`. -/
def normalizeOnlineStatus (status : JsonValue) :
    String := ((toOptionalText U status).map lower).getD "active"

/-- `_to_bool`. -/
def textToBool : JsonValue → Bool
  | .bool b => b
  | value => lower (strip U value.textOrEmpty) ∈ ["1", "true", "yes", "y"]

/-- A listing with a commodity and its SKU is matched. -/
def inferIsMatched (raw : RawListing) : Bool :=
  (toOptionalText U raw.commodityId).isSome && (toOptionalText U raw.commoditySku).isSome

/-- `_commodity_image_url`. -/
def commodityImageUrl (raw : RawCommodity) : Option String :=
  [raw.imgUrl, raw.imageUrl, raw.mainImage].findSome? (toOptionalText U)

/-- What is written for a commodity. -/
def commodityEntry (raw : RawCommodity) : Option (String × CommodityMaster) :=
  (toOptionalText U raw.sku).map fun sku =>
    (sku,
      { commodityId := toOptionalText U raw.id
        name := toOptionalText U raw.name
        state := toOptionalText U raw.state
        isGroup := textToBool U lower raw.isGroup
        imgUrl := commodityImageUrl U raw
        purchaseDays := raw.purchaseDays })

/-- `_upsert_commodity`. -/
def upsertCommodity (raw : RawCommodity) (db : ProductDb) : ProductDb :=
  { db with commodities := db.commodities.upsert (commodityEntry U lower raw) }

/-- `mkt_normalized` and `mapped_marketplace`. -/
def mapMarketplace (euCountries : List String) (marketplaceId : String) : String × String :=
  let normalized := ((marketplaceToCountry U (some marketplaceId)).bind nonEmpty).getD marketplaceId
  (normalized, ((applyEuMapping U (some normalized) euCountries).bind nonEmpty).getD normalized)

/-- The row that a listing is kept in, if it has a shop, a marketplace and a seller SKU. -/
def listingKey (euCountries : List String) (raw : RawListing) : Option ListingKey :=
  match toOptionalText U raw.shopId, toOptionalText U raw.marketplaceId,
      toOptionalText U raw.sku with
  | some shopId, some marketplaceId, some sellerSku =>
    some ⟨shopId, (mapMarketplace U euCountries marketplaceId).2, sellerSku⟩
  | _, _, _ => none

/-- What is written of a listing. -/
def listingValues (euCountries : List String) (raw : RawListing) : ProductListingRow where
  commoditySku := toOptionalText U raw.commoditySku
  commodityId := toOptionalText U raw.commodityId
  originalMarketplaceId :=
    ((toOptionalText U raw.marketplaceId).map (mapMarketplace U euCountries)).bind fun m =>
    if m.2 ≠ m.1 then some m.1 else none
  parentSku := toOptionalText U raw.parentSku
  commodityName := raw.title.or raw.commodityName
  mainImage := raw.mainImage
  day7SaleNum := raw.day7SaleNum
  day14SaleNum := raw.day14SaleNum
  day30SaleNum := raw.day30SaleNum
  isMatched := inferIsMatched U raw
  onlineStatus := normalizeOnlineStatus U lower raw.onlineStatus

/-- What is written for a listing. -/
def listingEntry (euCountries : List String) (raw : RawListing) :
    Option (ListingKey × ProductListingRow) :=
  (listingKey U euCountries raw).map fun key => (key, listingValues U lower euCountries raw)

/-- The upsert of a listing. -/
def upsertListing (euCountries : List String) (raw : RawListing) (db : ProductDb) : ProductDb :=
  { db with listings := db.listings.upsert (listingEntry U lower euCountries raw) }

end Upserts

/-! ### The configurations -/

/-- `_insert_missing_sku_configs`. -/
def insertMissingSkuConfigs (skuCodes : List String) (enabled : Bool) (db : ProductDb) :
    ProductDb :=
  let missingCodes := skuCodes.filter (· ∉ db.skuConfigs.keys)
  { db with skuConfigs := db.skuConfigs.upsertAll (missingCodes.map fun code => (code, ⟨enabled, none⟩)) }

/-- A configuration for every commodity that has none. -/
def backfillSkuConfigsFromCommodities (db : ProductDb) : ProductDb :=
  insertMissingSkuConfigs (db.commodities.keys.insertionSort (· ≤ ·)) true db

/-- The SKUs that listings name. -/
def listedSkus (db : ProductDb) : List String :=
  (((db.listings.values ++ db.withoutSellerSku).filterMap (·.commoditySku)).dedup).insertionSort
    (· ≤ ·)

/-- A configuration for every listed SKU that has none. -/
def backfillSkuConfigsFromSyncedListings (db : ProductDb) :
    ProductDb := insertMissingSkuConfigs (listedSkus db) true db

/-! ### The run -/

/-- What a list of the remote yields row by row, and what is raised behind its rows. -/
structure Yielded (R : Type) where
  rows : List R
  fault : Option String

/-- The three sessions that write. -/
inductive ListingSession
  | commodities | listings | success
deriving DecidableEq

/-- What a run works with; what the database raises at a row, and at the end of a session. -/
structure ListingRun where
  nullableColumns : Dict String Bool
  euCountries : List String
  commodities : Yielded RawCommodity
  listings : Yielded RawListing
  commodityFault : RawCommodity → Option String
  listingFault : RawListing → Option String
  endFault : ListingSession → Option String

/-- `_UNMATCHED_LISTING_NULLABLE_COLUMNS`. -/
def unmatchedListingNullableColumns : List String := ["commodity_sku", "commodity_id"]

section Sync

variable (U : CharTable) (lower : String → String) (run : ListingRun)

/-- The columns that must be nullable and are not. -/
def incompatibleColumns : List String :=
  unmatchedListingNullableColumns.filter fun column => run.nullableColumns.get? column ≠ some true

/-- The message of `_ensure_product_listing_schema_compatible`. -/
def schemaMessage : String :=
  let columns := ", ".intercalate (incompatibleColumns run)
  s!"数据库 schema 落后于代码：product_listing.{columns} 仍未允许 NULL，商品同步无法保存未配对商品。" ++
    "请先执行 `alembic upgrade head` 应用迁移 `20260413_2230_allow_unmatched_product_listing`。"

/-- A session: the rows are written, the configurations completed, and all of it committed. -/
def syncSession {R : Type} (yielded : Yielded R) (rowFault : R → Option String)
    (upsert : R → ProductDb → ProductDb) (backfill : ProductDb → ProductDb)
    (endFault : Option String) : Transaction (Session ProductDb) String Unit := do
  Paging.handleAll (fun raw => do
    Transaction.raise (rowFault raw)
    Transaction.change fun s => s.write (upsert raw)) yielded.rows
  Transaction.raise yielded.fault
  Transaction.change fun s => s.write backfill
  Transaction.raise endFault
  Transaction.change Session.commit

/-- `_sync_product_listing_job_unlocked`. -/
def syncProductListing : Transaction (Session ProductDb) String Unit := do
  Transaction.require (incompatibleColumns run = []) (schemaMessage run)
  syncSession run.commodities run.commodityFault (upsertCommodity U lower)
    backfillSkuConfigsFromCommodities
    (run.endFault .commodities)
  syncSession run.listings run.listingFault (upsertListing U lower run.euCountries)
    backfillSkuConfigsFromSyncedListings
    (run.endFault .listings)
  Transaction.raise (run.endFault .success)

/-- The tables after the rows of the listings, before their configurations. -/
def listingsWritten (before : ProductDb) : ProductDb :=
  run.listings.rows.foldl (fun db raw => upsertListing U lower run.euCountries raw db)
    (backfillSkuConfigsFromCommodities
      (run.commodities.rows.foldl (fun db raw => upsertCommodity U lower raw db) before))

end Sync

section Run

variable {U : CharTable} {lower : String → String} {run : ListingRun}

theorem syncSession_ok {R : Type} {yielded : Yielded R} {rowFault : R → Option String}
    {upsert : R → ProductDb → ProductDb} {backfill : ProductDb → ProductDb}
    {endFault : Option String} {s s' : Session ProductDb}
    (h : syncSession yielded rowFault upsert backfill endFault s = (.ok (), s')) :
    s' = Session.opened (backfill
      (yielded.rows.foldl (fun db raw => upsert raw db) s.current)) := by
  unfold syncSession at h
  simp only [Transaction.bind_eq_ok, Transaction.raise_eq_ok, Transaction.change_eq_ok] at h
  obtain ⟨_, s₁, hrows, _, _, ⟨-, rfl⟩, _, _, rfl, _, _, ⟨-, rfl⟩, rfl⟩ := h
  have hfold : s₁.current = yielded.rows.foldl (fun db raw => upsert raw db) s.current := by
    refine Paging.handleAll_fold Session.current _ (fun row t t' hrow => ?_) yielded.rows hrows
    simp only [Transaction.bind_eq_ok, Transaction.raise_eq_ok, Transaction.change_eq_ok] at hrow
    obtain ⟨_, _, ⟨-, rfl⟩, rfl⟩ := hrow
    rfl
  rw [← hfold]
  rfl

/-- **A run that ends well** has written the rows and completed the configurations. -/
theorem syncProductListing_ok {before : ProductDb} {s' : Session ProductDb}
    (h : syncProductListing U lower run (Session.opened before) = (.ok (), s')) :
    s'.stored = backfillSkuConfigsFromSyncedListings (listingsWritten U lower run before) := by
  unfold syncProductListing at h
  simp only [Transaction.bind_eq_ok, Transaction.require_eq_ok, Transaction.raise_eq_ok] at h
  obtain ⟨_, _, ⟨-, rfl⟩, _, s₁, hcommodities, _, s₂, hlistings, -, rfl⟩ := h
  rw [syncSession_ok hlistings, syncSession_ok hcommodities]
  rfl

end Run

/-! ### Which SKUs are left -/

/-- A row of `product_listing` names the SKU. -/
def Names (db : ProductDb) (sku : String) : Prop :=
  ∃ row, (row ∈ db.listings.values ∨ row ∈ db.withoutSellerSku) ∧ row.commoditySku = some sku

/-- **No SKU is dropped**: what the listings name is named by a row and has a configuration,
and no configuration that was there has changed. -/
structure KeepsEverySku (U : CharTable) (listings : List RawListing) (before after : ProductDb) :
    Prop where
  named : ∀ raw ∈ listings, ∀ sku, toOptionalText U raw.commoditySku = some sku → Names after sku
  configured : ∀ raw ∈ listings, ∀ sku, toOptionalText U raw.commoditySku = some sku →
    (after.skuConfigs.get? sku).isSome = true
  unchanged : ∀ sku config, before.skuConfigs.get? sku = some config →
    after.skuConfigs.get? sku = some config

/-- The last listing of some row names the SKU, or an earlier row that no listing is about. -/
def LastNames (U : CharTable) (euCountries : List String) (listings : List RawListing)
    (before : ProductDb) (sku : String) : Prop :=
  (∃ earlier last later key, listings = earlier ++ last :: later ∧
    listingKey U euCountries last = some key ∧ toOptionalText U last.commoditySku = some sku ∧
    ∀ raw ∈ later, listingKey U euCountries raw ≠ some key) ∨
  (∃ key row, before.listings.get? key = some row ∧ row.commoditySku = some sku ∧
    ∀ raw ∈ listings, listingKey U euCountries raw ≠ some key) ∨
  ∃ row ∈ before.withoutSellerSku, row.commoditySku = some sku

section Configs

/-- A configuration that is there stays, one that is missing is made. -/
theorem get?_insertMissingSkuConfigs (skuCodes : List String) (enabled : Bool) (db : ProductDb)
    (sku : String) :
    (insertMissingSkuConfigs skuCodes enabled db).skuConfigs.get? sku =
      (db.skuConfigs.get? sku).or (if sku ∈ skuCodes then some ⟨enabled, none⟩ else none) := by
  set missing := (skuCodes.filter (· ∉ db.skuConfigs.keys)).map fun code =>
    (code, (⟨enabled, none⟩ : SkuConfig)) with hmissing
  show (db.skuConfigs.upsertAll missing).get? sku = _
  rw [Dict.upsertAll]
  by_cases hmem : sku ∈ skuCodes ∧ sku ∉ db.skuConfigs.keys
  · have hin : (sku, (⟨enabled, none⟩ : SkuConfig)) ∈ missing := by
      simpa [hmissing] using hmem
    obtain ⟨config, hconfig⟩ :=
      Option.isSome_iff_exists.mp (Dict.isSome_foldl_set missing db.skuConfigs (Or.inl ⟨_, hin⟩))
    have hnone : db.skuConfigs.get? sku = none := Dict.get?_eq_none_iff.mpr hmem.2
    rw [hconfig, hnone, if_pos hmem.1, Option.none_or]
    rcases Dict.get?_foldl_set missing db.skuConfigs hconfig with h | h
    · rw [hmissing] at h
      obtain ⟨code, -, he⟩ := List.mem_map.mp h
      rw [← (Prod.mk.inj he).2]
    · rw [hnone] at h
      cases h
  · have hout : sku ∉ missing.map Prod.fst := by
      rw [hmissing, List.map_map]
      simpa using fun h => not_and.mp hmem h
    rw [Dict.get?_foldl_set_of_not_mem missing db.skuConfigs hout]
    cases hget : db.skuConfigs.get? sku with
    | some config => rfl
    | none =>
      have hno : sku ∉ skuCodes := fun h => hmem ⟨h, Dict.get?_eq_none_iff.mp hget⟩
      rw [if_neg hno]
      rfl

theorem mem_listedSkus {db : ProductDb} {sku : String} : sku ∈ listedSkus db ↔ Names db sku := by
  simp only [listedSkus, List.mem_insertionSort, List.mem_dedup, List.mem_filterMap,
    List.mem_append, Names]

end Configs

section Listings

variable {U : CharTable} {lower : String → String} {run : ListingRun} {before : ProductDb}

/-- The listings leave the other tables alone. -/
theorem foldl_upsertListing (euCountries : List String) :
    ∀ (rows : List RawListing) (db : ProductDb),
      rows.foldl (fun db raw => upsertListing U lower euCountries raw db) db =
      { db with listings := rows.foldl (fun d raw => d.upsert (listingEntry U lower euCountries raw)) db.listings }
  | [], _ => rfl
  | raw :: rows, db => by
    rw [List.foldl_cons, foldl_upsertListing euCountries rows]
    simp only [upsertListing, List.foldl_cons]

theorem foldl_upsertCommodity : ∀ (rows : List RawCommodity) (db : ProductDb),
    rows.foldl (fun db raw => upsertCommodity U lower raw db) db =
      { db with commodities := rows.foldl (fun d raw => d.upsert (commodityEntry U lower raw)) db.commodities }
  | [], _ => rfl
  | raw :: rows, db => by
    rw [List.foldl_cons, foldl_upsertCommodity rows]
    simp only [upsertCommodity, List.foldl_cons]

theorem listings_listingsWritten : (listingsWritten U lower run before).listings =
    run.listings.rows.foldl (fun d raw => d.upsert (listingEntry U lower run.euCountries raw))
    before.listings := by
  rw [listingsWritten, foldl_upsertListing, foldl_upsertCommodity]
  rfl

theorem withoutSellerSku_listingsWritten :
    (listingsWritten U lower run before).withoutSellerSku = before.withoutSellerSku := by
  rw [listingsWritten, foldl_upsertListing, foldl_upsertCommodity]
  rfl

theorem skuConfigs_listingsWritten {sku : String} {config : SkuConfig}
    (h : before.skuConfigs.get? sku = some config) :
    (listingsWritten U lower run before).skuConfigs.get? sku = some config := by
  rw [listingsWritten, foldl_upsertListing, foldl_upsertCommodity]
  show (insertMissingSkuConfigs _ true _).skuConfigs.get? sku = _
  rw [get?_insertMissingSkuConfigs, h, Option.some_or]

@[simp] theorem commoditySku_listingValues (lower : String → String) (euCountries : List String)
    (raw : RawListing) :
    (listingValues U lower euCountries raw).commoditySku =
    toOptionalText U raw.commoditySku := by simp only [listingValues]

theorem listingEntry_eq_some {euCountries : List String} {raw : RawListing} {key : ListingKey}
    {row : ProductListingRow} :
    listingEntry U lower euCountries raw = some (key, row) ↔
      listingKey U euCountries raw = some key ∧ listingValues U lower euCountries raw = row := by
  simp [listingEntry]

theorem forall_listingEntry_ne {euCountries : List String} {rows : List RawListing}
    {key : ListingKey} :
    (∀ raw ∈ rows, ∀ row, listingEntry U lower euCountries raw ≠ some (key, row)) ↔
      ∀ raw ∈ rows, listingKey U euCountries raw ≠ some key := by
  refine forall₂_congr fun raw _ => ?_
  constructor
  · intro h hkey
    exact h _ (listingEntry_eq_some.mpr ⟨hkey, rfl⟩)
  · intro h row hentry
    exact h (listingEntry_eq_some.mp hentry).1

/-- A row names the SKU at the end exactly if the last listing of a row, or an untouched row, does.
-/
theorem names_listingsWritten (sku : String) :
    Names (listingsWritten U lower run before) sku ↔
    LastNames U run.euCountries run.listings.rows before sku := by
  have hrows : ∀ key row, (listingsWritten U lower run before).listings.get? key = some row ↔
      (∃ earlier last later, run.listings.rows = earlier ++ last :: later ∧
        listingKey U run.euCountries last = some key ∧
        listingValues U lower run.euCountries last = row ∧
        ∀ raw ∈ later, listingKey U run.euCountries raw ≠ some key) ∨
      before.listings.get? key = some row ∧
          ∀ raw ∈ run.listings.rows, listingKey U run.euCountries raw ≠ some key := by
    intro key row
    rw [listings_listingsWritten, Dict.get?_foldl_upsert]
    simp only [forall_listingEntry_ne, listingEntry_eq_some, and_assoc]
  have hvalues : ∀ row, row ∈ (listingsWritten U lower run before).listings.values ↔
      ∃ key, (listingsWritten U lower run before).listings.get? key = some row := by
    intro row
    simp [Dict.values, Dict.get?_eq_some_iff]
  unfold Names LastNames
  rw [withoutSellerSku_listingsWritten]
  constructor
  · intro h
    obtain ⟨row, hrow | hrow, hsku⟩ := h
    · obtain ⟨key, hkey⟩ := (hvalues row).mp hrow
      rcases (hrows key row).mp hkey with
        ⟨earlier, last, later, hsplit, hk, rfl, hlater⟩ | ⟨hget, hno⟩
      · rw [commoditySku_listingValues] at hsku
        exact Or.inl ⟨earlier, last, later, key, hsplit, hk, hsku, hlater⟩
      · exact Or.inr (Or.inl ⟨key, row, hget, hsku, hno⟩)
    · exact Or.inr (Or.inr ⟨row, hrow, hsku⟩)
  · intro h
    rcases h with ⟨earlier, last, later, key, hsplit, hk, hsku, hlater⟩ | ⟨key, row, hget, hsku,
      hno⟩ | ⟨row, hrow, hsku⟩
    · rw [← commoditySku_listingValues lower run.euCountries] at hsku
      refine ⟨listingValues U lower run.euCountries last, Or.inl ((hvalues _).mpr ⟨key, ?_⟩), hsku⟩
      exact (hrows key _).mpr (Or.inl ⟨earlier, last, later, hsplit, hk, rfl, hlater⟩)
    · exact ⟨row, Or.inl ((hvalues _).mpr ⟨key, (hrows key row).mpr (Or.inr ⟨hget, hno⟩)⟩), hsku⟩
    · exact ⟨row, Or.inr hrow, hsku⟩

/-- **A run drops no SKU exactly if** every SKU that a listing names is named by the last
listing of some row or by an untouched row. -/
theorem keepsEverySku_iff {s' : Session ProductDb}
    (hrun : syncProductListing U lower run (Session.opened before) = (.ok (), s')) :
    KeepsEverySku U run.listings.rows before s'.stored ↔ ∀ raw ∈ run.listings.rows, ∀ sku,
      toOptionalText U raw.commoditySku = some sku →
      LastNames U run.euCountries run.listings.rows before sku := by
  rw [syncProductListing_ok hrun]
  set written := listingsWritten U lower run before
  have hnames : ∀ sku, Names (backfillSkuConfigsFromSyncedListings written) sku ↔
      LastNames U run.euCountries run.listings.rows before sku := names_listingsWritten
  have hconfig : ∀ sku, (backfillSkuConfigsFromSyncedListings written).skuConfigs.get? sku =
      (written.skuConfigs.get? sku).or (if sku ∈ listedSkus written then some ⟨true, none⟩
          else none) :=
    get?_insertMissingSkuConfigs (listedSkus written) true written
  constructor
  · intro h raw hraw sku hsku
    exact (hnames sku).mp (h.named raw hraw sku hsku)
  · intro h
    refine ⟨fun raw hraw sku hsku => (hnames sku).mpr (h raw hraw sku hsku),
      fun raw hraw sku hsku => ?_, fun sku config hget => ?_⟩
    · have hlisted : sku ∈ listedSkus written :=
        mem_listedSkus.mpr ((hnames sku).mpr (h raw hraw sku hsku))
      rw [hconfig, if_pos hlisted, Option.isSome_or, Option.isSome_some, Bool.or_true]
    · rw [hconfig, skuConfigs_listingsWritten hget, Option.some_or]

end Listings

/-! ### Two sites of one shop -/

/-- A listing of the shop `S` in a country. -/
def lampOffer (marketplaceId commoditySku : String) : RawListing where
  shopId := .str "S"
  marketplaceId := .str marketplaceId
  sku := .str "offer"
  commoditySku := .str commoditySku
  commodityId := .null
  parentSku := .null
  title := .null
  commodityName := .null
  mainImage := .null
  day7SaleNum := none
  day14SaleNum := none
  day30SaleNum := none
  onlineStatus := .null

/-- The offer in Germany, and the same offer in France without a commodity. -/
def twoSites : ListingRun where
  nullableColumns := ⟨[("commodity_sku", true), ("commodity_id", true)], by decide⟩
  euCountries := ["DE", "FR"]
  commodities := ⟨[], none⟩
  listings := ⟨[lampOffer "DE" "lamp", lampOffer "FR" ""], none⟩
  commodityFault := fun _ => none
  listingFault := fun _ => none
  endFault := fun _ => none

def noProducts : ProductDb := ⟨.empty, .empty, [], .empty⟩

def twoSitesAfter : Session ProductDb :=
  (syncProductListing .ascii String.toLower twoSites (Session.opened noProducts)).2

theorem syncProductListing_twoSites :
    syncProductListing .ascii String.toLower twoSites (Session.opened noProducts) =
    (.ok (), twoSitesAfter) := rfl

theorem keepsEverySku_iff_twoSites :
    KeepsEverySku .ascii twoSites.listings.rows noProducts twoSitesAfter.stored ↔
      ∀ raw ∈ twoSites.listings.rows, ∀ sku, toOptionalText .ascii raw.commoditySku = some sku →
      LastNames .ascii twoSites.euCountries twoSites.listings.rows noProducts sku :=
  keepsEverySku_iff syncProductListing_twoSites

/-- The second site takes the SKU of the first away. -/
theorem twoSites_drop_lamp :
    (∀ raw ∈ twoSites.listings.rows, (listingKey .ascii twoSites.euCountries raw).isSome = true) ∧
    syncProductListing .ascii String.toLower twoSites (Session.opened noProducts) =
    (.ok (), twoSitesAfter) ∧
    ¬ KeepsEverySku .ascii twoSites.listings.rows noProducts twoSitesAfter.stored := by
  refine ⟨by decide +kernel, syncProductListing_twoSites, fun h => ?_⟩
  have hlamp : Names twoSitesAfter.stored "lamp" :=
    h.named (lampOffer "DE" "lamp") List.mem_cons_self "lamp" (by decide +kernel)
  exact absurd (mem_listedSkus.mpr hlamp) (by decide +kernel)

end Restock
