/-
# The times of a package order (`sync/order_list.py`)

A time without an offset is read in the zone of the order's marketplace. Where the
package has no marketplace id, the id is the country after the EU mapping, and every
backfill writes that country over the id; `EU` is in the zone of Beijing. So the same
package is read and shown in another zone as soon as its country is a member. Only what
is in the zone of Beijing anyway is safe, and what is never stored: a package that lacks
a key, has no purchase date, or is refused (`timesKept_iff`).

The sync of a package as it comes (`OrderUpsert`) does to the headers what that of the
package read into its orders does (`headers_upsertRawPackageShipOrder`).
-/
import Restock.OrderUpsert

namespace Restock

open PyText

/-! ### Headers -/

section Headers

variable {A : Type}

/-- What the mapping of the countries reads of a row. -/
def PackageRow.header (row : PackageRow A) : OrderHeader where
  id := row.id
  countryCode := row.countryCode
  originalCountryCode := row.originalCountryCode
  marketplaceId := row.marketplaceId
  postalCode := row.postalCode
  purchaseDate := row.purchaseDate
  lastUpdateDate := row.lastUpdateDate
  manualEditLocked := row.manualEditLocked

/-- The orders that a backfill goes over. -/
def OrderDb.orders (db : OrderDb A) : Dict OrderKey OrderHeader :=
  db.headers.mapVal fun _ row => row.header

theorem OrderDb.get?_orders (db : OrderDb A) (key : OrderKey) :
    db.orders.get? key = (db.headers.get? key).map PackageRow.header := Dict.get?_mapVal _ _ _

theorem PackageRow.header_update (row values : PackageRow A) :
    (row.update values).header = updateHeader row.header values.header := by
  unfold PackageRow.update PackageRow.header updateHeader protectManualEdit
  cases hpostal : values.postalCode with
  | none => simp
  | some code => simp

/-- Storing an order upserts its header. -/
theorem OrderDb.orders_storeOrder (db : OrderDb A) (key : OrderKey) (values : PackageRow A)
    (items : List (String × OrderItemRow A)) :
    (db.storeOrder key values items).orders =
      Restock.upsertHeader key { values.header with id := db.nextId } db.orders := by
  have hheaders : (db.storeOrder key values items).headers = db.headers.set key
      (db.written key values) := by
    unfold OrderDb.storeOrder
    split_ifs <;> rfl
  have hwritten : (db.written key values).header =
      writeHeader { values.header with id := db.nextId } (db.orders.get? key) := by
    rw [OrderDb.get?_orders, OrderDb.written]
    cases db.headers.get? key with
    | none => rfl
    | some row => exact row.header_update values
  unfold OrderDb.orders Restock.upsertHeader
  rw [hheaders, Dict.mapVal_set, hwritten]
  rfl

theorem OrderDb.nextId_storeOrder (db : OrderDb A) (key : OrderKey) (values : PackageRow A)
    (items : List (String × OrderItemRow A)) :
    (db.storeOrder key values items).nextId = db.nextId + 1 := by
  unfold OrderDb.storeOrder
  split_ifs <;> rfl

end Headers

/-! ### A package and its orders -/

section Read

variable (U : CharTable) {A : Type} (B : Builtins A) (raw : PackageObject)
    (euCountries : List String)

/-- The orders of a package that have a purchase date, and the ids their rows get. -/
def readOrders : ℕ → List (String × RawObject) → List RawPackageOrder
  | _, [] => []
  | rowId, order :: orders =>
    match purchaseDateOf U B raw euCountries order.2,
    lastUpdateDateOf U B raw euCountries order.2 with
    | .ok (some purchaseDate), .ok lastUpdateDate =>
      ⟨order.1, purchaseDate, lastUpdateDate.getD purchaseDate, rowId⟩ :: readOrders
      (rowId + 1) orders
    | _, _ => readOrders rowId orders

/-- The package read into its orders. -/
def PackageObject.read (rowId : ℕ) : RawPackage :=
  { raw.header with orders := readOrders U B raw euCountries rowId (raw.namedOrders U) }

variable {U B raw euCountries}

theorem header_storedValues (order : String × RawObject) (purchaseDate lastUpdateDate now : ℤ)
    (rowId : ℕ) :
    { (storedValues U B raw euCountries order.2 purchaseDate lastUpdateDate now).header with
      id := rowId } = headerValues U raw.header ⟨order.1, purchaseDate, lastUpdateDate, rowId⟩
      euCountries := by
  simp only [storedValues, PackageRow.stored, packageValues, PackageRow.header, headerValues,
    PackageObject.marketplaceId]

theorem orders_upsertOrders {now : String → ℤ} :
    ∀ {orders : List (String × RawObject)} {acc acc' : SyncState A},
    upsertOrders U B raw euCountries now orders acc = .ok acc' →
    acc'.db.orders = (readOrders U B raw euCountries acc.db.nextId orders).foldl
      (fun table order => upsertHeader (raw.key U order.amazonOrderId)
        (headerValues U raw.header order euCountries) table)
      acc.db.orders
  | [], acc, acc', h => by
    rw [← Except.ok.inj h]
    rfl
  | order :: orders, acc, acc', h => by
    obtain ⟨acc₁, hround, hrest⟩ := upsertOrders_cons_ok h
    rw [orders_upsertOrders hrest, readOrders]
    obtain ⟨hnone, rfl⟩ | ⟨purchaseDate, lastUpdateDate, hpurchase, hlast, -, rfl⟩ :=
  upsertOrder_ok_iff.mp hround
    · rw [hnone]
    · rw [hpurchase, hlast]
      simp only [List.foldl_cons, OrderDb.nextId_storeOrder, OrderDb.orders_storeOrder,
        header_storedValues order]

theorem shopId_read (rowId : ℕ) :
    packageShopId U (raw.read U B euCountries rowId) = packageShopId U raw.header := by
  simp only [packageShopId, PackageObject.read]

theorem packageSn_read (rowId : ℕ) :
    packageSnOf U (raw.read U B euCountries rowId) = packageSnOf U raw.header := by
  simp only [packageSnOf, PackageObject.read]

theorem orders_read (rowId : ℕ) :
    (raw.read U B euCountries rowId).orders = readOrders U B raw euCountries rowId
    (raw.namedOrders U) := by
  simp only [PackageObject.read]

theorem headerValues_read (rowId : ℕ) (order : RawPackageOrder) :
    headerValues U (raw.read U B euCountries rowId) order euCountries =
    headerValues U raw.header order euCountries := by
  simp only [headerValues, PackageObject.read]

/-- **The sync of a package that is not refused** leaves the headers of its orders. -/
theorem orders_upsertRawPackageShipOrder {now : String → ℤ} {db : OrderDb A} {synced : SyncState A}
    (h : upsertRawPackageShipOrder U B raw euCountries now db = .ok synced) :
    synced.db.orders = upsertPackageShipOrder U (raw.read U B euCountries db.nextId)
    euCountries db.orders := by
  rw [upsertRawPackageShipOrder_eq] at h
  rw [orders_upsertOrders h]
  unfold upsertPackageShipOrder PackageObject.namedOrders PackageObject.key
  simp only [headerValues_read, shopId_read, packageSn_read]
  split_ifs with hkey
  · rfl
  · simp only [PackageObject.read, PackageObject.namedOrders, if_neg hkey]

end Read

/-! ### Times before a zone is chosen -/

section Times

variable (U : CharTable) {A : Type} (B : Builtins A) (raw : PackageObject)

/-- A text as the parser reads it. -/
def parsedTime (value : JsonValue) : Except String (Option ParsedTime) :=
  match (cleanText U value).bind nonEmpty with
  | none => .ok none
  | some text => B.parse text

/-- A date as the parser reads it, or the one that stands in for it. -/
def orderTime (value fallback : JsonValue) : Except String (Option ParsedTime) :=
  match parsedTime U B value with
  | .error e => .error e
  | .ok (some time) => .ok (some time)
  | .ok none => parsedTime U B fallback

def purchaseTimeOf (orderMeta : RawObject) : Except String (Option ParsedTime) :=
  orderTime U B ((orderMeta.get "purchaseDate").or (raw.fields.get "purchaseDate"))
    (raw.fields.get "purchaseDate")

def lastUpdateTimeOf (orderMeta : RawObject) : Except String (Option ParsedTime) :=
  orderTime U B (((orderMeta.get "lastUpdateDate").or (raw.fields.get "updateTime")).or
    (raw.fields.get "lastUpdateDate"))
    (((raw.fields.get "updateTime").or (raw.fields.get "lastUpdateDate")).or
      (orderMeta.get "purchaseDate"))

/-- A `datetime` can represent the instant, in the zone of Beijing too. -/
def Representable (zones : String → ZoneRules) (zone : String) (time : ParsedTime) : Prop :=
  firstSecond ≤ (zones zone).instantOf time ∧ (zones zone).instantOf time ≤ lastSecond ∧
    (zones beijing).toLocal ((zones zone).instantOf time) ≤ lastSecond

instance (zones : String → ZoneRules) (zone : String) (time : ParsedTime) :
    Decidable (Representable zones zone time) := by
  unfold Representable
  infer_instance

/-- The instant of a time that was read in a zone. -/
def instantIn (zones : String → ZoneRules) (zone : String) : Option ParsedTime →
    Except String (Option ℤ)
  | none => .ok none
  | some time =>
    if Representable zones zone time then .ok (some ((zones zone).instantOf time))
    else .error "date value out of range"

variable {U B raw}

theorem readSaihuTime_eq (value : JsonValue) (id : String) :
    readSaihuTime U B (cleanText U value) id = (parsedTime U B value).bind
    (instantIn B.zones (sourceTz U id)) := by
  unfold readSaihuTime parsedTime
  cases (cleanText U value).bind nonEmpty with
  | none => rfl
  | some text =>
    simp only
    rcases B.parse text with e | time
    · rfl
    · cases time <;> rfl

theorem readOrderDate_eq (value fallback : JsonValue) (id : String) :
    readOrderDate U B value fallback id = (orderTime U B value fallback).bind
    (instantIn B.zones (sourceTz U id)) := by
  unfold readOrderDate orderTime
  rw [readSaihuTime_eq, readSaihuTime_eq]
  rcases parsedTime U B value with e | time
  · rfl
  · cases time with
    | none => rfl
    | some time =>
      simp only [Except.bind, instantIn]
      split_ifs <;> rfl

theorem purchaseDateOf_eq (E : List String) (orderMeta : RawObject) :
    purchaseDateOf U B raw E orderMeta = (purchaseTimeOf U B raw orderMeta).bind
    (instantIn B.zones (sourceTz U (raw.marketplaceId U E))) :=
  readOrderDate_eq _ _ _

theorem lastUpdateDateOf_eq (E : List String) (orderMeta : RawObject) :
    lastUpdateDateOf U B raw E orderMeta = (lastUpdateTimeOf U B raw orderMeta).bind
    (instantIn B.zones (sourceTz U (raw.marketplaceId U E))) :=
  readOrderDate_eq _ _ _

/-- A text that the parser read. -/
def Builtins.Reads (B : Builtins A) (time : ParsedTime) : Prop :=
  ∃ text, B.parse text = .ok (some time)

theorem reads_of_orderTime {value fallback : JsonValue} {time : ParsedTime}
    (h : orderTime U B value fallback = .ok (some time)) : B.Reads time := by
  have hparsed : ∀ value, parsedTime U B value = .ok (some time) → B.Reads time := by
    intro value hp
    unfold parsedTime at hp
    split at hp
    · cases hp
    · exact ⟨_, hp⟩
  unfold orderTime at h
  split at h
  · cases h
  · rename_i hv
    exact hparsed _ (hv.trans h)
  · exact hparsed _ h

/-- A date is read if its time is and can be represented. -/
theorem bind_instantIn_ok_iff {zones : String → ZoneRules} {zone : String}
    {read : Except String (Option ParsedTime)} :
    (∃ date, read.bind (instantIn zones zone) = .ok date) ↔
      ∃ time, read = .ok time ∧ ∀ t, time = some t → Representable zones zone t := by
  rcases read with e | time
  · simp [Except.bind]
  · cases time with
    | none => simp [Except.bind, instantIn]
    | some time =>
      by_cases h : Representable zones zone time
      · simp [Except.bind, instantIn, h]
      · simp [Except.bind, instantIn, h]

theorem bind_instantIn_some_iff {zones : String → ZoneRules} {zone : String}
    {read : Except String (Option ParsedTime)} {date : ℤ} :
    read.bind (instantIn zones zone) = .ok (some date) ↔
      ∃ time, read = .ok (some time) ∧ Representable zones zone time ∧
      (zones zone).instantOf time = date := by
  rcases read with e | time
  · simp [Except.bind]
  · cases time with
    | none => simp [Except.bind, instantIn]
    | some time =>
      by_cases h : Representable zones zone time
      · simp [Except.bind, instantIn, h]
      · simp [Except.bind, instantIn, h]

end Times

/-! ### What the zones decide -/

/-- The program with other rules of the zones. -/
def Builtins.withZones {A : Type} (B : Builtins A) (zones : String → ZoneRules) : Builtins A :=
  { B with zones := zones }

section Times

variable {U : CharTable} {A : Type} {B : Builtins A} {raw : PackageObject}

theorem parsedTime_withZones (zones : String → ZoneRules) (value : JsonValue) :
    parsedTime U (B.withZones zones) value = parsedTime U B value := by
  simp only [parsedTime, Builtins.withZones]

theorem purchaseTimeOf_withZones (zones : String → ZoneRules) (orderMeta : RawObject) :
    purchaseTimeOf U (B.withZones zones) raw orderMeta = purchaseTimeOf U B raw orderMeta := by
  simp only [purchaseTimeOf, orderTime, parsedTime_withZones]

theorem lastUpdateTimeOf_withZones (zones : String → ZoneRules) (orderMeta : RawObject) :
    lastUpdateTimeOf U (B.withZones zones) raw orderMeta = lastUpdateTimeOf U B raw orderMeta := by
  simp only [lastUpdateTimeOf, orderTime, parsedTime_withZones]

end Times

/-- The parser returns a `datetime`: a time without an offset lies in the years that one has. -/
def Builtins.ReadsDatetimes {A : Type} (B : Builtins A) : Prop :=
  ∀ reading, B.Reads (.naive reading) → firstSecond ≤ reading ∧ reading ≤ lastSecond

/-- The clocks of all zones show one time. -/
def sameClocks : String → ZoneRules := fun _ => .fixed 0

section Accepted

variable {U : CharTable} {A : Type} {B : Builtins A} {raw : PackageObject}

/-- The country of a package before the mapping. -/
def PackageObject.source (U : CharTable) (raw : PackageObject) : String :=
  normalizeSourceCountryOrUnknown U raw.header.marketplace

theorem PackageObject.isNormalized_source (raw : PackageObject) : IsNormalized U (raw.source U) :=
  isNormalized_sourceCountry U _

theorem euMembers_none : EuMembers U [] := ⟨by simp, by simp, List.nodup_nil⟩

/-- The country columns of a package. -/
theorem packageCols_pair {E : List String} (hE : EuMembers U E) (marketplace : JsonValue) :
    packageCols U marketplace E = if normalizeSourceCountryOrUnknown U marketplace ∈ E then
    ("EU", some (normalizeSourceCountryOrUnknown U marketplace))
    else (normalizeSourceCountryOrUnknown U marketplace, none) := by
  have h := packageCols_eq hE marketplace
  generalize packageCols U marketplace E = cols at h ⊢
  generalize normalizeSourceCountryOrUnknown U marketplace = source at h ⊢
  unfold represent at h
  split_ifs at h ⊢
  · obtain ⟨hcountry, horiginal⟩ := CountryCols.mk.inj h
    exact Prod.ext (Option.some.inj hcountry) horiginal
  · obtain ⟨hcountry, horiginal⟩ := CountryCols.mk.inj h
    exact Prod.ext (Option.some.inj hcountry) horiginal

/-- The country of a package after the mapping. -/
theorem fst_packageCols {E : List String} (hE : EuMembers U E) (marketplace : JsonValue) :
    (packageCols U marketplace E).1 = if normalizeSourceCountryOrUnknown U marketplace ∈ E then "EU"
    else normalizeSourceCountryOrUnknown U marketplace := by
  rw [packageCols_pair hE]
  generalize normalizeSourceCountryOrUnknown U marketplace = source
  split_ifs <;> rfl

/-- The columns of the countries fit with one set of members if they do without any: `EU`
fits where the country does, which is then kept as the original. -/
theorem fitsText_packageCols {E : List String} (hE : EuMembers U E) (marketplace : JsonValue)
    (id : Option String) :
    (fitsText 10 (id.getD (packageCols U marketplace E).1) &&
        (fitsText 2 (packageCols U marketplace E).1 && fitsTextOrNull 2
        (packageCols U marketplace E).2)) =
      (fitsText 10 (id.getD (packageCols U marketplace []).1) &&
        (fitsText 2 (packageCols U marketplace []).1 && fitsTextOrNull 2
        (packageCols U marketplace []).2)) := by
  rw [packageCols_pair hE, packageCols_pair euMembers_none, if_neg List.not_mem_nil]
  generalize normalizeSourceCountryOrUnknown U marketplace = source
  have hwide : fitsText 2 source = true → fitsText 10 source = true := by
    intro h
    unfold fitsText at h ⊢
    simp only [Bool.and_eq_true, decide_eq_true_eq] at h ⊢
    exact ⟨by omega, h.2⟩
  have heu : fitsText 2 "EU" = true ∧ fitsText 10 "EU" = true := by decide
  split_ifs
  · cases id with
    | some id => simp [fitsTextOrNull, heu]
    | none =>
      cases hc : fitsText 2 source with
      | false => simp [fitsTextOrNull, hc]
      | true => simp [fitsTextOrNull, hc, heu, hwide hc]
  · rfl

/-- Two rows that differ in the columns of the countries fit alike if these columns do. -/
theorem PackageRow.fits_congr {row : PackageRow A} {marketplaceId countryCode : String}
    {originalCountryCode : Option String}
      (h : (fitsText 10 marketplaceId &&
      (fitsText 2 countryCode && fitsTextOrNull 2 originalCountryCode)) =
      (fitsText 10 row.marketplaceId &&
      (fitsText 2 row.countryCode && fitsTextOrNull 2 row.originalCountryCode))) :
    PackageRow.fits B { row with
      marketplaceId := marketplaceId, countryCode := countryCode, originalCountryCode :=
      originalCountryCode } = row.fits B := by
  have hgroup : ∀ a b c d : Bool, (a && b && c && d) = (a && (b && (c && d))) := by decide
  unfold PackageRow.fits
  rw [hgroup _ (fitsText 10 marketplaceId), hgroup _ (fitsText 10 row.marketplaceId), h]

/-- Whether a header fits its columns is not a matter of the members. -/
theorem fits_packageValues_members {E : List String} (hE : EuMembers U E) (orderMeta : RawObject) :
    (packageValues U B raw E orderMeta 0 0 0).fits B =
    (packageValues U B raw [] orderMeta 0 0 0).fits B := by
  have hcols := fitsText_packageCols hE raw.header.marketplace
    (cleanText U raw.header.marketplaceId)
  have hrow : packageValues U B raw E orderMeta 0 0 0 =
      { packageValues U B raw [] orderMeta 0 0 0 with
      marketplaceId := (cleanText U raw.header.marketplaceId).getD
        (packageCols U raw.header.marketplace E).1
      countryCode := (packageCols U raw.header.marketplace E).1
      originalCountryCode := (packageCols U raw.header.marketplace E).2 } := by
    simp only [packageValues, PackageObject.marketplaceId]
  rw [hrow]
  refine PackageRow.fits_congr ?_
  simp only [packageValues, PackageObject.marketplaceId]
  exact hcols

/-- A package that is accepted is so under other zones and members where its times can be
represented as well. -/
theorem PackageAccepted.of_representable {zones zones' : String → ZoneRules} {E E' : List String}
    (hE : EuMembers U E) (hE' : EuMembers U E') (h : PackageAccepted U (B.withZones zones) raw E)
    (hrep : ∀ time, B.Reads time → Representable zones (sourceTz U (raw.marketplaceId U E)) time →
      Representable zones' (sourceTz U (raw.marketplaceId U E')) time) : PackageAccepted U
      (B.withZones zones') raw E' := by
  intro order ho
  obtain ⟨hdate, haccepted⟩ := h order ho
  simp only [purchaseDateOf_eq, purchaseTimeOf_withZones] at hdate haccepted
  obtain ⟨time, hread, htime⟩ := bind_instantIn_ok_iff.mp hdate
  unfold OrderSyncs
  simp only [purchaseDateOf_eq, purchaseTimeOf_withZones]
  constructor
  · refine bind_instantIn_ok_iff.mpr ⟨time, hread, fun t ht => hrep t ?_ (htime t ht)⟩
    rw [ht] at hread
    exact reads_of_orderTime hread
  · rintro ⟨date, hpurchase⟩
    obtain ⟨t, hsome, -, -⟩ := bind_instantIn_some_iff.mp hpurchase
    obtain rfl : time = some t := Except.ok.inj (hread.symm.trans hsome)
    have hok := haccepted ⟨_, bind_instantIn_some_iff.mpr ⟨t, hread, htime t rfl, rfl⟩⟩
    refine ⟨?_, hok.key, ?_, hok.quantities, hok.few, hok.rows, hok.distinct⟩
    · have hlast := hok.lastUpdateDate
      simp only [lastUpdateDateOf_eq, lastUpdateTimeOf_withZones] at hlast ⊢
      obtain ⟨time', hread', htime'⟩ := bind_instantIn_ok_iff.mp hlast
      refine bind_instantIn_ok_iff.mpr ⟨time', hread', fun t' ht' => hrep t' ?_ (htime' t' ht')⟩
      rw [ht'] at hread'
      exact reads_of_orderTime hread'
    · have hheader := hok.header
      rw [fits_packageValues_members hE] at hheader
      rw [fits_packageValues_members hE']
      exact hheader

/-- What is accepted under some clocks is so where all show the same. -/
theorem PackageAccepted.sameClocks (hB : B.ReadsDatetimes) {zones : String → ZoneRules}
    {E : List String} (hE : EuMembers U E) (h : PackageAccepted U (B.withZones zones) raw E) :
    PackageAccepted U (B.withZones sameClocks) raw [] := by
  refine h.of_representable hE euMembers_none fun time hr hrep => ?_
  unfold Representable Restock.sameClocks at *
  cases time with
  | naive reading =>
    have hyears := hB reading hr
    have hsame : (ZoneRules.fixed 0).instantOf (.naive reading) = reading := sub_zero reading
    rw [hsame, ZoneRules.toLocal_fixed]
    omega
  | aware t =>
    simp only [ZoneRules.toLocal_fixed, ZoneRules.instantOf] at hrep ⊢
    omega

theorem upsertRawPackageShipOrder_isOk_iff {E : List String} (now : String → ℤ) (db : OrderDb A) :
    (∃ synced, upsertRawPackageShipOrder U B raw E now db = .ok synced) ↔
    PackageAccepted U B raw E := by
  simp only [upsertRawPackageShipOrder_eq]
  exact upsertOrders_isOk_iff now (raw.namedOrders U) ⟨db, 0, 0⟩

end Accepted

/-! ### The claim -/

def OrderHeader.times (row : OrderHeader) : ℤ × ℤ := (row.purchaseDate, row.lastUpdateDate)

section Kept

variable {U : CharTable} (C : Collation U) {A : Type} (B : Builtins A)

variable (U) in
/-- The headers after the sync of a package; where it is refused nothing is stored. -/
def ordersAfter (raw : PackageObject) (euCountries : List String) (now : String → ℤ)
    (db : OrderDb A) : Dict OrderKey OrderHeader :=
  match upsertRawPackageShipOrder U B raw euCountries now db with
  | .error _ => db.orders
  | .ok synced => synced.db.orders

/-- The times of a package do not depend on the EU members: the dates that are stored are
the same under all member sets, and an order whose purchase time is shown once on the
clocks of its site is shown, after any sync and backfills, as without members. -/
structure TimesKept (raw : PackageObject) : Prop where
  stored : ∀ zones E₁ E₂, EuMembers U E₁ → EuMembers U E₂ → ∀ now db key,
    ((ordersAfter U (B.withZones zones) raw E₁ now db).get? key).map OrderHeader.times =
      ((ordersAfter U (B.withZones zones) raw E₂ now db).get? key).map OrderHeader.times
  shown : ∀ zones E Es, EuMembers U E → (∀ E' ∈ Es, EuMembers U E') →
    ∀ order time, order ∈ raw.namedOrders U → purchaseTimeOf U B raw order.2 = .ok (some time) →
    (zones (sourceTz U (raw.marketplaceId U []))).ShownOnce time →
    ∀ now (db : OrderDb A), (∀ row, db.orders.get? (raw.key U order.1) = some row →
      row.manualEditLocked = false) →
    ∀ plain synced, upsertRawPackageShipOrder U (B.withZones zones) raw [] now db = .ok plain →
      upsertRawPackageShipOrder U (B.withZones zones) raw E now db = .ok synced →
    ∀ plainRow table row, plain.db.orders.get? (raw.key U order.1) = some plainRow →
      backfillOrders C Es synced.db.orders = .ok table → table.get? (raw.key U order.1) = some row →
      toOrderDisplayTime U zones row.purchaseDate row.marketplaceId row.countryCode =
        toOrderDisplayTime U zones plainRow.purchaseDate plainRow.marketplaceId plainRow.countryCode

variable (U) in
/-- No row is written, whatever the clocks show: the package is refused even where they
all show the same time, or it has no order with a purchase date. -/
def PackageObject.storesNothing (raw : PackageObject) : Prop :=
  ¬ PackageAccepted U (B.withZones sameClocks) raw [] ∨
    ∀ order ∈ raw.namedOrders U, purchaseTimeOf U B raw order.2 = .ok none

/-- Both the country and the marketplace of the package are in the zone of Beijing. -/
def PackageObject.inBeijing (U : CharTable) (raw : PackageObject) : Prop :=
  countryToTz U (some (raw.source U)) = beijing ∧
    orderDisplayTimezone U (some (raw.marketplaceId U [])) (some (raw.source U)) = beijing

/-! ### Dates and the member set -/

/-- Two tables with the same dates, and the same rows locked. -/
def SameTimes (t₁ t₂ : Dict OrderKey OrderHeader) : Prop :=
  ∀ key, (t₁.get? key).map (fun row => (row.times, row.manualEditLocked)) =
    (t₂.get? key).map fun row => (row.times, row.manualEditLocked)

theorem SameTimes.refl (t : Dict OrderKey OrderHeader) : SameTimes t t := fun _ => rfl

theorem SameTimes.times {t₁ t₂ : Dict OrderKey OrderHeader} (h : SameTimes t₁ t₂) (key : OrderKey) :
    (t₁.get? key).map OrderHeader.times = (t₂.get? key).map OrderHeader.times := by
  have hboth := congrArg (Option.map Prod.fst) (h key)
  rw [Option.map_map, Option.map_map] at hboth
  exact hboth

theorem writeHeader_times {values₁ values₂ : OrderHeader} (hv : values₁.times = values₂.times)
    (hl : values₁.manualEditLocked = values₂.manualEditLocked) {old₁ old₂ : Option OrderHeader}
    (ho : old₁.map (fun row => (row.times, row.manualEditLocked)) =
      old₂.map fun row => (row.times, row.manualEditLocked)) :
    ((writeHeader values₁ old₁).times, (writeHeader values₁ old₁).manualEditLocked) =
      ((writeHeader values₂ old₂).times, (writeHeader values₂ old₂).manualEditLocked) := by
  obtain ⟨hp, hu⟩ := Prod.mk.inj hv
  cases old₁ with
  | none =>
    cases old₂ with
    | none => exact Prod.ext hv hl
    | some row => cases ho
  | some row₁ =>
    cases old₂ with
    | none => cases ho
    | some row₂ =>
      obtain ⟨ht, hlock⟩ := Prod.mk.inj (Option.some.inj ho)
      obtain ⟨hp', hu'⟩ := Prod.mk.inj ht
      simp only [writeHeader, updateHeader, OrderHeader.times, protectManualEdit, hlock, hp,
        hu, hp', hu']

theorem headerValues_times (raw : RawPackage) (order : RawPackageOrder) (E : List String) :
    (headerValues U raw order E).times = (order.purchaseDate, order.lastUpdateDate) := rfl

theorem headerValues_unlocked (raw : RawPackage) (order : RawPackageOrder) (E : List String) :
    (headerValues U raw order E).manualEditLocked = false := rfl

/-- The same orders under two member sets leave the same dates. -/
theorem sameTimes_upsert {raw₁ raw₂ : RawPackage} {E₁ E₂ : List String} (shop sn : String) :
    ∀ (l : List RawPackageOrder) (t₁ t₂ : Dict OrderKey OrderHeader), SameTimes t₁ t₂ →
    SameTimes
      (l.foldl (fun orders order =>
        upsertHeader ⟨shop, order.amazonOrderId, sn⟩ (headerValues U raw₁ order E₁) orders) t₁)
      (l.foldl (fun orders order =>
        upsertHeader ⟨shop, order.amazonOrderId, sn⟩ (headerValues U raw₂ order E₂) orders) t₂)
  | [], _, _, h => h
  | order :: l, t₁, t₂, h => by
    refine sameTimes_upsert shop sn l _ _ fun key => ?_
    simp only [upsertHeader, Dict.get?_set]
    split_ifs
    · refine congrArg some (writeHeader_times ?_ ?_ (h _))
      · rw [headerValues_times, headerValues_times]
      · rw [headerValues_unlocked, headerValues_unlocked]
    · exact h key

section Read

variable {B} {raw : PackageObject} {zones : String → ZoneRules} {E E₁ E₂ : List String}

/-- Where the zone is the same, so are the orders that are read. -/
theorem readOrders_eq (h : sourceTz U (raw.marketplaceId U E₁) = sourceTz U
    (raw.marketplaceId U E₂)) :
    ∀ (rowId : ℕ) (orders : List (String × RawObject)), readOrders U B raw E₁ rowId orders =
    readOrders U B raw E₂ rowId orders
  | _, [] => rfl
  | rowId, order :: orders => by
    have hpurchase : purchaseDateOf U B raw E₁ order.2 = purchaseDateOf U B raw E₂ order.2 := by
      rw [purchaseDateOf_eq, purchaseDateOf_eq, h]
    have hlast : lastUpdateDateOf U B raw E₁ order.2 = lastUpdateDateOf U B raw E₂ order.2 := by
      rw [lastUpdateDateOf_eq, lastUpdateDateOf_eq, h]
    simp only [readOrders, hpurchase, hlast, readOrders_eq h _ orders]

theorem sameTimes_read
    (h : sourceTz U (raw.marketplaceId U E₁) = sourceTz U (raw.marketplaceId U E₂)) (rowId : ℕ)
      (table : Dict OrderKey OrderHeader) :
      SameTimes (upsertPackageShipOrder U (raw.read U B E₁ rowId) E₁ table)
      (upsertPackageShipOrder U (raw.read U B E₂ rowId) E₂ table) := by
  have horders : (raw.read U B E₁ rowId).orders = (raw.read U B E₂ rowId).orders := by
    rw [orders_read, orders_read, readOrders_eq h]
  unfold upsertPackageShipOrder
  simp only [shopId_read, packageSn_read, horders]
  split_ifs
  · exact .refl table
  · exact sameTimes_upsert _ _ _ _ _ (.refl table)

/-- An order with a purchase date is read. -/
theorem mem_readOrders {order : String × RawObject} {time : ParsedTime}
    (htime : purchaseTimeOf U B raw order.2 = .ok (some time)) :
    ∀ {rowId : ℕ} {orders : List (String × RawObject)}, order ∈ orders →
    (∀ o ∈ orders, OrderSyncs U B raw E o) → ∃ read ∈ readOrders U B raw E rowId orders,
    read.amazonOrderId = order.1
  | _, [], ho, _ => absurd ho List.not_mem_nil
  | rowId, head :: orders, ho, hsyncs => by
    rw [List.forall_mem_cons] at hsyncs
    have hrest : ∀ rowId, order ∈ orders → ∃ read ∈ readOrders U B raw E rowId orders,
    read.amazonOrderId = order.1 :=
      fun rowId hm => mem_readOrders htime hm hsyncs.2
    rw [readOrders]
    rcases List.mem_cons.mp ho with rfl | hm
    · obtain ⟨⟨date, hdate⟩, haccepted⟩ := hsyncs.1
      have hpurchase : ∃ date, purchaseDateOf U B raw E order.2 = .ok (some date) := by
        rw [purchaseDateOf_eq] at hdate ⊢
        obtain ⟨time', hread, hrep⟩ := bind_instantIn_ok_iff.mp ⟨date, hdate⟩
        obtain rfl : time' = some time := Except.ok.inj (hread.symm.trans htime)
        exact ⟨_, bind_instantIn_some_iff.mpr ⟨time, hread, hrep time rfl, rfl⟩⟩
      obtain ⟨last, hlast⟩ := (haccepted hpurchase).lastUpdateDate
      obtain ⟨purchaseDate, hpurchase⟩ := hpurchase
      rw [hpurchase, hlast]
      exact ⟨_, List.mem_cons_self, rfl⟩
    · split
      · obtain ⟨read, hr, hid⟩ := hrest (rowId + 1) hm
        exact ⟨read, List.mem_cons_of_mem _ hr, hid⟩
      · exact hrest rowId hm

theorem writesOrder_read (hok : PackageAccepted U B raw E) {order : String × RawObject}
    (ho : order ∈ raw.namedOrders U) {time : ParsedTime}
    (htime : purchaseTimeOf U B raw order.2 = .ok (some time)) (rowId : ℕ) :
    WritesOrder U (raw.read U B E rowId) (raw.key U order.1) := by
  have hkeys : packageShopId U raw.header ≠ "" ∧ packageSnOf U raw.header ≠ "" := by
    unfold PackageObject.namedOrders at ho
    split_ifs at ho with hkey
    · cases ho
    · exact not_or.mp hkey
  have hread : ∃ read ∈ readOrders U B raw E rowId (raw.namedOrders U),
      read.amazonOrderId = order.1 :=
    mem_readOrders htime ho hok
  obtain ⟨read, hr, hid⟩ := hread
  unfold WritesOrder
  rw [shopId_read, packageSn_read, orders_read]
  refine ⟨hkeys.1, hkeys.2, read, hr, ?_⟩
  rw [hid, PackageObject.key]

end Read

theorem backfillOrderRow_times (members : List String) (row : OrderHeader) :
    (backfillOrderRow C members row).times = row.times := by
  unfold backfillOrderRow
  obtain ⟨cols, id⟩ := backfillCols C members row.cols (some row.marketplaceId)
  rfl

/-- A backfill does not touch the dates. -/
theorem backfillOrders_times : ∀ (Es : List (List String)) {t t' : Dict OrderKey OrderHeader},
    backfillOrders C Es t = .ok t' → ∀ key,
    (t'.get? key).map OrderHeader.times = (t.get? key).map OrderHeader.times
  | [], t, t', h, key => by rw [Except.ok.inj h]
  | E :: Es, t, t', h, key => by
    obtain ⟨t₁, h₁, h₂⟩ : ∃ t₁, backfillOrderEuCountryMapping C E t = .ok t₁ ∧
    backfillOrders C Es t₁ = .ok t' := by
      rw [backfillOrders, List.foldlM_cons] at h
      cases h₁ : backfillOrderEuCountryMapping C E t with
      | error e => rw [h₁] at h; cases h
      | ok t₁ => exact ⟨t₁, rfl, by rw [h₁] at h; exact h⟩
    rw [backfillOrders_times Es h₂ key]
    unfold backfillOrderEuCountryMapping at h₁
    cases hm : normalizeCountryListForEuMembers U (some (E.map .str)) with
    | error e => rw [hm] at h₁; cases h₁
    | ok members =>
      rw [hm] at h₁
      rw [← Except.ok.inj h₁, Dict.get?_mapVal, Option.map_map]
      refine congrArg (fun f => (t.get? key).map f) (funext fun row => ?_)
      exact backfillOrderRow_times C members row

/-! ### What is safe -/

variable {B} {raw : PackageObject}

/-- In the zone of Beijing every member set reads the same dates. -/
theorem PackageObject.inBeijing.sourceTz_eq (h : raw.inBeijing U) {E : List String}
    (hE : EuMembers U E) :
    sourceTz U (raw.marketplaceId U E) = sourceTz U (raw.marketplaceId U []) := by
  unfold PackageObject.marketplaceId
  cases cleanText U raw.header.marketplaceId with
  | some id => rw [Option.getD_some, Option.getD_some]
  | none =>
    have hcountry := fst_packageCols hE raw.header.marketplace
    have hplain := fst_packageCols (U := U) euMembers_none raw.header.marketplace
    rw [Option.getD_none, Option.getD_none, hcountry, hplain]
    change sourceTz U (if raw.source U ∈ E then "EU" else raw.source U) =
      sourceTz U (if raw.source U ∈ [] then "EU" else raw.source U)
    rw [sourceTz_normalized (isNormalized_mapped raw.isNormalized_source E),
      sourceTz_normalized (isNormalized_mapped raw.isNormalized_source []),
      countryToTz_mapped _ _ h.1, countryToTz_mapped _ _ h.1]

/-- What a sync and backfills leave in the columns that choose the zone of the display. -/
structure ShownIn (U : CharTable) (raw : PackageObject) (E : List String) (row : OrderHeader) :
    Prop where
  country : row.countryCode = if raw.source U ∈ E then "EU" else raw.source U
  marketplace : row.marketplaceId = (cleanText U raw.header.marketplaceId).getD row.countryCode ∨
    row.marketplaceId = row.countryCode

theorem ShownIn.zone_of_inBeijing (h : raw.inBeijing U) {E : List String} {row : OrderHeader}
    (hrow : ShownIn U raw E row) :
    orderDisplayTimezone U (some row.marketplaceId) (some row.countryCode) = beijing := by
  have hcode : countryToTz U (some row.countryCode) = beijing := by
    rw [hrow.country]
    exact countryToTz_mapped _ _ h.1
  have hnorm : IsNormalized U row.countryCode := by
    rw [hrow.country]
    exact isNormalized_mapped raw.isNormalized_source E
  have hown : orderDisplayTimezone U (some row.countryCode) (some row.countryCode) = beijing := by
    rw [orderDisplayTimezone_normalized hnorm]
    exact hcode
  rcases hrow.marketplace with hm | hm
  · cases hid : cleanText U raw.header.marketplaceId with
    | none =>
      rw [hm, hid]
      exact hown
    | some id =>
      -- the id of the package chooses the zone, or the country does
      have hplain := h.2
      unfold PackageObject.marketplaceId at hplain
      rw [hid, Option.getD_some] at hplain
      rw [hm, hid, Option.getD_some]
      unfold orderDisplayTimezone at hplain ⊢
      cases hc : marketplaceToCountry U (some id) with
      | some country =>
        rw [hc, Option.some_or] at hplain
        rw [Option.some_or]
        exact hplain
      | none =>
        have hsome : normalizeObservedCountryCode U (optionalText (some row.countryCode)) =
          some row.countryCode := hnorm
        rw [hsome, Option.none_or]
        exact hcode
  · rw [hm]
    exact hown

/-! ### Rows of a package -/

section Rows

variable {E : List String} {now : String → ℤ} {db : OrderDb A} {synced : SyncState A}
    {order : String × RawObject}
  {time : ParsedTime}

/-- The row that a sync leaves for an order. -/
theorem synced_row (hE : EuMembers U E)
    (h : upsertRawPackageShipOrder U B raw E now db = .ok synced) (ho : order ∈ raw.namedOrders U)
    (ht : purchaseTimeOf U B raw order.2 = .ok (some time))
    (hun : ∀ row, db.orders.get? (raw.key U order.1) = some row → row.manualEditLocked = false) :
    ∃ row, synced.db.orders.get? (raw.key U order.1) = some row ∧
      row.cols = represent E (raw.source U) ∧
      row.marketplaceId = (cleanText U raw.header.marketplaceId).getD row.countryCode := by
  have hok : PackageAccepted U B raw E := (upsertRawPackageShipOrder_isOk_iff _ _).mp ⟨synced, h⟩
  obtain ⟨row, hget, hs⟩ :=
    upsertPackageShipOrder_synced hE (writesOrder_read hok ho ht db.nextId) hun
  rw [← orders_upsertRawPackageShipOrder h] at hget
  exact ⟨row, hget, hs.cols, hs.marketplaceId⟩

/-- The row of an order after a sync and any backfills. -/
theorem shownIn_backfilled (hE : EuMembers U E)
    (h : upsertRawPackageShipOrder U B raw E now db = .ok synced) (ho : order ∈ raw.namedOrders U)
    (ht : purchaseTimeOf U B raw order.2 = .ok (some time))
    (hun : ∀ row, db.orders.get? (raw.key U order.1) = some row → row.manualEditLocked = false)
    {Es : List (List String)} (hEs : ∀ E' ∈ Es, EuMembers U E') {table : Dict OrderKey OrderHeader}
    {row : OrderHeader} (hb : backfillOrders C Es synced.db.orders = .ok table)
    (hr : table.get? (raw.key U order.1) = some row) :
    ShownIn U raw (lastMembers E Es) row ∧ (Es ≠ [] → row.marketplaceId = row.countryCode) := by
  obtain ⟨row₀, hget₀, hcols₀, hid₀⟩ := synced_row hE h ho ht hun
  obtain ⟨t, row', hrun, hrow', hcols, hmk⟩ :=
    backfillOrders_run C raw.isNormalized_source Es hEs E _ row₀ hget₀ hcols₀
  obtain rfl := Except.ok.inj (hrun.symm.trans hb)
  obtain rfl := Option.some.inj (hrow'.symm.trans hr)
  refine ⟨⟨(OrderHeader.cols_represent hcols).1, ?_⟩, fun hne => hmk.trans (if_neg hne)⟩
  by_cases h0 : Es = []
  · subst h0
    obtain rfl := Option.some.inj (hget₀.symm.trans (Except.ok.inj hrun ▸ hrow'))
    exact Or.inl hid₀
  · exact Or.inr (hmk.trans (if_neg h0))

/-- Without members and backfills. -/
theorem shownIn_plain (h : upsertRawPackageShipOrder U B raw [] now db = .ok synced)
    (ho : order ∈ raw.namedOrders U) (ht : purchaseTimeOf U B raw order.2 = .ok (some time))
    (hun : ∀ row, db.orders.get? (raw.key U order.1) = some row → row.manualEditLocked = false)
    {row : OrderHeader} (hr : synced.db.orders.get? (raw.key U order.1) = some row) :
    ShownIn U raw [] row := by
  obtain ⟨row₀, hget₀, hcols₀, hid₀⟩ := synced_row euMembers_none h ho ht hun
  obtain rfl := Option.some.inj (hget₀.symm.trans hr)
  exact ⟨(OrderHeader.cols_represent hcols₀).1, Or.inl hid₀⟩

end Rows

/-! ### When the times are kept -/

variable (B)

theorem timesKept_of_inBeijing (h : raw.inBeijing U) : TimesKept C B raw where
  stored := by
    intro zones E₁ E₂ h₁ h₂ now db key
    have hzone : sourceTz U (raw.marketplaceId U E₁) = sourceTz U (raw.marketplaceId U E₂) :=
      (h.sourceTz_eq h₁).trans (h.sourceTz_eq h₂).symm
    have haccepted : PackageAccepted U (B.withZones zones) raw E₁ ↔
        PackageAccepted U (B.withZones zones) raw E₂ :=
      ⟨fun hok => hok.of_representable h₁ h₂ fun time _ hrep => by rwa [← hzone],
        fun hok => hok.of_representable h₂ h₁ fun time _ hrep => by rwa [hzone]⟩
    rw [← upsertRawPackageShipOrder_isOk_iff now db,
      ← upsertRawPackageShipOrder_isOk_iff now db] at haccepted
    unfold ordersAfter
    cases hrun : upsertRawPackageShipOrder U (B.withZones zones) raw E₁ now db with
    | error e =>
      cases hrun' : upsertRawPackageShipOrder U (B.withZones zones) raw E₂ now db with
      | error e' => rfl
      | ok synced' =>
        obtain ⟨synced, hok⟩ := haccepted.mpr ⟨synced', hrun'⟩
        rw [hrun] at hok
        cases hok
    | ok synced =>
      obtain ⟨synced', hrun'⟩ := haccepted.mp ⟨synced, hrun⟩
      simp only [hrun', orders_upsertRawPackageShipOrder hrun,
        orders_upsertRawPackageShipOrder hrun']
      exact (sameTimes_read hzone db.nextId db.orders).times key
  shown := by
    intro zones E Es hE hEs order time ho ht _ now db hun plain synced hplain hsynced plainRow table
      row hp hb hr
    have hzone := ShownIn.zone_of_inBeijing h
      (shownIn_backfilled C hE hsynced ho ht hun hEs hb hr).1
    have hzone' := ShownIn.zone_of_inBeijing h (shownIn_plain hplain ho ht hun hp)
    have htimes : row.times = plainRow.times := by
      have hback := backfillOrders_times C Es hb (raw.key U order.1)
      have hsame := (sameTimes_read (B := B.withZones zones)
        (h.sourceTz_eq hE) db.nextId db.orders).times (raw.key U order.1)
      rw [← orders_upsertRawPackageShipOrder hsynced, ← orders_upsertRawPackageShipOrder
        hplain] at hsame
      rw [hr, hsame, hp] at hback
      exact Option.some.inj hback
    have hdate : row.purchaseDate = plainRow.purchaseDate := congrArg Prod.fst htimes
    unfold toOrderDisplayTime
    rw [hzone, hzone', hdate]

theorem readOrders_of_none {zones : String → ZoneRules} {E : List String} :
    ∀ {orders : List (String × RawObject)},
      (∀ order ∈ orders, purchaseTimeOf U B raw order.2 = .ok none) →
      ∀ rowId, readOrders U (B.withZones zones) raw E rowId orders = []
  | [], _, _ => rfl
  | order :: orders, h, rowId => by
    rw [List.forall_mem_cons] at h
    have hdate : purchaseDateOf U (B.withZones zones) raw E order.2 = .ok none := by
      rw [purchaseDateOf_eq, purchaseTimeOf_withZones, h.1]
      rfl
    rw [readOrders, hdate]
    exact readOrders_of_none h.2 rowId

/-- Nothing is stored where the package would be refused under the same clocks, or has no
purchase dates. -/
theorem ordersAfter_of_storesNothing (hB : B.ReadsDatetimes) (h : raw.storesNothing U B)
    {zones : String → ZoneRules} {E : List String} (hE : EuMembers U E) (now : String → ℤ)
    (db : OrderDb A) :
    ordersAfter U (B.withZones zones) raw E now db = db.orders := by
  unfold ordersAfter
  cases hrun : upsertRawPackageShipOrder U (B.withZones zones) raw E now db with
  | error e => rfl
  | ok synced =>
    have hok : PackageAccepted U (B.withZones zones) raw E :=
      (upsertRawPackageShipOrder_isOk_iff _ _).mp ⟨synced, hrun⟩
    rcases h with hno | hnone
    · exact absurd (hok.sameClocks hB hE) hno
    · show synced.db.orders = db.orders
      rw [orders_upsertRawPackageShipOrder hrun]
      unfold upsertPackageShipOrder
      rw [orders_read, readOrders_of_none B hnone]
      simp only [List.foldl_nil, ite_self]

theorem timesKept_of_storesNothing (hB : B.ReadsDatetimes) (h : raw.storesNothing U B) :
    TimesKept C B raw where
  stored zones E₁ E₂ h₁ h₂ now db key := by
    rw [ordersAfter_of_storesNothing B hB h h₁, ordersAfter_of_storesNothing B hB h h₂]
  shown := by
    intro zones E Es hE _ order time ho ht _ now db _ plain synced hplain
    rcases h with hno | hnone
    · have hok : PackageAccepted U (B.withZones zones) raw [] :=
        (upsertRawPackageShipOrder_isOk_iff _ _).mp ⟨plain, hplain⟩
      exact absurd (hok.sameClocks hB euMembers_none) hno
    · rw [hnone order ho] at ht
      cases ht

/-- Clocks that show two times: one in the zones that are on the same side of `zone` as
`source` is, which are `zone` alone or all but `zone`, and one second less elsewhere. -/
def apartFrom (zone source z : String) : ZoneRules :=
  .fixed (if z = zone ↔ source = zone then 0 else -1)

/-- The clocks of the source show the time as it is, and those of Beijing no later one. -/
theorem representable_apartFrom {zone source : String} {time : ParsedTime} {z : String}
    (h : Representable sameClocks z time) : Representable (apartFrom zone source) source time := by
  have hsource : (apartFrom zone source source).instantOf time = (sameClocks z).instantOf time := by
    unfold apartFrom sameClocks
    rw [if_pos Iff.rfl]
  have hbeijing : ∀ t, (apartFrom zone source beijing).toLocal t ≤ t := by
    intro t
    unfold apartFrom
    rw [ZoneRules.toLocal_fixed]
    split_ifs <;> omega
  unfold Representable at h ⊢
  rw [hsource]
  exact ⟨h.1, h.2.1, (hbeijing _).trans h.2.1⟩

/-- Two zones of which one is `zone` show different times. -/
theorem toLocal_apartFrom {zone source z : String} (hne : z ≠ zone) (t : ℤ) :
    (apartFrom zone source z).toLocal t ≠ (apartFrom zone source zone).toLocal t := by
  unfold apartFrom
  rw [ZoneRules.toLocal_fixed, ZoneRules.toLocal_fixed]
  by_cases hs : source = zone
  · simp [hne, hs]
  · simp [hne, hs]

section Zone

variable {B} {order : String × RawObject} {time : ParsedTime}

/-- Where the times are kept, the zone that a backfill leaves is the one before it. -/
theorem TimesKept.zone_eq (h : TimesKept C B raw) (db : OrderDb A) (hdb : db.orders = .empty)
    (hok : PackageAccepted U (B.withZones sameClocks) raw []) (ho : order ∈ raw.namedOrders U)
    (ht : purchaseTimeOf U B raw order.2 = .ok (some time)) {E : List String} (hE : EuMembers U E) :
    countryToTz U (some (if raw.source U ∈ E then "EU" else raw.source U)) =
      orderDisplayTimezone U (some (raw.marketplaceId U [])) (some (raw.source U)) := by
  set zone := orderDisplayTimezone U (some (raw.marketplaceId U []))
    (some (raw.source U)) with hzone
  set zones := apartFrom zone (sourceTz U (raw.marketplaceId U [])) with hzones
  have hEs : ∀ E' ∈ [E], EuMembers U E' := by simpa using hE
  have hun : ∀ row, db.orders.get? (raw.key U order.1) = some row →
      row.manualEditLocked = false := by
    rw [hdb]
    simp
  -- the package is accepted under these clocks too
  have haccepted : PackageAccepted U (B.withZones zones) raw [] :=
    hok.of_representable euMembers_none euMembers_none fun _ _ hrep => representable_apartFrom hrep
  obtain ⟨plain, hplain⟩ := (upsertRawPackageShipOrder_isOk_iff (fun _ => 0) db).mpr haccepted
  have ht' : purchaseTimeOf U (B.withZones zones) raw order.2 = .ok (some time) := by
    rw [purchaseTimeOf_withZones, ht]
  obtain ⟨plainRow, hp, hcols, hid⟩ := synced_row euMembers_none hplain ho ht' hun
  obtain ⟨table, row, hb, hr, -, -⟩ :=
    backfillOrders_run C raw.isNormalized_source [E] hEs [] _ plainRow hp hcols
  obtain ⟨hin, hmk⟩ := shownIn_backfilled C euMembers_none hplain ho ht' hun hEs hb hr
  have hshown := h.shown zones [] [E] euMembers_none hEs order time ho ht
    (ZoneRules.shownOnce_fixed _ _) _ db hun
    plain plain hplain hplain plainRow table row hp hb hr
  -- the two rows have the same date
  have hdate : row.purchaseDate = plainRow.purchaseDate := by
    have htimes := backfillOrders_times C [E] hb (raw.key U order.1)
    rw [hr, hp] at htimes
    exact congrArg Prod.fst (Option.some.inj htimes)
  have hplainZone : orderDisplayTimezone U (some plainRow.marketplaceId)
      (some plainRow.countryCode) = zone := by
    have hcode : plainRow.countryCode = raw.source U := by
      rw [(OrderHeader.cols_represent hcols).1, if_neg List.not_mem_nil]
    have hplainId : raw.marketplaceId U [] = (cleanText U raw.header.marketplaceId).getD
        (raw.source U) := by
      unfold PackageObject.marketplaceId
      rw [fst_packageCols euMembers_none, if_neg List.not_mem_nil]
      rfl
    rw [hid, hcode, hzone, hplainId]
  have hrowZone : orderDisplayTimezone U (some row.marketplaceId) (some row.countryCode) =
      countryToTz U (some (if raw.source U ∈ E then "EU" else raw.source U)) := by
    rw [hmk (by simp), hin.country,
      orderDisplayTimezone_normalized (isNormalized_mapped raw.isNormalized_source _)]
    rfl
  by_contra hne
  unfold toOrderDisplayTime at hshown
  rw [hrowZone, hplainZone, hdate] at hshown
  exact toLocal_apartFrom hne _ hshown

theorem TimesKept.inBeijing (h : TimesKept C B raw) (db : OrderDb A) (hdb : db.orders = .empty)
    (hok : PackageAccepted U (B.withZones sameClocks) raw []) (ho : order ∈ raw.namedOrders U)
    (ht : purchaseTimeOf U B raw order.2 = .ok (some time)) : raw.inBeijing U := by
  have hown : countryToTz U (some (raw.source U)) =
      orderDisplayTimezone U (some (raw.marketplaceId U [])) (some (raw.source U)) := by
    have hnone := h.zone_eq C db hdb hok ho ht euMembers_none
    rw [if_neg List.not_mem_nil] at hnone
    exact hnone
  have hbeijing : countryToTz U (some (raw.source U)) = beijing := by
    by_cases hs : raw.source U ∈ nonEuMemberCodes
    · exact countryToTz_special hs
    · -- the country may be a member, and then it is shown in the zone of Beijing
      have hmember : EuMembers U [raw.source U] := by
        refine ⟨?_, ?_, List.nodup_singleton _⟩
        · intro code hc
          rw [List.mem_singleton.mp hc]
          exact raw.isNormalized_source
        · intro code hc
          rw [List.mem_singleton.mp hc]
          exact hs
      have heu := h.zone_eq C db hdb hok ho ht hmember
      rw [if_pos (List.mem_singleton_self _), countryToTz_special (by decide)] at heu
      rw [hown, heu]
  exact ⟨hbeijing, hown ▸ hbeijing⟩

end Zone

end Kept

/-! ### A German package -/

/-- A package with one order. -/
def onePackage (marketplace : String) (marketplaceId : JsonValue) : PackageObject where
  fields := Dict.ofList [("shopId", .str "s1"), ("packageSn", .str "p1"),
    ("marketplace", .str marketplace), ("marketplaceId", marketplaceId),
    ("amazonOrderId", .str "o1"), ("purchaseDate", .str "2026-04-08 10:11:15")]
  lists := .empty
  address := none

/-- That text, as a local reading. Berlin is two hours ahead, Beijing eight. -/
def germanBuiltins : Builtins ℚ where
  float _ := .refused
  decimal _ := none
  numeric amount := some amount
  parse text := if text = "2026-04-08 10:11:15" then .ok (some (.naive 1775643075)) else .ok none
  zones zone := .fixed (if zone = "Europe/Berlin" then 7200 else 28800)

theorem readsDatetimes_german : germanBuiltins.ReadsDatetimes := by
  rintro reading ⟨text, htext⟩
  simp only [germanBuiltins] at htext
  split_ifs at htext
  · obtain rfl := ParsedTime.naive.inj (Option.some.inj (Except.ok.inj htext))
    decide
  · cases htext

end Restock
