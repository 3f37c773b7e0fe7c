/-
# Storing a package (`sync/order_list.py`)

A package names its orders and its items under several keys, or leaves them out; an item
belongs to the order it names, or to the only order there is. Each order with a readable
purchase date is upserted; its valid items are upserted in one statement, and the items it
has no longer are deleted. An item without an id gets one from its position.

A statement may not name a key twice, so two valid items of one order with the same id make
the whole sync fail; so does what a column cannot hold, a quantity that is infinite and a
date that cannot be represented. The rest converges: a second run changes nothing but the
time of the sync, and the items of each order are the valid ones (`convergentUpsert_iff`).
-/
import Restock.Lib.Upsert
import Restock.OrderTimes

namespace Restock

open PyText

/-! ### The raw package -/

/-- A JSON object inside a package. -/
abbrev RawObject := Dict String JsonValue

/-- `raw.get(key)`. -/
def RawObject.get (raw : RawObject) (key : String) : JsonValue := (raw.get? key).getD .null

/-- A package as it comes. `lists` are the values that are lists, where an entry that is
not an object is `none`; `address` is the address, if it is an object. -/
structure PackageObject where
  fields : RawObject
  lists : Dict String (List (Option RawObject))
  address : Option RawObject

/-- What `float(value)` does. -/
inductive FloatValue
  | finite (value : ℚ)
  | infinite
  | nan
  | refused
  | tooLarge
deriving DecidableEq

/-- What the program calls: `float`, `Decimal` (`none` where the text is refused), the parser
of `dateutil` (which reads a text, refuses it or raises), the rules of the zones, and what
a column `NUMERIC(18, 4)` makes of a decimal (`none` where it is refused). -/
structure Builtins (A : Type) where
  float : JsonValue → FloatValue
  decimal : String → Option A
  numeric : A → Option A
  parse : String → Except String (Option ParsedTime)
  zones : String → ZoneRules

section Read

variable (U : CharTable) {A : Type} (B : Builtins A)

/-- The first list under one of the keys; only its objects count. -/
def extractObjects (keys : List String) (raw : PackageObject) : List RawObject :=
  ((keys.findSome? fun key => raw.lists.get? key).getD []).filterMap id

/-- The orders of a package, under the first key that has some. -/
def extractPackageOrders : PackageObject → List RawObject :=
  extractObjects ["orders", "orderList", "orderInfoList", "orderInfos", "packageOrderList"]

/-- The items of a package, under the first key that has some. -/
def extractPackageItems : PackageObject → List RawObject :=
  extractObjects ["items", "itemList", "packageItemList", "orderItemList", "skuInfoVo", "details"]

/-- The order id that an object names. -/
def namedOrderId (raw : RawObject) : Option String :=
  cleanText U (((raw.get "amazonOrderId").or (raw.get "orderNo")).or (raw.get "orderId"))

/-- The order that stands for an id without an object of its own. -/
def fallbackOrder (raw : PackageObject) (amazonOrderId : String) : RawObject :=
  Dict.ofList [("amazonOrderId", .str amazonOrderId),
    ("purchaseDate", raw.fields.get "purchaseDate"),
    ("lastUpdateDate", (raw.fields.get "updateTime").or (raw.fields.get "lastUpdateDate"))]

/-- `_normalize_orders_from_package`. -/
def normalizeOrdersFromPackage (raw : PackageObject) (orders items : List RawObject) :
    Dict String RawObject :=
  let named : Dict String RawObject :=
    Dict.ofList (orders.filterMap fun order => (namedOrderId U order).map fun id => (id, order))
  if named.items ≠ [] then named
  else match namedOrderId U raw.fields with
    | some id => Dict.ofList [(id, fallbackOrder raw id)]
    | none =>
      Dict.ofList ((Dict.fromKeys (items.filterMap (namedOrderId U))).map
        fun id => (id, fallbackOrder raw id))

/-- The orders of a package by their Amazon id. -/
def PackageObject.orderMap (raw : PackageObject) : Dict String RawObject :=
  normalizeOrdersFromPackage U raw (extractPackageOrders raw) (extractPackageItems raw)

/-- The order an item is assigned to: the one it names, or the only one. -/
def assignedOrder (orderMap : Dict String RawObject) (item : RawObject) : Option String :=
  let soleOrderId := if orderMap.keys.length = 1 then orderMap.keys.head? else none
  ((namedOrderId U item).or soleOrderId).filter fun id => id ∈ orderMap.keys

/-- `_group_items_by_order`. -/
def groupItemsByOrder (items : List RawObject) (orderMap : Dict String RawObject) :
    Dict String (List RawObject) :=
  Dict.mergeAll (· ++ ·) .empty
    (items.filterMap fun item => (assignedOrder U orderMap item).map fun id => (id, [item]))

/-! ### Reading values -/

/-- `_to_int`; an infinite float is not among what it catches. -/
def toInt (value : JsonValue) : Except String (Option ℤ) :=
  if value = .null ∨ value = .str "" then .ok (some 0)
  else match B.float value with
    | .finite value => .ok (some (truncate value))
    | .nan => .ok none
    | .refused => .ok none
    | .infinite => .error "cannot convert float infinity to integer"
    | .tooLarge => .error "int too large to convert to float"

/-- `_to_decimal`. -/
def toDecimal (value : JsonValue) :
    Option A := if value = .null ∨ value = .str "" then none else B.decimal value.toText

/-- The first and the last second a `datetime` has. -/
def firstSecond : ℤ := -62135596800

def lastSecond : ℤ := 253402300799

/-- `parse_saihu_time`; a conversion that leaves the years of `datetime` raises. -/
def readSaihuTime (raw : Option String) (marketplaceId : String) : Except String (Option ℤ) :=
  match raw.bind nonEmpty with
  | none => .ok none
  | some text =>
    match B.parse text with
    | .error e => .error e
    | .ok none => .ok none
    | .ok (some time) =>
      let instant := (B.zones (sourceTz U marketplaceId)).instantOf time
      if firstSecond ≤ instant ∧ instant ≤ lastSecond ∧
        (B.zones beijing).toLocal instant ≤ lastSecond then .ok (some instant)
      else .error "date value out of range"

/-- `_parse_order_date`. -/
def readOrderDate (raw fallback : JsonValue) (marketplaceId : String) : Except String (Option ℤ) :=
  match readSaihuTime U B (cleanText U raw) marketplaceId with
  | .error e => .error e
  | .ok (some instant) => .ok (some instant)
  | .ok none => readSaihuTime U B (cleanText U fallback) marketplaceId

end Read

/-! ### Rows -/

/-- A row of `order_header`, without its key. -/
structure PackageRow (A : Type) where
  id : ℕ
  orderPlatform : String
  packageStatus : Option String
  shopName : Option String
  postalCode : Option String
  marketplaceId : String
  countryCode : String
  originalCountryCode : Option String
  orderStatus : String
  orderTotalCurrency : Option String
  orderTotalAmount : Option A
  fulfillmentChannel : Option String
  purchaseDate : ℤ
  lastUpdateDate : ℤ
  isBuyerRequestedCancel : Bool
  refundStatus : Option String
  manualEditLocked : Bool
  lastSyncAt : ℤ
deriving DecidableEq

/-- A row of `order_item`, without its key. -/
structure OrderItemRow (A : Type) where
  commoditySku : String
  sellerSku : Option String
  quantityOrdered : ℤ
  quantityShipped : ℤ
  quantityUnfulfillable : ℤ
  refundNum : ℤ
  itemPriceCurrency : Option String
  itemPriceAmount : Option A
deriving DecidableEq

/-- A text in a column `VARCHAR(width)`. -/
def fitsText (width : ℕ) (text : String) : Bool := text.length ≤ width && Char.ofNat 0 ∉ text.toList

/-- A text, or NULL, in a column `VARCHAR(width)`. -/
def fitsTextOrNull (width : ℕ) (text : Option String) : Bool := text.all (fitsText width)

/-- A number in a column `INTEGER`. -/
def fitsInteger (n : ℤ) : Bool := -2147483648 ≤ n && n ≤ 2147483647

section Rows

variable {A : Type} (B : Builtins A)

/-- An amount in a column `NUMERIC`. -/
def fitsNumeric (amount : Option A) : Bool := amount.all fun amount => (B.numeric amount).isSome

/-- The key of a header fits its columns. -/
def fitsKey (key : OrderKey) :
    Bool := fitsText 50 key.shopId && fitsText 50 key.amazonOrderId && fitsText 80 key.packageSn

/-- Every value of a header fits its column. -/
def PackageRow.fits (row : PackageRow A) : Bool :=
  fitsText 50 row.orderPlatform && fitsTextOrNull 50 row.packageStatus &&
    fitsTextOrNull 255 row.shopName && fitsTextOrNull 50 row.postalCode &&
    fitsText 10 row.marketplaceId && fitsText 2 row.countryCode &&
    fitsTextOrNull 2 row.originalCountryCode && fitsText 30 row.orderStatus &&
      fitsTextOrNull 10 row.orderTotalCurrency &&
    fitsNumeric B row.orderTotalAmount && fitsTextOrNull 10 row.fulfillmentChannel

/-- Every value of an item fits its column. -/
def OrderItemRow.fits (row : OrderItemRow A) : Bool :=
  fitsText 100 row.commoditySku && fitsTextOrNull 100 row.sellerSku &&
    fitsInteger row.quantityOrdered && fitsTextOrNull 10 row.itemPriceCurrency &&
    fitsNumeric B row.itemPriceAmount

/-- The row as it is stored: amounts have the digits of their column. -/
def PackageRow.stored (row : PackageRow A) :
    PackageRow A := { row with orderTotalAmount := row.orderTotalAmount.bind B.numeric }

/-- An item with the amount that its column keeps. -/
def OrderItemRow.stored (row : OrderItemRow A) :
    OrderItemRow A := { row with itemPriceAmount := row.itemPriceAmount.bind B.numeric }

/-- `ON CONFLICT DO UPDATE` of a header. The columns of `MANUAL_EDIT_PROTECTED_FIELDS` stay
as they are in a locked row, and a missing postal code is not written. -/
def PackageRow.update (row values : PackageRow A) : PackageRow A :=
  { row with
    orderPlatform := if row.manualEditLocked then row.orderPlatform else values.orderPlatform
    packageStatus := values.packageStatus
    shopName := if row.manualEditLocked then row.shopName else values.shopName
    postalCode := if row.manualEditLocked ∨ values.postalCode = none then row.postalCode
      else values.postalCode
    marketplaceId := if row.manualEditLocked then row.marketplaceId else values.marketplaceId
    countryCode := if row.manualEditLocked then row.countryCode else values.countryCode
    originalCountryCode := if row.manualEditLocked then row.originalCountryCode
      else values.originalCountryCode
    orderStatus := values.orderStatus
    orderTotalCurrency := if row.manualEditLocked then row.orderTotalCurrency
      else values.orderTotalCurrency
    orderTotalAmount := if row.manualEditLocked then row.orderTotalAmount
      else values.orderTotalAmount
    fulfillmentChannel := if row.manualEditLocked then row.fulfillmentChannel
      else values.fulfillmentChannel
    purchaseDate := if row.manualEditLocked then row.purchaseDate else values.purchaseDate
    lastUpdateDate := if row.manualEditLocked then row.lastUpdateDate else values.lastUpdateDate
    isBuyerRequestedCancel := values.isBuyerRequestedCancel
    refundStatus := if row.manualEditLocked then row.refundStatus else values.refundStatus
    lastSyncAt := values.lastSyncAt }

/-- The row without the time of its sync. -/
def PackageRow.untimed (row : PackageRow A) : PackageRow A := { row with lastSyncAt := 0 }

end Rows

/-! ### The database -/

/-- The headers of packages and their items. No two headers have one id, and the sequence
is ahead of all ids. -/
structure OrderDb (A : Type) where
  headers : Dict OrderKey (PackageRow A)
  items : Dict (ℕ × String) (OrderItemRow A)
  nextId : ℕ
  id_inj : ∀ {key key' row row'}, headers.get? key = some row → headers.get? key' = some row' →
    row.id = row'.id → key = key'
  id_lt : ∀ {key row}, headers.get? key = some row → row.id < nextId

namespace OrderDb

variable {A : Type}

/-- The row that an upsert of a header leaves. -/
def written (db : OrderDb A) (key : OrderKey) (values : PackageRow A) : PackageRow A :=
  (db.headers.get? key).elim { values with id := db.nextId } fun row => row.update values

theorem id_written (db : OrderDb A) (key : OrderKey) (values : PackageRow A) :
    (db.written key values).id = db.nextId ∨ ∃ row, db.headers.get? key = some row ∧
    (db.written key values).id = row.id := by
  unfold written
  cases h : db.headers.get? key with
  | none => exact Or.inl rfl
  | some row => exact Or.inr ⟨row, rfl, rfl⟩

/-- The id of the written row is not that of another header. -/
theorem id_written_ne (db : OrderDb A) {key key' : OrderKey} (values : PackageRow A)
    {row : PackageRow A} (hrow : db.headers.get? key' = some row) (hne : key' ≠ key) :
    row.id ≠ (db.written key values).id := by
  intro hid
  obtain hnew | ⟨old, hold, hsame⟩ := db.id_written key values
  · have := db.id_lt hrow
    omega
  · exact hne (db.id_inj hrow hold (hid.trans hsame))

theorem id_inj_set (db : OrderDb A) (key : OrderKey) (values : PackageRow A) {k k' : OrderKey}
    {row row' : PackageRow A} (hk : (db.headers.set key (db.written key values)).get? k = some row)
    (hk' : (db.headers.set key (db.written key values)).get? k' = some row')
    (hid : row.id = row'.id) : k = k' := by
  rw [Dict.get?_set] at hk hk'
  by_cases h : k = key
  · by_cases h' : k' = key
    · rw [h, h']
    · rw [if_pos h] at hk
      rw [if_neg h'] at hk'
      rw [← Option.some.inj hk] at hid
      exact absurd hid.symm (db.id_written_ne values hk' h')
  · rw [if_neg h] at hk
    by_cases h' : k' = key
    · rw [if_pos h'] at hk'
      rw [← Option.some.inj hk'] at hid
      exact absurd hid (db.id_written_ne values hk h)
    · rw [if_neg h'] at hk'
      exact db.id_inj hk hk' hid

theorem id_lt_set (db : OrderDb A) (key : OrderKey) (values : PackageRow A) {k : OrderKey}
    {row : PackageRow A} (hk : (db.headers.set key (db.written key values)).get? k = some row) :
    row.id < db.nextId + 1 := by
  rw [Dict.get?_set] at hk
  split_ifs at hk with h
  · rw [← Option.some.inj hk]
    obtain hnew | ⟨old, hold, hsame⟩ := db.id_written key values
    · omega
    · have := db.id_lt hold
      omega
  · have := db.id_lt hk
    omega

/-- The upsert of a header. The sequence moves on, also where there is a conflict. -/
def upsertHeader (db : OrderDb A) (key : OrderKey) (values : PackageRow A) : OrderDb A where
  headers := db.headers.set key (db.written key values)
  items := db.items
  nextId := db.nextId + 1
  id_inj := db.id_inj_set key values
  id_lt := db.id_lt_set key values

/-- The items of a header are replaced. -/
def replaceItems (db : OrderDb A) (orderId : ℕ) (values : List (String × OrderItemRow A)) :
    OrderDb A :=
  { db with items := db.items.replaceUnder orderId values }

/-- A header with its items; without any, those that are there are kept. -/
def storeOrder (db : OrderDb A) (key : OrderKey) (values : PackageRow A)
    (items : List (String × OrderItemRow A)) : OrderDb A :=
  if items.isEmpty then db.upsertHeader key values
  else (db.upsertHeader key values).replaceItems (db.written key values).id items

/-- The same rows, but for the times of their syncs. -/
def SameRows (db db' : OrderDb A) : Prop :=
  (∀ key, (db.headers.get? key).map PackageRow.untimed =
    (db'.headers.get? key).map PackageRow.untimed) ∧ ∀ key, db.items.get? key = db'.items.get? key

theorem SameRows.refl (db : OrderDb A) : db.SameRows db := ⟨fun _ => rfl, fun _ => rfl⟩

theorem SameRows.trans {db db' db'' : OrderDb A} (h : db.SameRows db') (h' : db'.SameRows db'') :
    db.SameRows db'' :=
  ⟨fun key => (h.1 key).trans (h'.1 key), fun key => (h.2 key).trans (h'.2 key)⟩

theorem headers_storeOrder (db : OrderDb A) (key : OrderKey) (values : PackageRow A)
    (items : List (String × OrderItemRow A)) (k : OrderKey) :
    (db.storeOrder key values items).headers.get? k = if k = key then some (db.written key values)
    else db.headers.get? k := by
  have hset := Dict.get?_set db.headers key k (db.written key values)
  unfold storeOrder
  by_cases h : items.isEmpty = true
  · rw [if_pos h]
    exact hset
  · rw [if_neg h]
    exact hset

theorem items_storeOrder (db : OrderDb A) (key : OrderKey) (values : PackageRow A)
    {items : List (String × OrderItemRow A)} (hnd : (items.map Prod.fst).Nodup) (id : ℕ)
      (c : String) : (db.storeOrder key values items).items.get? (id, c) = if items ≠ [] ∧
      id = (db.written key values).id then items.lookup c else db.items.get? (id, c) := by
  unfold storeOrder
  cases hitems : items with
  | nil => simp [upsertHeader]
  | cons item rest =>
    rw [hitems] at hnd
    show (db.items.replaceUnder (db.written key values).id (item :: rest)).get? (id, c) = _
    rw [Dict.get?_replaceUnder hnd]
    simp

/-! ### Orders that are stored -/

theorem update_untimed {row row' values values' : PackageRow A} (hrow : row.untimed = row'.untimed)
    (hvalues : values.untimed = values'.untimed) :
    (row.update values).untimed = (row'.update values').untimed := by
  obtain ⟨⟩ := row
  obtain ⟨⟩ := row'
  obtain ⟨⟩ := values
  obtain ⟨⟩ := values'
  simp only [PackageRow.untimed, PackageRow.mk.injEq] at hrow hvalues
  simp only [PackageRow.update, PackageRow.untimed, PackageRow.mk.injEq]
  simp [hrow, hvalues]

/-- Writing the values of a new or updated row again changes its time alone. -/
theorem update_written (db : OrderDb A) (key : OrderKey) {values : PackageRow A}
    (hlock : values.manualEditLocked = false) :
    ((db.written key values).update values).untimed = (db.written key values).untimed := by
  unfold written
  cases db.headers.get? key with
  | none =>
    simp [PackageRow.update, PackageRow.untimed, hlock]
  | some row =>
    cases hrow : row.manualEditLocked with
    | true => simp [PackageRow.update, PackageRow.untimed, hrow]
    | false =>
      by_cases hpostal : values.postalCode = none
      · simp [PackageRow.update, PackageRow.untimed, hrow, hpostal]
      · simp [PackageRow.update, PackageRow.untimed, hrow, hpostal]

/-- The order is there, with its items if it has any, and writing it again would change
nothing but the time. -/
def Holds (db : OrderDb A) (key : OrderKey) (values : PackageRow A)
    (items : List (String × OrderItemRow A)) : Prop :=
  ∃ row, db.headers.get? key = some row ∧ (row.update values).untimed = row.untimed ∧
    (items ≠ [] → ∀ c, db.items.get? (row.id, c) = items.lookup c)

variable {db db' : OrderDb A} {key key' : OrderKey} {values values' : PackageRow A}
    {items items' : List (String × OrderItemRow A)}

/-- A stored order is there. -/
theorem holds_storeOrder (db : OrderDb A) (key : OrderKey) (hlock : values.manualEditLocked = false)
    (hnd : (items.map Prod.fst).Nodup) :
    (db.storeOrder key values items).Holds key values items := by
  refine ⟨db.written key values, ?_, db.update_written key hlock, fun hne c => ?_⟩
  · rw [headers_storeOrder, if_pos rfl]
  · rw [items_storeOrder db key values hnd, if_pos ⟨hne, rfl⟩]

/-- It stays there when another order is stored. -/
theorem Holds.storeOrder (h : db.Holds key values items) (hne : key ≠ key')
    (hnd : (items'.map Prod.fst).Nodup) :
    (db.storeOrder key' values' items').Holds key values items := by
  obtain ⟨row, hrow, hupdate, hitems⟩ := h
  have hid : row.id ≠ (db.written key' values').id := db.id_written_ne values' hrow hne
  refine ⟨row, ?_, hupdate, fun hne c => ?_⟩
  · rw [headers_storeOrder, if_neg hne, hrow]
  · rw [items_storeOrder db key' values' hnd, if_neg fun h => hid h.2, hitems hne c]

/-- The time of the values does not count. -/
theorem Holds.of_untimed (h : db.Holds key values items)
    (hvalues : values.untimed = values'.untimed) : db.Holds key values' items := by
  obtain ⟨row, hrow, hupdate, hitems⟩ := h
  have hsame : row.untimed = row.untimed := rfl
  refine ⟨row, hrow, ?_, hitems⟩
  rw [← update_untimed hsame hvalues, hupdate]

/-- It is there in all databases with the same rows. -/
theorem Holds.of_sameRows (h : db.Holds key values items) (hsame : db'.SameRows db) :
    db'.Holds key values items := by
  obtain ⟨row, hrow, hupdate, hitems⟩ := h
  have hkey := hsame.1 key
  rw [hrow, Option.map_some] at hkey
  obtain ⟨row', hrow', huntimed⟩ := Option.map_eq_some_iff.mp hkey
  have hid : row'.untimed.id = row.untimed.id := congrArg PackageRow.id huntimed
  change row'.id = row.id at hid
  refine ⟨row', hrow', ?_, fun hne c => ?_⟩
  · rw [update_untimed huntimed rfl, hupdate, huntimed]
  · rw [hsame.2, hid, hitems hne c]

/-- Storing again what is there changes nothing but the time. -/
theorem Holds.sameRows (h : db.Holds key values items) (hnd : (items.map Prod.fst).Nodup) :
    (db.storeOrder key values items).SameRows db := by
  obtain ⟨row, hrow, hupdate, hitems⟩ := h
  have hwritten : db.written key values = row.update values := by
    rw [written, hrow, Option.elim_some]
  constructor
  · intro k
    rw [headers_storeOrder]
    by_cases hk : k = key
    · rw [if_pos hk, hk, hrow, Option.map_some, Option.map_some, hwritten, hupdate]
    · rw [if_neg hk]
  · intro k
    obtain ⟨id, c⟩ := k
    rw [items_storeOrder db key _ hnd]
    by_cases hcase : items ≠ [] ∧ id = (db.written key values).id
    · have hid : id = row.id := by
        rw [hcase.2, hwritten]
        rfl
      rw [if_pos hcase, hid, hitems hcase.1 c]
    · rw [if_neg hcase]

end OrderDb

/-! ### The sync of a package -/

section Sync

variable (U : CharTable) {A : Type} (B : Builtins A) (raw : PackageObject)
    (euCountries : List String)

/-- What the sync of the countries reads of the package. -/
def PackageObject.header : RawPackage where
  shopId := raw.fields.get "shopId"
  packageSn := raw.fields.get "packageSn"
  packageNo := raw.fields.get "packageNo"
  packageId := raw.fields.get "packageId"
  marketplace := raw.fields.get "marketplace"
  marketplaceId := raw.fields.get "marketplaceId"
  postalCode := (raw.address.map fun address => RawObject.get address "postalCode").getD .null
  orders := []

/-- The key of the header of an order. -/
def PackageObject.key (amazonOrderId : String) : OrderKey :=
  ⟨packageShopId U raw.header, amazonOrderId, packageSnOf U raw.header⟩

/-- The marketplace of a header: the id that is given, or the country. -/
def PackageObject.marketplaceId : String :=
  (cleanText U raw.header.marketplaceId).getD (packageCols U raw.header.marketplace euCountries).1

/-- The status of a package, under either key. -/
def PackageObject.packageStatus : String :=
  (nonEmpty (strip U ((raw.fields.get "packageStatus").or
    (raw.fields.get "status")).textOrEmpty)).getD "Unknown"

def canceledPackageStatus : String := "has_canceled"

/-- The purchase date of an order, or that of its package. -/
def purchaseDateOf (orderMeta : RawObject) : Except String (Option ℤ) :=
  readOrderDate U B ((orderMeta.get "purchaseDate").or (raw.fields.get "purchaseDate"))
    (raw.fields.get "purchaseDate")
    (raw.marketplaceId U euCountries)

/-- The update time of an order, or that of its package. -/
def lastUpdateDateOf (orderMeta : RawObject) : Except String (Option ℤ) :=
  readOrderDate U B
    (((orderMeta.get "lastUpdateDate").or (raw.fields.get "updateTime")).or
      (raw.fields.get "lastUpdateDate"))
    (((raw.fields.get "updateTime").or (raw.fields.get "lastUpdateDate")).or
      (orderMeta.get "purchaseDate"))
    (raw.marketplaceId U euCountries)

/-- `header_values`; the sequence gives the id. -/
def packageValues (orderMeta : RawObject) (purchaseDate lastUpdateDate now : ℤ) : PackageRow A where
  id := 0
  orderPlatform := (nonEmpty (strip U (raw.fields.get "platformName").textOrEmpty)).getD
    orderSourcePackage
  packageStatus := some (raw.packageStatus U)
  shopName := nonEmpty (strip U (raw.fields.get "shopName").textOrEmpty)
  postalCode := cleanText U raw.header.postalCode
  marketplaceId := raw.marketplaceId U euCountries
  countryCode := (packageCols U raw.header.marketplace euCountries).1
  originalCountryCode := (packageCols U raw.header.marketplace euCountries).2
  orderStatus := raw.packageStatus U
  orderTotalCurrency := cleanText U
    ((orderMeta.get "orderTotalCurrency").or (raw.fields.get "orderTotalCurrency"))
  orderTotalAmount := toDecimal B
    ((orderMeta.get "orderTotalAmount").or (raw.fields.get "orderTotalAmount"))
  fulfillmentChannel := cleanText U
    ((orderMeta.get "fulfillmentChannel").or (raw.fields.get "fulfillmentChannel"))
  purchaseDate := purchaseDate
  lastUpdateDate := lastUpdateDate
  isBuyerRequestedCancel := raw.packageStatus U = canceledPackageStatus
  refundStatus := none
  manualEditLocked := false
  lastSyncAt := now

/-- The SKU of an item: its own, or that of the seller. -/
def itemSku (item : RawObject) : Option String :=
  (cleanText U (item.get "commoditySku")).or (cleanText U (item.get "sellerSku"))

/-- The values of an item, the `index`-th of its order; an item without a SKU or with a
quantity that cannot be read is skipped. -/
def itemValue (amazonOrderId : String) (index : ℕ) (item : RawObject) :
    Except String (Option (String × OrderItemRow A)) :=
  match itemSku U item with
  | none => .ok none
  | some commoditySku =>
    match toInt B (item.get "quantityOrdered") with
    | .error e => .error e
    | .ok none => .ok none
    | .ok (some quantity) =>
      let orderItemId := (cleanText U (item.get "orderItemId")).getD
        s!"{packageSnOf U raw.header}:{amazonOrderId}:{index}"
      .ok (some (orderItemId,
        { commoditySku := commoditySku
          sellerSku := cleanText U (item.get "sellerSku")
          quantityOrdered := quantity
          quantityShipped := quantity
          quantityUnfulfillable := 0
          refundNum := 0
          itemPriceCurrency := cleanText U ((item.get "itemPriceCurrency").or (item.get "currency"))
          itemPriceAmount := toDecimal B ((item.get "itemPriceAmount").or (item.get "price")) }))

/-- The loop over the items of an order. -/
def itemValues (amazonOrderId : String) :
    ℕ → List RawObject → Except String (List (String × OrderItemRow A))
  | _, [] => .ok []
  | index, item :: items =>
    match itemValue U B raw amazonOrderId index item with
    | .error e => .error e
    | .ok value =>
      (itemValues amazonOrderId (index + 1) items).map fun values => value.toList ++ values

/-- The items of an order. -/
def PackageObject.orderItems (amazonOrderId : String) : List RawObject :=
  (groupItemsByOrder U (extractPackageItems raw) (raw.orderMap U)).getD amazonOrderId []

/-- Why the statement that inserts the items is refused: it has ten arguments for each. -/
def insertRefusal (values : List (String × OrderItemRow A)) : Option String :=
  if 32767 < 10 * values.length then some "the number of query arguments cannot exceed 32767"
  else if ¬ ∀ value ∈ values, fitsText 50 value.1 && value.2.fits B then
    some "value does not fit its column"
  else if ¬ (values.map Prod.fst).Nodup then
    some "ON CONFLICT DO UPDATE command cannot affect row a second time"
  else none

/-- The tables and the counters of a sync. -/
structure SyncState (A : Type) where
  db : OrderDb A
  ordersInserted : ℕ
  itemsInserted : ℕ

/-- One round of the loop of `_upsert_package_ship_order`. -/
def upsertOrder (now : String → ℤ) (acc : SyncState A) (amazonOrderId : String)
    (orderMeta : RawObject) : Except String (SyncState A) :=
  match purchaseDateOf U B raw euCountries orderMeta with
  | .error e => .error e
  | .ok none => .ok acc
  | .ok (some purchaseDate) =>
    match lastUpdateDateOf U B raw euCountries orderMeta with
    | .error e => .error e
    | .ok lastUpdateDate =>
      let values := packageValues U B raw euCountries orderMeta purchaseDate
        (lastUpdateDate.getD purchaseDate) (now amazonOrderId)
      if fitsKey (raw.key U amazonOrderId) && values.fits B then
        let db := acc.db.upsertHeader (raw.key U amazonOrderId) (values.stored B)
        let orderId := (acc.db.written (raw.key U amazonOrderId) (values.stored B)).id
        match itemValues U B raw amazonOrderId 1 (raw.orderItems U amazonOrderId) with
        | .error e => .error e
        -- the items that are there are kept
        | .ok [] => .ok ⟨db, acc.ordersInserted + 1, acc.itemsInserted⟩
        | .ok (value :: values) =>
          match insertRefusal B (value :: values) with
          | some e => .error e
          | none =>
            .ok ⟨db.replaceItems orderId
              ((value :: values).map fun value => (value.1, value.2.stored B)),
              acc.ordersInserted + 1, acc.itemsInserted + (value :: values).length⟩
      else .error "value does not fit its column"

/-- The loop over the orders of a package. -/
def upsertOrders (now : String → ℤ) :
    List (String × RawObject) → SyncState A → Except String (SyncState A)
  | [], acc => .ok acc
  | order :: orders, acc =>
    match upsertOrder U B raw euCountries now acc order.1 order.2 with
    | .error e => .error e
    | .ok acc => upsertOrders now orders acc

/-- `_upsert_package_ship_order`. -/
def upsertRawPackageShipOrder (now : String → ℤ) (db : OrderDb A) : Except String (SyncState A) :=
  if packageShopId U raw.header = "" ∨ packageSnOf U raw.header = "" then .ok ⟨db, 0, 0⟩
  else upsertOrders U B raw euCountries now (raw.orderMap U).items ⟨db, 0, 0⟩

end Sync

/-! ### The valid items -/

section Valid

variable (U : CharTable) {A : Type} (B : Builtins A) (raw : PackageObject)

/-- The values of an item, if it is valid. -/
def validOrderItem (amazonOrderId : String) (index : ℕ) (item : RawObject) :
    Option (String × OrderItemRow A) :=
  match itemValue U B raw amazonOrderId index item with
  | .error _ => none
  | .ok value => value

/-- The valid items of an order, with their positions among all of its items. -/
def validOrderItems (amazonOrderId : String) : List (String × OrderItemRow A) :=
  ((raw.orderItems U amazonOrderId).zipIdx 1).filterMap fun p =>
    validOrderItem U B raw amazonOrderId p.2 p.1

/-- The quantity of an item can be read or is refused; it does not raise. -/
def QuantityReadable (item : RawObject) : Prop :=
  (itemSku U item).isSome = true → ∃ quantity, toInt B (item.get "quantityOrdered") = .ok quantity

variable {U B raw} {amazonOrderId : String}

theorem itemValue_ok_iff (raw : PackageObject) (amazonOrderId : String) (index : ℕ)
    (item : RawObject) :
    (∃ value, itemValue U B raw amazonOrderId index item = .ok value) ↔
    QuantityReadable U B item := by
  unfold itemValue QuantityReadable
  cases hsku : itemSku U item with
  | none => simp
  | some sku =>
    cases hq : toInt B (item.get "quantityOrdered") with
    | error e => simp
    | ok quantity => cases quantity <;> simp

/-- What the loop over the items gathers. -/
theorem itemValues_ok_iff (raw : PackageObject) (amazonOrderId : String) :
    ∀ (index : ℕ) (items : List RawObject) (values : List (String × OrderItemRow A)),
      itemValues U B raw amazonOrderId index items = .ok values ↔
      (∀ item ∈ items, QuantityReadable U B item) ∧ values = (items.zipIdx index).filterMap fun p =>
      validOrderItem U B raw amazonOrderId p.2 p.1
  | index, [], values => by
    simp [itemValues, eq_comm]
  | index, item :: items, values => by
    have hitem := itemValue_ok_iff (U := U) (B := B) raw amazonOrderId index item
    rw [itemValues, List.zipIdx_cons, List.filterMap_cons]
    cases hvalue : itemValue U B raw amazonOrderId index item with
    | error e =>
      have hno : ¬ QuantityReadable U B item := by
        rw [← hitem, hvalue]
        simp
      simp [hno]
    | ok value =>
      have hyes : QuantityReadable U B item := hitem.mp ⟨value, hvalue⟩
      have hvalid : validOrderItem U B raw amazonOrderId index item = value := by
        rw [validOrderItem, hvalue]
      have hmap : (itemValues U B raw amazonOrderId (index + 1) items).map
          (fun values => value.toList ++ values) = .ok values ↔
          ∃ rest, itemValues U B raw amazonOrderId (index + 1) items = .ok rest ∧
          values = value.toList ++ rest := by
        cases itemValues U B raw amazonOrderId (index + 1) items with
        | error e => simp [Except.map]
        | ok rest => simp [Except.map, eq_comm]
      rw [hmap]
      simp only [itemValues_ok_iff raw amazonOrderId (index + 1) items, List.forall_mem_cons, hyes,
        true_and, hvalid]
      constructor
      · rintro ⟨rest, ⟨hall, rfl⟩, rfl⟩
        exact ⟨hall, by cases value <;> rfl⟩
      · rintro ⟨hall, rfl⟩
        exact ⟨_, ⟨hall, rfl⟩, by cases value <;> rfl⟩

theorem insertRefusal_none_iff (values : List (String × OrderItemRow A)) :
    insertRefusal B values = none ↔ 10 * values.length ≤ 32767 ∧
    (∀ value ∈ values, fitsText 50 value.1 && value.2.fits B) ∧ (values.map Prod.fst).Nodup := by
  unfold insertRefusal
  by_cases hfew : 32767 < 10 * values.length
  · rw [if_pos hfew]
    exact iff_of_false (nomatch ·) fun h => absurd h.1 (by omega)
  rw [if_neg hfew]
  by_cases hfits : ∀ value ∈ values, fitsText 50 value.1 && value.2.fits B
  · rw [if_neg (not_not.mpr hfits)]
    by_cases hdistinct : (values.map Prod.fst).Nodup
    · rw [if_neg (not_not.mpr hdistinct)]
      exact iff_of_true rfl ⟨by omega, hfits, hdistinct⟩
    · rw [if_pos hdistinct]
      exact iff_of_false (nomatch ·) fun h => hdistinct h.2.2
  · rw [if_pos hfits]
    exact iff_of_false (nomatch ·) fun h => hfits h.2.1

end Valid

/-! ### What is accepted -/

section Accepted

variable (U : CharTable) {A : Type} (B : Builtins A) (raw : PackageObject)
    (euCountries : List String)

/-- The items of an order as they are stored. -/
def storedItems (amazonOrderId : String) : List (String × OrderItemRow A) :=
  (validOrderItems U B raw amazonOrderId).map fun value => (value.1, value.2.stored B)

/-- The header of an order as it is written. -/
def storedValues (orderMeta : RawObject) (purchaseDate lastUpdateDate now : ℤ) : PackageRow A :=
  (packageValues U B raw euCountries orderMeta purchaseDate lastUpdateDate now).stored B

/-- What an order with a purchase date has to be like: its other date can be represented,
its header and its valid items fit their columns, no quantity is infinite, the items go
into one statement, and no two of them have the same id. -/
structure OrderAccepted (amazonOrderId : String) (orderMeta : RawObject) : Prop where
  lastUpdateDate : ∃ date, lastUpdateDateOf U B raw euCountries orderMeta = .ok date
  key : fitsKey (raw.key U amazonOrderId) = true
  header : (packageValues U B raw euCountries orderMeta 0 0 0).fits B = true
  quantities : ∀ item ∈ raw.orderItems U amazonOrderId, QuantityReadable U B item
  few : 10 * (validOrderItems U B raw amazonOrderId).length ≤ 32767
  rows : ∀ value ∈ validOrderItems U B raw amazonOrderId, fitsText 50 value.1 && value.2.fits B
  distinct : ((validOrderItems U B raw amazonOrderId).map Prod.fst).Nodup

/-- The order has no purchase date, or one that can be represented, and then is accepted. -/
def OrderSyncs (order : String × RawObject) : Prop :=
  (∃ date, purchaseDateOf U B raw euCountries order.2 = .ok date) ∧
    ((∃ date, purchaseDateOf U B raw euCountries order.2 = .ok (some date)) →
      OrderAccepted U B raw euCountries order.1 order.2)

/-- The orders that a package names; without one of its two keys it is skipped. -/
def PackageObject.namedOrders : List (String × RawObject) :=
  if packageShopId U raw.header = "" ∨ packageSnOf U raw.header = "" then []
  else (raw.orderMap U).items

/-- The sync refuses no order of the package. -/
def PackageAccepted : Prop := ∀ order ∈ raw.namedOrders U, OrderSyncs U B raw euCountries order

variable {U B raw euCountries}

theorem fits_packageValues (orderMeta : RawObject) (purchaseDate lastUpdateDate now : ℤ) :
    (packageValues U B raw euCountries orderMeta purchaseDate lastUpdateDate now).fits B =
      (packageValues U B raw euCountries orderMeta 0 0 0).fits B := rfl

/-- What one round does: an order without a purchase date is skipped, an accepted one is
stored. -/
theorem upsertOrder_ok_iff {now : String → ℤ} {acc acc' : SyncState A} {amazonOrderId : String}
    {orderMeta : RawObject} :
    upsertOrder U B raw euCountries now acc amazonOrderId orderMeta = .ok acc' ↔
      purchaseDateOf U B raw euCountries orderMeta = .ok none ∧ acc' = acc ∨
      ∃ purchaseDate lastUpdateDate, purchaseDateOf U B raw euCountries orderMeta = .ok
        (some purchaseDate) ∧ lastUpdateDateOf U B raw euCountries orderMeta = .ok lastUpdateDate ∧
        OrderAccepted U B raw euCountries amazonOrderId orderMeta ∧
        acc' = ⟨acc.db.storeOrder (raw.key U amazonOrderId)
          (storedValues U B raw euCountries orderMeta purchaseDate
            (lastUpdateDate.getD purchaseDate) (now amazonOrderId))
            (storedItems U B raw amazonOrderId),
          acc.ordersInserted + 1,
          acc.itemsInserted + (validOrderItems U B raw amazonOrderId).length⟩ := by
  have hloop := itemValues_ok_iff (U := U) (B := B) raw amazonOrderId 1
    (raw.orderItems U amazonOrderId)
  unfold upsertOrder
  cases hpurchase : purchaseDateOf U B raw euCountries orderMeta with
  | error e => simp
  | ok purchase =>
    cases purchase with
    | none => simp [eq_comm]
    | some purchaseDate =>
      cases hlast : lastUpdateDateOf U B raw euCountries orderMeta with
      | error e => simp
      | ok lastUpdateDate =>
        simp only [fits_packageValues orderMeta purchaseDate, Except.ok.injEq, reduceCtorEq,
          false_and, false_or, Option.some.injEq, exists_and_left, exists_eq_left']
        by_cases hfits : (fitsKey (raw.key U amazonOrderId) &&
          (packageValues U B raw euCountries orderMeta 0 0 0).fits B) = true
        swap
        · rw [if_neg hfits]
          refine iff_of_false (nomatch ·) fun h => hfits ?_
          rw [h.1.key, h.1.header]
          rfl
        rw [if_pos hfits]
        rw [Bool.and_eq_true] at hfits
        cases hvalues : itemValues U B raw amazonOrderId 1 (raw.orderItems U amazonOrderId) with
        | error e =>
          refine iff_of_false (nomatch ·) fun h => ?_
          have hok := (hloop _).mpr ⟨h.1.quantities, rfl⟩
          rw [hvalues] at hok
          cases hok
        | ok values =>
          obtain ⟨hquantities, hvalid⟩ := (hloop values).mp hvalues
          change values = validOrderItems U B raw amazonOrderId at hvalid
          subst hvalid
          have haccepted : insertRefusal B (validOrderItems U B raw amazonOrderId) = none ↔
              OrderAccepted U B raw euCountries amazonOrderId orderMeta := by
            rw [insertRefusal_none_iff]
            constructor
            · intro h
              exact ⟨⟨_, hlast⟩, hfits.1, hfits.2, hquantities, h.1, h.2.1, h.2.2⟩
            · intro h
              exact ⟨h.few, h.rows, h.distinct⟩
          unfold storedItems
          cases hcase : validOrderItems U B raw amazonOrderId with
          | nil =>
            rw [hcase] at haccepted
            have hok : OrderAccepted U B raw euCountries amazonOrderId orderMeta :=
              haccepted.mp (by simp [insertRefusal])
            simp only [hok, true_and, Except.ok.injEq]
            exact eq_comm
          | cons value rest =>
            rw [hcase] at haccepted
            cases hrefusal : insertRefusal B (value :: rest) with
            | some e =>
              simp only [hrefusal]
              refine iff_of_false (nomatch ·) fun h => ?_
              rw [haccepted.mpr h.1] at hrefusal
              cases hrefusal
            | none =>
              simp only [hrefusal, haccepted.mp hrefusal, true_and, Except.ok.injEq]
              exact eq_comm

/-! ### Whole packages -/

theorem upsertRawPackageShipOrder_eq (now : String → ℤ) (db : OrderDb A) :
    upsertRawPackageShipOrder U B raw euCountries now db = upsertOrders U B raw euCountries now
    (raw.namedOrders U) ⟨db, 0, 0⟩ := by
  unfold upsertRawPackageShipOrder PackageObject.namedOrders
  split_ifs
  · rfl
  · rfl

theorem nodup_namedOrders : ((raw.namedOrders U).map Prod.fst).Nodup := by
  unfold PackageObject.namedOrders
  split_ifs
  · exact List.nodup_nil
  · exact (raw.orderMap U).nodup

theorem map_fst_storedItems (amazonOrderId : String) :
    (storedItems U B raw amazonOrderId).map Prod.fst =
    (validOrderItems U B raw amazonOrderId).map Prod.fst := by
  rw [storedItems, List.map_map]
  rfl

theorem OrderAccepted.nodup_storedItems {amazonOrderId : String} {orderMeta : RawObject}
    (h : OrderAccepted U B raw euCountries amazonOrderId orderMeta) :
    ((storedItems U B raw amazonOrderId).map Prod.fst).Nodup := by
  rw [map_fst_storedItems]
  exact h.distinct

/-- A round fails or not whatever is stored. -/
theorem upsertOrder_isOk_iff (U : CharTable) (B : Builtins A) (raw : PackageObject)
    (euCountries : List String) (now : String → ℤ) (acc : SyncState A)
    (order : String × RawObject) :
    (∃ acc', upsertOrder U B raw euCountries now acc order.1 order.2 = .ok acc') ↔
    OrderSyncs U B raw euCountries order := by
  constructor
  · rintro ⟨acc', h⟩
    obtain ⟨hnone, -⟩ | ⟨purchaseDate, lastUpdateDate, hpurchase, -, haccepted, -⟩ :=
      upsertOrder_ok_iff.mp h
    · refine ⟨⟨none, hnone⟩, ?_⟩
      rintro ⟨date, hdate⟩
      rw [hnone] at hdate
      cases hdate
    · exact ⟨⟨some purchaseDate, hpurchase⟩, fun _ => haccepted⟩
  · rintro ⟨⟨date, hdate⟩, haccepted⟩
    cases date with
    | none => exact ⟨acc, upsertOrder_ok_iff.mpr (Or.inl ⟨hdate, rfl⟩)⟩
    | some purchaseDate =>
      have hok := haccepted ⟨purchaseDate, hdate⟩
      obtain ⟨lastUpdateDate, hlast⟩ := hok.lastUpdateDate
      exact ⟨_, upsertOrder_ok_iff.mpr
        (Or.inr ⟨purchaseDate, lastUpdateDate, hdate, hlast, hok, rfl⟩)⟩

theorem upsertOrders_isOk_iff (now : String → ℤ) :
    ∀ (orders : List (String × RawObject)) (acc : SyncState A),
    (∃ acc', upsertOrders U B raw euCountries now orders acc = .ok acc') ↔
    ∀ order ∈ orders, OrderSyncs U B raw euCountries order
  | [], acc => by simp [upsertOrders]
  | order :: orders, acc => by
    have hround := upsertOrder_isOk_iff U B raw euCountries now acc order
    rw [List.forall_mem_cons, upsertOrders]
    cases h : upsertOrder U B raw euCountries now acc order.1 order.2 with
    | error e =>
      rw [h] at hround
      have hno : ¬ OrderSyncs U B raw euCountries order := by
        rw [← hround]
        simp
      simp [hno]
    | ok acc₁ =>
      rw [h] at hround
      have hyes : OrderSyncs U B raw euCountries order := hround.mp ⟨acc₁, rfl⟩
      rw [and_iff_right hyes]
      exact upsertOrders_isOk_iff now orders acc₁

theorem upsertOrders_cons_ok {now : String → ℤ} {order : String × RawObject}
    {orders : List (String × RawObject)} {acc acc' : SyncState A}
    (h : upsertOrders U B raw euCountries now (order :: orders) acc = .ok acc') :
    ∃ acc₁, upsertOrder U B raw euCountries now acc order.1 order.2 = .ok acc₁ ∧
      upsertOrders U B raw euCountries now orders acc₁ = .ok acc' := by
  rw [upsertOrders] at h
  cases hround : upsertOrder U B raw euCountries now acc order.1 order.2 with
  | error e => rw [hround] at h; cases h
  | ok acc₁ =>
    rw [hround] at h
    exact ⟨acc₁, rfl, h⟩

theorem untimed_storedValues (orderMeta : RawObject) (purchaseDate lastUpdateDate now now' : ℤ) :
    (storedValues U B raw euCountries orderMeta purchaseDate lastUpdateDate now).untimed =
      (storedValues U B raw euCountries orderMeta purchaseDate lastUpdateDate now').untimed := by
  simp only [storedValues, PackageRow.stored, packageValues, PackageRow.untimed]

/-- The rounds after an order leave it alone. -/
theorem upsertOrders_keep {now : String → ℤ} {key : OrderKey} {values : PackageRow A}
    {items : List (String × OrderItemRow A)} :
    ∀ {orders : List (String × RawObject)} {acc acc' : SyncState A},
    upsertOrders U B raw euCountries now orders acc = .ok acc' →
    (∀ order ∈ orders, key ≠ raw.key U order.1) → acc.db.Holds key values items →
    acc'.db.Holds key values items
  | [], acc, acc', h, _, hholds => by
    rw [← Except.ok.inj h]
    exact hholds
  | order :: orders, acc, acc', h, hother, hholds => by
    rw [List.forall_mem_cons] at hother
    obtain ⟨acc₁, hround, hrest⟩ := upsertOrders_cons_ok h
    refine upsertOrders_keep hrest hother.2 ?_
    obtain ⟨-, rfl⟩ | ⟨purchaseDate, lastUpdateDate, -, -, haccepted, rfl⟩ :=
      upsertOrder_ok_iff.mp hround
    · exact hholds
    · exact hholds.storeOrder hother.1 haccepted.nodup_storedItems

/-- After a run every order with a purchase date is there. -/
theorem upsertOrders_holds {now : String → ℤ} :
    ∀ {orders : List (String × RawObject)} {acc acc' : SyncState A}, (orders.map Prod.fst).Nodup →
    upsertOrders U B raw euCountries now orders acc = .ok acc' →
    ∀ order ∈ orders, ∀ purchaseDate lastUpdateDate, purchaseDateOf U B raw euCountries order.2 =
    .ok (some purchaseDate) → lastUpdateDateOf U B raw euCountries order.2 = .ok lastUpdateDate →
    acc'.db.Holds (raw.key U order.1)
      (storedValues U B raw euCountries order.2 purchaseDate (lastUpdateDate.getD purchaseDate) 0)
      (storedItems U B raw order.1)
  | [], _, _, _, _, _, hm => absurd hm List.not_mem_nil
  | head :: orders, acc, acc', hnd, h, order, hm => by
    intro purchaseDate lastUpdateDate hpurchase hlast
    rw [List.map_cons, List.nodup_cons] at hnd
    obtain ⟨acc₁, hround, hrest⟩ := upsertOrders_cons_ok h
    rcases List.mem_cons.mp hm with rfl | hm
    · refine upsertOrders_keep hrest (fun other hother hkey => ?_) ?_
      · have hid : order.1 = other.1 := congrArg OrderKey.amazonOrderId hkey
        exact hnd.1 (List.mem_map.mpr ⟨other, hother, hid.symm⟩)
      · obtain ⟨hnone, -⟩ | ⟨purchaseDate', lastUpdateDate', hpurchase', hlast', haccepted, rfl⟩ :=
          upsertOrder_ok_iff.mp hround
        · rw [hpurchase] at hnone
          cases hnone
        · rw [hpurchase] at hpurchase'
          rw [hlast] at hlast'
          cases hpurchase'
          cases hlast'
          have hlock : (storedValues U B raw euCountries order.2 purchaseDate
            (lastUpdateDate.getD purchaseDate)
            (now order.1)).manualEditLocked = false := rfl
          have hstored := OrderDb.holds_storeOrder acc.db (raw.key U order.1)
            hlock haccepted.nodup_storedItems
          exact hstored.of_untimed (untimed_storedValues order.2 purchaseDate _ _ 0)
    · exact upsertOrders_holds hnd.2 hrest order hm purchaseDate lastUpdateDate hpurchase hlast

/-- A run over orders that are there changes nothing but the times. -/
theorem upsertOrders_again {now : String → ℤ} :
    ∀ {orders : List (String × RawObject)} {acc acc' : SyncState A},
    upsertOrders U B raw euCountries now orders acc = .ok acc' →
      (∀ order ∈ orders, ∀ purchaseDate lastUpdateDate, purchaseDateOf U B raw euCountries order.2 =
      .ok (some purchaseDate) → lastUpdateDateOf U B raw euCountries order.2 = .ok lastUpdateDate →
      acc.db.Holds (raw.key U order.1)
        (storedValues U B raw euCountries order.2 purchaseDate (lastUpdateDate.getD purchaseDate) 0)
        (storedItems U B raw order.1)) →
    acc'.db.SameRows acc.db
  | [], acc, acc', h, _ => by
    rw [← Except.ok.inj h]
    exact OrderDb.SameRows.refl acc.db
  | order :: orders, acc, acc', h, hholds => by
    obtain ⟨acc₁, hround, hrest⟩ := upsertOrders_cons_ok h
    have hsame : acc₁.db.SameRows acc.db := by
      obtain ⟨-, rfl⟩ | ⟨purchaseDate, lastUpdateDate, hpurchase, hlast, haccepted, rfl⟩ :=
        upsertOrder_ok_iff.mp hround
      · exact OrderDb.SameRows.refl acc₁.db
      · have hthere := hholds order List.mem_cons_self purchaseDate lastUpdateDate hpurchase hlast
        exact (hthere.of_untimed (untimed_storedValues order.2 purchaseDate _ 0 _)).sameRows
          haccepted.nodup_storedItems
    have hagain : acc'.db.SameRows acc₁.db := by
      refine upsertOrders_again hrest fun o ho purchaseDate lastUpdateDate hpurchase hlast => ?_
      exact (hholds o (List.mem_cons_of_mem _ ho)
        purchaseDate lastUpdateDate hpurchase hlast).of_sameRows hsame
    exact hagain.trans hsame

variable (U B raw)

/-- The stored items of an order are its valid items; so are the quantities of each SKU. -/
def ItemsExact (db : OrderDb A) (amazonOrderId : String) : Prop :=
  ∃ row, db.headers.get? (raw.key U amazonOrderId) = some row ∧
    (db.items.under row.id).Perm (storedItems U B raw amazonOrderId) ∧
    ∀ sku, (((db.items.under row.id).filter fun item => item.2.commoditySku = sku).map
      fun item => item.2.quantityOrdered).sum =
      (((validOrderItems U B raw amazonOrderId).filter fun item => item.2.commoditySku = sku).map
      fun item => item.2.quantityOrdered).sum

variable (euCountries)

/-- The sync of a package does not fail, a second one changes nothing but the times, and
after the first the items of each order with a purchase date and valid items are these. -/
def ConvergentUpsert (db : OrderDb A) : Prop :=
  ∀ now now' : String → ℤ, ∃ once twice,
    upsertRawPackageShipOrder U B raw euCountries now db = .ok once ∧
    upsertRawPackageShipOrder U B raw euCountries now' once.db = .ok twice ∧
    twice.db.SameRows once.db ∧
    ∀ order ∈ raw.namedOrders U,
      (∃ date, purchaseDateOf U B raw euCountries order.2 = .ok (some date)) →
      validOrderItems U B raw order.1 ≠ [] → ItemsExact U B raw once.db order.1

variable {U B raw euCountries}

theorem OrderDb.Holds.itemsExact {db : OrderDb A} {amazonOrderId : String} {values : PackageRow A}
    (h : db.Holds (raw.key U amazonOrderId) values (storedItems U B raw amazonOrderId))
    (hnd : ((storedItems U B raw amazonOrderId).map Prod.fst).Nodup)
    (hne : validOrderItems U B raw amazonOrderId ≠ []) :
    ItemsExact U B raw db amazonOrderId := by
  obtain ⟨row, hrow, -, hitems⟩ := h
  have hstored : storedItems U B raw amazonOrderId ≠ [] := by simpa [storedItems] using hne
  have hperm := Dict.under_perm hnd (hitems hstored)
  refine ⟨row, hrow, hperm, fun sku => ?_⟩
  rw [((hperm.filter _).map _).sum_eq, storedItems, List.filter_map, List.map_map]
  rfl

/-- **The sync of a package converges exactly if its orders are accepted.** -/
theorem convergentUpsert_iff (U : CharTable) (B : Builtins A) (raw : PackageObject)
    (euCountries : List String) (db : OrderDb A) :
    ConvergentUpsert U B raw euCountries db ↔ PackageAccepted U B raw euCountries := by
  constructor
  · intro h
    obtain ⟨once, -, honce, -⟩ := h (fun _ => 0) fun _ => 0
    rw [upsertRawPackageShipOrder_eq] at honce
    exact (upsertOrders_isOk_iff _ (raw.namedOrders U) ⟨db, 0, 0⟩).mp ⟨once, honce⟩
  · intro h now now'
    obtain ⟨once, honce⟩ := (upsertOrders_isOk_iff now (raw.namedOrders U) ⟨db, 0, 0⟩).mpr h
    obtain ⟨twice, htwice⟩ := (upsertOrders_isOk_iff now' (raw.namedOrders U) ⟨once.db, 0, 0⟩).mpr h
    have hholds := upsertOrders_holds nodup_namedOrders honce
    have hagain := upsertOrders_again htwice hholds
    refine ⟨once, twice, ?_, ?_, hagain, fun order horder hdate hne => ?_⟩
    · rw [upsertRawPackageShipOrder_eq, honce]
    · rw [upsertRawPackageShipOrder_eq, htwice]
    · have haccepted := (h order horder).2 hdate
      obtain ⟨purchaseDate, hpurchase⟩ := hdate
      obtain ⟨lastUpdateDate, hlast⟩ := haccepted.lastUpdateDate
      exact (hholds order horder purchaseDate lastUpdateDate hpurchase hlast).itemsExact
        haccepted.nodup_storedItems hne

end Accepted

/-! ### Two items with one id -/

/-- `float`, `Decimal`, the parser and the zones on what the packages below have. -/
def shipBuiltins : Builtins ℚ where
  float value := if value = .str "2" then .finite 2 else .refused
  decimal _ := none
  numeric amount := some amount
  parse text := if text = "2026-04-21 08:00:00" then .ok (some (.naive 1776758400)) else .ok none
  zones zone := if zone = beijing then .fixed 28800 else .fixed (-25200)

def shipItem (orderItemId commoditySku : String) : RawObject :=
  Dict.ofList [("amazonOrderId", .str "AMZ-1"), ("orderItemId", .str orderItemId),
    ("commoditySku", .str commoditySku), ("quantityOrdered", .str "2")]

def shipOrder : RawObject :=
  Dict.ofList [("amazonOrderId", .str "AMZ-1"), ("purchaseDate", .str "2026-04-21 08:00:00")]

/-- A package of one order. -/
def shipPackage (items : List RawObject) : PackageObject where
  fields := Dict.ofList [("shopId", .str "SHOP-1"), ("packageSn", .str "PKG-1"),
    ("marketplace", .str "US"), ("status", .str "has_shipped")]
  lists := Dict.ofList [("orders", [some shipOrder]), ("items", items.map some)]
  address := none

/-- A database without orders. -/
def emptyOrderDb {A : Type} : OrderDb A where
  headers := .empty
  items := .empty
  nextId := 1
  id_inj := by simp
  id_lt := by simp

/-- A package with two items of one id cannot be stored. -/
theorem shipPackage_refused :
    ¬ ConvergentUpsert .ascii shipBuiltins
    (shipPackage [shipItem "ITEM-1" "SKU-1", shipItem "ITEM-1" "SKU-2"]) [] emptyOrderDb := by
  intro h
  obtain ⟨once, -, honce, -⟩ := h (fun _ => 0) fun _ => 0
  have hrefused : (upsertRawPackageShipOrder .ascii shipBuiltins
      (shipPackage [shipItem "ITEM-1" "SKU-1", shipItem "ITEM-1" "SKU-2"]) []
          (fun _ => 0) emptyOrderDb).toOption.isNone = true := by
    decide +kernel
  rw [honce] at hrefused
  cases hrefused

/-- With two ids it can. -/
theorem shipPackage_converges :
    ConvergentUpsert .ascii shipBuiltins
    (shipPackage [shipItem "ITEM-1" "SKU-1", shipItem "ITEM-2" "SKU-2"]) [] emptyOrderDb := by
  refine (convergentUpsert_iff .ascii shipBuiltins _ [] emptyOrderDb).mpr fun order horder => ?_
  have hnamed : (shipPackage [shipItem "ITEM-1" "SKU-1", shipItem "ITEM-2" "SKU-2"]).namedOrders
      .ascii = [("AMZ-1", shipOrder)] := by decide +kernel
  have hitems : (shipPackage [shipItem "ITEM-1" "SKU-1", shipItem "ITEM-2" "SKU-2"]).orderItems
      .ascii "AMZ-1" = [shipItem "ITEM-1" "SKU-1", shipItem "ITEM-2" "SKU-2"] := by decide +kernel
  rw [hnamed, List.mem_singleton] at horder
  subst horder
  have hquantities : ∀ item ∈ [shipItem "ITEM-1" "SKU-1", shipItem "ITEM-2" "SKU-2"],
      toInt shipBuiltins (item.get "quantityOrdered") = .ok (some 2) := by decide +kernel
  refine ⟨⟨some 1776783600, by decide +kernel⟩, fun _ => ?_⟩
  refine ⟨⟨some 1776783600, by decide +kernel⟩, by
    decide +kernel, by decide +kernel, fun item hitem _ => ?_, by decide +kernel, by decide +kernel, by decide +kernel⟩
  rw [hitems] at hitem
  exact ⟨_, hquantities item hitem⟩

end Restock
