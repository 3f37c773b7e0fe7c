/-
# The sync jobs that write a country (`sync/order_list.py`, `sync/inventory.py`,
`sync/out_records.py`)

Each job reads a country from the raw data (the package's marketplace, the
country of the warehouse, the remark of the out-record), maps it, and writes
the pair of columns. A package order and an out-record get the representation
of a normalised source country (`packageCols_eq`, `remarkCols_eq`); an
inventory row does when its warehouse has one (`mappedCols_eq`). A row locked by a manual edit keeps
its columns.
-/
import Restock.CountryMapping
import Restock.Lib.Dict

namespace Restock

open PyText

/-! ### Rows -/

/-- The key of a package order: `uq_order_header_key` without the source, which
is the same for all of them. -/
structure OrderKey where
  shopId : String
  amazonOrderId : String
  packageSn : String
deriving DecidableEq, Repr

/-- `ORDER_SOURCE_PACKAGE`. -/
def orderSourcePackage : String := "订单处理"

/-- What the country sync reads and writes of `order_header`. -/
structure OrderHeader where
  id : ℕ
  countryCode : String
  originalCountryCode : Option String
  marketplaceId : String
  postalCode : Option String
  purchaseDate : ℤ
  lastUpdateDate : ℤ
  manualEditLocked : Bool
deriving DecidableEq, Repr

/-- The two country columns. -/
def OrderHeader.cols (row : OrderHeader) :
    CountryCols := ⟨some row.countryCode, row.originalCountryCode⟩

/-- A row of `inventory_snapshot_latest`. -/
structure InventorySnapshotLatest where
  cols : CountryCols
  available : ℤ
  reserved : ℤ
deriving DecidableEq, Repr

/-- What the syncs read and write of `in_transit_record`. -/
structure InTransitRecord where
  cols : CountryCols
  targetWarehouseId : Option String
  remark : Option String
  isInTransit : Bool
deriving DecidableEq, Repr

/-! ### Package orders -/

/-- An order of a package, with the dates it was parsed to and the id the sequence
hands out for it. -/
structure RawPackageOrder where
  amazonOrderId : String
  purchaseDate : ℤ
  lastUpdateDate : ℤ
  rowId : ℕ

/-- What a package says; `orders` are those with an order id and a readable
purchase date. -/
structure RawPackage where
  shopId : JsonValue
  packageSn : JsonValue
  packageNo : JsonValue
  packageId : JsonValue
  marketplace : JsonValue
  marketplaceId : JsonValue
  postalCode : JsonValue
  orders : List RawPackageOrder

section Orders

variable (U : CharTable)

/-- A stripped text, if something is left of it. -/
def cleanText : JsonValue → Option String
  | .null => none
  | value => nonEmpty (strip U value.toText)

/-- The mapped country and, when the marketplace could be read, the country before. -/
def resolvePackageCountry (marketplace : JsonValue) (euCountries : List String) :
    String × Option String :=
  match normalizeObservedCountryCode U marketplace with
  | some country =>
    (((applyEuMapping U (some country) euCountries).bind nonEmpty).getD country, some country)
  | none => (normalizeSourceCountryOrUnknown U marketplace, none)

/-- The two country columns of `header_values`. -/
def packageCols (marketplace : JsonValue) (euCountries : List String) : String × Option String :=
  let (countryCode, originalCountryCode) := resolvePackageCountry U marketplace euCountries
  (countryCode, originalCountryCode.filter fun original => original ≠ "" && original ≠ countryCode)

/-- `header_values`. Values that do not fit their columns are refused where a whole package
is stored. -/
def headerValues (raw : RawPackage) (order : RawPackageOrder) (euCountries : List String) :
    OrderHeader where
  id := order.rowId
  countryCode := (packageCols U raw.marketplace euCountries).1
  originalCountryCode := (packageCols U raw.marketplace euCountries).2
  marketplaceId := (cleanText U raw.marketplaceId).getD
    (packageCols U raw.marketplace euCountries).1
  postalCode := cleanText U raw.postalCode
  purchaseDate := order.purchaseDate
  lastUpdateDate := order.lastUpdateDate
  manualEditLocked := false

/-- `_protect_manual_edit_fields` for one column; every column here but the key
and the lock is in `MANUAL_EDIT_PROTECTED_FIELDS`. -/
def protectManualEdit {α : Type} (row : OrderHeader) (current value : α) : α :=
  if row.manualEditLocked then current else value

/-- `ON CONFLICT DO UPDATE`: a missing postal code is not written. -/
def updateHeader (row values : OrderHeader) : OrderHeader where
  id := row.id
  countryCode := protectManualEdit row row.countryCode values.countryCode
  originalCountryCode := protectManualEdit row row.originalCountryCode values.originalCountryCode
  marketplaceId := protectManualEdit row row.marketplaceId values.marketplaceId
  postalCode := match values.postalCode with
    | none => row.postalCode
    | some code => protectManualEdit row row.postalCode (some code)
  purchaseDate := protectManualEdit row row.purchaseDate values.purchaseDate
  lastUpdateDate := protectManualEdit row row.lastUpdateDate values.lastUpdateDate
  manualEditLocked := row.manualEditLocked

/-- The row after the upsert: `none` is no conflict. -/
def writeHeader (values : OrderHeader) : Option OrderHeader → OrderHeader
  | none => values
  | some row => updateHeader row values

/-- `ON CONFLICT DO UPDATE` of a header. -/
def upsertHeader (key : OrderKey) (values : OrderHeader) (orders : Dict OrderKey OrderHeader) :
    Dict OrderKey OrderHeader :=
  orders.set key (writeHeader values (orders.get? key))

/-- The shop of a package. -/
def packageShopId (raw : RawPackage) : String := strip U raw.shopId.textOrEmpty

/-- The number of a package, under its first key that has a value. -/
def packageSnOf (raw : RawPackage) : String :=
  strip U ((raw.packageSn.or raw.packageNo).or raw.packageId).textOrEmpty

/-- `_upsert_package_ship_order`, its country columns and times. -/
def upsertPackageShipOrder (raw : RawPackage) (euCountries : List String)
    (orders : Dict OrderKey OrderHeader) : Dict OrderKey OrderHeader :=
  let shopId := packageShopId U raw
  let packageSn := packageSnOf U raw
  if shopId = "" ∨ packageSn = "" then orders
  else raw.orders.foldl
    (fun orders order => upsertHeader ⟨shopId, order.amazonOrderId, packageSn⟩
      (headerValues U raw order euCountries)
      orders) orders

variable {U}

/-- A package order gets the representation of its source country. -/
theorem packageCols_eq {E : List String} (hE : EuMembers U E) (marketplace : JsonValue) :
    (⟨some (packageCols U marketplace E).1, (packageCols U marketplace E).2⟩ : CountryCols) =
      represent E (normalizeSourceCountryOrUnknown U marketplace) := by
  unfold packageCols resolvePackageCountry normalizeSourceCountryOrUnknown
  cases h : normalizeObservedCountryCode U marketplace with
  | none =>
    have hZZ : "ZZ" ∉ E := fun hm => hE.not_special "ZZ" hm (by decide)
    simp [represent, hZZ]
  | some c =>
    have hc := isNormalized_of_normalize U h
    have hEU := hE.EU_not_mem
    simp only [applyEuMapping_canonical hE hc.pyCanonical, Option.getD_some, represent]
    by_cases hm : c ∈ E
    · have hne : c ≠ "EU" := fun he => hEU (he ▸ hm)
      simp [hm, nonEmpty, hc.ne_empty, hne]
    · simp [hm, nonEmpty, hc.ne_empty]

end Orders

/-! ### Inventory -/

/-- A raw inventory row with its quantities as `_to_int` reads them (`none` when
they cannot be read). -/
structure RawInventory where
  commoditySku : JsonValue
  warehouseId : JsonValue
  stockAvailable : Option ℤ
  stockOccupy : Option ℤ

section Mapped

variable (U : CharTable)

/-- The pair of columns written by a job that keeps the source whenever the
mapping changed it. -/
def mappedCols (country : Option String) (euCountries : List String) : CountryCols :=
  let mapped := applyEuMapping U country euCountries
  ⟨mapped, if mapped ≠ country then country else none⟩

/-- The upsert of a row of the inventory. -/
def upsertInventory (raw : RawInventory) (warehouseCountryMap : Dict String (Option String))
    (euCountries : List String) (inventory : Dict (String × String) InventorySnapshotLatest) :
    Dict (String × String) InventorySnapshotLatest :=
  let warehouseId := raw.warehouseId.textOrEmpty
  if !raw.commoditySku.truthy ∨ warehouseId = "" then inventory
  else match warehouseCountryMap.get? warehouseId, raw.stockAvailable, raw.stockOccupy with
    | some originalCountry, some available, some reserved =>
      inventory.set (raw.commoditySku.toText, warehouseId)
        ⟨mappedCols U originalCountry euCountries, available, reserved⟩
    | _, _, _ => inventory

theorem mappedCols_eq {U : CharTable} {E : List String} (hE : EuMembers U E) {c : String}
    (hc : PyCanonical U c) : mappedCols U (some c) E = represent E c := by
  simp only [mappedCols]
  rw [original_canonical hE hc, applyEuMapping_canonical hE hc]

theorem mappedCols_none (E : List String) : mappedCols U none E = ⟨none, none⟩ := rfl

/-! ### Out-records -/

/-- `REMARK_COUNTRY_MAP`. -/
def remarkCountryMap : List (String × String) :=
  [("阿联酋", "AE"), ("澳大利亚", "AU"), ("比利时", "BE"), ("巴西", "BR"), ("加拿大", "CA"), ("中国", "CN"),
    ("德国", "DE"), ("西班牙", "ES"), ("法国", "FR"), ("英国", "GB"), ("爱尔兰", "IE"), ("印度", "IN"),
    ("意大利", "IT"), ("日本", "JP"), ("墨西哥", "MX"), ("荷兰", "NL"), ("波兰", "PL"), ("沙特阿拉伯", "SA"),
    ("新加坡", "SG"), ("瑞典", "SE"), ("土耳其", "TR"), ("美国", "US")]

/-- `\d{n}` at the start of a text. -/
def dropDigits : ℕ → List Char → Option (List Char)
  | 0, l => some l
  | n + 1, c :: l => if U.isDecimal c then dropDigits n l else none
  | _ + 1, [] => none

/-- The optional separator of a date; none is a digit, so taking one that is there is the only
match. -/
def dropDateSeparator : List Char → List Char
  | c :: l => if c ∈ ['-', '/', '.'] then l else c :: l
  | [] => []

/-- The remark without a leading date: four, two and two digits. -/
def dropDate (remark : List Char) : List Char :=
  ((dropDigits U 4 remark).bind fun l =>
    (dropDigits U 2 (dropDateSeparator l)).bind fun l =>
      dropDigits U 2 (dropDateSeparator l)).getD remark

/-- The characters that end a token of a remark. -/
def isTokenSeparator (c : Char) :
    Bool := c ∈ ['-', '_', '/', '|', ',', '，', '、', '。'] || U.isSpace c

/-- A stripped text of a truthy value, if something is left of it. -/
def toOptionalText (value : JsonValue) : Option String := nonEmpty (strip U value.textOrEmpty)

/-- The country that a remark names before its date. -/
def extractCountryFromRemark (rawRemark : JsonValue) : Option String :=
  (toOptionalText U rawRemark).bind fun remark =>
    let normalized := strip U (String.ofList (dropDate U remark.toList))
    let tokens := ((normalized.toList.splitOnP (isTokenSeparator U)).map
      fun t => strip U (String.ofList t)).filter
      (· ≠ "")
    match tokens.findSome? fun token => remarkCountryMap.lookup token with
    | some country => some country
    | none =>
      -- the longer names first, names of one length in the order of the map
      ((remarkCountryMap.insertionSort fun a b => b.1.length ≤ a.1.length).find?
        fun entry => decide (entry.1.toList <:+: normalized.toList)).map Prod.snd

/-- What the sync reads of a raw out-record. -/
structure RawOutRecord where
  id : JsonValue
  targetFbaWarehouseId : JsonValue
  remark : Option String

/-- The upsert of an out-record, its country columns and flag. -/
def upsertOutRecord (raw : RawOutRecord) (warehouseIds : List String) (euCountries : List String)
    (records : Dict String InTransitRecord) : Dict String InTransitRecord :=
  let recordId := raw.id.textOrEmpty
  if recordId = "" then records
  else
    let originalTargetCountry := extractCountryFromRemark U (raw.remark.elim .null .str)
    records.set recordId
      { cols := mappedCols U originalTargetCountry euCountries
        targetWarehouseId := (nonEmpty raw.targetFbaWarehouseId.textOrEmpty).filter
          (· ∈ warehouseIds)
        remark := raw.remark
        isInTransit := true }

/-- `_backfill_target_country_from_remark`. -/
def backfillTargetCountryFromRemark (euCountries : List String)
    (records : Dict String InTransitRecord) : Dict String InTransitRecord :=
  records.mapVal fun _ record =>
    match record.cols.country, record.remark with
    | none, some remark =>
      match extractCountryFromRemark U (.str remark) with
      | none => record
      | some originalCountry =>
        { record with cols := mappedCols U (some originalCountry) euCountries }
    | _, _ => record

theorem remarkCountryMap_normalized : ∀ entry ∈ remarkCountryMap, IsNormalized U entry.2 := by
  have h : ∀ entry ∈ remarkCountryMap,
      entry.2.length = 2 ∧ entry.2.toList.all Char.isUpper = true ∧ entry.2 ≠ "UK" := by decide
  exact fun entry he => isNormalized_of_capitals U (h entry he).1 (h entry he).2.1 (h entry he).2.2

/-- A country read from a remark is a normalised code. -/
theorem extractCountryFromRemark_normalized {remark : JsonValue} {c : String}
    (h : extractCountryFromRemark U remark = some c) : IsNormalized U c := by
  unfold extractCountryFromRemark at h
  obtain ⟨text, -, h⟩ := Option.bind_eq_some_iff.mp h
  simp only at h
  split at h
  next country hf =>
    obtain ⟨token, -, hl⟩ := List.exists_of_findSome?_eq_some hf
    obtain ⟨l₁, l₂, hmem, -⟩ := List.lookup_eq_some_iff.mp hl
    rw [← Option.some.inj h]
    exact remarkCountryMap_normalized U (token, country) (by rw [hmem]; simp)
  next =>
    obtain ⟨entry, hf, hc⟩ := Option.map_eq_some_iff.mp h
    have hmem := (List.mem_insertionSort _).mp (List.mem_of_find?_eq_some hf)
    rw [← hc]
    exact remarkCountryMap_normalized U entry hmem

/-- An out-record gets the representation of the country in its remark, or no country. -/
theorem remarkCols_eq {E : List String} (hE : EuMembers U E) (remark : JsonValue) :
    mappedCols U (extractCountryFromRemark U remark) E = ⟨none, none⟩ ∨
      ∃ c, IsNormalized U c ∧
      mappedCols U (extractCountryFromRemark U remark) E = represent E c := by
  cases h : extractCountryFromRemark U remark with
  | none => exact Or.inl rfl
  | some c =>
    have hc := extractCountryFromRemark_normalized U h
    exact Or.inr ⟨c, hc, mappedCols_eq hE hc.pyCanonical⟩

end Mapped

end Restock
