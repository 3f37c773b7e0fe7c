/-
# The list of the orders (`api/data.py`, `core/query.py`)

A request filters the orders, sorts them by a column that it names and returns one page, with
the number of items of each order and whether a detail of it is there, both loaded for the
orders of the page. Every request sorts anew, but the last column is the id, so the pages of
several requests fit together: they show each order that the filter selects once, in order
(`orders_paged`). A keyword may hold any characters (`ilikeKeyword_iff`).
-/
import Restock.CountrySync
import Restock.Lib.Like
import Restock.Lib.Listing
import Restock.Lib.SameEntries
import Restock.Velocity

namespace Restock

open Listing PyText Query

/-! ### Keywords -/

/-- `value.replace(old, new)`, for a character. -/
def replaceChar (old : Char) (new value : List Char) :
    List Char := value.flatMap fun c => if c = old then new else [c]

/-- `escape_like`. -/
def escapeLike (value : String) : List Char :=
  replaceChar '_' ['\\', '_']
    (replaceChar '%' ['\\', '%'] (replaceChar '\\' ['\\', '\\'] value.toList))

/-- `column.ilike(f"%{escape_like(keyword)}%", escape="\\")`; a missing value does not match. -/
def ilikeKeyword (F : Like.CaseFold) (column : Option String) (keyword : String) : Bool :=
  column.any fun value => Like.ilike F value.toList ('%' :: escapeLike keyword ++ ['%']) = some true

/-- The text contains the keyword, but for case. -/
def ContainsText (F : Like.CaseFold) (value keyword : String) : Prop :=
  keyword.toList.map F.fold <:+: value.toList.map F.fold

theorem escapeLike_eq (value : String) :
    escapeLike value = value.toList.flatMap Like.escapeChar := by
  unfold escapeLike replaceChar
  rw [List.flatMap_assoc, List.flatMap_assoc]
  refine congrArg (value.toList.flatMap ·) (funext fun c => ?_)
  unfold Like.escapeChar
  by_cases hslash : c = '\\'
  · subst hslash
    decide
  · by_cases hpercent : c = '%'
    · subst hpercent
      decide
    · by_cases hunderscore : c = '_'
      · subst hunderscore
        decide
      · simp [Like.specials, hslash, hpercent, hunderscore]

/-- **A search finds the texts that contain the keyword**, whatever characters it has. -/
theorem ilikeKeyword_iff {F : Like.CaseFold} {column : Option String} {keyword : String} :
    ilikeKeyword F column keyword = true ↔ ∃ value, column = some value ∧
    ContainsText F value keyword := by
  unfold ilikeKeyword
  rw [Option.any_eq_true]
  simp only [escapeLike_eq, Like.ilike_contains, Option.some.injEq, decide_eq_true_eq]
  exact Iff.rfl

/-! ### The tables -/

/-- What the list reads of `order_header`. -/
structure OrderListRow extends OrderHeader where
  key : OrderKey
  source : String
  orderPlatform : String
  packageStatus : Option String
  shopName : Option String
  orderStatus : String
  orderTotalAmount : Option ℚ
deriving DecidableEq, Repr

/-- An item of an order. -/
structure OrderListItem where
  orderId : ℕ
  commoditySku : String

/-- A row of the details of an order. -/
structure OrderListDetail where
  shopId : String
  amazonOrderId : String
  source : String
  postalCode : Option String
  stateOrRegion : Option String
  city : Option String
  detailAddress : Option String
  receiverName : Option String

/-- The tables that the list is made from. -/
structure OrderListDb where
  orders : List OrderListRow
  items : List OrderListItem
  details : List OrderListDetail
  ids : (orders.map fun row => row.id).Nodup

/-- What the database compares texts and numbers by. -/
structure Sorting where
  collation : LinearOrder String
  fold : Like.CaseFold
  /-- `cast(Float)`. -/
  float : ℚ → ℚ

namespace Sorting

variable {A : Type} (S : Sorting)

/-- A column of texts. -/
def text (key : A → String) : Column A := ⟨String, S.collation, key⟩

/-- A column of texts with missing ones. -/
def nullableText (key : A → Option String) : Column A := @Column.nullable A String S.collation key

end Sorting

/-- `case((column.is_(None), 1), else_=0)`. -/
def missingLast {A B : Type} (key : A → Option B) :
    Column A := .asc fun a => if (key a).isNone then (1 : ℤ) else 0

/-! ### Sorting and filtering -/

/-- The order of the statuses. -/
def orderStatusSortOrder : List (String × ℤ) :=
  [("Pending", 0), ("Unshipped", 1), ("PartiallyShipped", 2), ("Shipped", 3), ("Canceled", 4)]

/-- `_order_status_sort_expr`. -/
def orderStatusSort (row : OrderListRow) :
    ℤ := (orderStatusSortOrder.lookup row.orderStatus).getD orderStatusSortOrder.length

/-- A part of the address or the postal code is known. -/
def OrderListDetail.visible (detail : OrderListDetail) : Bool :=
  detail.postalCode.isSome || detail.stateOrRegion.isSome || detail.city.isSome ||
    detail.detailAddress.isSome || detail.receiverName.isSome

/-- The key that a detail shares with its order. -/
def OrderListDetail.key (detail : OrderListDetail) : String × String × String :=
  (detail.shopId, detail.amazonOrderId, detail.source)

/-- The key of the details of an order. -/
def OrderListRow.detailKey (row : OrderListRow) : String × String × String :=
  (row.key.shopId, row.key.amazonOrderId, row.source)

/-- The query parameters of the filter. -/
structure OrderFilter where
  dateFrom : Option ℤ := none
  dateTo : Option ℤ := none
  country : Option String := none
  shopId : Option String := none
  platform : Option String := none
  status : Option String := none
  sku : Option String := none

section Request

variable (U : CharTable) (S : Sorting) (db : OrderListDb)

/-- The number of items of an order. -/
def itemCountOf (row : OrderListRow) : ℕ := db.items.countP fun item => item.orderId = row.id

/-- The order has a detail that can be shown. -/
def visibleDetailOf (row : OrderListRow) :
    Bool := db.details.any fun detail => detail.key = row.detailKey && detail.visible

/-- `_order_has_detail_expr`. -/
def hasDetailSort (row : OrderListRow) :
    ℤ := if visibleDetailOf db row || row.postalCode.isSome then 1 else 0

/-- `sort_map` of `_apply_order_sort`. -/
def orderSortMap : List (String × List (Column OrderListRow)) :=
  [("amazonOrderId", [S.text fun row => row.key.amazonOrderId]),
    ("orderPlatform", [S.text fun row => row.orderPlatform]),
    ("packageSn", [S.text fun row => row.key.packageSn]),
    ("packageStatus", [S.nullableText fun row => row.packageStatus]),
    ("shopName", [missingLast fun row => row.shopName, S.nullableText fun row => row.shopName]),
    ("postalCode", [missingLast fun row => row.postalCode,
      S.nullableText fun row => row.postalCode]),
    ("shopId", [S.text fun row => row.key.shopId]),
    ("countryCode", [S.text fun row => row.countryCode]),
    ("orderStatus", [.asc orderStatusSort]),
    ("orderTotalAmount", [missingLast fun row => row.orderTotalAmount,
      .asc fun row => (row.orderTotalAmount.map S.float).getD (-1)]),
    ("itemCount", [.asc (itemCountOf db)]),
    ("hasDetail", [.asc (hasDetailSort db)]),
    ("purchaseDate", [.asc fun row => row.purchaseDate])]

/-- `_apply_order_sort`. -/
def orderColumns (sortBy : Option String) (ascending : Bool) : List (Column OrderListRow) :=
  (((orderSortMap S db).lookup (sortBy.getD "")).getD [.asc fun row => row.purchaseDate]).map
    (Column.directed ascending) ++ [.desc (.asc fun row => row.purchaseDate),
    .desc (.asc fun row => row.id)]

/-- The `WHERE` of the list. -/
def OrderFilter.selects (filter : OrderFilter) (row : OrderListRow) : Bool :=
  (filter.dateFrom.all fun day => beijingMidnight day ≤ row.purchaseDate) &&
  (filter.dateTo.all fun day => row.purchaseDate < beijingMidnight (day + 1)) &&
  ((filter.country.bind nonEmpty).all fun country => row.countryCode = upper U country) &&
  ((filter.shopId.bind nonEmpty).all fun shopId => row.key.shopId = shopId) &&
  ((filter.platform.bind nonEmpty).all fun platform => row.orderPlatform = platform) &&
  ((filter.status.bind nonEmpty).all fun status => row.packageStatus = some status ||
    row.orderStatus = status) &&
  ((filter.sku.bind nonEmpty).all fun sku => ilikeKeyword S.fold (some row.key.amazonOrderId) sku ||
    db.items.any fun item =>
      item.orderId = row.id && ilikeKeyword S.fold (some item.commoditySku) sku)

/-- An entry of the list. -/
structure DataOrderSummary where
  row : OrderListRow
  hasDetail : Bool
  itemCount : ℕ
deriving DecidableEq, Repr

/-- The answer to a request. -/
structure DataOrderListOut where
  items : List DataOrderSummary
  total : ℕ
  page : ℕ
  pageSize : ℕ
deriving DecidableEq, Repr

/-- `item_count_map` of the orders of a page. -/
def itemCountMap (plan : Plan) (orderIds : List ℕ) : Dict ℕ ℕ :=
  Dict.ofList (plan.order
    (groupSum ((db.items.filter fun item => item.orderId ∈ orderIds).map
    fun item => (item.orderId, 1))))

/-- `detail_set` of the orders of a page. -/
def detailSet (plan : Plan) (rows : List OrderListRow) : List (String × String × String) :=
  plan.order ((db.details.filter
    fun detail => decide (detail.key ∈ rows.map OrderListRow.detailKey) && detail.visible).map
    OrderListDetail.key)

/-- `list_orders`. -/
def listOrders (plan : Plan) (filter : OrderFilter) (sortBy : Option String) (ascending : Bool)
    (page pageSize : ℕ) : DataOrderListOut :=
  let base := db.orders.filter (filter.selects U S db)
  let rows := Listing.page (orderBy plan (orderColumns S db sortBy ascending) base) page pageSize
  let counts := itemCountMap db plan (rows.map fun row => row.id)
  let details := detailSet db plan rows
  { items := rows.map fun row =>
      { row := row
        hasDetail := decide (row.detailKey ∈ details) || row.postalCode.any (· ≠ "")
        itemCount := counts.getD row.id 0 }
    total := base.length
    page := page
    pageSize := pageSize }

end Request

/-! ### What a page shows -/

section Page

variable {U : CharTable} {S : Sorting} {db : OrderListDb}

/-- What the filter says. -/
structure OrderFilter.Selects (U : CharTable) (S : Sorting) (db : OrderListDb)
    (filter : OrderFilter) (row : OrderListRow) : Prop where
  dateFrom : ∀ day, filter.dateFrom = some day → day ≤ beijingDate row.purchaseDate
  dateTo : ∀ day, filter.dateTo = some day → beijingDate row.purchaseDate ≤ day
  country : ∀ country, filter.country = some country → country ≠ "" →
    row.countryCode = upper U country
  shopId : ∀ shopId, filter.shopId = some shopId → shopId ≠ "" → row.key.shopId = shopId
  platform : ∀ platform, filter.platform = some platform → platform ≠ "" →
    row.orderPlatform = platform
  status : ∀ status, filter.status = some status → status ≠ "" → row.packageStatus = some status ∨
    row.orderStatus = status
  sku : ∀ sku, filter.sku = some sku → sku ≠ "" → ContainsText S.fold row.key.amazonOrderId sku ∨
    ∃ item ∈ db.items, item.orderId = row.id ∧ ContainsText S.fold item.commoditySku sku

theorem beijingMidnight_le_iff {day t : ℤ} : beijingMidnight day ≤ t ↔ day ≤ beijingDate t := by
  unfold beijingMidnight beijingDate
  rw [Int.le_ediv_iff_mul_le (by decide)]
  omega

theorem all_nonEmpty_iff {o : Option String} {p : String → Bool} :
    (o.bind nonEmpty).all p = true ↔ ∀ s, o = some s → s ≠ "" → p s = true := by
  cases o with
  | none => simp
  | some s =>
    by_cases hs : s = ""
    · simp [nonEmpty, hs]
    · simp [nonEmpty, hs]

theorem option_all_iff {A : Type} {o : Option A} {p : A → Bool} :
    o.all p = true ↔ ∀ a, o = some a → p a = true := by
  cases o <;> simp

theorem OrderFilter.selects_iff {filter : OrderFilter} {row : OrderListRow} :
    filter.selects U S db row = true ↔ filter.Selects U S db row := by
  have hkeyword : ∀ value keyword, ilikeKeyword S.fold (some value) keyword = true ↔
      ContainsText S.fold value keyword := by
    intro value keyword
    rw [ilikeKeyword_iff]
    simp
  have hbefore : ∀ day, row.purchaseDate < beijingMidnight (day + 1) ↔
      beijingDate row.purchaseDate ≤ day := by
    intro day
    rw [← not_le, beijingMidnight_le_iff]
    omega
  unfold OrderFilter.selects
  simp only [Bool.and_eq_true, all_nonEmpty_iff]
  simp only [option_all_iff, Bool.and_eq_true, Bool.or_eq_true, decide_eq_true_eq, hkeyword,
    List.any_eq_true, beijingMidnight_le_iff, hbefore]
  constructor
  · intro h
    obtain ⟨⟨⟨⟨⟨⟨hfrom, hto⟩, hcountry⟩, hshop⟩, hplatform⟩, hstatus⟩, hsku⟩ := h
    exact ⟨hfrom, hto, hcountry, hshop, hplatform, hstatus, hsku⟩
  · intro h
    exact ⟨⟨⟨⟨⟨⟨h.dateFrom, h.dateTo⟩, h.country⟩, h.shopId⟩, h.platform⟩, h.status⟩, h.sku⟩

/-- The counts that are loaded for a page are those of the orders. -/
theorem getD_itemCountMap (plan : Plan) {rows : List OrderListRow} {row : OrderListRow}
    (h : row ∈ rows) :
    (itemCountMap db plan (rows.map fun row => row.id)).getD row.id 0 = itemCountOf db row := by
  have hsame := Dict.same_ofList (plan.perm (groupSum ((db.items.filter fun item =>
    item.orderId ∈ rows.map fun row => row.id).map fun item => (item.orderId, 1))))
  have hid : row.id ∈ rows.map fun row => row.id := List.mem_map_of_mem h
  unfold itemCountMap itemCountOf
  rw [hsame.getD_eq, Dict.getD_sumBy]
  generalize db.items = items
  induction items with
  | nil => rfl
  | cons item items ih =>
    rw [List.filter_cons, List.countP_cons]
    by_cases hin : item.orderId ∈ rows.map fun row => row.id
    · rw [if_pos (decide_eq_true hin), List.map_cons]
      by_cases heq : item.orderId = row.id
      · rw [heq, Dict.valuesAt_cons_self, List.sum_cons, ih, if_pos (decide_eq_true rfl),
          Nat.add_comm]
      · have hne : (item.orderId, 1).1 ≠ row.id := heq
        rw [Dict.valuesAt_cons_ne hne, ih, if_neg (by simpa using heq), Nat.add_zero]
    · have hne : item.orderId ≠ row.id := fun heq => hin (heq ▸ hid)
      rw [if_neg (by simpa using hin), ih, if_neg (by simpa using hne), Nat.add_zero]

theorem mem_detailSet (plan : Plan) {rows : List OrderListRow} {row : OrderListRow}
    (h : row ∈ rows) : row.detailKey ∈ detailSet db plan rows ↔ visibleDetailOf db row = true := by
  have hkey : row.detailKey ∈ rows.map OrderListRow.detailKey := List.mem_map_of_mem h
  unfold detailSet visibleDetailOf
  rw [(plan.perm _).mem_iff, List.mem_map, List.any_eq_true]
  constructor
  · intro hm
    obtain ⟨detail, hdetail, heq⟩ := hm
    obtain ⟨hin, hvisible⟩ := List.mem_filter.mp hdetail
    rw [Bool.and_eq_true] at hvisible
    exact ⟨detail, hin, by rw [heq, decide_eq_true rfl, hvisible.2]; rfl⟩
  · intro hm
    obtain ⟨detail, hin, hvisible⟩ := hm
    rw [Bool.and_eq_true, decide_eq_true_eq] at hvisible
    refine ⟨detail, List.mem_filter.mpr ⟨hin, ?_⟩, hvisible.1⟩
    rw [hvisible.1, decide_eq_true hkey, hvisible.2]
    rfl

/-- The row of an order, as a page shows it. -/
def orderSummary (db : OrderListDb) (row : OrderListRow) : DataOrderSummary :=
  ⟨row, visibleDetailOf db row || row.postalCode.any (· ≠ ""), itemCountOf db row⟩

/-- A page shows its orders with their counts and flags. -/
theorem items_listOrders (plan : Plan) (filter : OrderFilter) (sortBy : Option String)
    (ascending : Bool) (pageNo pageSize : ℕ) :
    (listOrders U S db plan filter sortBy ascending pageNo pageSize).items =
      (Listing.page (orderBy plan (orderColumns S db sortBy ascending)
        (db.orders.filter (filter.selects U S db))) pageNo
        pageSize).map (orderSummary db) := by
  unfold listOrders
  refine List.map_congr_left fun row hrow => ?_
  have hdetail : decide (row.detailKey ∈ detailSet db plan
      (Listing.page (orderBy plan (orderColumns S db sortBy ascending)
      (db.orders.filter (filter.selects U S db))) pageNo pageSize)) = visibleDetailOf db row := by
    rw [Bool.eq_iff_iff, decide_eq_true_eq]
    exact mem_detailSet plan hrow
  simp only [hdetail, getD_itemCountMap plan hrow]
  rfl

/-- The id tells orders apart. -/
theorem ties_orderColumns {sortBy : Option String} {ascending : Bool} {rows : List OrderListRow}
    (hnodup : (rows.map fun row => row.id).Nodup) :
    ∀ a ∈ rows, ∀ b ∈ rows, Ties (orderColumns S db sortBy ascending) a b → a = b := by
  intro a ha b hb hties
  have hid : a.id = b.id := hties (.desc (.asc fun row => row.id)) (by simp [orderColumns])
  exact List.inj_on_of_nodup_map hnodup ha hb hid

/-- **The pages of the list.** Whatever the database chooses for each of the requests: their
pages show each order that the filter selects once, in the order that is asked for, with the
number of its items and whether an address or postal code of it is known; and each of them
reports how many orders there are. A `date_to` of the last day of the calendar and a keyword
with a NUL, at which the source raises, are left out, and midnights are those of UTC+8. -/
theorem orders_paged (filter : OrderFilter) (sortBy : Option String) (ascending : Bool)
    (plans : ℕ → Plan) (pageSize n : ℕ)
    (hall : (db.orders.filter (filter.selects U S db)).length ≤ n * pageSize) :
    let answer i := listOrders U S db (plans i) filter sortBy ascending (i + 1) pageSize
    let shown := (List.range n).flatMap fun i => (answer i).items
    (shown.map DataOrderSummary.row).Pairwise (Before (orderColumns S db sortBy ascending)) ∧
    (shown.map fun summary => summary.row.id).Nodup ∧
    (∀ row, row ∈ shown.map DataOrderSummary.row ↔ row ∈ db.orders ∧ filter.Selects U S db row) ∧
    (∀ summary ∈ shown, summary = orderSummary db summary.row) ∧
    ∀ i, (answer i).total = shown.length := by
  intro answer shown
  have hids : ((db.orders.filter (filter.selects U S db)).map fun row => row.id).Nodup :=
    db.ids.sublist (List.filter_sublist.map _)
  have hrows : shown = (orderBy (plans 0) (orderColumns S db sortBy ascending)
      (db.orders.filter (filter.selects U S db))).map
      (orderSummary db) := by
    have hties := @ties_orderColumns S db sortBy ascending _ hids
    have hpages := pages_of_unique hties plans (plans 0) hall
    rw [← hpages]
    unfold pages
    rw [List.map_flatMap]
    exact congrArg ((List.range n).flatMap ·)
      (funext fun i => items_listOrders (plans i) filter sortBy ascending (i + 1) pageSize)
  have hmap : shown.map DataOrderSummary.row =
      orderBy (plans 0) (orderColumns S db sortBy ascending)
          (db.orders.filter (filter.selects U S db)) := by
    rw [hrows, List.map_map]
    exact List.map_id _
  have hperm := orderBy_perm (plans 0) (orderColumns S db sortBy ascending)
    (db.orders.filter (filter.selects U S db))
  refine ⟨?_, ?_, fun row => ?_, fun summary hs => ?_, fun i => ?_⟩
  · rw [hmap]
    exact pairwise_orderBy ..
  · have hcomp : (shown.map fun summary => summary.row.id) = (shown.map DataOrderSummary.row).map
      fun row => row.id := by
      rw [List.map_map]
      rfl
    rw [hcomp, hmap]
    exact (hperm.map _).nodup_iff.mpr hids
  · rw [hmap, hperm.mem_iff, List.mem_filter, filter.selects_iff]
  · rw [hrows] at hs
    obtain ⟨row, -, rfl⟩ := List.mem_map.mp hs
    rfl
  · rw [hrows, List.length_map, hperm.length_eq]
    rfl

def plainSorting : Sorting := ⟨inferInstance, ⟨id, fun _ _ _ => Iff.rfl⟩, id⟩

/-- An order from Germany. -/
def bookOrder (id : ℕ) : OrderListRow where
  id := id
  countryCode := "DE"
  originalCountryCode := none
  marketplaceId := "A1PA6795UKMFR9"
  postalCode := none
  purchaseDate := 0
  lastUpdateDate := 0
  manualEditLocked := false
  key := ⟨"7", "302-1", ""⟩
  source := "订单处理"
  orderPlatform := "Amazon"
  packageStatus := none
  shopName := none
  orderStatus := "Shipped"
  orderTotalAmount := none

/-- Two orders, the second with an item. -/
def bookOrders : OrderListDb := ⟨[bookOrder 1, bookOrder 2], [⟨2, "BOOK"⟩], [], by decide⟩

/-- The first request gets the rows in their order, the others in reverse. -/
def bookPlans (i : ℕ) : Plan := if i = 0 then .identity else ⟨List.reverse, List.reverse_perm⟩

/-- Two orders that only the id tells apart, on two pages. -/
theorem orders_paged_ids :
    (((List.range 2).flatMap fun i =>
      (listOrders .ascii plainSorting bookOrders (bookPlans i) {} none false (i + 1) 1).items).map
          fun summary =>
        summary.row.id).Nodup :=
  (orders_paged {} none false bookPlans 1 2 (List.length_filter_le _ _)).2.1

end Page

end Restock
