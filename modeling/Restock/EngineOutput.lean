/-
# What a run of the engine stores (`engine/runner.py`)

A run that stores a suggestion (`Persisted`) stores the items of the enabled SKUs that
are to be bought or sent, and these are all its items (`Persisted.stored_iff`). An item
is consistent with itself and with the configuration (`consistent_of_persisted`). A
country that is about to run out is sent something, marked as urgent, exactly if its
stock is below the target and step 5 can match the postal codes of the run
(`AtRisk.urgentlySent_iff`): the configuration bounds the lead time that all SKUs share by
the target, but not the lead times of single SKUs, and one rule that raises ends the run.
A country whose stock is unknown is a warning of the item, which edits of other fields keep
(`unknownStock_warned`).
-/
import Restock.SuggestionEdit

namespace Restock

open PyText Query

section Output

variable (U : CharTable)

/-! ### The regions to restock (`core/restock_regions.py`) -/

/-- One round of the loop of `normalize_restock_regions`. -/
def regionStep (normalized : List String) (item : JsonValue) : Except String (List String) :=
  let rawCode := upper U (strip U item.textOrEmpty)
  if rawCode = "" then .ok normalized
  else match normalizeObservedCountryCode U (.str rawCode) with
    | none => .error s!"补货区域国家码无效: {item.toText}"
    | some code => .ok (if code ∈ normalized then normalized else normalized ++ [code])

def normalizeRestockRegions : Option (List JsonValue) → Except String (List String)
  | none => .ok []
  | some items => items.foldlM (regionStep U) []

/-- No set of regions allows all of them. -/
def resolveAllowedRestockRegions (value : Option (List JsonValue)) :
    Except String (Option (List String)) :=
  (normalizeRestockRegions U value).map fun normalized =>
    if normalized = [] then none
    else some (normalized.filter fun code => isReportableCountryCode U (.str code))

/-- The country is one of the regions that the run read, where it read any. -/
def Allowed (env : EngineEnv) (country : String) : Prop :=
  ∀ l ∈ env.config.allowedCountries, country ∈ l

/-! ### Stored suggestions -/

/-- The run stored a suggestion, under the next id. -/
structure Persisted (env : EngineEnv) (db db' : SuggestionDb) (s : Suggestion) : Prop where
  run : runEngine U env db = .ok db'
  advanced : db'.nextSuggestionId ≠ db.nextSuggestionId
  stored : db'.suggestions.get? db.nextSuggestionId = some s

/-- What the SKU is to be bought. -/
def enginePurchaseQty (env : EngineEnv) (sku : String) : ℤ :=
  computeTotal (engineCountryQty U env sku) ((engineVelocity U env).getD sku .empty)
    (env.localStock.get? sku)
    env.config.safetyStockDays

/-- There is something to buy or to send. -/
def Needed (env : EngineEnv) (sku : String) : Prop :=
  0 < enginePurchaseQty U env sku ∨ 0 < (engineCountryQty U env sku).values.sum

variable {U} {env : EngineEnv}

theorem engineItem_isSome_iff {leadTimeDays : ℤ} {sku : String} :
    (∃ item, engineItem U env leadTimeDays sku = some item) ↔ Needed U env sku := by
  unfold engineItem Needed enginePurchaseQty
  simp only
  constructor
  · intro h
    obtain ⟨item, hitem⟩ := h
    split_ifs at hitem with h0
    rw [not_and_or, not_le, not_le] at h0
    exact h0
  · intro h
    rw [if_neg]
    · exact ⟨_, rfl⟩
    · rw [not_and_or, not_le, not_le]
      exact h

/-- The fields of an item that are read again. -/
structure Fields (U : CharTable) (env : EngineEnv) (leadTimeDays : ℤ) (sku : String)
    (item : SuggestionItem) : Prop where
  commoditySku : item.commoditySku = sku
  total : item.totalQty = (engineCountryQty U env sku).values.sum
  countries : item.countryBreakdown = engineCountryQty U env sku
  warehouses : item.warehouseBreakdown = engineWarehouseBreakdown U env sku
  warnings : item.calculationWarnings = buildCalculationWarnings U (engineCountryQty U env sku)
    ((engineStep2 U env).1.getD sku .empty) []
      (missingInventoryCountries U ((engineVelocity U env).getD sku .empty)
      (engineStep2 U env).2 sku env.config.allowedCountries)
  urgent : item.urgent = hasUrgentSaleDays ((engineStep2 U env).1.getD sku .empty)
    (engineLeadTime env leadTimeDays sku)
    (positiveQtyCountries (engineCountryQty U env sku))
  purchase : item.purchaseQty = enginePurchaseQty U env sku
  dates : item.restockDates = demandRestockDates (engineCountryQty U env sku) (some env.demandDate)

theorem fields_of_engineItem {leadTimeDays : ℤ} {sku : String} {item : SuggestionItem}
    (h : engineItem U env leadTimeDays sku = some item) : Fields U env leadTimeDays sku item := by
  unfold engineItem at h
  simp only at h
  split_ifs at h
  obtain rfl := Option.some.inj h
  exact ⟨rfl, rfl, rfl, rfl, rfl, rfl, rfl, rfl⟩

/-- The items of a run that returns some. -/
theorem engineItems_eq {items : List SuggestionItem} (h : engineItems U env = .ok items)
    (hne : items ≠ []) : ∃ leadTimeDays, RunReturns U env leadTimeDays ∧
      items = (enabledSkus env).filterMap (engineItem U env leadTimeDays) := by
  rcases (engineItems_ok_iff U).mp h with ⟨-, rfl⟩ | ⟨leadTimeDays, hret, rfl⟩
  · exact absurd rfl hne
  · exact ⟨leadTimeDays, hret, rfl⟩

/-- What a run stores. -/
theorem persisted_iff {db db' : SuggestionDb} {s : Suggestion} : Persisted U env db db' s ↔
    ∃ items, engineItems U env = .ok items ∧ items ≠ [] ∧
      db' = persistSuggestion env (archiveActive db) items ∧
      s = newSuggestion env db.nextItemId items := by
  constructor
  · intro h
    obtain ⟨items, hitems, hdb⟩ := Checked.map_ok h.run
    have hne : items ≠ [] := by
      intro h0
      rw [h0] at hdb
      exact h.advanced (congrArg SuggestionDb.nextSuggestionId hdb).symm
    rw [if_neg (by simpa using hne)] at hdb
    have hstored := h.stored
    rw [← hdb] at hstored
    refine ⟨items, hitems, hne, hdb.symm, ?_⟩
    exact (Option.some.inj ((Dict.get?_set_self _ _ _).symm.trans hstored)).symm
  · intro h
    obtain ⟨items, hitems, hne, rfl, rfl⟩ := h
    refine ⟨?_, ?_, Dict.get?_set_self _ _ _⟩
    · rw [runEngine, hitems, Except.map, if_neg (by simpa using hne)]
    · show db.nextSuggestionId + 1 ≠ db.nextSuggestionId
      omega

theorem exists_numberItems_iff {firstId : ℕ} {items : List SuggestionItem} {item : SuggestionItem} :
    (∃ itemId, (numberItems firstId items).get? itemId = some item) ↔ item ∈ items := by
  constructor
  · intro h
    obtain ⟨itemId, hget⟩ := h
    exact mem_of_numberItems hget
  · intro h
    obtain ⟨i, hi, rfl⟩ := List.getElem_of_mem h
    refine ⟨firstId + i, Dict.get?_eq_some_iff.mpr
      (List.mem_map.mpr ⟨(items[i], firstId + i), ?_, rfl⟩)⟩
    rw [List.mk_mem_zipIdx_iff_le_and_getElem?_sub]
    exact ⟨by omega, by rw [Nat.add_sub_cancel_left]; exact List.getElem?_eq_getElem hi⟩

/-- **The stored items** are those of the enabled SKUs with something to buy or send. -/
theorem Persisted.stored_iff {db db' : SuggestionDb} {s : Suggestion}
    (h : Persisted U env db db' s) :
    ∃ leadTimeDays, RunReturns U env leadTimeDays ∧ ∀ item,
      (∃ itemId, s.items.get? itemId = some item) ↔
        ∃ sku ∈ enabledSkus env, engineItem U env leadTimeDays sku = some item := by
  obtain ⟨items, hitems, hne, -, rfl⟩ := persisted_iff.mp h
  obtain ⟨leadTimeDays, hret, hall⟩ := engineItems_eq hitems hne
  refine ⟨leadTimeDays, hret, fun item => exists_numberItems_iff.trans ?_⟩
  rw [hall, List.mem_filterMap]

/-- A run that returns stores a suggestion if some SKU needs one. -/
theorem exists_persisted {leadTimeDays : ℤ} (hret : RunReturns U env leadTimeDays) {sku : String}
    (hsku : sku ∈ enabledSkus env) (hneeded : Needed U env sku) (db : SuggestionDb) :
    ∃ db' s, Persisted U env db db' s := by
  obtain ⟨item, hitem⟩ := (@engineItem_isSome_iff U env leadTimeDays sku).mpr hneeded
  have hitems := (engineItems_ok_iff U).mpr (Or.inr ⟨leadTimeDays, hret, rfl⟩)
  exact ⟨_, _, persisted_iff.mpr
    ⟨_, hitems, List.ne_nil_of_mem (List.mem_filterMap.mpr ⟨sku, hsku, hitem⟩), rfl, rfl⟩⟩

/-- It stores the item of that SKU. -/
theorem exists_stored_item {leadTimeDays : ℤ} (hret : RunReturns U env leadTimeDays) {sku : String}
    (hsku : sku ∈ enabledSkus env) (hneeded : Needed U env sku) (db : SuggestionDb) :
    ∃ db' s itemId item, Persisted U env db db' s ∧ s.items.get? itemId = some item ∧
    engineItem U env leadTimeDays sku = some item := by
  obtain ⟨db', s, hp⟩ := exists_persisted hret hsku hneeded db
  obtain ⟨lead, hlead, hstored⟩ := hp.stored_iff
  obtain rfl : lead = leadTimeDays := Except.ok.inj (hlead.config.symm.trans hret.config)
  obtain ⟨item, hitem⟩ := (@engineItem_isSome_iff U env lead sku).mpr hneeded
  obtain ⟨itemId, hi⟩ := (hstored item).mpr ⟨sku, hsku, hitem⟩
  exact ⟨db', s, itemId, item, hp, hi, hitem⟩

/-! ### Consistency -/

/-- What an item says fits together. -/
structure Consistent (U : CharTable) (env : EngineEnv) (regions : Option (List JsonValue))
    (item : SuggestionItem) : Prop where
  total : item.totalQty = item.countryBreakdown.values.sum
  countries : ∀ country qty, item.countryBreakdown.get? country = some qty →
    isReportableCountryCode U (.str country) = true ∧ 1 ≤ qty ∧
      ∃ codes, normalizeRestockRegions U regions = .ok codes ∧ (codes = [] ∨ country ∈ codes)
  dates : ∀ country, country ∈ item.restockDates.keys ↔ country ∈ item.countryBreakdown.keys
  splits : ∀ country qty, item.countryBreakdown.get? country = some qty →
    env.countryWarehouses.getD country [] ≠ [] →
    ∃ warehouses, item.warehouseBreakdown.get? country = some warehouses ∧
    warehouses.values.sum = qty
  noSplit : ∀ country, env.countryWarehouses.getD country [] = [] →
    item.warehouseBreakdown.get? country = none
  needed : 0 < item.purchaseQty ∨ 0 < item.totalQty

theorem get?_engineCountryQty {sku country : String} {qty : ℤ} :
    (engineCountryQty U env sku).get? country = some qty ↔
      (countryQtyOf U (engineStep2 U env).2 (effectiveTargetDays env) sku
        ((engineVelocity U env).getD sku .empty)).get?
        country = some qty ∧ isReportableCountryCode U (.str country) = true ∧
        Allowed env country := by
  rw [engineCountryQty, filterAllowedCountryMap, filterReportableCountryMap, Dict.get?_filter,
    Dict.get?_filter, Option.filter_eq_some_iff, Option.filter_eq_some_iff, and_assoc]
  refine and_congr_right fun _ => and_congr_right fun _ => ?_
  unfold Allowed
  cases env.config.allowedCountries with
  | none => simp
  | some l => simp

/-- A country of the resolved set is one of the regions, and none is left out without any. -/
theorem mem_regions_of_allowed {regions : Option (List JsonValue)}
    (hregions : resolveAllowedRestockRegions U regions = .ok env.config.allowedCountries)
    {country : String} (h : Allowed env country) :
    ∃ codes, normalizeRestockRegions U regions = .ok codes ∧ (codes = [] ∨ country ∈ codes) := by
  obtain ⟨codes, hcodes, hset⟩ := Checked.map_ok hregions
  refine ⟨codes, hcodes, ?_⟩
  by_cases h0 : codes = []
  · exact Or.inl h0
  · rw [if_neg h0] at hset
    exact Or.inr (List.mem_of_mem_filter (h _ hset.symm))

/-- **Every stored item is consistent.** -/
theorem consistent_of_persisted (U : CharTable) {env : EngineEnv}
    {regions : Option (List JsonValue)}
    (hregions : resolveAllowedRestockRegions U regions = .ok env.config.allowedCountries)
    {db db' : SuggestionDb} {s : Suggestion} (h : Persisted U env db db' s) {itemId : ℕ}
    {item : SuggestionItem} (hi : s.items.get? itemId = some item) :
    Consistent U env regions item := by
  obtain ⟨leadTimeDays, -, hstored⟩ := h.stored_iff
  obtain ⟨sku, -, hitem⟩ := (hstored item).mp ⟨itemId, hi⟩
  have hf := fields_of_engineItem hitem
  have hneeded : Needed U env sku := engineItem_isSome_iff.mp ⟨item, hitem⟩
  refine ⟨by rw [hf.total, hf.countries], fun country qty hq => ?_, fun country => ?_, fun country qty hq hw => ?_,
    fun country hw => ?_, ?_⟩
  · rw [hf.countries] at hq
    obtain ⟨-, hreport, hallowed⟩ := get?_engineCountryQty.mp hq
    exact ⟨hreport, (engineCountryQty_pos hq).2, mem_regions_of_allowed hregions hallowed⟩
  · rw [hf.dates, hf.countries, demandRestockDates, Dict.mem_keys_iff, Dict.mem_keys_iff]
    simp only [Dict.get?_mapVal, Dict.get?_filter, Option.map_eq_some_iff,
      Option.filter_eq_some_iff]
    constructor
    · intro hdate
      obtain ⟨date, qty, ⟨hq, -⟩, -⟩ := hdate
      exact ⟨qty, hq⟩
    · intro hqty
      obtain ⟨qty, hq⟩ := hqty
      exact ⟨some env.demandDate, qty, ⟨hq, decide_eq_true (engineCountryQty_pos hq).2⟩, rfl⟩
  · rw [hf.countries] at hq
    obtain ⟨m, hm, hsplit⟩ := engineWarehouseBreakdown_isSome hq hw
    exact ⟨m, by rw [hf.warehouses, hm], hsplit.total⟩
  · rw [hf.warehouses]
    cases hm : (engineWarehouseBreakdown U env sku).get? country with
    | none => rfl
    | some m =>
      obtain ⟨-, -, hne, -⟩ := engineWarehouseBreakdown_get? hm
      exact absurd hw hne
  · rw [hf.purchase, hf.total]
    exact hneeded

theorem oneSale_nodup : ([("US", (1 : ℚ))].map Prod.fst).Nodup := List.nodup_singleton _

/-- A unit a day in the US. -/
def oneSale : Dict String ℚ := ⟨[("US", 1)], oneSale_nodup⟩

theorem usSales_nodup : ([("A", oneSale), ("B", oneSale)].map Prod.fst).Nodup := by decide

theorem usStock_nodup (available : ℤ) :
    (([⟨1, "A", available, 0⟩] : List ThirdPartyInventoryCurrent).map
    fun row => (row.warehouseId, row.commoditySku)).Nodup :=
  List.nodup_singleton _

/-- Two SKUs that sell a unit a day in the US: `A` has stock there, `B` has none but a
hundred units at home. -/
def usEnv (skuLeadTimeDays : Option ℤ) (available : ℤ) : EngineEnv where
  config := ⟨true, 30, 0, some 10, 15, none⟩
  demandDays := 0
  demandDate := "2026-05-01"
  skuConfigs := (Dict.empty.set "A" ⟨true, skuLeadTimeDays⟩).set "B" ⟨true, none⟩
  velocity := ⟨[("A", oneSale), ("B", oneSale)], usSales_nodup⟩
  plan := .identity
  stock := ⟨.set .empty 1 (some "US"), [⟨1, "A", available, 0⟩], .empty, .empty, [],
    usStock_nodup available⟩
  rules := ⟨[], List.nodup_nil⟩
  aliases := ⟨[], [], List.nodup_nil⟩
  euCountries := []
  localStock := .set .empty "B" ⟨100, 0⟩
  countryWarehouses := .set .empty "US" ["W", "V"]
  orders := .empty
  matchWarehouses := fun _ _ => .ok []

theorem needed_usEnv : Needed .ascii (usEnv none 10) "A" := by
  have hpos : 0 < enginePurchaseQty .ascii (usEnv none 10) "A" := by decide +kernel
  exact Or.inl hpos

/-- None of its rules raises. -/
theorem runReturns_usEnv (skuLeadTimeDays : Option ℤ) (available : ℤ) :
    RunReturns .ascii (usEnv skuLeadTimeDays available) 10 :=
  ⟨rfl, rfl, fun _ _ _ _ => ⟨[], rfl⟩⟩

theorem consistent_of_persisted_example :
    ∃ db' s itemId item, Persisted .ascii (usEnv none 10) ⟨.empty, 1, 1⟩ db' s ∧
      s.items.get? itemId = some item ∧ item.countryBreakdown.get? "US" = some 20 ∧
      Consistent .ascii (usEnv none 10) none item := by
  have hsku : "A" ∈ enabledSkus (usEnv none 10) := by decide +kernel
  have hqty : (engineCountryQty .ascii (usEnv none 10) "A").get? "US" = some 20 := by decide +kernel
  obtain ⟨db', s, itemId, item, hp, hi, hitem⟩ :=
    exists_stored_item (runReturns_usEnv none 10) hsku needed_usEnv ⟨.empty, 1, 1⟩
  exact ⟨db', s, itemId, item, hp, hi, by rw [(fields_of_engineItem hitem).countries, hqty],
    consistent_of_persisted .ascii rfl hp hi⟩

/-! ### Imminent stock-outs -/

/-- The SKU sells in an allowed country, where it has a stock record. -/
structure SellsFrom (U : CharTable) (env : EngineEnv) (sku country : String) (v : ℚ)
    (stock : InventoryStock) : Prop where
  enabled : sku ∈ enabledSkus env
  allowed : Allowed env country
  reportable : isReportableCountryCode U (.str country) = true
  sells : ((engineVelocity U env).getD sku .empty).get? country = some v
  positive : 0 < v
  record : (engineStep2 U env).2.get? (sku, country) = some stock

/-- Its stock there lasts no longer than its lead time. -/
structure AtRisk (U : CharTable) (env : EngineEnv) (leadTimeDays : ℤ) (sku country : String) (v : ℚ)
    (stock : InventoryStock) : Prop extends SellsFrom U env sku country v stock where
  short : ∃ days, ((engineStep2 U env).1.getD sku .empty).get? country = some days ∧
    days ≤ (engineLeadTime env leadTimeDays sku : ℚ)

/-- The run stores an urgent item of the SKU with units for the country. -/
def UrgentlySent (U : CharTable) (env : EngineEnv) (db : SuggestionDb) (sku country : String) :
    Prop :=
  ∃ db' s itemId item, Persisted U env db db' s ∧ s.items.get? itemId = some item ∧
    item.commoditySku = sku ∧ item.urgent = true ∧ 0 < item.countryBreakdown.getD country 0

/-- Where the stock is below the target, `match_warehouses` returns for the postal codes of
the orders. -/
def CodesReturn (U : CharTable) (env : EngineEnv) : Prop :=
  ∀ sku country v stock, SellsFrom U env sku country v stock →
    (stock.total : ℚ) < effectiveTargetDays env * v → ∀ order ∈ env.orders.getD (sku, country) [],
      0 < order.2 → ∃ winners, env.matchWarehouses country order.1 = .ok winners

/-- What is sent to a country where the SKU sells and has a stock record. -/
theorem get?_engineCountryQty_of_record {sku country : String} {v : ℚ}
    {stock : InventoryStock} {qty : ℤ}
    (hsells : ((engineVelocity U env).getD sku .empty).get? country = some v) (hv : 0 < v)
    (hrecord : (engineStep2 U env).2.get? (sku, country) = some stock)
    (hreport : isReportableCountryCode U (.str country) = true) (hallowed : Allowed env country) :
    (engineCountryQty U env sku).get? country = some qty ↔
      (stock.total : ℚ) < effectiveTargetDays env * v ∧
      ⌈(effectiveTargetDays env : ℚ) * v - stock.total⌉ = qty := by
  have hcond : ((0 : ℚ) < effectiveTargetDays env * v - stock.total) ↔
      (stock.total : ℚ) < effectiveTargetDays env * v := sub_pos
  rw [get?_engineCountryQty, countryQtyOf, Dict.get?_mapVal, Dict.get?_filter, hsells,
    Option.filter_some]
  simp only [hrecord, Option.any_some, Option.elim_some, hreport, hv, decide_true, Bool.true_and,
    decide_eq_true_eq, hcond]
  by_cases hlt : (stock.total : ℚ) < effectiveTargetDays env * v
  · rw [if_pos hlt, Option.map_some, Option.some.injEq]
    exact ⟨fun h => ⟨hlt, h.1⟩, fun h => ⟨h.2, trivial, hallowed⟩⟩
  · rw [if_neg hlt, Option.map_none]
    exact ⟨fun h => absurd h.1 (by simp), fun h => absurd h.1 hlt⟩

/-- A country with a quantity is one where the stock is below the target. -/
theorem exists_sellsFrom_of_countryQty {sku country : String} {qty : ℤ}
    (hsku : sku ∈ enabledSkus env) (h : (engineCountryQty U env sku).get? country = some qty) :
    ∃ v stock, SellsFrom U env sku country v stock ∧
    (stock.total : ℚ) < effectiveTargetDays env * v := by
  obtain ⟨hof, hreport, hallowed⟩ := get?_engineCountryQty.mp h
  rw [countryQtyOf, Dict.get?_mapVal, Dict.get?_filter] at hof
  obtain ⟨v, hv, -⟩ := Option.map_eq_some_iff.mp hof
  obtain ⟨hsells, hcond⟩ := Option.filter_eq_some_iff.mp hv
  simp only [Bool.and_eq_true, decide_eq_true_eq] at hcond
  obtain ⟨⟨-, hpos⟩, hraw⟩ := hcond
  obtain ⟨stock, hrecord, hlt⟩ := (Option.any_eq_true _ _).mp hraw
  exact ⟨v, stock, ⟨hsku, hallowed, hreport, hsells, hpos, hrecord⟩,
    sub_pos.mp (of_decide_eq_true hlt)⟩

/-- The codes that a run matches are those of the orders of countries below the target. -/
theorem codesReturn_iff : CodesReturn U env ↔
    ∀ sku ∈ enabledSkus env, ∀ code ∈ matchedCodes U env sku, ∃ winners,
    env.matchWarehouses code.1 code.2 = .ok winners := by
  constructor
  · intro h sku hsku code hcode
    obtain ⟨country, hcountry, horder⟩ := List.mem_flatMap.mp hcode
    obtain ⟨order, ho, rfl⟩ := List.mem_map.mp horder
    obtain ⟨ho, hpos⟩ := List.mem_filter.mp ho
    obtain ⟨qty, hqty, -⟩ := mem_positiveQtyCountries.mp hcountry
    obtain ⟨v, stock, hsells, hlt⟩ := exists_sellsFrom_of_countryQty hsku hqty
    exact h sku country v stock hsells hlt order ho (of_decide_eq_true hpos)
  · intro h sku country v stock hsells hlt order ho hpos
    have hqty := (get?_engineCountryQty_of_record hsells.sells hsells.positive hsells.record
      hsells.reportable
      hsells.allowed).mpr ⟨hlt, rfl⟩
    refine h sku hsells.enabled (country, order.1) (List.mem_flatMap.mpr ⟨country, ?_, ?_⟩)
    · exact mem_positiveQtyCountries.mpr ⟨_, hqty, (engineCountryQty_pos hqty).2⟩
    · exact List.mem_map_of_mem (List.mem_filter.mpr ⟨ho, decide_eq_true hpos⟩)

theorem hasUrgentSaleDays_of_mem {saleDays : Dict String ℚ} {leadTimeDays : ℤ}
    {countries : List String} {country : String} {days : ℚ} (hc : country ∈ countries)
    (hdays : saleDays.get? country = some days) (hle : days ≤ leadTimeDays) :
    hasUrgentSaleDays saleDays leadTimeDays countries = true := by
  refine List.any_eq_true.mpr ⟨country, hc, ?_⟩
  rw [hdays, Option.any_some]
  exact decide_eq_true hle

/-- A country with a quantity is part of what the SKU needs. -/
theorem needed_of_countryQty {sku country : String} {qty : ℤ}
    (h : (engineCountryQty U env sku).get? country = some qty) : Needed U env sku := by
  have hnonneg : ∀ x ∈ (engineCountryQty U env sku).values, 0 ≤ x := by
    intro x hx
    obtain ⟨entry, he, rfl⟩ := List.mem_map.mp hx
    exact (engineCountryQty_pos (Dict.get?_eq_some_iff.mpr he)).2.le
  have hmem : qty ∈ (engineCountryQty U env sku).values :=
    List.mem_map_of_mem (Dict.get?_eq_some_iff.mp h)
  exact Or.inr ((engineCountryQty_pos h).2.trans_le (List.single_le_sum hnonneg _ hmem))

/-- **A country at risk is sent units** exactly if its stock is below the target and no match
raises. -/
theorem AtRisk.urgentlySent_iff {leadTimeDays : ℤ}
    (hgen : env.config.suggestionGenerationEnabled = true)
    (hconfig : checkConfig env.config = .ok leadTimeDays) {sku country : String} {v : ℚ}
    {stock : InventoryStock} (h : AtRisk U env leadTimeDays sku country v stock)
    (db : SuggestionDb) :
    UrgentlySent U env db sku country ↔ (stock.total : ℚ) < effectiveTargetDays env * v ∧
    CodesReturn U env := by
  have hqty : ∀ qty, (engineCountryQty U env sku).get? country = some qty ↔
      (stock.total : ℚ) < effectiveTargetDays env * v ∧
          ⌈(effectiveTargetDays env : ℚ) * v - stock.total⌉ = qty :=
    fun qty => get?_engineCountryQty_of_record h.sells h.positive h.record h.reportable h.allowed
  constructor
  · intro hsent
    obtain ⟨db', s, itemId, item, hp, hi, hsku, -, hpos⟩ := hsent
    obtain ⟨lead, hret, hstored⟩ := hp.stored_iff
    refine ⟨?_, codesReturn_iff.mpr hret.codes⟩
    obtain ⟨sku', -, hitem⟩ := (hstored item).mp ⟨itemId, hi⟩
    have hf := fields_of_engineItem hitem
    obtain rfl : sku' = sku := hf.commoditySku.symm.trans hsku
    rw [hf.countries] at hpos
    cases hget : (engineCountryQty U env sku').get? country with
    | none =>
      rw [Dict.getD, hget, Option.getD_none] at hpos
      exact absurd hpos (lt_irrefl 0)
    | some qty => exact ((hqty qty).mp hget).1
  · intro hcond
    obtain ⟨hlt, hcodes⟩ := hcond
    have hget := (hqty _).mpr ⟨hlt, rfl⟩
    have hpos := (engineCountryQty_pos hget).2
    obtain ⟨db', s, itemId, item, hp, hi, hitem⟩ :=
      exists_stored_item ⟨hgen, hconfig, codesReturn_iff.mp hcodes⟩ h.enabled
        (needed_of_countryQty hget) db
    have hf := fields_of_engineItem hitem
    obtain ⟨days, hdays, hle⟩ := h.short
    refine ⟨db', s, itemId, item, hp, hi, hf.commoditySku, ?_, ?_⟩
    · rw [hf.urgent]
      exact hasUrgentSaleDays_of_mem (mem_positiveQtyCountries.mpr ⟨_, hget, hpos⟩) hdays hle
    · rw [hf.countries, Dict.getD, hget]
      exact hpos

/-- The sale days of a run are the stock by the sales. -/
theorem saleDays_of_record {sku country : String} {v days : ℚ} {stock : InventoryStock}
    (hsells : ((engineVelocity U env).getD sku .empty).get? country = some v)
    (hrecord : (engineStep2 U env).2.get? (sku, country) = some stock)
    (hdays : ((engineStep2 U env).1.getD sku .empty).get? country = some days) :
    days = stock.total / v := by
  set step2 := runStep2 U env.plan env.stock env.rules (loadPhysicalSkuResolver env.aliases)
    env.euCountries
    (engineVelocity U env) (some (enabledSkus env)) with hstep2
  have hinventory : step2.2.get? (sku, country) = some stock := by
    have hfilter : (engineStep2 U env).2 = step2.2.filter fun key _ =>
      isReportableCountryCode U (.str key.2) := rfl
    rw [hfilter, Dict.get?_filter] at hrecord
    exact (Option.filter_eq_some_iff.mp hrecord).1
  rw [get?_engineSaleDays, fst_runStep2, get?_saleDays, hsells, ← hstep2, hinventory,
    Option.bind_some, Option.bind_some] at hdays
  split_ifs at hdays
  exact (Option.some.inj hdays).symm

/-- Where the lead time of the SKU is below the target, so is the stock of its countries at
risk. -/
theorem AtRisk.below_target {leadTimeDays : ℤ} {sku country : String} {v : ℚ}
    {stock : InventoryStock} (h : AtRisk U env leadTimeDays sku country v stock)
    (hlead : engineLeadTime env leadTimeDays sku < effectiveTargetDays env) :
    (stock.total : ℚ) < effectiveTargetDays env * v := by
  obtain ⟨days, hdays, hle⟩ := h.short
  rw [saleDays_of_record h.sells h.record hdays] at hle
  have hlead' : (engineLeadTime env leadTimeDays sku : ℚ) <
    effectiveTargetDays env := by exact_mod_cast hlead
  exact (div_lt_iff₀ h.positive).mp (hle.trans_lt hlead')

/-- The SKU sells in an allowed country where the run finds neither stock nor transit. -/
structure UnknownStock (U : CharTable) (env : EngineEnv) (sku country : String) : Prop where
  enabled : sku ∈ enabledSkus env
  allowed : Allowed env country
  reportable : isReportableCountryCode U (.str country) = true
  sells : ∃ v, ((engineVelocity U env).getD sku .empty).get? country = some v ∧ 0 < v
  unknown : (engineStep2 U env).2.get? (sku, country) = none

/-- The item warns that stock of the country is missing. -/
def Warned (item : SuggestionItem) (country : String) : Prop :=
  (⟨.missingInventoryRecord, country⟩ : CalculationWarning) ∈ item.calculationWarnings

/-- An item of the database. -/
def itemOf (db : SuggestionDb) (suggestionId itemId : ℕ) : Option SuggestionItem :=
  (db.suggestions.get? suggestionId).bind fun s => s.items.get? itemId

theorem UnknownStock.mem_missing {sku country : String} (h : UnknownStock U env sku country) :
    country ∈ missingInventoryCountries U ((engineVelocity U env).getD sku .empty)
    (engineStep2 U env).2 sku
      env.config.allowedCountries := by
  obtain ⟨v, hv, hpos⟩ := h.sells
  have hallowed : (env.config.allowedCountries.all fun l => country ∈ l) = true := by
    rw [Option.all_eq_true]
    exact fun l hl => decide_eq_true (h.allowed l hl)
  rw [missingInventoryCountries, Dict.mem_keys_iff]
  refine ⟨v, ?_⟩
  rw [Dict.get?_filter, hv]
  refine Option.filter_eq_some_iff.mpr ⟨rfl, ?_⟩
  rw [decide_eq_true hpos, h.reportable, hallowed, h.unknown]
  rfl

/-- A missing country that is reportable is warned of. -/
theorem mem_buildCalculationWarnings {countryQty : Dict String ℤ} {saleDays : Dict String ℚ}
    {added missing : List String} {country : String}
    (hreport : isReportableCountryCode U (.str country) = true) (hm : country ∈ missing) :
    (⟨.missingInventoryRecord, country⟩ : CalculationWarning) ∈
      buildCalculationWarnings U countryQty saleDays added missing := by
  have hcode : warningOf U saleDays added missing country = some .missingInventoryRecord := by
    unfold warningOf
    rw [hreport, if_neg (by decide), if_pos hm]
  refine List.mem_filterMap.mpr ⟨country, ?_, by rw [hcode]; rfl⟩
  rw [List.mem_insertionSort, List.mem_union_iff]
  exact Or.inr hm

/-- A patch that leaves the quantities by country as they are keeps the warnings and the
sales of the item. -/
theorem patchItem_keeps {skuConfigs : Dict String SkuConfig} {suggestionId itemId : ℕ}
    {patch : SuggestionItemPatch} {db db' : SuggestionDb} {item : SuggestionItem}
    (hitem : itemOf db suggestionId itemId = some item) (hpatch : patch.countryBreakdown = none)
    (h : patchItem U skuConfigs suggestionId itemId patch db = .ok db') :
    ∃ item', itemOf db' suggestionId itemId = some item' ∧
      item'.calculationWarnings = item.calculationWarnings ∧
      item'.velocitySnapshot = item.velocitySnapshot := by
  unfold patchItem at h
  obtain ⟨parent, hparent, hget⟩ := Option.bind_eq_some_iff.mp hitem
  rw [hparent] at h
  simp only at h
  split_ifs at h
  rw [hget] at h
  simp only at h
  split at h
  · cases h
  · refine ⟨patchedItem U (resolveEffectiveLeadTimeDays skuConfigs parent item)
      (suggestionDemandDate U parent) item patch, ?_, ?_, ?_⟩
    · rw [← Except.ok.inj h, itemOf, setItem, Dict.get?_set_self, Option.bind_some,
        Dict.get?_set_self]
    · unfold patchedItem
      rw [hpatch]
    · unfold patchedItem
      rw [hpatch]

/-- **Unknown stock is a warning** of every SKU that is stored, and a patch that leaves
the quantities by country as they are keeps it. -/
theorem unknownStock_warned (U : CharTable) {env : EngineEnv} {db db' : SuggestionDb}
    {s : Suggestion} (h : Persisted U env db db' s) :
    (∀ sku country, UnknownStock U env sku country → Needed U env sku →
      ∃ itemId item, s.items.get? itemId = some item ∧ item.commoditySku = sku ∧
      Warned item country) ∧
    ∀ skuConfigs itemId patch later later' item,
      itemOf later db.nextSuggestionId itemId = some item → patch.countryBreakdown = none →
        patchItem U skuConfigs db.nextSuggestionId itemId patch later = .ok later' →
          ∃ item', itemOf later' db.nextSuggestionId itemId = some item' ∧
          item'.velocitySnapshot = item.velocitySnapshot ∧ ∀ country, Warned item country →
          Warned item' country := by
  constructor
  · intro sku country hunknown hneeded
    obtain ⟨lead, -, hstored⟩ := h.stored_iff
    obtain ⟨item, hitem⟩ := (@engineItem_isSome_iff U env lead sku).mpr hneeded
    obtain ⟨itemId, hi⟩ := (hstored item).mpr ⟨sku, hunknown.enabled, hitem⟩
    have hf := fields_of_engineItem hitem
    refine ⟨itemId, item, hi, hf.commoditySku, ?_⟩
    rw [Warned, hf.warnings]
    exact mem_buildCalculationWarnings hunknown.reportable hunknown.mem_missing
  · intro skuConfigs itemId patch later later' item hitem hpatch hok
    obtain ⟨item', hitem', hwarnings, hvelocity⟩ := patchItem_keeps hitem hpatch hok
    refine ⟨item', hitem', hvelocity, fun country hw => ?_⟩
    rw [Warned, hwarnings]
    exact hw

theorem unknownStock_warned_example :
    (∀ sku country, UnknownStock .ascii firstEnv sku country → Needed .ascii firstEnv sku →
      ∃ itemId item, firstSuggestion.items.get? itemId = some item ∧ item.commoditySku = sku ∧
      Warned item country) ∧
    ∀ skuConfigs itemId patch later later' item, itemOf later 1 itemId = some item →
      patch.countryBreakdown = none →
        patchItem .ascii skuConfigs 1 itemId patch later = .ok later' →
          ∃ item', itemOf later' 1 itemId = some item' ∧
          item'.velocitySnapshot = item.velocitySnapshot ∧ ∀ country, Warned item country →
          Warned item' country :=
  unknownStock_warned .ascii ⟨apply_firstEnv, by decide, rfl⟩

/-- The stock of `B` in the US is unknown, and what it has at home covers the safety stock:
it has no item, and no item warns. -/
theorem unknownStock_silent : ∃ db' s, Persisted .ascii (usEnv none 10) ⟨.empty, 1, 1⟩ db' s ∧
    UnknownStock .ascii (usEnv none 10) "B" "US" ∧
    ∀ itemId item, s.items.get? itemId = some item → ∀ country, ¬ Warned item country := by
  have hunknown : UnknownStock .ascii (usEnv none 10) "B" "US" := {
    enabled := by decide +kernel
    allowed := by intro l hl; cases hl
    reportable := isReportable_US .ascii
    sells := ⟨1, by decide +kernel, one_pos⟩
    unknown := by decide +kernel }
  have hwarnings : ((engineItems .ascii (usEnv none 10)).toOption.map fun items =>
      items.map SuggestionItem.calculationWarnings) = some [[]] := by decide +kernel
  obtain ⟨db', s, hp⟩ :=
    exists_persisted (runReturns_usEnv none 10) (by decide +kernel) needed_usEnv ⟨.empty, 1, 1⟩
  refine ⟨db', s, hp, hunknown, fun itemId item hi country hw => ?_⟩
  obtain ⟨items, hitems, -, -, rfl⟩ := persisted_iff.mp hp
  rw [hitems] at hwarnings
  have hall : items.map SuggestionItem.calculationWarnings = [[]] := Option.some.inj hwarnings
  have hmem : item.calculationWarnings ∈ items.map SuggestionItem.calculationWarnings :=
    List.mem_map_of_mem (mem_of_numberItems hi)
  rw [hall, List.mem_singleton] at hmem
  rw [Warned, hmem] at hw
  exact absurd hw (by simp)

end Output

end Restock
