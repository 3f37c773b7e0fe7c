/-
# The inputs that a run stores with its items (`engine/runner.py`)

A run explains every item by the numbers it was computed from. The explanation computes
both quantities once more: the units of a country from the rounded target, where step 3
rounds after it has taken off the stock, and the units to buy from sums of its own. It
comes to the same as the item (`inputs_reproduce`).
-/
import Restock.CountryQty

namespace Restock

open PyText

/-! ### The snapshot -/

/-- The numbers behind the units of a country. -/
structure RestockInputs where
  effectiveTargetDays : ℤ
  dailyVelocity : ℚ
  overseasAvailable : ℤ
  overseasReserved : ℤ
  inTransit : ℤ
  overseasStockTotal : ℤ
  targetStockQty : ℤ
  rawRestockQty : ℤ
  finalRestockQty : ℤ
  saleDays : Option ℚ
  restockDate : Option String
deriving DecidableEq

/-- The numbers behind the units to buy. -/
structure PurchaseInputs where
  countryRestockQtyTotal : ℤ
  countryRestockQtyByCountry : Dict String ℤ
  dailyVelocityTotal : ℚ
  dailyVelocityByCountry : Dict String ℚ
  safetyStockQty : ℤ
  localStockAvailable : ℤ
  localStockReserved : ℤ
  localStockTotal : ℤ
  rawPurchaseQty : ℤ
  finalPurchaseQty : ℤ
deriving DecidableEq

structure CalculationInputs where
  version : ℕ
  generatedAt : String
  demandDate : String
  targetDays : ℤ
  demandDays : ℕ
  effectiveTargetDays : ℤ
  safetyStockDays : ℤ
  purchase : PurchaseInputs
  countries : Dict String RestockInputs
deriving DecidableEq

/-- `sorted(d.items())`. -/
def sortedItems {V : Type} (d : Dict String V) :
    List (String × V) := d.items.insertionSort fun a b => a.1 ≤ b.1

def restockInputs (effectiveTargetDays : ℤ) (velocityForSku : Dict String ℚ)
    (inventoryForSku : String → Option InventoryStock) (saleDaysForSku : Dict String ℚ)
    (restockDatesForSku : Dict String (Option String)) (country : String) (finalRestockQty : ℤ) :
    RestockInputs :=
  let dailyVelocity := velocityForSku.getD country 0
  let stock := inventoryForSku country
  let overseasAvailable := stock.elim 0 InventoryStock.available
  let overseasReserved := stock.elim 0 InventoryStock.reserved
  let inTransit := stock.elim 0 InventoryStock.inTransit
  let overseasTotal := overseasAvailable + overseasReserved + inTransit
  let targetStockQty := ⌈(effectiveTargetDays : ℚ) * dailyVelocity⌉
  { effectiveTargetDays := effectiveTargetDays
    dailyVelocity := dailyVelocity
    overseasAvailable := overseasAvailable
    overseasReserved := overseasReserved
    inTransit := inTransit
    overseasStockTotal := overseasTotal
    targetStockQty := targetStockQty
    rawRestockQty := targetStockQty - overseasTotal
    finalRestockQty := finalRestockQty
    saleDays := saleDaysForSku.get? country
    restockDate := restockDatesForSku.getD country none }

def purchaseInputs (safetyStockDays : ℤ) (countryQtyForSku : Dict String ℤ)
    (velocityForSku : Dict String ℚ) (localStockForSku : Option LocalStock) (purchaseQty : ℤ) :
    PurchaseInputs :=
  let countryRestockTotal := countryQtyForSku.values.sum
  let velocityTotal := velocityForSku.values.sum
  let safetyStockQty := ⌈velocityTotal * safetyStockDays⌉
  let localAvailable := localStockForSku.elim 0 LocalStock.available
  let localReserved := localStockForSku.elim 0 LocalStock.reserved
  let localTotal := localAvailable + localReserved
  { countryRestockQtyTotal := countryRestockTotal
    countryRestockQtyByCountry := Dict.ofList (sortedItems countryQtyForSku)
    dailyVelocityTotal := velocityTotal
    dailyVelocityByCountry := Dict.ofList (sortedItems velocityForSku)
    safetyStockQty := safetyStockQty
    localStockAvailable := localAvailable
    localStockReserved := localReserved
    localStockTotal := localTotal
    rawPurchaseQty := countryRestockTotal - localTotal + safetyStockQty
    finalPurchaseQty := purchaseQty }

/-- `_build_calculation_inputs_snapshot`. -/
def buildCalculationInputsSnapshot (generatedAt demandDate : String) (targetDays : ℤ)
    (demandDays : ℕ) (effectiveTargetDays safetyStockDays : ℤ) (countryQtyForSku : Dict String ℤ)
    (velocityForSku : Dict String ℚ) (inventoryForSku : String → Option InventoryStock)
    (localStockForSku : Option LocalStock) (saleDaysForSku : Dict String ℚ)
    (restockDatesForSku : Dict String (Option String)) (purchaseQty : ℤ) :
    CalculationInputs where
  version := 1
  generatedAt := generatedAt
  demandDate := demandDate
  targetDays := targetDays
  demandDays := demandDays
  effectiveTargetDays := effectiveTargetDays
  safetyStockDays := safetyStockDays
  purchase := purchaseInputs safetyStockDays countryQtyForSku velocityForSku
    localStockForSku purchaseQty
  countries := Dict.ofList
    (((sortedItems countryQtyForSku).filter fun entry => 0 < entry.2).map fun entry =>
    (entry.1, restockInputs effectiveTargetDays velocityForSku inventoryForSku saleDaysForSku
      restockDatesForSku entry.1
      entry.2))

section Stored

variable (U : CharTable) (env : EngineEnv) (generatedAt : String)

/-- The inputs of a SKU, as the run puts them next to its item. -/
def engineInputs (sku : String) : CalculationInputs :=
  buildCalculationInputsSnapshot generatedAt env.demandDate env.config.targetDays env.demandDays
    (effectiveTargetDays env)
    env.config.safetyStockDays (engineCountryQty U env sku) ((engineVelocity U env).getD sku .empty)
    (fun country => (engineStep2 U env).2.get? (sku, country)) (env.localStock.get? sku)
    ((engineStep2 U env).1.getD sku .empty)
      (demandRestockDates (engineCountryQty U env sku) (some env.demandDate))
    (enginePurchaseQty U env sku)

/-- The rows to insert: the items with their inputs. -/
def engineRows (leadTimeDays : ℤ) : List (SuggestionItem × CalculationInputs) :=
  (enabledSkus env).filterMap fun sku =>
    (engineItem U env leadTimeDays sku).map fun item => (item, engineInputs U env generatedAt sku)

theorem nodup_zipIdx {A : Type} (firstId : ℕ) (rows : List A) :
    (((rows.zipIdx firstId).map Prod.swap).map Prod.fst).Nodup := by
  have hids : ((rows.zipIdx firstId).map Prod.swap).map Prod.fst =
      List.range' firstId rows.length := by
    rw [List.map_map, ← List.zipIdx_map_snd]
    rfl
  rw [hids]
  exact List.nodup_range'

/-- Rows by the ids that the sequence hands out. -/
def numberRows {A : Type} (firstId : ℕ) (rows : List A) : Dict ℕ A :=
  ⟨(rows.zipIdx firstId).map Prod.swap, nodup_zipIdx firstId rows⟩

/-- The column `calculation_inputs_snapshot` of the items that a run stores. -/
def storedInputs (db : SuggestionDb) : Dict ℕ CalculationInputs :=
  match checkConfig env.config with
  | .error _ => .empty
  | .ok leadTimeDays =>
    numberRows db.nextItemId ((engineRows U env generatedAt leadTimeDays).map Prod.snd)

end Stored

/-! ### The snapshot and the item -/

/-- The inputs come to the quantities of the item. -/
structure Reproduces (inputs : CalculationInputs) (item : SuggestionItem) : Prop where
  countries : ∀ country, country ∈ inputs.countries.keys ↔ country ∈ item.countryBreakdown.keys
  restock : ∀ country entry, inputs.countries.get? country = some entry →
    entry.finalRestockQty = entry.rawRestockQty ∧
      item.countryBreakdown.get? country = some entry.finalRestockQty
  purchase : inputs.purchase.finalPurchaseQty = max 0 inputs.purchase.rawPurchaseQty ∧
    item.purchaseQty = inputs.purchase.finalPurchaseQty

theorem get?_numberRows {A : Type} {firstId id : ℕ} {rows : List A} {a : A} :
    (numberRows firstId rows).get? id = some a ↔ firstId ≤ id ∧ rows[id - firstId]? = some a := by
  rw [Dict.get?_eq_some_iff]
  unfold numberRows
  constructor
  · intro h
    obtain ⟨⟨b, i⟩, hm, he⟩ := List.mem_map.mp h
    obtain ⟨rfl, rfl⟩ := Prod.mk.inj he
    exact List.mk_mem_zipIdx_iff_le_and_getElem?_sub.mp hm
  · intro h
    exact List.mem_map.mpr ⟨(a, id), List.mk_mem_zipIdx_iff_le_and_getElem?_sub.mpr h, rfl⟩

theorem mem_sortedItems {V : Type} {d : Dict String V} {entry : String × V} :
    entry ∈ sortedItems d ↔ entry ∈ d.items :=
  List.mem_insertionSort _

/-- The entries are the positive quantities. -/
theorem get?_countries {inputs : CalculationInputs} {countryQtyForSku : Dict String ℤ}
    {f : String → ℤ → RestockInputs}
    (h : inputs.countries = Dict.ofList
    (((sortedItems countryQtyForSku).filter fun entry => 0 < entry.2).map fun entry =>
      (entry.1, f entry.1 entry.2))) {country : String} {entry : RestockInputs} :
    inputs.countries.get? country = some entry ↔
      ∃ qty, countryQtyForSku.get? country = some qty ∧ 0 < qty ∧ entry = f country qty := by
  have hmem : ∀ v, (country, v) ∈
      ((sortedItems countryQtyForSku).filter fun entry => 0 < entry.2).map (fun entry =>
      (entry.1, f entry.1 entry.2)) ↔ ∃ qty, countryQtyForSku.get? country = some qty ∧ 0 < qty ∧
          v = f country qty := by
    intro v
    simp only [List.mem_map, List.mem_filter, decide_eq_true_eq, mem_sortedItems,
      Dict.get?_eq_some_iff, Prod.exists, Prod.mk.injEq]
    constructor
    · intro hv
      obtain ⟨_, qty, ⟨hm, hpos⟩, rfl, rfl⟩ := hv
      exact ⟨qty, hm, hpos, rfl⟩
    · intro hv
      obtain ⟨qty, hm, hpos, rfl⟩ := hv
      exact ⟨country, qty, ⟨hm, hpos⟩, rfl, rfl⟩
  rw [h, Dict.get?_ofList_iff, hmem]
  intro v v' hv hv'
  obtain ⟨qty, hq, -, rfl⟩ := (hmem v).mp hv
  obtain ⟨qty', hq', -, rfl⟩ := (hmem v').mp hv'
  rw [Option.some.inj (hq.symm.trans hq')]

section Reproduce

variable {U : CharTable} {env : EngineEnv} {generatedAt : String}

theorem get?_engineInputs {sku country : String} {entry : RestockInputs} :
    (engineInputs U env generatedAt sku).countries.get? country = some entry ↔
      ∃ qty, (engineCountryQty U env sku).get? country = some qty ∧ 0 < qty ∧
        entry = restockInputs (effectiveTargetDays env) ((engineVelocity U env).getD sku .empty)
          (fun country => (engineStep2 U env).2.get? (sku, country))
          ((engineStep2 U env).1.getD sku .empty)
          (demandRestockDates (engineCountryQty U env sku) (some env.demandDate)) country qty :=
  @get?_countries (engineInputs U env generatedAt sku) (engineCountryQty U env sku)
    _ rfl country entry

/-- **Rounding before or after the stock is taken off**: what the snapshot computes is what
step 3 computed. -/
theorem rawRestockQty_eq {sku country : String} {qty : ℤ}
    (h : (engineCountryQty U env sku).get? country = some qty) (saleDays : Dict String ℚ)
    (dates : Dict String (Option String)) :
    (restockInputs (effectiveTargetDays env) ((engineVelocity U env).getD sku .empty)
      (fun country => (engineStep2 U env).2.get? (sku, country))
      saleDays dates country qty).rawRestockQty = qty := by
  obtain ⟨hqty, -, -⟩ := get?_engineCountryQty.mp h
  rw [get?_countryQtyOf] at hqty
  obtain ⟨v, hv, hqty⟩ := Option.bind_eq_some_iff.mp hqty
  obtain ⟨stock, hs, hqty⟩ := Option.bind_eq_some_iff.mp hqty
  have hvelocity : ((engineVelocity U env).getD sku .empty).getD country 0 = v := by
    rw [Dict.getD, hv, Option.getD_some]
  split_ifs at hqty
  unfold restockInputs
  simp only [hvelocity, hs, Option.elim_some]
  rw [← Option.some.inj hqty, Int.ceil_sub_intCast]
  rfl

theorem finalPurchaseQty_eq (sku : String) : enginePurchaseQty U env sku =
    max 0 (engineInputs U env generatedAt sku).purchase.rawPurchaseQty := by
  unfold enginePurchaseQty computeTotal engineInputs buildCalculationInputsSnapshot purchaseInputs
  simp only
  cases env.localStock.get? sku with
  | none => rfl
  | some stock => rfl

/-- An item and its inputs agree. -/
theorem reproduces_of_engineItem {leadTimeDays : ℤ} {sku : String} {item : SuggestionItem}
    (h : engineItem U env leadTimeDays sku = some item) :
    Reproduces (engineInputs U env generatedAt sku) item := by
  have hf := fields_of_engineItem h
  refine ⟨fun country => ?_, fun country entry he => ?_, finalPurchaseQty_eq sku, hf.purchase⟩
  · rw [Dict.mem_keys_iff, Dict.mem_keys_iff, hf.countries]
    simp only [get?_engineInputs]
    constructor
    · intro hc
      obtain ⟨-, qty, hq, -, -⟩ := hc
      exact ⟨qty, hq⟩
    · intro hc
      obtain ⟨qty, hq⟩ := hc
      exact ⟨_, qty, hq, (engineCountryQty_pos hq).2, rfl⟩
  · obtain ⟨qty, hq, -, rfl⟩ := get?_engineInputs.mp he
    rw [hf.countries, rawRestockQty_eq hq, hq]
    exact ⟨rfl, rfl⟩

/-- The stored items are the rows to insert, by the same ids as their inputs. -/
theorem Persisted.items_eq {db db' : SuggestionDb} {s : Suggestion} (h : Persisted U env db db' s)
    (generatedAt : String) :
    ∃ leadTimeDays, checkConfig env.config = .ok leadTimeDays ∧
      s.items = numberRows db.nextItemId
      ((engineRows U env generatedAt leadTimeDays).map Prod.fst) := by
  obtain ⟨items, hitems, hne, -, rfl⟩ := persisted_iff.mp h
  obtain ⟨leadTimeDays, hret, rfl⟩ := engineItems_eq hitems hne
  refine ⟨leadTimeDays, hret.config, ?_⟩
  have hrows : (engineRows U env generatedAt leadTimeDays).map Prod.fst =
      (enabledSkus env).filterMap (engineItem U env leadTimeDays) := by
    unfold engineRows
    rw [List.map_filterMap]
    refine List.filterMap_congr fun sku _ => ?_
    rw [Option.map_map]
    exact Option.map_id'
  rw [hrows]
  rfl

/-- An item that a run has stored is that of a SKU, with the inputs of the SKU next to it. -/
theorem Persisted.stored_row {db db' : SuggestionDb} {s : Suggestion} (h : Persisted U env db db' s)
    (generatedAt : String) {itemId : ℕ} {item : SuggestionItem}
    (hi : s.items.get? itemId = some item) :
    ∃ leadTimeDays sku, engineItem U env leadTimeDays sku = some item ∧
      (storedInputs U env generatedAt db).get? itemId =
      some (engineInputs U env generatedAt sku) := by
  obtain ⟨leadTimeDays, hconfig, hitems⟩ := h.items_eq generatedAt
  rw [hitems, get?_numberRows, List.getElem?_map, Option.map_eq_some_iff] at hi
  obtain ⟨hle, ⟨item', inputs⟩, hrow, rfl⟩ := hi
  obtain ⟨sku, -, hsku⟩ := List.mem_filterMap.mp (List.mem_of_getElem? hrow)
  obtain ⟨item'', hitem, hpair⟩ := Option.map_eq_some_iff.mp hsku
  obtain ⟨rfl, rfl⟩ := Prod.mk.inj hpair
  refine ⟨leadTimeDays, sku, hitem, ?_⟩
  unfold storedInputs
  rw [hconfig]
  simp only
  rw [get?_numberRows, List.getElem?_map, hrow]
  exact ⟨hle, rfl⟩

end Reproduce

/-- **The stored explanation reproduces the result.** Every item that a run stores has
inputs next to it, and both quantities computed from them are those of the item. -/
theorem inputs_reproduce (U : CharTable) (env : EngineEnv) (generatedAt : String)
    (db db' : SuggestionDb) (s : Suggestion) (h : Persisted U env db db' s) (itemId : ℕ)
    (item : SuggestionItem) (hi : s.items.get? itemId = some item) :
    ∃ inputs, (storedInputs U env generatedAt db).get? itemId = some inputs ∧
    Reproduces inputs item := by
  obtain ⟨_, sku, hitem, hinputs⟩ := h.stored_row generatedAt hi
  exact ⟨engineInputs U env generatedAt sku, hinputs, reproduces_of_engineItem hitem⟩

theorem inputs_reproduce_us :
    ∃ db' s itemId item, Persisted .ascii (usEnv none 10) ⟨.empty, 1, 1⟩ db' s ∧
      s.items.get? itemId = some item ∧ item.countryBreakdown.get? "US" = some 20 ∧
        ∃ inputs, (storedInputs .ascii (usEnv none 10) "2026-04-20T08:00:00+08:00"
        ⟨.empty, 1, 1⟩).get? itemId = some inputs ∧ Reproduces inputs item := by
  have hsku : "A" ∈ enabledSkus (usEnv none 10) := by decide +kernel
  have hqty : (engineCountryQty .ascii (usEnv none 10) "A").get? "US" = some 20 := by decide +kernel
  obtain ⟨db', s, itemId, item, hp, hi, hitem⟩ :=
    exists_stored_item (runReturns_usEnv none 10) hsku needed_usEnv ⟨.empty, 1, 1⟩
  exact ⟨db', s, itemId, item, hp, hi, by rw [(fields_of_engineItem hitem).countries, hqty],
    inputs_reproduce .ascii (usEnv none 10) "2026-04-20T08:00:00+08:00" ⟨.empty, 1, 1⟩
      db' s hp itemId item hi⟩

end Restock
