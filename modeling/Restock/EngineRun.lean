/-
# The engine run (`engine/runner.py`, steps 3, 4 and 6)

For every enabled SKU the engine derives the quantity to send to each country, the
quantity to buy, the split over warehouses and the urgency, and keeps what it
derived as an item of a new suggestion. What an item holds when it is stored is
`EngineItem` (`engineItem_spec`): positive quantities of reportable countries, a
total that is their sum, and warehouse splits that are empty or add up.

The sales of step 1, the stock at home, the orders and the postal-code match of
step 5 are inputs of the run. A match that raises ends the run.
-/
import Restock.Lib.Checked
import Restock.SaleDays
import Restock.WarehouseSplit

namespace Restock

open PyText Query

/-! ### Suggestions -/

/-- The reasons for a warning. -/
inductive WarningCode
  | missingInventoryRecord | countryAddedAfterGeneration | missingVelocity | nonReportableCountry
deriving DecidableEq, Repr

/-- A warning for a country of an item. -/
structure CalculationWarning where
  code : WarningCode
  country : String
deriving DecidableEq, Repr

/-- How step 5 has split a country. -/
structure AllocationExplanation where
  allocationMode : AllocationMode
  matchedOrderQty : ℤ
  unknownOrderQty : ℤ
  eligibleWarehouses : List String
deriving DecidableEq

/-- An item of a suggestion. -/
structure SuggestionItem where
  commoditySku : String
  totalQty : ℤ
  countryBreakdown : Dict String ℤ
  warehouseBreakdown : Dict String (Dict String ℤ)
  allocationSnapshot : Option (Dict String AllocationExplanation)
  velocitySnapshot : Dict String ℚ
  saleDaysSnapshot : Dict String ℚ
  calculationWarnings : List CalculationWarning
  urgent : Bool
  purchaseQty : ℤ
  restockDates : Dict String (Option String)
deriving DecidableEq

/-- The status of a suggestion. -/
inductive SuggestionStatus
  | draft | archived | error
deriving DecidableEq, Repr

/-- A suggestion with its items by id; of its configuration snapshot, what is read
again. -/
structure Suggestion where
  status : SuggestionStatus
  snapshotLeadTimeDays : Option ℤ
  snapshotDemandDate : Option String
  totalItems : ℕ
  procurementItemCount : ℕ
  restockItemCount : ℕ
  items : Dict ℕ SuggestionItem
deriving DecidableEq

/-! ### What the engine reads -/

/-- The stock of a SKU at home. -/
structure LocalStock where
  available : ℤ
  reserved : ℤ
deriving DecidableEq, Repr

def LocalStock.total (stock : LocalStock) : ℤ := stock.available + stock.reserved

/-- A row of `sku_config`. -/
structure SkuConfig where
  enabled : Bool
  leadTimeDays : Option ℤ
deriving DecidableEq, Repr

/-- What the engine reads of `global_config`. -/
structure GlobalConfig where
  suggestionGenerationEnabled : Bool
  targetDays : ℤ
  bufferDays : ℤ
  leadTimeDays : Option ℤ
  safetyStockDays : ℤ
  allowedCountries : Option (List String)

/-- Everything a run reads. -/
structure EngineEnv where
  config : GlobalConfig
  demandDays : ℕ
  demandDate : String
  skuConfigs : Dict String SkuConfig
  velocity : Velocity
  plan : Plan
  stock : StockDb
  rules : RuleTable
  aliases : PhysicalItemTable
  euCountries : List String
  localStock : Dict String LocalStock
  countryWarehouses : Dict String (List String)
  orders : Dict (String × String) (List (Option String × ℤ))
  matchWarehouses : String → Option String → Except String (List String)

/-- The warehouses that step 5 finds for a code; none where it raises. -/
def EngineEnv.foundWarehouses (env : EngineEnv) (country : String) (postalCode : Option String) :
    List String :=
  ((env.matchWarehouses country postalCode).toOption).getD []

section Steps

variable (U : CharTable)

/-! ### Steps 3, 4 and 6 -/

/-- `compute_country_qty` for one SKU: the units that are short of the target, in
the countries where it sells and has a stock record. -/
def countryQtyOf (inventory : InventoryMap) (targetDays : ℤ) (sku : String)
    (countryMap : Dict String ℚ) : Dict String ℤ :=
  (countryMap.filter fun country v => isReportableCountryCode U (.str country) && decide (0 < v) &&
    (inventory.get? (sku, country)).any fun stock =>
      decide ((0 : ℚ) < targetDays * v - stock.total)).mapVal
      fun country v => (inventory.get? (sku, country)).elim 0 fun stock =>
        ⌈(targetDays : ℚ) * v - stock.total⌉

/-- `_filter_reportable_country_map`. -/
def filterReportableCountryMap {V : Type} (countryMap : Dict String V) : Dict String V :=
  countryMap.filter fun country _ => isReportableCountryCode U (.str country)

/-- `_filter_allowed_country_map`. -/
def filterAllowedCountryMap {V : Type} (allowedCountries : Option (List String))
    (countryMap : Dict String V) : Dict String V :=
  (filterReportableCountryMap U countryMap).filter fun country _ =>
    allowedCountries.all fun l => country ∈ l

/-- `compute_total`. -/
def computeTotal (countryQtyForSku : Dict String ℤ) (velocityForSku : Dict String ℚ)
    (localStockForSku : Option LocalStock) (safetyStockDays : ℤ) : ℤ :=
  max 0 (countryQtyForSku.values.sum - localStockForSku.elim 0 LocalStock.total +
    ⌈velocityForSku.values.sum * safetyStockDays⌉)

/-- The countries with something to send. -/
def positiveQtyCountries (countryQtyForSku : Dict String ℤ) : List String :=
  (countryQtyForSku.items.filter fun entry => 0 < entry.2).map Prod.fst

/-- Some country has no more days than the lead time; a country without days is
ignored. -/
def hasUrgentSaleDays (saleDays : Dict String ℚ) (leadTimeDays : ℤ) (countries : List String) :
    Bool :=
  countries.any fun country => (saleDays.get? country).any fun days => days ≤ (leadTimeDays : ℚ)

/-- The restock dates: the demand date for every country with something to send. -/
def demandRestockDates (countryQtyForSku : Dict String ℤ) (demandDate : Option String) :
    Dict String (Option String) :=
  (countryQtyForSku.filter fun _ qty => 0 < qty).mapVal fun _ _ => demandDate

/-! ### Warnings -/

/-- The text of a warning. -/
def warningMessage : WarningCode → String
  | .missingInventoryRecord => "有销量但缺少库存或在途记录，未把未知库存按 0 参与补货计算"
  | .countryAddedAfterGeneration => "该国家是在建议单生成后手工新增，缺少原始可售天数"
  | .missingVelocity => "缺少该国家的销量速度，无法计算可售天数"
  | .nonReportableCountry => "该国家不可用于报表或补货计算"

def CalculationWarning.message (warning : CalculationWarning) :
    String := warningMessage warning.code

/-- The warning of one country; days that are there are numbers here. -/
def warningOf (saleDays : Dict String ℚ) (added missing : List String) (country : String) :
    Option WarningCode :=
  if !isReportableCountryCode U (.str country) then some .nonReportableCountry
  else if country ∈ missing then some .missingInventoryRecord
  else if (saleDays.get? country).isSome then none
  else if country ∈ added then some .countryAddedAfterGeneration
  else some .missingVelocity

/-- The warnings of an item, in the order of the countries. -/
def buildCalculationWarnings (countryQtyForSku : Dict String ℤ) (saleDays : Dict String ℚ)
    (added missing : List String) : List CalculationWarning :=
  ((positiveQtyCountries countryQtyForSku ∪ missing).insertionSort (· ≤ ·)).filterMap fun country =>
    (warningOf U saleDays added missing country).map fun code => ⟨code, country⟩

/-- The countries where a SKU sells but has no stock record. -/
def missingInventoryCountries (velocityForSku : Dict String ℚ) (inventory : InventoryMap)
    (sku : String) (allowedCountries : Option (List String)) : List String :=
  (velocityForSku.filter fun country rate => decide (0 < rate) && isReportableCountryCode U
    (.str country) && allowedCountries.all (fun l => country ∈ l) &&
    (inventory.get? (sku, country)).isNone).keys

/-! ### The items -/

/-- The SKUs whose configuration is enabled, in their order. -/
def enabledSkuList (skuConfigs : Dict String SkuConfig) : List String :=
  ((skuConfigs.filter fun _ config => config.enabled).keys).insertionSort (· ≤ ·)

/-- The SKUs of a run. -/
def enabledSkus (env : EngineEnv) : List String := enabledSkuList env.skuConfigs

/-- The sales that the run uses. -/
def engineVelocity (env : EngineEnv) :
    Velocity := env.velocity.mapVal fun _ m => filterReportableCountryMap U m

/-- Step 2 of the run. -/
def engineStep2 (env : EngineEnv) : SaleDaysMap × InventoryMap :=
  let step2 := runStep2 U env.plan env.stock env.rules (loadPhysicalSkuResolver env.aliases)
    env.euCountries
    (engineVelocity U env) (some (enabledSkus env))
  (step2.1.mapVal fun _ m => filterReportableCountryMap U m,
    step2.2.filter fun key _ => isReportableCountryCode U (.str key.2))

/-- The days that a run plans for. -/
def effectiveTargetDays (env : EngineEnv) : ℤ := env.config.targetDays + env.demandDays

/-- The quantities of a SKU by country, of steps 3 and 4. -/
def engineCountryQty (env : EngineEnv) (sku : String) : Dict String ℤ :=
  filterAllowedCountryMap U env.config.allowedCountries
    (countryQtyOf U (engineStep2 U env).2 (effectiveTargetDays env) sku
      ((engineVelocity U env).getD sku .empty))

/-- Step 5 for the countries of a SKU. -/
def engineAllocations (env : EngineEnv) (sku : String) : Dict String CountryAllocationResult :=
  ((engineCountryQty U env sku).filter fun _ qty => 0 < qty).mapVal fun country qty =>
    explainCountryQtySplit (env.foundWarehouses country) qty (env.orders.getD (sku, country) [])
      (env.countryWarehouses.getD country [])

/-- The codes that step 5 matches for a SKU, in its order. A SKU that is passed over has no
country with a quantity. -/
def matchedCodes (env : EngineEnv) (sku : String) : List (String × Option String) :=
  (positiveQtyCountries (engineCountryQty U env sku)).flatMap fun country =>
    (positiveOrders (env.orders.getD (sku, country) [])).map fun order => (country, order.1)

/-- The splits that are not empty. -/
def engineWarehouseBreakdown (env : EngineEnv) (sku : String) : Dict String (Dict String ℤ) :=
  ((engineAllocations U env sku).mapVal fun _ a => a.warehouseBreakdown).filter fun _ m =>
    !m.items.isEmpty

/-- The lead time of a SKU, or of the configuration. -/
def engineLeadTime (env : EngineEnv) (globalLeadTimeDays : ℤ) (sku : String) : ℤ :=
  ((env.skuConfigs.get? sku).bind SkuConfig.leadTimeDays).getD globalLeadTimeDays

/-- The item of a SKU, unless there is nothing to buy and nothing to send. -/
def engineItem (env : EngineEnv) (globalLeadTimeDays : ℤ) (sku : String) : Option SuggestionItem :=
  let countryQty := engineCountryQty U env sku
  let velocity := (engineVelocity U env).getD sku .empty
  let saleDays := (engineStep2 U env).1.getD sku .empty
  let purchaseQty := computeTotal countryQty velocity (env.localStock.get? sku)
    env.config.safetyStockDays
  if purchaseQty ≤ 0 ∧ countryQty.values.sum ≤ 0 then none
  else
    some {
      commoditySku := sku
      totalQty := countryQty.values.sum
      countryBreakdown := countryQty
      warehouseBreakdown := engineWarehouseBreakdown U env sku
      allocationSnapshot := some ((engineAllocations U env sku).mapVal fun _ a =>
        ⟨a.allocationMode, a.matchedOrderQty, a.unknownOrderQty, a.eligibleWarehouses⟩)
      velocitySnapshot := velocity
      saleDaysSnapshot := saleDays
      calculationWarnings := buildCalculationWarnings U countryQty saleDays []
        (missingInventoryCountries U velocity (engineStep2 U env).2 sku env.config.allowedCountries)
      urgent := hasUrgentSaleDays saleDays (engineLeadTime env globalLeadTimeDays sku)
        (positiveQtyCountries countryQty)
      purchaseQty := purchaseQty
      restockDates := demandRestockDates countryQty (some env.demandDate) }

/-- The checks on the configuration, with the lead time they let through. -/
def checkConfig (config : GlobalConfig) : Except String ℤ :=
  if config.targetDays ≤ 0 then
    .error s!"GlobalConfig.target_days must be > 0, got {config.targetDays}"
  else if config.bufferDays < 0 then
    .error s!"GlobalConfig.buffer_days must be >= 0, got {config.bufferDays}"
  else match config.leadTimeDays with
    | none => .error "GlobalConfig.lead_time_days must be >= 0, got None"
    | some leadTimeDays =>
      if leadTimeDays < 0 then
        .error s!"GlobalConfig.lead_time_days must be >= 0, got {leadTimeDays}"
      else if config.safetyStockDays < 0 then
        .error s!"GlobalConfig.safety_stock_days must be >= 0, got {config.safetyStockDays}"
      else if config.targetDays < leadTimeDays then
        .error ("GlobalConfig.target_days must be >= GlobalConfig.lead_time_days, " ++
          s!"got target_days={config.targetDays}, lead_time_days={leadTimeDays}")
      else .ok leadTimeDays

/-- The items to insert; none when the generation is off or nothing is needed. -/
def engineItems (env : EngineEnv) : Except String (List SuggestionItem) :=
  if !env.config.suggestionGenerationEnabled then .ok []
  else match checkConfig env.config with
    | .error e => .error e
    | .ok leadTimeDays =>
      match ((enabledSkus env).flatMap (matchedCodes U env)).mapM fun code =>
          env.matchWarehouses code.1 code.2 with
      | .error e => .error e
      | .ok _ => .ok ((enabledSkus env).filterMap (engineItem U env leadTimeDays))

/-! ### What a run returns -/

/-- The checks pass, and step 5 can match every code. -/
structure RunReturns (env : EngineEnv) (leadTimeDays : ℤ) : Prop where
  enabled : env.config.suggestionGenerationEnabled = true
  config : checkConfig env.config = .ok leadTimeDays
  codes : ∀ sku ∈ enabledSkus env, ∀ code ∈ matchedCodes U env sku,
    ∃ winners, env.matchWarehouses code.1 code.2 = .ok winners

/-- **What a run returns**: the items of the enabled SKUs, if nothing fails. -/
theorem engineItems_ok_iff {env : EngineEnv} {items : List SuggestionItem} :
    engineItems U env = .ok items ↔
      (env.config.suggestionGenerationEnabled = false ∧ items = []) ∨
        ∃ leadTimeDays, RunReturns U env leadTimeDays ∧
          items = (enabledSkus env).filterMap (engineItem U env leadTimeDays) := by
  unfold engineItems
  cases hgen : env.config.suggestionGenerationEnabled with
  | false =>
    have hnone : ∀ leadTimeDays, ¬ RunReturns U env leadTimeDays := by
      intro leadTimeDays h
      exact Bool.false_ne_true (hgen.symm.trans h.enabled)
    simp [hnone, eq_comm]
  | true =>
    simp only [Bool.not_true, Bool.false_eq_true, if_false, Bool.true_eq_false, false_and, false_or]
    constructor
    · intro h
      split at h
      · cases h
      · rename_i leadTimeDays hconfig
        split at h
        · cases h
        · rename_i winners hmatch
          refine ⟨leadTimeDays, ⟨hgen, hconfig, fun sku hs code hc => ?_⟩, (Except.ok.inj h).symm⟩
          exact Checked.exists_mapM_ok_iff.mp ⟨winners, hmatch⟩ code
            (List.mem_flatMap.mpr ⟨sku, hs, hc⟩)
    · intro h
      obtain ⟨leadTimeDays, hret, rfl⟩ := h
      obtain ⟨winners, hmatch⟩ : ∃ winners, ((enabledSkus env).flatMap (matchedCodes U env)).mapM
          (fun code => env.matchWarehouses code.1 code.2) = .ok winners := by
        rw [Checked.exists_mapM_ok_iff]
        intro code hc
        obtain ⟨sku, hs, hc⟩ := List.mem_flatMap.mp hc
        exact hret.codes sku hs code hc
      simp only [hret.config, hmatch]

/-! ### What an item holds when it is stored -/

/-- A country with a positive quantity and a warehouse split has a split that adds
up to the quantity. -/
def SplitsAddUp (countryBreakdown : Dict String ℤ)
    (warehouseBreakdown : Dict String (Dict String ℤ)) : Prop :=
  ∀ country qty, countryBreakdown.get? country = some qty → 0 < qty →
    ∀ warehouses, warehouseBreakdown.get? country = some warehouses → warehouses.items ≠ [] →
      warehouses.values.sum = qty

/-- What the engine stores. -/
structure EngineItem (item : SuggestionItem) : Prop where
  total : item.totalQty = item.countryBreakdown.values.sum
  countries : ∀ country qty, item.countryBreakdown.get? country = some qty →
    isReportableCountryCode U (.str country) = true ∧ 0 < qty
  warehouses : ∀ country m, item.warehouseBreakdown.get? country = some m →
    (item.countryBreakdown.get? country).isSome ∧ ∀ entry ∈ m.items, 0 < entry.2
  splits : SplitsAddUp item.countryBreakdown item.warehouseBreakdown
  some_qty : 0 < item.purchaseQty ∨ 0 < item.countryBreakdown.values.sum

variable {U}

/-- The days that the engine keeps are those of its step 2. -/
theorem get?_engineSaleDays (env : EngineEnv) (sku country : String) :
    ((engineStep2 U env).1.getD sku .empty).get? country =
    ((runStep2 U env.plan env.stock env.rules (loadPhysicalSkuResolver env.aliases) env.euCountries
      (engineVelocity U env) (some (enabledSkus env))).1.getD sku .empty).get? country := by
  set run := runStep2 U env.plan env.stock env.rules (loadPhysicalSkuResolver env.aliases)
    env.euCountries
    (engineVelocity U env) (some (enabledSkus env)) with hrun
  have hfilter : ((engineStep2 U env).1.getD sku .empty).get? country =
      ((run.1.getD sku .empty).get? country).filter fun _ =>
          isReportableCountryCode U (.str country) := by
    show ((run.1.mapVal fun _ m => filterReportableCountryMap U m).getD sku .empty).get? country = _
    rw [Dict.getD, Dict.get?_mapVal, Dict.getD]
    cases run.1.get? sku with
    | none => rfl
    | some m =>
      show (filterReportableCountryMap U m).get? country = _
      rw [filterReportableCountryMap, Dict.get?_filter]
      rfl
  rw [hfilter]
  cases hr : isReportableCountryCode U (.str country) with
  | true =>
    cases (run.1.getD sku .empty).get? country with
    | none => rfl
    | some days => rfl
  | false =>
    rw [hrun, fst_runStep2, get?_saleDays, hr, ← hrun]
    cases ((engineVelocity U env).getD sku .empty).get? country with
    | none => rfl
    | some v =>
      cases run.2.get? (sku, country) with
      | none => rfl
      | some stock => rfl

theorem countryQtyOf_pos {inventory : InventoryMap} {targetDays : ℤ} {sku : String}
    {countryMap : Dict String ℚ} {country : String} {qty : ℤ}
    (h : (countryQtyOf U inventory targetDays sku countryMap).get? country = some qty) :
    isReportableCountryCode U (.str country) = true ∧ 0 < qty := by
  rw [countryQtyOf, Dict.get?_mapVal, Dict.get?_filter] at h
  obtain ⟨v, hv, rfl⟩ := Option.map_eq_some_iff.mp h
  obtain ⟨-, hcond⟩ := Option.filter_eq_some_iff.mp hv
  simp only [Bool.and_eq_true, decide_eq_true_eq] at hcond
  obtain ⟨⟨hrep, -⟩, hraw⟩ := hcond
  cases hs : inventory.get? (sku, country) with
  | none => simp [hs] at hraw
  | some stock =>
    rw [hs, Option.any_some, decide_eq_true_eq] at hraw
    exact ⟨hrep, by simpa using Int.ceil_pos.mpr hraw⟩

theorem engineCountryQty_pos {env : EngineEnv} {sku country : String} {qty : ℤ}
    (h : (engineCountryQty U env sku).get? country = some qty) :
    isReportableCountryCode U (.str country) = true ∧ 0 < qty := by
  rw [engineCountryQty, filterAllowedCountryMap, filterReportableCountryMap, Dict.get?_filter,
    Dict.get?_filter] at h
  exact countryQtyOf_pos (Option.filter_eq_some_iff.mp (Option.filter_eq_some_iff.mp h).1).1

/-- What step 5 splits is the positive quantity of a country. -/
theorem engineAllocations_get? {env : EngineEnv} {sku country : String}
    {a : CountryAllocationResult} :
    (engineAllocations U env sku).get? country = some a ↔
      ∃ qty, (engineCountryQty U env sku).get? country = some qty ∧ 0 < qty ∧
        explainCountryQtySplit (env.foundWarehouses country) qty (env.orders.getD (sku, country) [])
          (env.countryWarehouses.getD country []) = a := by
  rw [engineAllocations, Dict.get?_mapVal, Dict.get?_filter, Option.map_eq_some_iff]
  constructor
  · intro h
    obtain ⟨qty, hq, ha⟩ := h
    obtain ⟨hget, hpos⟩ := Option.filter_eq_some_iff.mp hq
    exact ⟨qty, hget, of_decide_eq_true hpos, ha⟩
  · intro h
    obtain ⟨qty, hget, hpos, ha⟩ := h
    exact ⟨qty, Option.filter_eq_some_iff.mpr ⟨hget, decide_eq_true hpos⟩, ha⟩

/-- **The stored splits**: a country that has one has a quantity and a warehouse with a
rule, and the parts add up to the quantity. -/
theorem engineWarehouseBreakdown_get? {env : EngineEnv} {sku country : String} {m : Dict String ℤ}
    (h : (engineWarehouseBreakdown U env sku).get? country = some m) :
    ∃ qty, (engineCountryQty U env sku).get? country = some qty ∧
      env.countryWarehouses.getD country [] ≠ [] ∧
      SplitOver qty (env.countryWarehouses.getD country []) m := by
  rw [engineWarehouseBreakdown, Dict.get?_filter, Dict.get?_mapVal] at h
  obtain ⟨hm, hne⟩ := Option.filter_eq_some_iff.mp h
  obtain ⟨a, ha, rfl⟩ := Option.map_eq_some_iff.mp hm
  obtain ⟨qty, hget, hpos, rfl⟩ := engineAllocations_get?.mp ha
  have hw : env.countryWarehouses.getD country [] ≠ [] := by
    intro h0
    rw [h0, explainCountryQtySplit_nil] at hne
    exact absurd hne (by decide)
  exact ⟨qty, hget, hw, splitOver_explainCountryQtySplit _ hpos _ hw⟩

theorem engineWarehouseBreakdown_isSome {env : EngineEnv} {sku country : String} {qty : ℤ}
    (h : (engineCountryQty U env sku).get? country = some qty)
    (hw : env.countryWarehouses.getD country [] ≠ []) :
    ∃ m, (engineWarehouseBreakdown U env sku).get? country = some m ∧
      SplitOver qty (env.countryWarehouses.getD country []) m := by
  have hpos : 0 < qty := (engineCountryQty_pos h).2
  have hsplit := splitOver_explainCountryQtySplit (env.foundWarehouses country) hpos
    (env.orders.getD (sku, country) []) hw
  refine ⟨_, ?_, hsplit⟩
  rw [engineWarehouseBreakdown, Dict.get?_filter, Dict.get?_mapVal,
    engineAllocations_get?.mpr ⟨qty, h, hpos, rfl⟩, Option.map_some]
  refine Option.filter_eq_some_iff.mpr ⟨rfl, ?_⟩
  have hne := hsplit.items_ne_nil hpos
  simpa using hne

/-- **Every item of the engine** has a total that is the sum of its parts, positive
quantities of reportable countries, and splits that add up. -/
theorem engineItem_spec {env : EngineEnv} {leadTimeDays : ℤ} {sku : String} {item : SuggestionItem}
    (h : engineItem U env leadTimeDays sku = some item) : EngineItem U item := by
  unfold engineItem at h
  simp only at h
  split_ifs at h with h0
  obtain rfl := Option.some.inj h
  refine ⟨rfl, fun country qty hq => engineCountryQty_pos hq, fun country m hm => ?_,
    fun country qty hq _ m hm _ => ?_, ?_⟩
  · obtain ⟨qty, hget, -, hsplit⟩ := engineWarehouseBreakdown_get? hm
    exact ⟨by rw [hget]; rfl, hsplit.positive⟩
  · obtain ⟨qty', hget, -, hsplit⟩ := engineWarehouseBreakdown_get? hm
    rw [hsplit.total]
    exact Option.some.inj (hget.symm.trans hq)
  · rw [not_and_or, not_le, not_le] at h0
    exact h0

end Steps

end Restock
