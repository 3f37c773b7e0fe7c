/-
# A run on the tables (`engine/runner.py`)

`run_engine` loads everything it needs in its own session: the sales of step 1, the stock
of step 2, the stock at home of step 4, the rule warehouses, postal-code rules and orders
of step 5. Here the loaders are put together (`runOnTables`), so a run is a function of
the tables, of two days and of the order in which the database returns rows. A rule that
cannot be compared with a postal code ends the run. Every unit that a run sends goes to a
warehouse abroad in the country it is meant for (`every_unit_placed`).
-/
import Restock.EngineOutput
import Restock.LocalInventory
import Restock.Recalculate
import Restock.Velocity
import Restock.ZipcodeMatcher

namespace Restock

open PyText Query

/-- The tables that a run reads; the resolved regions of the configuration are a matter
of the run. -/
structure EngineDb where
  config : GlobalConfig
  restockRegions : Option (List JsonValue)
  euCountries : List String
  skuConfigs : Dict String SkuConfig
  aliases : PhysicalItemTable
  demand : DemandDb
  stock : StockDb
  warehouses : Dict String Warehouse
  inventory : InventoryTable
  mappingRules : RuleTable
  zipcodeRules : List ZipcodeRule

/-- `load_country_warehouses`: the warehouses abroad that have a rule for the country they
are in, by country and in the order of their ids. -/
def loadCountryWarehouses (U : CharTable) (warehouses : Dict String Warehouse)
    (zipcodeRules : List ZipcodeRule) : Dict String (List String) :=
  let rows := ((zipcodeRules.filter
      fun rule => (warehouses.get? rule.warehouseId).elim false fun warehouse =>
    decide (warehouse.type ∉ localWarehouseTypes) && decide
        (warehouse.country = some rule.country)).map fun rule =>
      (rule.country, rule.warehouseId)).dedup.insertionSort fun a b => a.1 < b.1 ∨
        a.1 = b.1 ∧ a.2 ≤ b.2
  Dict.collect (rows.filter fun row => isReportableCountryCode U (.str row.1))

section Run

variable (U : CharTable) (N : NumberReader) (plan : Plan) (isoformat : ℤ → String) (db : EngineDb)

/-- The types of the warehouses, which step 2 joins to. -/
def EngineDb.stockDb : StockDb :=
  { db.stock with warehouses := db.warehouses.mapVal fun _ warehouse => warehouse.type }

/-- `run_step1`. -/
def runStep1 (demand : DemandDb) (commoditySkus : Option (List String)) (today : ℤ)
    (allowedCountries : Option (List String)) : Velocity :=
  aggregateVelocityFromItems U
    (loadVelocityInputs U plan demand commoditySkus today allowedCountries) today

/-- What the loaders of a run return. -/
def engineEnv (today demandDate : ℤ) (allowedCountries : Option (List String)) : EngineEnv :=
  let velocity := runStep1 U plan db.demand (some (enabledSkuList db.skuConfigs)) today none
  { config := { db.config with allowedCountries := allowedCountries }
    demandDays := (demandDate - today).toNat
    demandDate := isoformat demandDate
    skuConfigs := db.skuConfigs
    velocity := velocity
    plan := plan
    stock := db.stockDb
    rules := db.mappingRules
    aliases := db.aliases
    euCountries := db.euCountries
    localStock := loadLocalInventory plan db.warehouses db.mappingRules db.inventory
      (some (enabledSkuList db.skuConfigs))
      (some (velocity.mapVal fun _ m => filterReportableCountryMap U m))
        (loadPhysicalSkuResolver db.aliases)
    countryWarehouses := loadCountryWarehouses U db.warehouses db.zipcodeRules
    orders := loadAllSkuCountryOrders U plan db.demand (enabledSkuList db.skuConfigs)
      today allowedCountries
    matchWarehouses := fun country postalCode =>
      matchWarehouses U N postalCode country db.zipcodeRules }

/-- The items that a run inserts. -/
def runOnTables (today demandDate : ℤ) : Except String (List SuggestionItem) :=
  if !db.config.suggestionGenerationEnabled then .ok []
  else match resolveAllowedRestockRegions U db.restockRegions with
    | .error e => .error e
    | .ok allowedCountries =>
      engineItems U (engineEnv U N plan isoformat db today demandDate allowedCountries)

end Run

section Runs

variable {U : CharTable} {N : NumberReader} {plan : Plan} {isoformat : ℤ → String} {db : EngineDb}
    {today demandDate : ℤ}

/-- A run that returns has passed every check. -/
structure Returned (U : CharTable) (N : NumberReader) (plan : Plan) (isoformat : ℤ → String)
    (db : EngineDb) (today demandDate : ℤ) (allowedCountries : Option (List String))
    (leadTimeDays : ℤ) : Prop where
  regions : resolveAllowedRestockRegions U db.restockRegions = .ok allowedCountries
  run : RunReturns U (engineEnv U N plan isoformat db today demandDate allowedCountries)
    leadTimeDays

/-- **What a run returns**: the items of the enabled SKUs, if nothing fails. -/
theorem runOnTables_ok_iff {items : List SuggestionItem} :
    runOnTables U N plan isoformat db today demandDate = .ok items ↔
      (db.config.suggestionGenerationEnabled = false ∧ items = []) ∨
        ∃ allowedCountries leadTimeDays,
          Returned U N plan isoformat db today demandDate allowedCountries leadTimeDays ∧
          items = (enabledSkuList db.skuConfigs).filterMap
            (engineItem U (engineEnv U N plan isoformat db today demandDate allowedCountries)
              leadTimeDays) := by
  unfold runOnTables
  cases hgen : db.config.suggestionGenerationEnabled with
  | false =>
    have hnone : ∀ allowedCountries leadTimeDays,
        ¬ Returned U N plan isoformat db today demandDate allowedCountries leadTimeDays := by
      intro allowedCountries leadTimeDays h
      exact Bool.false_ne_true (hgen.symm.trans h.run.enabled)
    simp [hnone, eq_comm]
  | true =>
    simp only [Bool.not_true, Bool.false_eq_true, if_false, Bool.true_eq_false, false_and, false_or]
    constructor
    · intro h
      split at h
      · cases h
      · rename_i allowedCountries hregions
        rcases (engineItems_ok_iff U).mp h with ⟨hoff, -⟩ | ⟨leadTimeDays, hrun, rfl⟩
        · exact absurd (hgen.symm.trans hoff) (by decide)
        · exact ⟨allowedCountries, leadTimeDays, ⟨hregions, hrun⟩, rfl⟩
    · intro h
      obtain ⟨allowedCountries, leadTimeDays, hret, rfl⟩ := h
      rw [hret.regions]
      exact (engineItems_ok_iff U).mpr (Or.inr ⟨leadTimeDays, hret.run, rfl⟩)

/-- A SKU that sold thirty units in the US yesterday, with ten there, and one warehouse
abroad with a rule. -/
def usTables : EngineDb where
  config := ⟨true, 30, 0, some 10, 15, none⟩
  restockRegions := none
  euCountries := []
  skuConfigs := Dict.empty.set "A" ⟨true, none⟩
  aliases := ⟨[], [], List.nodup_nil⟩
  demand := ⟨[⟨⟨1, "US", none, "M", some "94107", beijingMidnight 99, 0, false⟩, orderSourcePackage,
    none⟩], [⟨1, "A", 30⟩]⟩
  stock := ⟨.set .empty 1 (some "US"), [⟨1, "A", 10, 0⟩], .empty, .empty, [], usStock_nodup 10⟩
  warehouses := (Dict.empty.set "W" ⟨some "US", 3⟩).set "H" ⟨some "CN", 1⟩
  inventory := .empty
  mappingRules := ⟨[], List.nodup_nil⟩
  zipcodeRules := [⟨1, "US", 1, .string, .eq, "9", "W", 1⟩]

/-- The run sends something to the US, in either order of its rows. -/
theorem usTables_run (plan : Plan) (hplan : plan = .identity ∨ plan = .rotate 1) (targetDays : ℤ)
    (htarget : targetDays = 30 ∨ targetDays = 45) : ∃ items,
    runOnTables .ascii .digits plan toString
      { usTables with config := { usTables.config with targetDays := targetDays } }
      100 100 = .ok items ∧
    ∃ item ∈ items, ∃ split, item.warehouseBreakdown.get? "US" = some split ∧
    0 < split.values.sum := by
  have hcheck : ((runOnTables .ascii .digits plan toString
      { usTables with config := { usTables.config with targetDays := targetDays } }
          100 100).toOption.elim false fun items =>
        items.any fun item => (item.warehouseBreakdown.get? "US").any fun split =>
            decide (0 < split.values.sum)) = true := by
    rcases hplan with rfl | rfl <;> rcases htarget with rfl | rfl <;> decide +kernel
  cases hrun : runOnTables .ascii .digits plan toString
      { usTables with config := { usTables.config with targetDays := targetDays } } 100 100 with
  | error e =>
    rw [hrun] at hcheck
    cases hcheck
  | ok items =>
    rw [hrun] at hcheck
    obtain ⟨item, hi, hsplit⟩ := List.any_eq_true.mp hcheck
    obtain ⟨split, hs, hsum⟩ := (Option.any_eq_true _ _).mp hsplit
    exact ⟨items, rfl, item, hi, split, hs, of_decide_eq_true hsum⟩

/-! ### Where the units go -/

/-- A warehouse abroad in the country, with a rule for the country. -/
def Serves (db : EngineDb) (country warehouseId : String) : Prop :=
  ∃ warehouse, db.warehouses.get? warehouseId = some warehouse ∧
    warehouse.type ∉ localWarehouseTypes ∧ warehouse.country = some country ∧
    ∃ rule ∈ db.zipcodeRules, rule.warehouseId = warehouseId ∧ rule.country = country

/-- **The rule warehouses of a country** are those that serve it. -/
theorem mem_loadCountryWarehouses {country warehouseId : String} :
    warehouseId ∈ (loadCountryWarehouses U db.warehouses db.zipcodeRules).getD country [] ↔
      isReportableCountryCode U (.str country) = true ∧ Serves db country warehouseId := by
  set rows := (((db.zipcodeRules.filter
      fun rule => (db.warehouses.get? rule.warehouseId).elim false fun warehouse =>
    decide (warehouse.type ∉ localWarehouseTypes) && decide
        (warehouse.country = some rule.country)).map fun rule =>
      (rule.country, rule.warehouseId)).dedup.insertionSort fun a b => a.1 < b.1 ∨ a.1 = b.1 ∧
        a.2 ≤ b.2).filter
        fun row => isReportableCountryCode U (.str row.1) with hrows
  have hmem : (country, warehouseId) ∈ rows ↔
      isReportableCountryCode U (.str country) = true ∧ Serves db country warehouseId := by
    rw [hrows, List.mem_filter, List.mem_insertionSort, List.mem_dedup, List.mem_map, and_comm]
    refine and_congr_right fun _ => ?_
    constructor
    · rintro ⟨rule, hr, he⟩
      obtain ⟨rfl, rfl⟩ := Prod.mk.inj he
      obtain ⟨hrule, hjoin⟩ := List.mem_filter.mp hr
      cases hw : db.warehouses.get? rule.warehouseId with
      | none => simp [hw] at hjoin
      | some warehouse =>
        rw [hw, Option.elim_some, Bool.and_eq_true, decide_eq_true_eq, decide_eq_true_eq] at hjoin
        exact ⟨warehouse, hw, hjoin.1, hjoin.2, rule, hrule, rfl, rfl⟩
    · rintro ⟨warehouse, hw, htype, hcountry, rule, hrule, rfl, rfl⟩
      refine ⟨rule, List.mem_filter.mpr ⟨hrule, ?_⟩, rfl⟩
      rw [hw, Option.elim_some, Bool.and_eq_true, decide_eq_true_eq, decide_eq_true_eq]
      exact ⟨htype, hcountry⟩
  rw [← hmem]
  show warehouseId ∈ ((Dict.collect rows).get? country).getD [] ↔ _
  cases hget : (Dict.collect rows).get? country with
  | none =>
    have hempty : Dict.valuesAt rows country = [] := by
      have hsome := Dict.isSome_get?_collect rows country
      rw [hget] at hsome
      simpa using hsome
    have hno : (country, warehouseId) ∉ rows := by
      rw [← Dict.mem_valuesAt, hempty]
      exact List.not_mem_nil
    simpa using hno
  | some ids => exact (Dict.mem_collect hget).2 warehouseId

/-- **Every unit is placed.** What a run splits over warehouses are positive quantities
that go to warehouses abroad in the country and add up to its quantity; and a country
with a quantity is split exactly if some warehouse serves it. -/
theorem every_unit_placed (U : CharTable) (N : NumberReader) (plan : Plan) (isoformat : ℤ → String)
    (db : EngineDb) (today demandDate : ℤ) {items : List SuggestionItem}
    (h : runOnTables U N plan isoformat db today demandDate = .ok items) {item : SuggestionItem}
    (hi : item ∈ items) (country : String) :
    (∀ split, item.warehouseBreakdown.get? country = some split →
      ∃ qty, item.countryBreakdown.get? country = some qty ∧ split.values.sum = qty ∧
        ∀ entry ∈ split.items, 0 < entry.2 ∧ Serves db country entry.1) ∧
    ∀ qty, item.countryBreakdown.get? country = some qty →
      ((item.warehouseBreakdown.get? country).isSome ↔
        ∃ warehouseId, Serves db country warehouseId) := by
  rcases runOnTables_ok_iff.mp h with ⟨-, rfl⟩ | ⟨allowedCountries, leadTimeDays, -, rfl⟩
  · exact absurd hi List.not_mem_nil
  set env := engineEnv U N plan isoformat db today demandDate allowedCountries with henv
  obtain ⟨sku, -, hitem⟩ := List.mem_filterMap.mp hi
  have hf := fields_of_engineItem hitem
  have hserves : ∀ warehouseId, warehouseId ∈ env.countryWarehouses.getD country [] ↔
      isReportableCountryCode U (.str country) = true ∧ Serves db country warehouseId :=
    fun _ => mem_loadCountryWarehouses
  rw [hf.countries, hf.warehouses]
  constructor
  · intro split hsplit
    obtain ⟨qty, hqty, -, hover⟩ := engineWarehouseBreakdown_get? hsplit
    refine ⟨qty, hqty, hover.total, fun entry he => ⟨hover.positive entry he, ?_⟩⟩
    exact ((hserves entry.1).mp (hover.eligible entry he)).2
  · intro qty hqty
    have hrep := (engineCountryQty_pos hqty).1
    constructor
    · intro hsome
      obtain ⟨split, hsplit⟩ := Option.isSome_iff_exists.mp hsome
      obtain ⟨-, -, hne, -⟩ := engineWarehouseBreakdown_get? hsplit
      obtain ⟨warehouseId, hw⟩ := List.exists_mem_of_ne_nil _ hne
      exact ⟨warehouseId, ((hserves warehouseId).mp hw).2⟩
    · rintro ⟨warehouseId, hw⟩
      have hne := List.ne_nil_of_mem ((hserves warehouseId).mpr ⟨hrep, hw⟩)
      obtain ⟨split, hsplit, -⟩ := engineWarehouseBreakdown_isSome hqty hne
      rw [hsplit]
      rfl

theorem every_unit_placed_us :
    ∃ items item split, runOnTables .ascii .digits .identity toString usTables 100 100 = .ok items ∧
      item ∈ items ∧ item.warehouseBreakdown.get? "US" = some split ∧ 0 < split.values.sum ∧
      ∀ entry ∈ split.items, Serves usTables "US" entry.1 := by
  obtain ⟨items, hrun, item, hi, split, hs, hsum⟩ :=
    usTables_run .identity (Or.inl rfl) 30 (Or.inl rfl)
  have hrun' : runOnTables .ascii .digits .identity toString usTables 100 100 = .ok items := hrun
  obtain ⟨-, -, -, hserves⟩ :=
    (every_unit_placed .ascii .digits .identity toString usTables 100 100 hrun' hi "US").1 split hs
  exact ⟨items, item, split, hrun', hi, hs, hsum, fun entry he => (hserves entry he).2⟩

/-- A rule that compares with `nan` ends the run that meets it. -/
example : runOnTables .ascii ⟨NumberReader.digits.int, fun text => if text = "nan" then some .nan
    else some (.finite 9)⟩
    .identity toString { usTables with zipcodeRules := [⟨1, "US", 1, .number, .eq, "nan", "W", 1⟩] }
      100 100 = .error "cannot convert float NaN to integer" := by
  decide +kernel

end Runs

end Restock
