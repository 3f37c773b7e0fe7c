/-
# The dashboard (`api/metrics.py`)

`build_dashboard_payload` runs the steps of the engine again, on what is stored now and
with the demand date of the draft, and counts: the SKUs to restock, the SKUs by risk in
each country, and the ten most urgent of them.

It counts a SKU as one to restock if there is something to buy, where the engine counts
it if there is something to send, and the queries of the two return their groups in orders
of their own (`restockSkuCount_eq_iff`). In the risk distribution a
SKU is urgent below the lead time, in the list of urgent SKUs and in the engine also at
the lead time (`urgentAgrees_iff`); the urgent count of a country is the number of the
SKUs that are urgent there in the first sense (`urgentCount_eq`).
-/
import Restock.EngineOrder
import Restock.SuggestionEdit

namespace Restock

open PyText Query

/-! ### What the dashboard reads -/

/-- What the dashboard reads of an item of the draft. -/
structure DashboardItem where
  countryBreakdown : Dict String ℤ
  procurementExported : Bool
  restockExported : Bool

/-- The latest draft, with the day of its `demand_date` if there is one that parses. -/
structure DashboardDraft where
  id : ℕ
  status : SuggestionStatus
  demandDate : Option ℤ
  items : List DashboardItem
  snapshotCount : ℕ

/-- What the dashboard reads of a listing. -/
structure ProductListing where
  commoditySku : String
  commodityName : Option String
  mainImage : Option String

/-- What the dashboard and the engine read. The sales are those of step 1 for the enabled
SKUs, `localStock` is what they have at home. -/
structure DashboardDb where
  today : ℤ
  config : Option GlobalConfig
  draft : Option DashboardDraft
  productListing : List ProductListing
  skuConfigs : Dict String SkuConfig
  velocity : Velocity
  plan : Plan
  stock : StockDb
  rules : RuleTable
  aliases : PhysicalItemTable
  euCountries : List String
  localStock : Dict String LocalStock
  countryWarehouses : Dict String (List String)
  orders : Dict (String × String) (List (Option String × ℤ))
  matchWarehouses : String → Option String → Except String (List String)

/-- What a run of the engine reads now, for a demand date with its text. The groups of its
queries come in an order of their own. -/
def DashboardDb.engineEnv (db : DashboardDb) (plan : Plan) (config : GlobalConfig) (demandDate : ℤ)
    (demandText : String) : EngineEnv where
  config := config
  demandDays := (demandDate - db.today).toNat
  demandDate := demandText
  skuConfigs := db.skuConfigs
  velocity := db.velocity
  plan := plan
  stock := db.stock
  rules := db.rules
  aliases := db.aliases
  euCountries := db.euCountries
  localStock := db.localStock
  countryWarehouses := db.countryWarehouses
  orders := db.orders
  matchWarehouses := db.matchWarehouses

section Payload

variable (U : CharTable)

/-! ### Risks -/

/-- The risk of a SKU in a country. -/
inductive Risk
  | urgent | warning | safe
deriving DecidableEq, Repr

/-- How many SKUs have each risk. -/
structure RiskCounts where
  urgentCount : ℕ
  warningCount : ℕ
  safeCount : ℕ
deriving DecidableEq, Repr

def RiskCounts.zero : RiskCounts := ⟨0, 0, 0⟩

/-- One more SKU of a risk. -/
def RiskCounts.count (counts : RiskCounts) : Risk → RiskCounts
  | .urgent => { counts with urgentCount := counts.urgentCount + 1 }
  | .warning => { counts with warningCount := counts.warningCount + 1 }
  | .safe => { counts with safeCount := counts.safeCount + 1 }

/-- All SKUs with a risk. -/
def RiskCounts.total (counts : RiskCounts) :
    ℕ := counts.urgentCount + counts.warningCount + counts.safeCount

/-- The risks in a country. -/
structure CountryRiskDistribution where
  country : String
  urgentCount : ℕ
  warningCount : ℕ
  safeCount : ℕ
  totalCount : ℕ
deriving DecidableEq, Repr

/-- The class of a SKU in a country, unless it is passed over. -/
def riskOf (leadTimeDays targetDays : ℤ) (allowedCountries : Option (List String))
    (country : String) (days : ℚ) : Option Risk :=
  if !isReportableCountryCode U (.str country) then none
  else if !allowedCountries.all fun l => country ∈ l then none
  else if days < 0 then none
  else if days < leadTimeDays then some .urgent
  else if days < targetDays then some .warning
  else some .safe

/-- The classes of all SKUs, country by country, in the order of the loops. -/
def risksOf (saleDaysBySku : SaleDaysMap) (leadTimeDays targetDays : ℤ)
    (allowedCountries : Option (List String)) : List (String × Risk) :=
  saleDaysBySku.values.flatMap fun countryMap => countryMap.items.filterMap fun entry =>
    (riskOf U leadTimeDays targetDays allowedCountries entry.1 entry.2).map fun risk =>
      (entry.1, risk)

/-- The risks counted by country. -/
def countRisks (risks : List (String × Risk)) : Dict String RiskCounts :=
  risks.foldl (fun counts r => counts.set r.1 ((counts.getD r.1 .zero).count r.2)) .empty

/-- `_build_country_risk_distribution`, with the totals. -/
def buildCountryRiskDistribution (saleDaysBySku : SaleDaysMap) (leadTimeDays targetDays : ℤ)
    (allowedCountries : Option (List String)) : List CountryRiskDistribution × RiskCounts :=
  let risks := risksOf U saleDaysBySku leadTimeDays targetDays allowedCountries
  (((countRisks risks).items.map fun entry =>
      ⟨entry.1, entry.2.urgentCount, entry.2.warningCount, entry.2.safeCount,
        entry.2.total⟩).insertionSort
      (fun a b => a.country ≤ b.country),
    risks.foldl (fun counts r => counts.count r.2) .zero)

/-! ### The most urgent SKUs -/

/-- An entry of the list of urgent SKUs. -/
structure UrgentSkuItem where
  commoditySku : String
  commodityName : Option String
  mainImage : Option String
  country : String
  saleDays : ℚ
deriving DecidableEq

/-- The days of sale of a SKU in a country, if it has any. -/
def countrySaleDays (snapshot : Option (Dict String ℚ)) (country : String) :
    Option ℚ := snapshot.bind (·.get? country)

/-- `round(value, 1)`: to the nearest tenth, from the middle to the even one. -/
def roundTenth (value : ℚ) : ℚ :=
  let tenths := ⌊value * 10⌋
  let rest := value * 10 - tenths
  if rest < 1 / 2 ∨ (rest = 1 / 2 ∧ tenths % 2 = 0) then tenths / 10 else (tenths + 1) / 10

/-- The pairs of a SKU and a country that `_build_top_urgent_skus` keeps. -/
def urgentRows (saleDaysBySku : SaleDaysMap) (countryQtyBySku : Dict String (Dict String ℤ))
    (leadTimeDays : ℤ) : List (String × String × ℚ) :=
  countryQtyBySku.items.flatMap fun e => e.2.items.filterMap fun entry =>
    if !isReportableCountryCode U (.str entry.1) then none
    else if entry.2 ≤ 0 then none
    else (countrySaleDays (saleDaysBySku.get? e.1) entry.1).bind fun saleDays =>
      if (leadTimeDays : ℚ) < saleDays then none else some (e.1, entry.1, saleDays)

/-- The order of the list: by the days, then the SKU, then the country. -/
def urgentBefore (a b : String × String × ℚ) : Prop :=
  a.2.2 < b.2.2 ∨ a.2.2 = b.2.2 ∧ (a.1 < b.1 ∨ a.1 = b.1 ∧ a.2.1 ≤ b.2.1)

instance : DecidableRel urgentBefore := fun a b =>
  inferInstanceAs (Decidable
    (a.2.2 < b.2.2 ∨ a.2.2 = b.2.2 ∧ (a.1 < b.1 ∨ a.1 = b.1 ∧ a.2.1 ≤ b.2.1)))

/-- `_build_top_urgent_skus`. -/
def buildTopUrgentSkus (productListing : List ProductListing) (saleDaysBySku : SaleDaysMap)
    (countryQtyBySku : Dict String (Dict String ℤ)) (leadTimeDays : ℤ) : List UrgentSkuItem :=
  (((urgentRows U saleDaysBySku countryQtyBySku leadTimeDays).insertionSort urgentBefore).take
      10).map fun row =>
    let listing := productListing.find? fun l => l.commoditySku = row.1
    ⟨row.1, listing.bind (·.commodityName), listing.bind (·.mainImage), row.2.1, roundTenth row.2.2⟩

/-! ### The payload -/

/-- The payload of the dashboard snapshot. -/
structure DashboardPayload where
  enabledSkuCount : ℕ
  restockSkuCount : ℕ
  noRestockSkuCount : ℕ
  suggestionItemCount : ℕ
  exportedCount : ℕ
  urgentCount : ℕ
  warningCount : ℕ
  safeCount : ℕ
  riskCountryCount : ℕ
  suggestionId : Option ℕ
  suggestionStatus : Option SuggestionStatus
  suggestionSnapshotCount : ℕ
  leadTimeDays : ℤ
  targetDays : ℤ
  countryRiskDistribution : List CountryRiskDistribution
  countryRestockDistribution : List (String × ℤ)
  topUrgentSkus : List UrgentSkuItem

/-- The payload without countries that are not reported. -/
def sanitizeDashboardPayload (payload : DashboardPayload) : DashboardPayload :=
  let reportable : String → Bool := fun country => isReportableCountryCode U (.str country)
  let risks := payload.countryRiskDistribution.filter fun item => reportable item.country
  let kept := { payload with
    countryRiskDistribution := risks
    countryRestockDistribution := payload.countryRestockDistribution.filter fun item =>
      reportable item.1
    topUrgentSkus := payload.topUrgentSkus.filter fun item => reportable item.country }
  if payload.countryRiskDistribution.isEmpty then kept
  else { kept with
    urgentCount := (risks.map (·.urgentCount)).sum
    warningCount := (risks.map (·.warningCount)).sum
    safeCount := (risks.map (·.safeCount)).sum
    riskCountryCount := risks.length }

/-- The units that the items of the draft send to each country, the most first. -/
def countryRestockTotals (items : List DashboardItem) : List (String × ℤ) :=
  (Dict.sumBy (items.flatMap fun item => item.countryBreakdown.items.filter fun entry =>
    isReportableCountryCode U (.str entry.1) && decide (0 < entry.2))).items.insertionSort
    fun a b => b.2 < a.2 ∨ a.2 = b.2 ∧ a.1 ≤ b.1

namespace DashboardDb

variable (db : DashboardDb)

/-- The target days, with the default of a missing configuration. -/
def targetDays : ℤ := db.config.elim 60 GlobalConfig.targetDays

/-- The column is never empty. -/
def leadTimeDays : ℤ := (db.config.bind GlobalConfig.leadTimeDays).getD 50

/-- The allowed countries, if the configuration names some. -/
def allowedCountries : Option (List String) := db.config.bind GlobalConfig.allowedCountries

/-- The days until the demand date of the draft. -/
def demandDays : ℕ := (db.draft.bind DashboardDraft.demandDate).elim 0 fun demandDate =>
    (demandDate - db.today).toNat

/-- The sales, in all countries that are reported. -/
def liveVelocity : Velocity :=
  if (enabledSkuList db.skuConfigs).isEmpty then .empty else db.velocity.mapVal fun _ m =>
    filterReportableCountryMap U m

/-- Step 2 on the tables as they are now. -/
def liveStep2 : SaleDaysMap × InventoryMap :=
  if (enabledSkuList db.skuConfigs).isEmpty then (.empty, .empty)
  else
    let step2 := runStep2 U db.plan db.stock db.rules (loadPhysicalSkuResolver db.aliases)
      db.euCountries
      (db.liveVelocity U) (some (enabledSkuList db.skuConfigs))
    (step2.1.mapVal fun _ m => filterReportableCountryMap U m,
      step2.2.filter fun key _ => isReportableCountryCode U (.str key.2))

/-- The quantities of all SKUs that sell, in the allowed countries. -/
def liveCountryQty : Dict String (Dict String ℤ) :=
  ((db.liveVelocity U).mapVal fun sku countryMap =>
    countryQtyOf U (db.liveStep2 U).2 (db.targetDays + db.demandDays)
        sku countryMap).mapVal fun _ m =>
      filterAllowedCountryMap U db.allowedCountries m

/-- There is something to send and something to buy. -/
def counts (sku : String) : Bool :=
  let countryQty := (db.liveCountryQty U).getD sku .empty
  !countryQty.items.isEmpty && decide
    (0 < computeTotal countryQty ((db.liveVelocity U).getD sku .empty)
    (db.localStock.get? sku) (db.config.elim 0 GlobalConfig.safetyStockDays))

end DashboardDb

/-- `build_dashboard_payload`. -/
def buildDashboardPayload (db : DashboardDb) : DashboardPayload :=
  let restockSkuCount := (enabledSkuList db.skuConfigs).countP (db.counts U)
  let risks := if (enabledSkuList db.skuConfigs).isEmpty then ([], RiskCounts.zero)
    else buildCountryRiskDistribution U
      (db.liveStep2 U).1 db.leadTimeDays db.targetDays db.allowedCountries
  let items := db.draft.elim [] DashboardDraft.items
  sanitizeDashboardPayload U {
    enabledSkuCount := (enabledSkuList db.skuConfigs).length
    restockSkuCount := restockSkuCount
    noRestockSkuCount := (enabledSkuList db.skuConfigs).length - restockSkuCount
    suggestionItemCount := items.length
    exportedCount := items.countP fun item => item.procurementExported || item.restockExported
    urgentCount := risks.2.urgentCount
    warningCount := risks.2.warningCount
    safeCount := risks.2.safeCount
    riskCountryCount := risks.1.length
    suggestionId := db.draft.map DashboardDraft.id
    suggestionStatus := db.draft.map DashboardDraft.status
    suggestionSnapshotCount := db.draft.elim 0 DashboardDraft.snapshotCount
    leadTimeDays := db.leadTimeDays
    targetDays := db.targetDays
    countryRiskDistribution := risks.1
    countryRestockDistribution := countryRestockTotals U items
    topUrgentSkus := if (enabledSkuList db.skuConfigs).isEmpty then []
      else buildTopUrgentSkus U db.productListing (db.liveStep2 U).1 (db.liveCountryQty U)
        db.leadTimeDays }

variable {U}

/-! ### What the dashboard counts and what the engine counts -/

theorem sanitize_restockSkuCount (payload : DashboardPayload) :
    (sanitizeDashboardPayload U payload).restockSkuCount = payload.restockSkuCount ∧
      (sanitizeDashboardPayload U payload).noRestockSkuCount = payload.noRestockSkuCount := by
  unfold sanitizeDashboardPayload
  simp only
  split_ifs
  · exact ⟨rfl, rfl⟩
  · exact ⟨rfl, rfl⟩

/-- The enabled SKUs that have a positive quantity to send. -/
def restocked (U : CharTable) (env : EngineEnv) (sku : String) :
    Bool := decide (0 < (engineCountryQty U env sku).values.sum)

theorem sum_engineCountryQty_pos {env : EngineEnv} {sku : String} :
    0 < (engineCountryQty U env sku).values.sum ↔ (engineCountryQty U env sku).items ≠ [] := by
  have hpos : ∀ entry ∈ (engineCountryQty U env sku).items, 0 < entry.2 := by
    intro entry he
    exact (engineCountryQty_pos (Dict.get?_eq_some_iff.mpr he)).2
  unfold Dict.values
  generalize (engineCountryQty U env sku).items = l at hpos ⊢
  cases l with
  | nil => simp
  | cons entry l =>
    have h0 : 0 < entry.2 := hpos entry List.mem_cons_self
    have h1 : 0 ≤ (l.map Prod.snd).sum :=
      Sums.sum_nonneg fun e he => (hpos e (List.mem_cons_of_mem _ he)).le
    simp only [List.map_cons, List.sum_cons, ne_eq, reduceCtorEq, not_false_eq_true, iff_true]
    omega

/-- The engine keeps an item of every SKU with something to send, with that total. -/
theorem restockItemCount_engine {env : EngineEnv} {items : List SuggestionItem}
    (hon : env.config.suggestionGenerationEnabled = true) (h : engineItems U env = .ok items)
    (firstId : ℕ) :
    (newSuggestion env firstId items).restockItemCount = (enabledSkus env).countP
    (restocked U env) := by
  have hitem : ∀ leadTimeDays sku,
      ((engineItem U env leadTimeDays sku).map fun item => decide (0 < item.totalQty)).getD
      false = restocked U env sku := by
    intro leadTimeDays sku
    unfold engineItem restocked
    simp only
    split_ifs with h0
    · simp [h0.2]
    · rfl
  rcases (engineItems_ok_iff U).mp h with ⟨hoff, -⟩ | ⟨leadTimeDays, -, rfl⟩
  · exact absurd (hon.symm.trans hoff) (by decide)
  · show ((enabledSkus env).filterMap _).countP _ = _
    rw [List.countP_filterMap]
    exact List.countP_congr fun sku _ => by rw [hitem]

section Counts

variable (U) {db : DashboardDb} {config : GlobalConfig} {draft : DashboardDraft} {demandDate : ℤ}
    (demandText : String)

/-- What a run of the engine would read with the groups in the order of the dashboard. -/
abbrev DashboardDb.liveEnv (db : DashboardDb) (config : GlobalConfig) (demandDate : ℤ)
    (demandText : String) : EngineEnv :=
  db.engineEnv db.plan config demandDate demandText

/-- For an enabled SKU the dashboard has the quantities of the engine. -/
theorem liveCountryQty_engine (hconfig : db.config = some config) (hdraft : db.draft = some draft)
    (hdate : draft.demandDate = some demandDate) {sku : String}
    (hsku : sku ∈ enabledSkuList db.skuConfigs) :
    (db.liveCountryQty U).getD sku .empty = engineCountryQty U
      (db.liveEnv config demandDate demandText) sku ∧
      db.liveVelocity U = engineVelocity U (db.liveEnv config demandDate demandText) := by
  have hne : (enabledSkuList db.skuConfigs).isEmpty = false := by
    cases hl : enabledSkuList db.skuConfigs with
    | nil => simp [hl] at hsku
    | cons _ _ => rfl
  have hvelocity : db.liveVelocity U = engineVelocity U
      (db.liveEnv config demandDate demandText) := by
    unfold DashboardDb.liveVelocity
    simp only [hne, Bool.false_eq_true, if_false]
    rfl
  have hstep2 : db.liveStep2 U = engineStep2 U (db.liveEnv config demandDate demandText) := by
    unfold DashboardDb.liveStep2
    simp only [hne, Bool.false_eq_true, if_false, hvelocity]
    rfl
  have htarget : db.targetDays + db.demandDays = effectiveTargetDays
      (db.liveEnv config demandDate demandText) := by
    simp [DashboardDb.targetDays, DashboardDb.demandDays, hconfig, hdraft, hdate,
      effectiveTargetDays, DashboardDb.engineEnv]
  have hallowed : db.allowedCountries = config.allowedCountries := by
    simp [DashboardDb.allowedCountries, hconfig]
  refine ⟨?_, hvelocity⟩
  unfold DashboardDb.liveCountryQty
  rw [Dict.getD, Dict.get?_mapVal, Dict.get?_mapVal, hvelocity, hstep2, htarget, hallowed]
  unfold engineCountryQty Dict.getD
  cases (engineVelocity U (db.liveEnv config demandDate demandText)).get? sku with
  | none => rfl
  | some m => rfl

/-- What is at home does not cover what is to be sent and to be kept. -/
def ShortAtHome (env : EngineEnv) (sku : String) : Prop :=
  (env.localStock.get? sku).elim 0 LocalStock.total < (engineCountryQty U env sku).values.sum +
    ⌈((engineVelocity U env).getD sku .empty).values.sum * env.config.safetyStockDays⌉

/-- Every enabled SKU with something to send is short at home. -/
def AllShortAtHome (env : EngineEnv) : Prop :=
  ∀ sku ∈ enabledSkus env, 0 < (engineCountryQty U env sku).values.sum → ShortAtHome U env sku

theorem counts_iff (hconfig : db.config = some config) (hdraft : db.draft = some draft)
    (hdate : draft.demandDate = some demandDate) {sku : String}
    (hsku : sku ∈ enabledSkuList db.skuConfigs) :
    db.counts U sku = true ↔ restocked U (db.liveEnv config demandDate demandText) sku = true ∧
      ShortAtHome U (db.liveEnv config demandDate demandText) sku := by
  obtain ⟨hqty, hvelocity⟩ := liveCountryQty_engine U demandText hconfig hdraft hdate hsku
  unfold DashboardDb.counts
  simp only [hqty, hvelocity, hconfig, Option.elim_some, Bool.and_eq_true, Bool.not_eq_true',
    decide_eq_true_eq]
  have hitems : (engineCountryQty U (db.liveEnv config demandDate demandText) sku).items.isEmpty =
      false ↔ restocked U (db.liveEnv config demandDate demandText) sku = true := by
    rw [restocked, decide_eq_true_eq, sum_engineCountryQty_pos, List.isEmpty_eq_false_iff]
  rw [hitems]
  refine and_congr_right fun _ => ?_
  unfold computeTotal ShortAtHome
  rw [lt_max_iff]
  show _ ∨ 0 < _ - _ + ⌈_ * ((config.safetyStockDays : ℤ) : ℚ)⌉ ↔
    _ < _ + ⌈_ * ((config.safetyStockDays : ℤ) : ℚ)⌉
  show _ ∨ 0 < _ - (db.localStock.get? sku).elim 0 LocalStock.total + _ ↔
    (db.localStock.get? sku).elim 0 LocalStock.total < _
  omega

/-- The SKUs that the dashboard counts are among those with something to send, and all of
them exactly if these are short at home. -/
theorem countP_counts_iff (hconfig : db.config = some config) (hdraft : db.draft = some draft)
    (hdate : draft.demandDate = some demandDate) :
    (enabledSkuList db.skuConfigs).countP (db.counts U) = (enabledSkuList db.skuConfigs).countP
      (restocked U (db.liveEnv config demandDate demandText)) ↔
      AllShortAtHome U (db.liveEnv config demandDate demandText) := by
  have hcounts : ∀ sku ∈ enabledSkuList db.skuConfigs, (db.counts U sku = true ↔ _) :=
      fun sku hsku =>
    counts_iff U demandText hconfig hdraft hdate hsku
  have hcount := Sums.countP_eq_iff fun sku hsku h => ((hcounts sku hsku).mp h).1
  rw [hcount]
  constructor
  · intro h sku hsku hpos
    exact ((hcounts sku hsku).mp (h sku hsku (decide_eq_true hpos))).2
  · intro h sku hsku hr
    exact (hcounts sku hsku).mpr ⟨hr, h sku hsku (of_decide_eq_true hr)⟩

variable (db config demandDate) in
/-- The dashboard counts what a run of the engine at the same instant would store, in
whatever order the groups of the two come. -/
def CountsAgree : Prop :=
  ∀ plan plan' items, engineItems U (db.engineEnv plan' config demandDate demandText) = .ok items →
    ∀ firstId, (buildDashboardPayload U { db with plan := plan }).restockSkuCount =
        (newSuggestion (db.engineEnv plan' config demandDate demandText)
          firstId items).restockItemCount ∧
      (buildDashboardPayload U { db with plan := plan }).noRestockSkuCount =
        (enabledSkus (db.engineEnv plan' config demandDate demandText)).length -
          (newSuggestion (db.engineEnv plan' config demandDate demandText)
            firstId items).restockItemCount

variable (db config demandDate) in
/-- The number of SKUs with something to send. -/
def toRestock (plan : Plan) : ℕ :=
  (enabledSkuList db.skuConfigs).countP
    (restocked U (db.engineEnv plan config demandDate demandText))

/-- Two orders give the same number of SKUs with something to send. -/
theorem toRestock_eq (h : OneCountry U
    (runQuery db.stock db.rules (loadPhysicalSkuResolver db.aliases) db.euCountries
    (some (enabledSkuList db.skuConfigs)))) (plan plan' : Plan) :
    toRestock U db config demandDate demandText plan =
    toRestock U db config demandDate demandText plan' := by
  have hone : OneCountry U (engineQuery (db.engineEnv plan' config demandDate demandText)) := h
  have hsame : restocked U (db.engineEnv plan config demandDate demandText) =
      restocked U (db.engineEnv plan' config demandDate demandText) := by
    funext sku
    unfold restocked
    rw [← engineCountryQty_order hone plan sku]
    rfl
  unfold toRestock
  rw [hsame]

/-- **The dashboard counts what the engine would store** exactly if no SKU with something
to send has enough at home and the number of these SKUs does not depend on the order of the
groups. It does not where a warehouse that is counted for a country holds goods of that
country only. -/
theorem restockSkuCount_eq_iff (hconfig : db.config = some config) (hdraft : db.draft = some draft)
    (hdate : draft.demandDate = some demandDate) (hon : config.suggestionGenerationEnabled = true)
    (hruns : ∀ plan, ∃ items, engineItems U (db.engineEnv plan config demandDate demandText) =
      .ok items) :
    (CountsAgree U db config demandDate demandText ↔
      (∀ plan, AllShortAtHome U (db.engineEnv plan config demandDate demandText)) ∧
        ∀ plan plan', toRestock U db config demandDate demandText plan =
        toRestock U db config demandDate demandText plan') ∧
    (OneCountry U (runQuery db.stock db.rules (loadPhysicalSkuResolver db.aliases) db.euCountries
      (some (enabledSkuList db.skuConfigs))) →
      (CountsAgree U db config demandDate demandText ↔
      AllShortAtHome U (db.liveEnv config demandDate demandText))) := by
  have hpayload : ∀ plan, (buildDashboardPayload U { db with plan := plan }).restockSkuCount =
        (enabledSkuList db.skuConfigs).countP (DashboardDb.counts U { db with plan := plan }) ∧
      (buildDashboardPayload U { db with plan := plan }).noRestockSkuCount =
        (enabledSkuList db.skuConfigs).length - (enabledSkuList db.skuConfigs).countP
            (DashboardDb.counts U { db with plan := plan }) := by
    intro plan
    unfold buildDashboardPayload
    rw [(sanitize_restockSkuCount _).1, (sanitize_restockSkuCount _).2]
    exact ⟨rfl, rfl⟩
  have hshort : ∀ plan, (enabledSkuList db.skuConfigs).countP
      (DashboardDb.counts U { db with plan := plan }) =
        toRestock U db config demandDate demandText plan ↔
        AllShortAtHome U (db.engineEnv plan config demandDate demandText) := fun plan =>
    @countP_counts_iff U { db with plan := plan }
      config draft demandDate demandText hconfig hdraft hdate
  have hall : CountsAgree U db config demandDate demandText ↔
      (∀ plan, AllShortAtHome U (db.engineEnv plan config demandDate demandText)) ∧
        ∀ plan plan', toRestock U db config demandDate demandText plan =
          toRestock U db config demandDate demandText plan' := by
    constructor
    · intro h
      have hsame : ∀ plan plan', (enabledSkuList db.skuConfigs).countP
          (DashboardDb.counts U { db with plan := plan }) =
          toRestock U db config demandDate demandText plan' := by
        intro plan plan'
        obtain ⟨items, hitems⟩ := hruns plan'
        rw [← (hpayload plan).1, (h plan plan' items hitems 1).1,
          restockItemCount_engine hon hitems]
        rfl
      exact ⟨fun plan => (hshort plan).mp (hsame plan plan),
        fun plan plan' => (hsame plan plan).symm.trans (hsame plan plan')⟩
    · intro h plan plan' items hitems firstId
      obtain ⟨hhome, horder⟩ := h
      have hsame : (enabledSkuList db.skuConfigs).countP
          (DashboardDb.counts U { db with plan := plan }) =
          toRestock U db config demandDate demandText plan' :=
            ((hshort plan).mpr (hhome plan)).trans (horder plan plan')
      rw [restockItemCount_engine hon hitems, (hpayload plan).1, (hpayload plan).2, hsame]
      exact ⟨rfl, rfl⟩
  refine ⟨hall, fun hone => hall.trans
    ⟨fun h => h.1 db.plan, fun h => ⟨fun plan => ?_, toRestock_eq U demandText hone⟩⟩⟩
  -- what is to be sent is the same in every order
  have hqty := @engineCountryQty_order U (db.liveEnv config demandDate demandText) hone plan
  intro sku hsku hpos
  have hpos' : 0 < (engineCountryQty U (db.liveEnv config demandDate demandText)
      sku).values.sum := by
    rw [← hqty sku]
    exact hpos
  have hlive := h sku hsku hpos'
  unfold ShortAtHome at hlive ⊢
  rw [← hqty sku] at hlive
  exact hlive

end Counts

theorem tenUnits_nodup : ([⟨1, "A", 10, 0⟩] : List ThirdPartyInventoryCurrent).map
    (fun row => (row.warehouseId, row.commoditySku)) |>.Nodup := by decide

theorem noRules_nodup : (([] : List SkuMappingRule).map (·.commoditySku)).Nodup := List.nodup_nil

/-- One SKU that sells a unit a day, with ten units overseas and the given stock at home. -/
def oneSkuDb (localStock : Dict String LocalStock) : DashboardDb where
  today := 0
  config := some ⟨true, 60, 15, some 50, 15, none⟩
  draft := some ⟨1, .draft, some 0, [], 0⟩
  productListing := []
  skuConfigs := .set .empty "A" ⟨true, none⟩
  velocity := .set .empty "A" (.set .empty "US" 1)
  plan := Plan.identity
  stock := ⟨.set .empty 1 (some "US"), [⟨1, "A", 10, 0⟩], .empty, .empty, [], tenUnits_nodup⟩
  rules := ⟨[], noRules_nodup⟩
  aliases := ⟨[], [], List.nodup_nil⟩
  euCountries := []
  localStock := localStock
  countryWarehouses := .empty
  orders := .empty
  matchWarehouses := fun _ _ => .ok []

/-- What the engine reads with the demand date of the draft. -/
def oneSkuEnv (plan : Plan) (localStock : Dict String LocalStock) : EngineEnv :=
  (oneSkuDb localStock).engineEnv plan ⟨true, 60, 15, some 50, 15, none⟩ 0 "2026-01-01"

theorem oneSkuEnv_runs (localStock : Dict String LocalStock) (plan : Plan) :
    ∃ items, engineItems CharTable.ascii (oneSkuEnv plan localStock) = .ok items :=
  ⟨_, (engineItems_ok_iff CharTable.ascii).mpr
    (Or.inr ⟨50, ⟨rfl, rfl, fun _ _ _ _ => ⟨[], rfl⟩⟩, rfl⟩)⟩

/-- There is no formula, so no component is asked for. -/
theorem oneCountry_oneSkuDb (localStock : Dict String LocalStock) : OneCountry CharTable.ascii
    (runQuery (oneSkuDb localStock).stock (oneSkuDb localStock).rules
      (loadPhysicalSkuResolver (oneSkuDb localStock).aliases) (oneSkuDb localStock).euCountries
      (some (enabledSkuList (oneSkuDb localStock).skuConfigs))) :=
  OneCountry.of_not_asked rfl

/-- Nothing is at home: the dashboard counts the SKU, as the engine does in every order. -/
theorem restockSkuCount_nothing_at_home :
    (buildDashboardPayload CharTable.ascii (oneSkuDb .empty)).restockSkuCount = 1 ∧
    CountsAgree CharTable.ascii (oneSkuDb .empty) ⟨true, 60, 15, some 50, 15, none⟩
    0 "2026-01-01" := by
  have hrun : (buildDashboardPayload CharTable.ascii (oneSkuDb .empty)).restockSkuCount = 1 ∧
      (engineCountryQty CharTable.ascii (oneSkuEnv .identity .empty) "A").values.sum = 50 ∧
      ((engineVelocity CharTable.ascii (oneSkuEnv .identity .empty)).getD "A" .empty).values.sum =
        1 ∧
      enabledSkus (oneSkuEnv .identity .empty) = ["A"] := by decide +kernel
  obtain ⟨hcount, hqty, hvelocity, henabled⟩ := hrun
  have hconfig : (oneSkuDb .empty).config = some ⟨true, 60, 15, some 50, 15, none⟩ := rfl
  have hagree := (restockSkuCount_eq_iff CharTable.ascii "2026-01-01" hconfig rfl rfl rfl
    (oneSkuEnv_runs .empty)).2
    (oneCountry_oneSkuDb .empty)
  refine ⟨hcount, hagree.mpr fun sku hsku _ => ?_⟩
  obtain rfl := List.mem_singleton.mp (henabled ▸ hsku)
  show (0 : ℤ) < (engineCountryQty CharTable.ascii (oneSkuEnv .identity .empty) "A").values.sum +
    ⌈((engineVelocity CharTable.ascii (oneSkuEnv .identity .empty)).getD "A" .empty).values.sum *
      ((15 : ℤ) : ℚ)⌉
  rw [hqty, hvelocity]
  decide +kernel

/-- A hundred units are at home: the engine would send fifty, the dashboard says that
nothing is to be restocked. -/
theorem restockSkuCount_hundred_at_home :
    (engineItems CharTable.ascii (oneSkuEnv .identity (.set .empty "A" ⟨100, 0⟩))).toOption.map
    (fun items =>
      (newSuggestion (oneSkuEnv .identity (.set .empty "A" ⟨100, 0⟩)) 1 items).restockItemCount) =
        some 1 ∧
    (buildDashboardPayload CharTable.ascii (oneSkuDb (.set .empty "A" ⟨100, 0⟩))).restockSkuCount =
      0 ∧
    (buildDashboardPayload CharTable.ascii
        (oneSkuDb (.set .empty "A" ⟨100, 0⟩))).noRestockSkuCount = 1 := by
  decide +kernel

/-! ### What is urgent -/

section Urgent

variable (U) (saleDaysBySku : SaleDaysMap) (leadTimeDays targetDays : ℤ)
    (allowedCountries : Option (List String))

/-- The SKU counts in the urgent ones of the country. -/
def countedUrgent (sku country : String) : Bool :=
  ((countrySaleDays (saleDaysBySku.get? sku) country).bind
    (riskOf U leadTimeDays targetDays allowedCountries country)) = some .urgent

theorem urgentCount_foldl (country : String) :
    ∀ (risks : List (String × Risk)) (counts : Dict String RiskCounts),
    ((risks.foldl (fun counts r => counts.set r.1 ((counts.getD r.1 .zero).count r.2)) counts).getD
    country
      .zero).urgentCount = (counts.getD country .zero).urgentCount +
      (Dict.valuesAt risks country).count .urgent
  | [], _ => by simp [Dict.valuesAt]
  | (c, risk) :: risks, counts => by
    rw [List.foldl_cons, urgentCount_foldl country risks]
    by_cases hc : c = country
    · subst hc
      have hvalues := Dict.valuesAt_cons_self (c, risk) risks
      simp only at hvalues
      rw [hvalues, Dict.getD, Dict.get?_set_self, Option.getD_some]
      cases risk <;> simp [RiskCounts.count, Nat.add_comm, Nat.add_left_comm]
    · rw [Dict.valuesAt_cons_ne hc, Dict.getD, Dict.get?_set_ne _ _ (Ne.symm hc)]
      rfl

theorem valuesAt_risks (country : String) : ∀ l : List (String × ℚ),
    Dict.valuesAt (l.filterMap
      fun entry => (riskOf U leadTimeDays targetDays allowedCountries entry.1 entry.2).map
      fun risk => (entry.1, risk)) country =
      (Dict.valuesAt l country).filterMap
      (riskOf U leadTimeDays targetDays allowedCountries country)
  | [] => rfl
  | (c, days) :: l => by
    have ih := valuesAt_risks country l
    rw [List.filterMap_cons]
    by_cases hc : c = country
    · subst hc
      have hvalues := Dict.valuesAt_cons_self (c, days) l
      simp only at hvalues
      rw [hvalues, List.filterMap_cons]
      cases riskOf U leadTimeDays targetDays allowedCountries c days with
      | none => exact ih
      | some risk =>
        have hrisk := Dict.valuesAt_cons_self (c, risk) (l.filterMap fun entry =>
          (riskOf U leadTimeDays targetDays allowedCountries entry.1 entry.2).map fun risk =>
            (entry.1, risk))
        exact hrisk.trans (congrArg (risk :: ·) ih)
    · rw [Dict.valuesAt_cons_ne hc, ← ih]
      cases riskOf U leadTimeDays targetDays allowedCountries c days with
      | none => rfl
      | some risk =>
        have hne : (c, risk).1 ≠ country := hc
        exact Dict.valuesAt_cons_ne hne _

/-- A SKU adds at most one to a country. -/
theorem count_risks_sku {sku : String} {countryMap : Dict String ℚ}
    (h : saleDaysBySku.get? sku = some countryMap) (country : String) :
    (Dict.valuesAt (countryMap.items.filterMap fun entry =>
      (riskOf U leadTimeDays targetDays allowedCountries entry.1 entry.2).map fun risk =>
        (entry.1, risk)) country).count
        .urgent = if countedUrgent U saleDaysBySku leadTimeDays targetDays allowedCountries sku
            country then 1 else 0 := by
  rw [valuesAt_risks, Dict.valuesAt_items]
  simp only [countedUrgent, countrySaleDays, h, Option.bind_some, decide_eq_true_eq]
  cases countryMap.get? country with
  | none => simp
  | some days =>
    cases hr : riskOf U leadTimeDays targetDays allowedCountries country days with
    | none => simp [hr]
    | some risk => cases risk <;> simp [hr]

/-- The urgent count of a country is the number of SKUs that count as urgent there. -/
theorem urgentCount_eq {item : CountryRiskDistribution}
    (h : item ∈ (buildCountryRiskDistribution U saleDaysBySku leadTimeDays targetDays
      allowedCountries).1) :
    item.urgentCount = saleDaysBySku.keys.countP fun sku =>
      countedUrgent U saleDaysBySku leadTimeDays targetDays allowedCountries sku item.country := by
  obtain ⟨⟨country, counts⟩, hmem, rfl⟩ := List.mem_map.mp ((List.mem_insertionSort _).mp h)
  have hget : (countRisks (risksOf U saleDaysBySku leadTimeDays targetDays allowedCountries)).getD
      country .zero = counts := by
    rw [Dict.getD, Dict.get?_eq_some_iff.mpr hmem, Option.getD_some]
  have hcount : counts.urgentCount =
      (Dict.valuesAt (risksOf U saleDaysBySku leadTimeDays targetDays allowedCountries)
          country).count .urgent := by
    rw [← hget, countRisks, urgentCount_foldl, Dict.getD, Dict.get?_empty]
    simp [RiskCounts.zero]
  show counts.urgentCount = _
  rw [hcount]
  unfold risksOf Dict.values Dict.keys
  rw [List.flatMap_map, Dict.valuesAt_flatMap, List.count_flatMap,
    List.countP_map, ← Sums.sum_indicator]
  refine congrArg List.sum (List.map_congr_left fun e he => ?_)
  exact count_risks_sku U saleDaysBySku leadTimeDays targetDays allowedCountries
    (Dict.get?_eq_some_iff.mpr he) country

variable (countryQtyBySku : Dict String (Dict String ℤ)) (productListing : List ProductListing)

/-- The quantities in the allowed countries, as the dashboard and the engine use them. -/
def allowedQty : Dict String (Dict String ℤ) :=
  countryQtyBySku.mapVal fun _ countryMap => filterAllowedCountryMap U allowedCountries countryMap

/-- The three places agree: a listed SKU is counted, and a country of a positive quantity
makes a SKU urgent exactly if the SKU is counted there. Quantities of countries that are not
allowed are filtered out before, so the places are not compared on them. -/
structure UrgentAgrees : Prop where
  listed : ∀ item ∈ buildTopUrgentSkus U productListing saleDaysBySku
      (allowedQty U allowedCountries countryQtyBySku) leadTimeDays,
    countedUrgent U saleDaysBySku leadTimeDays targetDays allowedCountries item.commoditySku
      item.country = true
  engine : ∀ sku country qty,
    ((allowedQty U allowedCountries countryQtyBySku).getD sku .empty).get? country = some qty →
      0 < qty → (hasUrgentSaleDays (saleDaysBySku.getD sku .empty) leadTimeDays [country] = true ↔
      countedUrgent U saleDaysBySku leadTimeDays targetDays allowedCountries sku country = true)

/-- Days of sale that are not above the lead time are below it, and not negative. -/
def InsideLeadTime : Prop :=
  ∀ sku country qty days,
    ((allowedQty U allowedCountries countryQtyBySku).getD sku .empty).get? country = some qty →
    0 < qty → countrySaleDays (saleDaysBySku.get? sku) country = some days → days ≤ leadTimeDays →
    0 ≤ days ∧ days ≠ leadTimeDays

variable {U saleDaysBySku leadTimeDays targetDays allowedCountries countryQtyBySku productListing}

theorem allowed_of_get? {sku country : String} {qty : ℤ}
    (h : ((allowedQty U allowedCountries countryQtyBySku).getD sku .empty).get?
      country = some qty) :
    isReportableCountryCode U (.str country) = true ∧
    (allowedCountries.all fun l => country ∈ l) = true := by
  unfold allowedQty Dict.getD at h
  rw [Dict.get?_mapVal] at h
  cases hm : countryQtyBySku.get? sku with
  | none =>
    rw [hm] at h
    cases h
  | some m =>
    rw [hm, Option.map_some, Option.getD_some, filterAllowedCountryMap, filterReportableCountryMap,
      Dict.get?_filter, Dict.get?_filter] at h
    obtain ⟨h', hallowed⟩ := Option.filter_eq_some_iff.mp h
    exact ⟨(Option.filter_eq_some_iff.mp h').2, hallowed⟩

/-- In an allowed country, the days decide. -/
theorem countedUrgent_iff {sku country : String} {qty : ℤ}
    (h : ((allowedQty U allowedCountries countryQtyBySku).getD sku .empty).get?
      country = some qty) :
    countedUrgent U saleDaysBySku leadTimeDays targetDays allowedCountries sku country = true ↔
      ∃ days, countrySaleDays (saleDaysBySku.get? sku) country = some days ∧ 0 ≤ days ∧
      days < leadTimeDays := by
  obtain ⟨hreportable, hallowed⟩ := allowed_of_get? h
  unfold countedUrgent riskOf
  rw [decide_eq_true_eq, Option.bind_eq_some_iff]
  refine exists_congr fun days => and_congr_right fun _ => ?_
  simp only [hreportable, hallowed, Bool.not_true, Bool.false_eq_true, if_false]
  by_cases h0 : days < 0
  · simp [h0]
  · by_cases hlead : days < leadTimeDays
    · simp [h0, hlead, not_lt.mp h0]
    · simp only [h0, hlead, if_false, and_false, iff_false]
      split_ifs <;> simp

theorem hasUrgentSaleDays_iff {sku country : String} :
    hasUrgentSaleDays (saleDaysBySku.getD sku .empty) leadTimeDays [country] = true ↔
      ∃ days, countrySaleDays (saleDaysBySku.get? sku) country = some days ∧
      days ≤ leadTimeDays := by
  unfold hasUrgentSaleDays countrySaleDays Dict.getD
  cases saleDaysBySku.get? sku with
  | none => simp
  | some m => simp [Option.any_eq_true]

/-- A row of the list is of an allowed country with a positive quantity, not above the
lead time. -/
theorem urgentRows_spec {sku country : String} {days : ℚ}
    (h : (sku, country, days) ∈ urgentRows U saleDaysBySku
      (allowedQty U allowedCountries countryQtyBySku) leadTimeDays) :
    ∃ qty, ((allowedQty U allowedCountries countryQtyBySku).getD sku .empty).get? country =
      some qty ∧ 0 < qty ∧ countrySaleDays (saleDaysBySku.get? sku) country = some days ∧
      days ≤ leadTimeDays := by
  obtain ⟨⟨sku', countryMap⟩, hsku, hrow⟩ := List.mem_flatMap.mp h
  obtain ⟨⟨country', qty⟩, hcountry, hif⟩ := List.mem_filterMap.mp hrow
  split_ifs at hif with hreportable hqty
  obtain ⟨days', hdays, hle⟩ := Option.bind_eq_some_iff.mp hif
  split_ifs at hle with hlt
  obtain ⟨rfl, hrest⟩ := Prod.mk.inj (Option.some.inj hle)
  obtain ⟨rfl, rfl⟩ := Prod.mk.inj hrest
  refine ⟨qty, ?_, not_le.mp hqty, hdays, not_lt.mp hlt⟩
  rw [Dict.getD, Dict.get?_eq_some_iff.mpr hsku, Option.getD_some]
  exact Dict.get?_eq_some_iff.mpr hcountry

variable (U saleDaysBySku leadTimeDays targetDays allowedCountries countryQtyBySku productListing)
    in
/-- **One meaning of urgent**, exactly if no SKU with a positive quantity has days of sale
at the lead time, or negative ones. -/
theorem urgentAgrees_iff :
    UrgentAgrees U saleDaysBySku leadTimeDays targetDays allowedCountries countryQtyBySku
      productListing ↔ InsideLeadTime U saleDaysBySku leadTimeDays allowedCountries
      countryQtyBySku := by
  constructor
  · intro h sku country qty days hget hqty hdays hle
    have hurgent := (h.engine sku country qty hget hqty).mp
      (hasUrgentSaleDays_iff.mpr ⟨days, hdays, hle⟩)
    obtain ⟨days', hdays', h0, hlt⟩ := (countedUrgent_iff hget).mp hurgent
    obtain rfl := Option.some.inj (hdays.symm.trans hdays')
    exact ⟨h0, hlt.ne⟩
  · intro h
    have hcounted : ∀ {sku country qty days},
        ((allowedQty U allowedCountries countryQtyBySku).getD sku .empty).get? country = some qty →
        0 < qty → countrySaleDays (saleDaysBySku.get? sku) country = some days →
        days ≤ leadTimeDays →
        countedUrgent U saleDaysBySku leadTimeDays targetDays allowedCountries sku
            country = true := by
      intro sku country qty days hget hqty hdays hle
      obtain ⟨h0, hne⟩ := h sku country qty days hget hqty hdays hle
      exact (countedUrgent_iff hget).mpr ⟨days, hdays, h0, lt_of_le_of_ne hle hne⟩
    refine ⟨fun item hitem => ?_,
      fun sku country qty hget hqty => ⟨fun hurgent => ?_, fun hcount => ?_⟩⟩
    · obtain ⟨row, hrow, rfl⟩ := List.mem_map.mp hitem
      have hmem := (List.mem_insertionSort _).mp (List.mem_of_mem_take hrow)
      obtain ⟨qty, hget, hqty, hdays, hle⟩ := urgentRows_spec hmem
      exact hcounted hget hqty hdays hle
    · obtain ⟨days, hdays, hle⟩ := hasUrgentSaleDays_iff.mp hurgent
      exact hcounted hget hqty hdays hle
    · obtain ⟨days, hdays, -, hlt⟩ := (countedUrgent_iff hget).mp hcount
      exact hasUrgentSaleDays_iff.mpr ⟨days, hdays, hlt.le⟩

/-- Twenty days of sale and a lead time of twenty days: the SKU is listed and makes its
item urgent, but the country has no urgent SKU. -/
theorem urgent_at_leadTime :
    buildTopUrgentSkus CharTable.ascii [] (.set .empty "A" (.set .empty "US" 20))
      (allowedQty CharTable.ascii none (.set .empty "A" (.set .empty "US" 5))) 20 =
      [⟨"A", none, none, "US", 20⟩] ∧
    hasUrgentSaleDays (.set .empty "US" 20) 20 ["US"] = true ∧
    buildCountryRiskDistribution CharTable.ascii (.set .empty "A" (.set .empty "US" 20))
      20 60 none = ([⟨"US", 0, 1, 0, 1⟩], ⟨0, 1, 0⟩) ∧
    ¬ UrgentAgrees CharTable.ascii (.set .empty "A" (.set .empty "US" 20)) 20 60 none
      (.set .empty "A" (.set .empty "US" 5)) [] := by
  have hvalues : buildTopUrgentSkus CharTable.ascii [] (.set .empty "A" (.set .empty "US" 20))
      (allowedQty CharTable.ascii none (.set .empty "A" (.set .empty "US" 5))) 20 =
        [⟨"A", none, none, "US", 20⟩] ∧
      hasUrgentSaleDays (.set .empty "US" 20) 20 ["US"] = true ∧
      buildCountryRiskDistribution CharTable.ascii (.set .empty "A" (.set .empty "US" 20))
        20 60 none = ([⟨"US", 0, 1, 0, 1⟩], ⟨0, 1, 0⟩) ∧
      countedUrgent CharTable.ascii (.set .empty "A" (.set .empty "US" 20))
          20 60 none "A" "US" = false := by
    decide +kernel
  obtain ⟨hlisted, hengine, hrisk, hcount⟩ := hvalues
  refine ⟨hlisted, hengine, hrisk, fun h => ?_⟩
  have hcounted := h.listed ⟨"A", none, none, "US", 20⟩
    (by rw [hlisted]; exact List.mem_singleton.mpr rfl)
  rw [hcount] at hcounted
  cases hcounted

end Urgent

end Payload

end Restock
