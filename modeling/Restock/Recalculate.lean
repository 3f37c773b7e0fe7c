/-
# Recalculating one item (`api/suggestion.py`)

`recalculate_item` runs step 2 again for the SKU of the item alone. On the data that
the engine stored the item from it should leave the days of sale and the urgency as
they are, in whatever order the database returns the groups this time. Where no
warehouse holds goods of two countries it does so, whatever the stock and the sales are,
exactly if the SKU has no formula or is the only one of the list with a formula; on all
stock tables, exactly if the SKU has no formula (`recalculate_agrees_iff`). The lead
times of the two paths agree, and the filters on reportable countries that only the
engine has remove nothing of the days of sale.
-/
import Restock.SaleDaysSolo
import Restock.SuggestionEdit

namespace Restock

open PyText Query

/-- Recalculating the items of a SKU on the data of the run that stored them, with the
groups in an order of their own, leaves their days of sale and their urgency. -/
def RecalculationKeeps (U : CharTable) (env : EngineEnv) (plan : Plan) (sku : String) : Prop :=
  ∀ db items, engineItems U env = .ok items → ∀ itemId item,
    (numberItems db.nextItemId items).get? itemId = some item → item.commoditySku = sku →
      let stored := persistSuggestion env (archiveActive db) items
      ∃ item', recalculateItem U { env with plan := plan } db.nextSuggestionId itemId stored =
          .ok (setItem stored db.nextSuggestionId (newSuggestion env db.nextItemId items)
            itemId item') ∧
        (∀ country, item'.saleDaysSnapshot.get? country = item.saleDaysSnapshot.get? country) ∧
        item'.urgent = item.urgent

section Keeps

variable {U : CharTable} {env : EngineEnv}

theorem checkConfig_leadTimeDays {config : GlobalConfig} {leadTimeDays : ℤ}
    (h : checkConfig config = .ok leadTimeDays) : config.leadTimeDays = some leadTimeDays := by
  unfold checkConfig at h
  cases hlead : config.leadTimeDays with
  | none =>
    rw [hlead] at h
    split_ifs at h
  | some lead =>
    rw [hlead] at h
    simp only at h
    split_ifs at h
    rw [Except.ok.inj h]

/-- An item of a run is the item of its SKU, under the lead time of the configuration. -/
theorem engineItem_of_mem {items : List SuggestionItem} (h : engineItems U env = .ok items)
    {item : SuggestionItem} (hi : item ∈ items) :
    ∃ leadTimeDays, env.config.leadTimeDays = some leadTimeDays ∧
    engineItem U env leadTimeDays item.commoditySku = some item ∧
    item.commoditySku ∈ enabledSkus env := by
  rcases (engineItems_ok_iff U).mp h with ⟨-, rfl⟩ | ⟨leadTimeDays, hret, rfl⟩
  · exact absurd hi List.not_mem_nil
  · obtain ⟨sku, hs, he⟩ := List.mem_filterMap.mp hi
    have hsku : item.commoditySku = sku := by
      unfold engineItem at he
      simp only at he
      split_ifs at he
      rw [← Option.some.inj he]
    rw [hsku]
    exact ⟨leadTimeDays, checkConfig_leadTimeDays hret.config, he, hs⟩

/-- Urgency reads the days country by country. -/
theorem hasUrgentSaleDays_congr {saleDays saleDays' : Dict String ℚ}
    (h : ∀ country, saleDays.get? country = saleDays'.get? country) (leadTimeDays : ℤ)
    (countries : List String) :
    hasUrgentSaleDays saleDays leadTimeDays countries =
    hasUrgentSaleDays saleDays' leadTimeDays countries := by
  unfold hasUrgentSaleDays
  simp only [h]

theorem recalculateItem_ok {db : SuggestionDb} {suggestionId itemId : ℕ} {parent : Suggestion}
    {item : SuggestionItem} (hparent : db.suggestions.get? suggestionId = some parent)
    (hstatus : parent.status = .draft) (hitem : parent.items.get? itemId = some item) :
    recalculateItem U env suggestionId itemId db = .ok
    (setItem db suggestionId parent itemId (recalculatedItem U env
      (resolveEffectiveLeadTimeDays env.skuConfigs parent item)
      (suggestionDemandDate U parent) item)) := by
  unfold recalculateItem
  rw [hparent]
  simp only
  rw [if_neg (not_not.mpr hstatus), hitem]

/-- If the short run says the same of the SKU as the run of the engine, so does a
recalculation. -/
theorem recalculationKeeps_of_sameFor {plan : Plan} {sku : String}
    (h : sku ∈ enabledSkus env → SameFor sku
      (runStep2 U plan env.stock env.rules (loadPhysicalSkuResolver env.aliases) env.euCountries
        (Dict.empty.set sku ((engineVelocity U env).getD sku .empty)) (some [sku]))
      (runStep2 U env.plan env.stock env.rules (loadPhysicalSkuResolver env.aliases) env.euCountries
        (engineVelocity U env) (some (enabledSkus env)))) :
    RecalculationKeeps U env plan sku := by
  rintro db items hitems itemId item hget rfl
  obtain ⟨leadTimeDays, hlead, he, hmem⟩ := engineItem_of_mem hitems (mem_of_numberItems hget)
  have hparent : (persistSuggestion env (archiveActive db) items).suggestions.get?
      db.nextSuggestionId = some (newSuggestion env db.nextItemId items) := Dict.get?_set_self _ _ _
  refine ⟨_, recalculateItem_ok hparent rfl hget, ?_⟩
  -- what the item holds of the run
  have hitem : item.velocitySnapshot = (engineVelocity U env).getD item.commoditySku .empty ∧
      item.saleDaysSnapshot = (engineStep2 U env).1.getD item.commoditySku .empty ∧
      item.urgent = hasUrgentSaleDays item.saleDaysSnapshot
        (engineLeadTime env leadTimeDays item.commoditySku)
        (positiveQtyCountries item.countryBreakdown) := by
    generalize hsku : item.commoditySku = sku at he
    unfold engineItem at he
    simp only at he
    split_ifs at he
    obtain rfl := Option.some.inj he
    exact ⟨rfl, rfl, rfl⟩
  obtain ⟨hv, hd, hu⟩ := hitem
  have hdays : ∀ country,
      ((recalculateStep2 U { env with plan := plan } item).1.getD item.commoditySku .empty).get?
      country = item.saleDaysSnapshot.get? country := by
    intro country
    rw [hd, get?_engineSaleDays, recalculateStep2, hv]
    exact (h hmem).saleDays country
  refine ⟨hdays, ?_⟩
  have hl : resolveEffectiveLeadTimeDays env.skuConfigs
      (newSuggestion env db.nextItemId items) item =
      engineLeadTime env leadTimeDays item.commoditySku := by
    show ((env.skuConfigs.get? item.commoditySku).bind SkuConfig.leadTimeDays).getD
      (env.config.leadTimeDays.getD 50) = _
    rw [hlead]
    rfl
  rw [hl, hu]
  exact hasUrgentSaleDays_congr hdays _ _

end Keeps

/-- On the stock tables that meet the condition a run for one SKU agrees with the run for all
on all sales and in all orders, and recalculations keep what the engine stored. -/
def RecalculationAgrees (U : CharTable) (table : RuleTable) (aliases : PhysicalItemTable)
    (euCountries : List String) (sku : String) (skus : List String) (ok : StockDb → Prop) : Prop :=
  (∀ db : StockDb, ok db → ∀ (plan plan' : Plan) (velocity : Velocity), SameFor sku
    (runStep2 U plan db table (loadPhysicalSkuResolver aliases) euCountries
      (Dict.empty.set sku (velocity.getD sku .empty)) (some [sku]))
    (runStep2 U plan' db table (loadPhysicalSkuResolver aliases) euCountries velocity
      (some skus))) ∧
  ∀ env : EngineEnv, env.rules = table → env.aliases = aliases → env.euCountries = euCountries →
    enabledSkus env = skus → ok env.stock → ∀ plan, RecalculationKeeps U env plan sku

/-- What holds of the runs holds of the recalculations. -/
theorem recalculationAgrees_iff {U : CharTable} {table : RuleTable} {aliases : PhysicalItemTable}
    {euCountries : List String} {sku : String} {skus : List String} {ok : StockDb → Prop}
    {cond : Prop} (h : (∀ db : StockDb, ok db →
    ∀ (plan plan' : Plan) (velocity : Velocity), SameFor sku
      (runStep2 U plan db table (loadPhysicalSkuResolver aliases) euCountries
        (Dict.empty.set sku (velocity.getD sku .empty)) (some [sku]))
      (runStep2 U plan' db table (loadPhysicalSkuResolver aliases) euCountries velocity
        (some skus))) ↔ cond) :
    RecalculationAgrees U table aliases euCountries sku skus ok ↔ cond := by
  rw [← h]
  refine ⟨fun hagrees => hagrees.1, fun hsame => ⟨hsame, ?_⟩⟩
  rintro env rfl rfl rfl rfl hok plan
  exact recalculationKeeps_of_sameFor fun _ =>
    hsame env.stock hok plan env.plan (engineVelocity U env)

/-- **Recalculating one item**: with these rules, aliases, members and SKUs, a run for one
SKU agrees with the run for all, and recalculations keep what the engine stored, exactly if
no two formulas can meet, as long as a warehouse that is counted for a country holds goods
of that country only. Whatever the warehouses hold, they do exactly if the SKU has no
formula. -/
theorem recalculate_agrees_iff (U : CharTable) (table : RuleTable) (aliases : PhysicalItemTable)
    (euCountries : List String) {sku : String} {skus : List String} (hs : sku ∈ skus) :
    (RecalculationAgrees U table aliases euCountries sku skus
        (fun db => OneCountry U
          (runQuery db table (loadPhysicalSkuResolver aliases) euCountries (some [sku]))) ↔
      ¬ ActiveFormula table sku ∨ ∀ t ∈ skus, t ≠ sku → ¬ ActiveFormula table t) ∧
    (RecalculationAgrees U table aliases euCountries sku skus (fun _ => True) ↔
      ¬ ActiveFormula table sku) := by
  refine ⟨recalculationAgrees_iff (sameFor_iff U table aliases euCountries hs),
    recalculationAgrees_iff ?_⟩
  rw [← sameFor_always_iff U table aliases euCountries hs]
  exact ⟨fun h db => h db trivial, fun h db _ => h db⟩

/-! ### Two formulas of one component -/

def oneUnit : SkuMappingComponent := ⟨1, "A", 1, Nat.one_pos, Nat.one_pos⟩

theorem oneUnit_nodup : ([oneUnit].map (·.inventorySku)).Nodup := by decide

def kitS : SkuMappingRule := ⟨"S", true, [oneUnit], oneUnit_nodup⟩

def kitT : SkuMappingRule := ⟨"T", true, [oneUnit], oneUnit_nodup⟩

theorem kits_nodup : ([kitS, kitT].map (·.commoditySku)).Nodup := by decide

/-- Two commodities that are each one unit of `A`. -/
def twoKits : RuleTable := ⟨[kitS, kitT], kits_nodup⟩

def noAliases : PhysicalItemTable := ⟨[], [], List.nodup_nil⟩

/-- Two units of `A` on their way to an overseas warehouse. -/
def twoUnits : StockDb where
  thirdPartyWarehouses := .empty
  thirdPartyInventory := []
  warehouses := .set .empty "W" 3
  inTransitRecords := .set .empty "R" ⟨some "W", some "US", true⟩
  inTransitItems := [⟨"R", "A", 2⟩]
  unique_inventory := noInventory_nodup

theorem kit_nodup : ([kitS].map (·.commoditySku)).Nodup := List.nodup_singleton _

/-- Only `S` is made of units of `A`. -/
def oneKit : RuleTable := ⟨[kitS], kit_nodup⟩

/-- The two units are of one country. -/
theorem oneCountry_twoUnits (U : CharTable) (querySkus : List String)
    (skuGroups : Dict String String) : OneCountry U ⟨twoUnits, querySkus, skuGroups, []⟩ := by
  refine OneCountry.of_own (c := "US") fun key w d hown => ?_
  rcases hown with ⟨row, hrow, -⟩ | ⟨row, hrow, -, -, hd⟩
  · exact absurd hrow List.not_mem_nil
  · obtain ⟨item, hitem, hrow⟩ := List.mem_filterMap.mp hrow
    obtain rfl := List.mem_singleton.mp hitem
    have hrecord : twoUnits.inTransitRecords.get? "R" = some ⟨some "W", some "US", true⟩ := rfl
    simp only [hrecord] at hrow
    split_ifs at hrow
    obtain rfl := Option.some.inj hrow
    exact (Option.some.inj hd).symm

/-- `U` has no formula: `S` gets both units of `A` alone and beside it, in every order. -/
theorem recalculate_agrees_alone : ActiveFormula oneKit "S" ∧
    (runStep2 CharTable.ascii Plan.identity twoUnits oneKit (loadPhysicalSkuResolver noAliases) []
      (Dict.empty.set "S" (.set .empty "US" 1)) (some ["S"])).2.get? ("S", "US") = some ⟨2, 0, 0⟩ ∧
    ∀ (plan plan' : Plan) (velocity : Velocity), SameFor "S"
      (runStep2 CharTable.ascii plan twoUnits oneKit (loadPhysicalSkuResolver noAliases) []
        (Dict.empty.set "S" (velocity.getD "S" .empty)) (some ["S"]))
      (runStep2 CharTable.ascii plan' twoUnits oneKit
        (loadPhysicalSkuResolver noAliases) [] velocity
        (some ["S", "U"])) := by
  have hmem : "S" ∈ ["S", "U"] := List.mem_cons_self
  have honly : ∀ t ∈ ["S", "U"], t ≠ "S" → ¬ ActiveFormula oneKit t := by
    rintro t - hne ⟨row, hrow, -, rfl, -⟩
    exact hne (by rw [List.mem_singleton.mp hrow]; rfl)
  refine ⟨⟨kitS, List.mem_singleton.mpr rfl, rfl, rfl, List.cons_ne_nil _ _⟩, by decide +kernel, ?_⟩
  exact ((recalculate_agrees_iff CharTable.ascii oneKit noAliases [] hmem).1.mpr (Or.inr honly)).1
    twoUnits
    (oneCountry_twoUnits _ _ _)

/-- Each of the two sells a unit a day. -/
def twoSales : Velocity := (Dict.empty.set "S" (.set .empty "US" 1)).set "T" (.set .empty "US" 1)

/-- Step 2 on the two units, for a list of SKUs with their sales. -/
def kitRun (velocity : Velocity) (skus : List String) : SaleDaysMap × InventoryMap :=
  runStep2 CharTable.ascii Plan.identity twoUnits twoKits (loadPhysicalSkuResolver noAliases)
    [] velocity (some skus)

/-- Alone, `S` gets both units and has two days of sale; among the others it gets
one unit and has one day. -/
theorem recalculate_differs :
    (kitRun (Dict.empty.set "S" (twoSales.getD "S" .empty)) ["S"]).2.get? ("S", "US") =
    some ⟨2, 0, 0⟩ ∧ (kitRun twoSales ["S", "T"]).2.get? ("S", "US") = some ⟨1, 0, 0⟩ ∧
    ((kitRun (Dict.empty.set "S" (twoSales.getD "S" .empty)) ["S"]).1.getD "S" .empty).get?
    "US" = some 2 ∧ ((kitRun twoSales ["S", "T"]).1.getD "S" .empty).get? "US" = some 1 ∧
    ¬ SameFor "S" (kitRun (Dict.empty.set "S" (twoSales.getD "S" .empty)) ["S"])
    (kitRun twoSales ["S", "T"]) := by
  have hvalues : (kitRun (Dict.empty.set "S" (twoSales.getD "S" .empty)) ["S"]).2.get? ("S", "US") =
      some ⟨2, 0, 0⟩ ∧ (kitRun twoSales ["S", "T"]).2.get? ("S", "US") = some ⟨1, 0, 0⟩ ∧
      ((kitRun (Dict.empty.set "S" (twoSales.getD "S" .empty)) ["S"]).1.getD "S" .empty).get?
        "US" = some 2 ∧
      ((kitRun twoSales ["S", "T"]).1.getD "S" .empty).get? "US" = some 1 := by
    decide +kernel
  obtain ⟨h1, h2, h3, h4⟩ := hvalues
  refine ⟨h1, h2, h3, h4, fun h => ?_⟩
  have hstock := h.stock "US"
  rw [h1, h2] at hstock
  exact absurd hstock (by decide)

end Restock
