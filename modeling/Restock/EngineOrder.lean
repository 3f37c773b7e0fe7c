/-
# A run and the order of its groups (`engine/runner.py`, step 2)

The queries of step 2 have no `ORDER BY`. Where a warehouse that is counted for a country
holds goods of that country only, the order in which their groups come changes nothing of
a run: neither its stock nor a quantity (`engineCountryQty_order`), and so none of its
items (`engineItems_order`).
-/
import Restock.EngineRun
import Restock.TransitCountry

namespace Restock

open PyText Query

section Order

variable {U : CharTable} {env : EngineEnv}

/-- What step 2 of the run reads for the components of the active rules. -/
def engineQuery (env : EngineEnv) : ComponentQuery :=
  runQuery env.stock env.rules (loadPhysicalSkuResolver env.aliases) env.euCountries
    (some (enabledSkus env))

/-- The days of sale are read off the stock, entry by entry. -/
theorem computeSaleDays_congr {velocity : Velocity} {inventory inventory' : InventoryMap}
    (h : ∀ key, inventory.get? key = inventory'.get? key) :
    computeSaleDays U velocity inventory = computeSaleDays U velocity inventory' := by
  have hof : saleDaysOf U inventory = saleDaysOf U inventory' := by
    funext sku countryMap
    unfold saleDaysOf
    simp only [h]
  unfold computeSaleDays
  rw [hof]

theorem countryQtyOf_congr {inventory inventory' : InventoryMap} {sku : String}
    (h : ∀ country, inventory.get? (sku, country) = inventory'.get? (sku, country)) (targetDays : ℤ)
    (countryMap : Dict String ℚ) :
    countryQtyOf U inventory targetDays sku countryMap =
    countryQtyOf U inventory' targetDays sku countryMap := by
  unfold countryQtyOf
  simp only [h]

variable (h : OneCountry U (engineQuery env)) (plan : Plan)

include h

/-- The stock of the run. -/
theorem engineStock_order (key : String × String) :
    (engineStep2 U { env with plan := plan }).2.get? key = (engineStep2 U env).2.get? key := by
  have hstock := h.stock_congr (engineVelocity U env) plan env.plan key
  unfold engineStep2
  rw [Dict.get?_filter, Dict.get?_filter]
  exact congrArg (Option.filter _) hstock

/-- The days of sale. -/
theorem engineSaleDays_order :
    (engineStep2 U { env with plan := plan }).1 = (engineStep2 U env).1 := by
  have hdays := @computeSaleDays_congr U (engineVelocity U env) _ _
    (h.stock_congr (engineVelocity U env) plan env.plan)
  rw [← fst_runStep2, ← fst_runStep2] at hdays
  unfold engineStep2
  exact congrArg (fun days : SaleDaysMap => days.mapVal fun _ m => filterReportableCountryMap U m)
    hdays

/-- **The quantities by country** do not depend on the order of the groups. -/
theorem engineCountryQty_order (sku : String) :
    engineCountryQty U { env with plan := plan } sku = engineCountryQty U env sku := by
  have hqty := @countryQtyOf_congr U _ _ sku
    (fun country => engineStock_order h plan (sku, country))
    (effectiveTargetDays env) ((engineVelocity U env).getD sku .empty)
  unfold engineCountryQty
  exact congrArg (filterAllowedCountryMap U env.config.allowedCountries) hqty

/-- So the split is the same, and the item. -/
theorem engineItem_order (leadTimeDays : ℤ) (sku : String) :
    engineItem U { env with plan := plan } leadTimeDays sku =
    engineItem U env leadTimeDays sku := by
  have hqty := engineCountryQty_order h plan sku
  have hallocations : engineAllocations U { env with plan := plan } sku =
      engineAllocations U env sku := by
    unfold engineAllocations
    rw [hqty]
    rfl
  have hmissing : missingInventoryCountries U ((engineVelocity U env).getD sku .empty)
      (engineStep2 U { env with plan := plan }).2 sku env.config.allowedCountries =
      missingInventoryCountries U ((engineVelocity U env).getD sku .empty) (engineStep2 U env).2 sku
        env.config.allowedCountries := by
    unfold missingInventoryCountries
    simp only [engineStock_order h plan]
  have hvelocity : engineVelocity U { env with plan := plan } = engineVelocity U env := rfl
  unfold engineItem engineWarehouseBreakdown
  simp only [hqty, hallocations, hvelocity, engineSaleDays_order h plan, hmissing]
  rfl

theorem matchedCodes_order (sku : String) :
    matchedCodes U { env with plan := plan } sku = matchedCodes U env sku := by
  unfold matchedCodes
  rw [engineCountryQty_order h plan]

/-- **A run does not depend on the order of the groups.** -/
theorem engineItems_order : engineItems U { env with plan := plan } = engineItems U env := by
  have hcodes : matchedCodes U { env with plan := plan } = matchedCodes U env :=
    funext (matchedCodes_order h plan)
  have hitem : ∀ leadTimeDays, engineItem U { env with plan := plan } leadTimeDays =
      engineItem U env leadTimeDays :=
    fun leadTimeDays => funext (engineItem_order h plan leadTimeDays)
  unfold engineItems
  simp only [hcodes, hitem]
  rfl

end Order

end Restock
