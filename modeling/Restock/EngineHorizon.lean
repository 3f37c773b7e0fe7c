/-
# Planning for longer (`engine/runner.py`, steps 3 and 4)

The days that a run plans for are the target days and the days until the demand date. Of
two runs on the same tables the one that plans for more days sends and buys no less
(`later_demand_monotone`). Sales and quantities before rounding up are rational numbers
here; the two runs may get the rows of their queries in different orders.
-/
import Restock.EngineDemand

namespace Restock

open PyText Query

/-! ### Two runs that differ in the days -/

/-- The two environments are alike but for the days that the run plans for. -/
structure PlansFor (U : CharTable) (env env' : EngineEnv) (extraDays : ℤ) : Prop where
  skuConfigs : env.skuConfigs = env'.skuConfigs
  allowedCountries : env.config.allowedCountries = env'.config.allowedCountries
  safetyStockDays : env.config.safetyStockDays = env'.config.safetyStockDays
  velocity : SameSales (engineVelocity U env) (engineVelocity U env')
  inventory : ∀ key, (engineStep2 U env).2.get? key = (engineStep2 U env').2.get? key
  saleDays : ∀ sku, Dict.Same ((engineStep2 U env).1.getD sku .empty)
    ((engineStep2 U env').1.getD sku .empty)
  localStock : ∀ sku, (env.localStock.get? sku).elim 0 LocalStock.total =
    (env'.localStock.get? sku).elim 0 LocalStock.total
  days : effectiveTargetDays env' = effectiveTargetDays env + extraDays
  extra_nonneg : 0 ≤ extraDays

section Horizon

variable {U : CharTable} {env env' : EngineEnv} {extraDays : ℤ}

/-- A country keeps its quantity, and gets at most what it sells in the extra days. -/
theorem PlansFor.countryQty (h : PlansFor U env env' extraDays) {sku country : String} {qty : ℤ}
    (hqty : (engineCountryQty U env sku).get? country = some qty) :
    ∃ v qty', ((engineVelocity U env).getD sku .empty).get? country = some v ∧
      (engineCountryQty U env' sku).get? country = some qty' ∧ qty ≤ qty' ∧
      qty' ≤ qty + ⌈(extraDays : ℚ) * v⌉ := by
  obtain ⟨hof, hrep, hallowed⟩ := get?_engineCountryQty.mp hqty
  rw [get?_countryQtyOf] at hof
  obtain ⟨v, hv, hof⟩ := Option.bind_eq_some_iff.mp hof
  obtain ⟨stock, hstock, hof⟩ := Option.bind_eq_some_iff.mp hof
  split_ifs at hof with hcond
  obtain ⟨-, hpos, hshort⟩ := hcond
  have hdays : (effectiveTargetDays env' : ℚ) = effectiveTargetDays env +
    extraDays := by exact_mod_cast h.days
  have hextra : (0 : ℚ) ≤ extraDays * v := mul_nonneg (by exact_mod_cast h.extra_nonneg) hpos.le
  have hneed : (effectiveTargetDays env' : ℚ) * v - stock.total =
      (effectiveTargetDays env * v - stock.total) + extraDays * v := by
    rw [hdays]
    ring
  have hshort' : (stock.total : ℚ) < effectiveTargetDays env' * v := by
    rw [hdays, add_mul]
    linarith
  have hv' : ((engineVelocity U env').getD sku .empty).get? country = some v :=
    (h.velocity sku country).symm.trans hv
  have hstock' : (engineStep2 U env').2.get? (sku, country) = some stock :=
    (h.inventory (sku, country)).symm.trans hstock
  refine ⟨v, ⌈(effectiveTargetDays env' : ℚ) * v - stock.total⌉, hv, ?_, ?_, ?_⟩
  · refine get?_engineCountryQty.mpr ⟨?_, hrep, fun l hl => hallowed l (h.allowedCountries ▸ hl)⟩
    rw [get?_countryQtyOf, hv', Option.bind_some, hstock', Option.bind_some,
      if_pos ⟨hrep, hpos, hshort'⟩]
  · rw [← Option.some.inj hof, hneed]
    exact Int.ceil_mono (le_add_of_nonneg_right hextra)
  · rw [← Option.some.inj hof, hneed]
    exact Int.ceil_add_le _ _

theorem PlansFor.sum_le (h : PlansFor U env env' extraDays) (sku : String) :
    (engineCountryQty U env sku).values.sum ≤ (engineCountryQty U env' sku).values.sum := by
  refine Dict.sum_values_le (fun country qty hqty => ?_) fun country qty hqty =>
    (engineCountryQty_pos hqty).2.le
  obtain ⟨-, qty', -, hqty', hle, -⟩ := h.countryQty hqty
  exact ⟨qty', hqty', hle⟩

/-- Buying grows with sending, and by no more. -/
theorem PlansFor.purchase_le (h : PlansFor U env env' extraDays) (sku : String) :
    enginePurchaseQty U env sku ≤ enginePurchaseQty U env' sku ∧
      enginePurchaseQty U env' sku - enginePurchaseQty U env sku ≤
        (engineCountryQty U env' sku).values.sum - (engineCountryQty U env sku).values.sum := by
  have hsum := h.sum_le sku
  unfold enginePurchaseQty computeTotal
  rw [← (h.velocity sku).sum_values, ← h.localStock sku, ← h.safetyStockDays]
  omega

/-- A country that runs out before goods could arrive still does. -/
theorem PlansFor.urgent (h : PlansFor U env env' extraDays) {leadTimeDays : ℤ} {sku : String}
    (hurgent : hasUrgentSaleDays ((engineStep2 U env).1.getD sku .empty)
      (engineLeadTime env leadTimeDays sku)
      (positiveQtyCountries (engineCountryQty U env sku)) = true) :
    hasUrgentSaleDays ((engineStep2 U env').1.getD sku .empty)
      (engineLeadTime env' leadTimeDays sku)
      (positiveQtyCountries (engineCountryQty U env' sku)) = true := by
  have hlead : engineLeadTime env leadTimeDays sku = engineLeadTime env' leadTimeDays sku := by
    unfold engineLeadTime
    rw [h.skuConfigs]
  obtain ⟨country, hc, hdays⟩ := List.any_eq_true.mp hurgent
  rw [hlead, h.saleDays sku country] at hdays
  refine List.any_eq_true.mpr ⟨country, ?_, hdays⟩
  obtain ⟨entry, he, rfl⟩ := List.mem_map.mp hc
  obtain ⟨-, qty', -, hqty', -, -⟩ :=
    h.countryQty (Dict.get?_eq_some_iff.mpr (List.mem_filter.mp he).1)
  refine List.mem_map.mpr
    ⟨(entry.1, qty'), List.mem_filter.mpr ⟨Dict.get?_eq_some_iff.mp hqty', ?_⟩, rfl⟩
  exact decide_eq_true (engineCountryQty_pos hqty').2

/-- The item of a SKU when the run plans for more days. -/
structure PlannedLonger (item item' : SuggestionItem) (extraDays : ℤ) : Prop where
  commoditySku : item'.commoditySku = item.commoditySku
  total : item.totalQty ≤ item'.totalQty
  purchase : item.purchaseQty ≤ item'.purchaseQty
  purchase_growth : item'.purchaseQty - item.purchaseQty ≤ item'.totalQty - item.totalQty
  urgent : item.urgent = true → item'.urgent = true
  countries : ∀ country qty, item.countryBreakdown.get? country = some qty → ∃ v qty',
    item.velocitySnapshot.get? country = some v ∧ item'.countryBreakdown.get? country = some qty' ∧
      qty ≤ qty' ∧ qty' ≤ qty + ⌈(extraDays : ℚ) * v⌉

theorem velocitySnapshot_of_engineItem {leadTimeDays : ℤ} {sku : String} {item : SuggestionItem}
    (h : engineItem U env leadTimeDays sku = some item) :
    item.velocitySnapshot = (engineVelocity U env).getD sku .empty := by
  unfold engineItem at h
  simp only at h
  split_ifs at h
  obtain rfl := Option.some.inj h
  rfl

/-- **The item of a longer plan.** -/
theorem PlansFor.item (h : PlansFor U env env' extraDays) {leadTimeDays : ℤ} {sku : String}
    {item : SuggestionItem} (hitem : engineItem U env leadTimeDays sku = some item) :
    ∃ item', engineItem U env' leadTimeDays sku = some item' ∧
    PlannedLonger item item' extraDays := by
  have hsum := h.sum_le sku
  obtain ⟨hpurchase, hgrowth⟩ := h.purchase_le sku
  have hneed : Needed U env' sku := by
    rcases engineItem_isSome_iff.mp ⟨item, hitem⟩ with hbuy | hsend
    · exact Or.inl (hbuy.trans_le hpurchase)
    · exact Or.inr (hsend.trans_le hsum)
  obtain ⟨item', hitem'⟩ := (@engineItem_isSome_iff U env' leadTimeDays sku).mpr hneed
  have hf := fields_of_engineItem hitem
  have hf' := fields_of_engineItem hitem'
  refine ⟨item', hitem', ?_, ?_, ?_, ?_, ?_, ?_⟩
  · rw [hf.commoditySku, hf'.commoditySku]
  · rw [hf.total, hf'.total]
    exact hsum
  · rw [hf.purchase, hf'.purchase]
    exact hpurchase
  · rw [hf.purchase, hf'.purchase, hf.total, hf'.total]
    exact hgrowth
  · rw [hf.urgent, hf'.urgent]
    exact h.urgent
  · intro country qty hqty
    rw [hf.countries] at hqty
    rw [velocitySnapshot_of_engineItem hitem, hf'.countries]
    exact h.countryQty hqty

end Horizon

/-! ### Two runs on the tables -/

/-- Neither the target nor the demand date has a say in what the loaders return. -/
theorem SameStockOrder.plansFor {U : CharTable} {N : NumberReader} {plan plan' : Plan}
    {isoformat : ℤ → String} {db : EngineDb} (horder : SameStockOrder U db plan plan')
    {targetDays' today demandDate demandDate' : ℤ}
    (hdays : db.config.targetDays + (demandDate - today).toNat ≤ targetDays' +
    (demandDate' - today).toNat) (allowedCountries : Option (List String)) :
    PlansFor U (engineEnv U N plan isoformat db today demandDate allowedCountries)
      (engineEnv U N plan' isoformat
        { db with config := { db.config with targetDays := targetDays' } } today demandDate'
        allowedCountries)
      (targetDays' + (demandDate' - today).toNat -
        (db.config.targetDays + (demandDate - today).toNat)) := by
  set env := engineEnv U N plan isoformat db today demandDate allowedCountries
  set env' := engineEnv U N plan' isoformat db today demandDate allowedCountries with henv'
  have hsame : SameReads env { env' with plan := plan } :=
    sameReads_of_perm N isoformat today demandDate (List.Perm.refl _) allowedCountries
  have hstock : ∀ key, (engineStep2 U { env' with plan := plan }).2.get? key =
      (engineStep2 U env').2.get? key := by
    rcases horder with rfl | hone
    · exact fun _ => rfl
    · exact engineStock_order hone plan
  have hsaleDays : (engineStep2 U { env' with plan := plan }).1 = (engineStep2 U env').1 := by
    rcases horder with rfl | hone
    · rfl
    · exact engineSaleDays_order hone plan
  refine ⟨rfl, rfl, rfl, hsame.engineVelocity, fun key => ?_, fun sku => ?_, hsame.localStock,
    ?_, by omega⟩
  · exact (congrArg (fun inventory => Dict.get? inventory key) hsame.inventory).trans (hstock key)
  · have hdays := hsame.saleDays (U := U) sku
    rw [hsaleDays] at hdays
    exact hdays
  · show targetDays' + ((demandDate' - today).toNat : ℤ) = db.config.targetDays +
      ((demandDate - today).toNat : ℤ) + _
    ring

/-- **Planning for longer never plans less.** Of two runs on the same tables whose target
and demand date differ, the one that plans for more days has an item for every SKU that
the other has one for, with no less to buy and to send; a country gets at most what it
sells in the extra days on top, and the purchase grows by no more than the shipments. -/
theorem later_demand_monotone (U : CharTable) (N : NumberReader) (plan plan' : Plan)
    (isoformat : ℤ → String) (db : EngineDb) (targetDays' today demandDate demandDate' : ℤ)
    (horder : SameStockOrder U db plan plan')
    (hdays : db.config.targetDays + (demandDate - today).toNat ≤ targetDays' +
    (demandDate' - today).toNat) {items items' : List SuggestionItem}
    (hrun : runOnTables U N plan isoformat db today demandDate = .ok items)
    (hrun' : runOnTables U N plan' isoformat
    { db with config := { db.config with targetDays := targetDays' } } today
      demandDate' = .ok items') :
    ∀ item ∈ items, ∃ item' ∈ items', PlannedLonger item item'
      (targetDays' + (demandDate' - today).toNat -
        (db.config.targetDays + (demandDate - today).toNat)) := by
  rcases runOnTables_ok_iff.mp hrun with ⟨-, rfl⟩ | ⟨allowedCountries, leadTimeDays, hret, rfl⟩
  · exact fun item hi => absurd hi List.not_mem_nil
  rcases runOnTables_ok_iff.mp hrun' with ⟨hgen, -⟩ | ⟨allowedCountries', leadTimeDays', hret', rfl⟩
  · exact absurd (hret.run.enabled.symm.trans hgen) (by decide)
  obtain rfl : allowedCountries = allowedCountries' :=
    Except.ok.inj (hret.regions.symm.trans hret'.regions)
  have hlead := checkConfig_leadTimeDays hret'.run.config
  obtain rfl : leadTimeDays = leadTimeDays' :=
    Option.some.inj ((checkConfig_leadTimeDays hret.run.config).symm.trans hlead)
  intro item hi
  obtain ⟨sku, hs, hitem⟩ := List.mem_filterMap.mp hi
  obtain ⟨item', hitem', hlonger⟩ := (horder.plansFor hdays allowedCountries).item hitem
  exact ⟨item', List.mem_filterMap.mpr ⟨sku, hs, hitem'⟩, hlonger⟩

theorem later_demand_monotone_us : ∃ items items',
    runOnTables .ascii .digits .identity toString usTables 100 100 = .ok items ∧ items ≠ [] ∧
    runOnTables .ascii .digits (.rotate 1) toString
      { usTables with config := { usTables.config with targetDays := 45 } } 100 100 = .ok items' ∧
    ∀ item ∈ items, ∃ item' ∈ items', PlannedLonger item item' 15 := by
  obtain ⟨items, hrun, item, hi, -⟩ := usTables_run .identity (Or.inl rfl) 30 (Or.inl rfl)
  obtain ⟨items', hrun', -⟩ := usTables_run (.rotate 1) (Or.inr rfl) 45 (Or.inr rfl)
  have hlonger := later_demand_monotone .ascii .digits .identity (.rotate 1)
    toString usTables 45 100 100 100
    (Or.inr (OneCountry.of_not_asked rfl)) (by decide) hrun hrun'
  exact ⟨items, items', hrun, List.ne_nil_of_mem hi, hrun', hlonger⟩

end Restock
