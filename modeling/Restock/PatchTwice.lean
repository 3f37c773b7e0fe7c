/-
# The same patch twice (`api/suggestion.py`)

A patch that was accepted is accepted again, and sets every field but the warnings to
what it set before. The warnings call a country added if the item had no units for it
before the patch. Before the second patch it has, so a country without days is warned of
as added by the first patch and as without sales by the second one; the warnings stay
exactly if no such country is added (`patchItem_twice_iff`).
-/
import Restock.EngineOutput
import Restock.SuggestionCounts

namespace Restock

open PyText

/-- Every country that the patch adds and that counts has days from the run. -/
def AddsKnown (U : CharTable) (patch : SuggestionItemPatch) (item : SuggestionItem) : Prop :=
  ∀ countryBreakdown, patch.countryBreakdown = some countryBreakdown → ∀ country qty,
    countryBreakdown.get? country = some qty → 0 < qty → item.countryBreakdown.getD country 0 ≤ 0 →
      isReportableCountryCode U (.str country) = true →
        (item.saleDaysSnapshot.get? country).isSome = true

section Twice

variable {U : CharTable} {leadTimeDays : ℤ} {demandDate : Option String} {item : SuggestionItem}
  {patch : SuggestionItemPatch}

theorem mem_addedCountries {countryQty : Dict String ℤ} {country : String} :
    country ∈ addedCountries countryQty item ↔ ∃ qty, countryQty.get? country = some qty ∧ 0 < qty ∧
    item.countryBreakdown.getD country 0 ≤ 0 := by
  unfold addedCountries
  rw [Dict.mem_keys_iff]
  simp only [Dict.get?_filter, Option.filter_eq_some_iff, decide_eq_true_eq]

/-- Once the patch is made, it adds no country. -/
theorem addedCountries_patched {countryQty : Dict String ℤ}
    (hpatch : patch.countryBreakdown = some countryQty) :
    addedCountries countryQty (patchedItem U leadTimeDays demandDate item patch) = [] := by
  rw [List.eq_nil_iff_forall_not_mem]
  intro country hm
  obtain ⟨qty, hq, hpos, hle⟩ := mem_addedCountries.mp hm
  rw [patchedItem_countryBreakdown, hpatch, Option.getD_some, Dict.getD, hq,
    Option.getD_some] at hle
  omega

theorem patchedItem_of_some {countryQty : Dict String ℤ}
    (hpatch : patch.countryBreakdown = some countryQty) :
    patchedItem U leadTimeDays demandDate item patch = { item with
      totalQty := countryQty.values.sum
      purchaseQty := patch.purchaseQty.getD item.purchaseQty
      countryBreakdown := countryQty
      warehouseBreakdown := patch.warehouseBreakdown.getD item.warehouseBreakdown
      allocationSnapshot := none
      urgent := hasUrgentSaleDays item.saleDaysSnapshot leadTimeDays
        (positiveQtyCountries countryQty)
      restockDates := demandRestockDates countryQty demandDate
      calculationWarnings :=
        buildCalculationWarnings U countryQty item.saleDaysSnapshot
        (addedCountries countryQty item) [] } := by
  unfold patchedItem
  rw [hpatch]
  rfl

theorem patchedItem_of_none (hpatch : patch.countryBreakdown = none) :
    patchedItem U leadTimeDays demandDate item patch = { item with
      totalQty := patch.totalQty.getD item.totalQty
      purchaseQty := patch.purchaseQty.getD item.purchaseQty
      warehouseBreakdown := patch.warehouseBreakdown.getD item.warehouseBreakdown
      allocationSnapshot := if patch.warehouseBreakdown.isSome then none
        else item.allocationSnapshot } := by
  unfold patchedItem
  rw [hpatch]
  simp

/-- The warnings after the second patch. -/
def secondWarnings (U : CharTable) (patch : SuggestionItemPatch) (item : SuggestionItem) :
    List CalculationWarning :=
  patch.countryBreakdown.elim item.calculationWarnings fun countryQty =>
    buildCalculationWarnings U countryQty item.saleDaysSnapshot [] []

/-- **The second patch** sets the warnings as if no country had been added, and nothing else. -/
theorem patchedItem_patchedItem :
    patchedItem U leadTimeDays demandDate (patchedItem U leadTimeDays demandDate item patch) patch =
    { patchedItem U leadTimeDays demandDate item patch with
    calculationWarnings := secondWarnings U patch item } := by
  unfold secondWarnings
  cases hpatch : patch.countryBreakdown with
  | none =>
    rw [patchedItem_of_none hpatch, patchedItem_of_none hpatch]
    cases patch.totalQty <;> cases patch.purchaseQty <;> cases patch.warehouseBreakdown <;> rfl
  | some countryQty =>
    have hadded := @addedCountries_patched U leadTimeDays demandDate item patch countryQty hpatch
    rw [patchedItem_of_some hpatch, hadded, patchedItem_of_some hpatch]
    cases patch.purchaseQty <;> cases patch.warehouseBreakdown <;> rfl

theorem warningOf_added {saleDays : Dict String ℚ} {added : List String} {country : String}
    (hrep : isReportableCountryCode U (.str country) = true)
    (hdays : saleDays.get? country = none) :
    warningOf U saleDays added [] country =
      some (if country ∈ added then .countryAddedAfterGeneration else .missingVelocity) := by
  unfold warningOf
  simp only [hrep, hdays, Bool.not_true, Bool.false_eq_true, if_false, List.not_mem_nil,
    Option.isSome_none]
  split_ifs <;> rfl

/-- The added countries show in the warnings exactly if one of them counts and has no days. -/
theorem warnings_eq_iff {countryQty : Dict String ℤ} {saleDays : Dict String ℚ}
    {added : List String} (hadded : ∀ country ∈ added, country ∈ positiveQtyCountries countryQty) :
    buildCalculationWarnings U countryQty saleDays []
      [] = buildCalculationWarnings U countryQty saleDays added [] ↔
      ∀ country ∈ added, isReportableCountryCode U (.str country) = true →
      (saleDays.get? country).isSome = true := by
  constructor
  · intro h country hm hrep
    by_contra hdays
    have hnone : saleDays.get? country = none := Option.not_isSome_iff_eq_none.mp hdays
    have hwarn : (⟨.countryAddedAfterGeneration, country⟩ : CalculationWarning) ∈
        buildCalculationWarnings U countryQty saleDays added [] := by
      refine List.mem_filterMap.mpr
        ⟨country, ?_, by rw [warningOf_added hrep hnone, if_pos hm]; rfl⟩
      rw [List.mem_insertionSort, List.mem_union_iff]
      exact Or.inl (hadded country hm)
    rw [← h] at hwarn
    obtain ⟨country', -, hw⟩ := List.mem_filterMap.mp hwarn
    obtain ⟨code, hcode, he⟩ := Option.map_eq_some_iff.mp hw
    obtain ⟨rfl, rfl⟩ := CalculationWarning.mk.inj he
    rw [warningOf_added hrep hnone, if_neg (List.not_mem_nil)] at hcode
    cases hcode
  · intro h
    refine List.filterMap_congr fun country _ => ?_
    refine congrArg (Option.map _) ?_
    by_cases hm : country ∈ added
    · by_cases hrep : isReportableCountryCode U (.str country) = true
      · unfold warningOf
        rw [h country hm hrep]
        simp
      · unfold warningOf
        simp [hrep]
    · unfold warningOf
      simp [hm]

theorem patchedItem_twice_iff :
    patchedItem U leadTimeDays demandDate (patchedItem U leadTimeDays demandDate item patch) patch =
    patchedItem U leadTimeDays demandDate item patch ↔ AddsKnown U patch item := by
  rw [patchedItem_patchedItem]
  have hwarnings : ({ patchedItem U leadTimeDays demandDate item patch with
        calculationWarnings := secondWarnings U patch item } : SuggestionItem) =
      patchedItem U leadTimeDays demandDate item patch ↔
        secondWarnings U patch item =
            (patchedItem U leadTimeDays demandDate item patch).calculationWarnings := by
    constructor
    · exact fun h => congrArg SuggestionItem.calculationWarnings h
    · intro h
      rw [h]
  rw [hwarnings]
  unfold secondWarnings AddsKnown
  cases hpatch : patch.countryBreakdown with
  | none =>
    rw [patchedItem_of_none hpatch]
    exact iff_of_true rfl fun countryBreakdown h => by cases h
  | some countryQty =>
    rw [patchedItem_of_some hpatch, Option.elim_some, warnings_eq_iff fun country hm => ?_]
    · simp only [mem_addedCountries, Option.some.injEq, forall_eq']
      constructor
      · intro h country qty hq hpos hle
        exact h country ⟨qty, hq, hpos, hle⟩
      · intro h country hm
        obtain ⟨qty, hq, hpos, hle⟩ := hm
        exact h country qty hq hpos hle
    · obtain ⟨qty, hq, hpos, -⟩ := mem_addedCountries.mp hm
      exact mem_positiveQtyCountries.mpr ⟨qty, hq, hpos⟩

/-- What an accepted patch found and did. -/
theorem patchItem_eq_ok {skuConfigs : Dict String SkuConfig} {suggestionId itemId : ℕ}
    {db db' : SuggestionDb} (h : patchItem U skuConfigs suggestionId itemId patch db = .ok db') :
    ∃ parent item, db.suggestions.get? suggestionId = some parent ∧ parent.status ≠ .archived ∧
      parent.items.get? itemId = some item ∧
      mismatchedCountry (patch.countryBreakdown.getD item.countryBreakdown)
        (patch.warehouseBreakdown.getD item.warehouseBreakdown) = none ∧
      db' = setItem db suggestionId parent itemId
        (patchedItem U (resolveEffectiveLeadTimeDays skuConfigs parent item)
        (suggestionDemandDate U parent) item patch) := by
  unfold patchItem at h
  split at h
  · cases h
  · next parent hparent =>
    split_ifs at h with hstatus
    split at h
    · cases h
    · next item hitem =>
      split at h
      · cases h
      · next hmatch => exact ⟨parent, item, hparent, hstatus, hitem, hmatch, (Except.ok.inj h).symm⟩

theorem itemOf_setItem {db : SuggestionDb} {suggestionId itemId : ℕ} {parent : Suggestion}
    {item' : SuggestionItem} :
    itemOf (setItem db suggestionId parent itemId item') suggestionId itemId = some item' := by
  rw [itemOf, setItem, Dict.get?_set_self, Option.bind_some, Dict.get?_set_self]

end Twice

/-- **Patching twice**: the patch is accepted again, and the item stays as it is exactly if
the patch adds no country that counts and has no days; if not, its warnings change. -/
theorem patchItem_twice_iff (U : CharTable) (skuConfigs : Dict String SkuConfig)
    (suggestionId itemId : ℕ) (patch : SuggestionItemPatch) (db db' : SuggestionDb)
    (h : patchItem U skuConfigs suggestionId itemId patch db = .ok db') :
    ∃ item item' item'' db'', itemOf db suggestionId itemId = some item ∧
      itemOf db' suggestionId itemId = some item' ∧
      patchItem U skuConfigs suggestionId itemId patch db' = .ok db'' ∧
      itemOf db'' suggestionId itemId = some item'' ∧
      item'' = { item' with calculationWarnings := item''.calculationWarnings } ∧
      (item'' = item' ↔ AddsKnown U patch item) := by
  obtain ⟨parent, item, hparent, hstatus, hitem, hmatch, rfl⟩ := patchItem_eq_ok h
  set leadTimeDays := resolveEffectiveLeadTimeDays skuConfigs parent item
  set demandDate := suggestionDemandDate U parent
  set item' := patchedItem U leadTimeDays demandDate item patch with hitem'
  set parent' : Suggestion := { parent with items := parent.items.set itemId item' } with hparent'
  have hmatch' : mismatchedCountry (patch.countryBreakdown.getD item'.countryBreakdown)
      (patch.warehouseBreakdown.getD item'.warehouseBreakdown) = none := by
    have htwice : ∀ {A : Type} (o : Option A) (a : A), o.getD (o.getD a) = o.getD a := by
      intro A o a
      cases o <;> rfl
    rw [hitem', patchedItem_countryBreakdown, patchedItem_warehouseBreakdown, htwice, htwice]
    exact hmatch
  have hsku : item'.commoditySku = item.commoditySku := by
    rw [hitem']
    unfold patchedItem
    cases patch.countryBreakdown <;> rfl
  have hlead : resolveEffectiveLeadTimeDays skuConfigs parent' item' = leadTimeDays := by
    unfold resolveEffectiveLeadTimeDays
    rw [hsku]
    rfl
  have hstatus' : parent'.status ≠ .archived := hstatus
  have hagain : patchItem U skuConfigs suggestionId itemId patch
      (setItem db suggestionId parent itemId item') = .ok
      (setItem (setItem db suggestionId parent itemId item') suggestionId parent' itemId
        (patchedItem U (resolveEffectiveLeadTimeDays skuConfigs parent' item')
            (suggestionDemandDate U parent') item' patch)) :=
    patchItem_ok (Dict.get?_set_self db.suggestions suggestionId parent') hstatus'
      (Dict.get?_set_self parent.items itemId item') hmatch'
  rw [hlead] at hagain
  refine ⟨item, item', patchedItem U leadTimeDays demandDate item' patch, _, ?_, itemOf_setItem,
    hagain, itemOf_setItem, ?_, patchedItem_twice_iff⟩
  · rw [itemOf, hparent, Option.bind_some, hitem]
  · rw [hitem', patchedItem_patchedItem]

theorem apply_usPatch :
    patchItem .ascii .empty 1 1 usPatch firstDb = .ok (firstPatchedDb usPatch) := by
  have hmatch : mismatchedCountry (usPatch.countryBreakdown.getD .empty)
      (usPatch.warehouseBreakdown.getD .empty) = none := by
    decide +kernel
  exact apply_firstPatch hmatch

theorem patchItem_twice_iff_us : ∃ item item' item'' db'', itemOf firstDb 1 1 = some item ∧
    itemOf (firstPatchedDb usPatch) 1 1 = some item' ∧
      patchItem .ascii .empty 1 1 usPatch (firstPatchedDb usPatch) = .ok db'' ∧
      itemOf db'' 1 1 = some item'' ∧
      item'' = { item' with calculationWarnings := item''.calculationWarnings } ∧
      (item'' = item' ↔ AddsKnown .ascii usPatch item) :=
  patchItem_twice_iff .ascii .empty 1 1 usPatch firstDb (firstPatchedDb usPatch) apply_usPatch

/-- The item after the patch was made twice. -/
def usPatchedTwice : SuggestionItem :=
  patchedItem .ascii 10 (some "2026-05-01") (firstPatched usPatch) usPatch

/-- Five units for the US, where the SKU sells and its stock is unknown: the first patch
warns of an added country, and the second one of missing sales. -/
theorem usPatch_twice : patchItem .ascii .empty 1 1 usPatch firstDb = .ok (firstPatchedDb usPatch) ∧
    itemOf (firstPatchedDb usPatch) 1 1 = some (firstPatched usPatch) ∧
    (∃ db'', patchItem .ascii .empty 1 1 usPatch (firstPatchedDb usPatch) = .ok db'' ∧
      itemOf db'' 1 1 = some usPatchedTwice) ∧
      (firstPatched usPatch).calculationWarnings = [⟨.countryAddedAfterGeneration, "US"⟩] ∧
    usPatchedTwice.calculationWarnings = [⟨.missingVelocity, "US"⟩] ∧
    usPatchedTwice.velocitySnapshot.get? "US" = some 1 ∧ usPatchedTwice ≠ firstPatched usPatch := by
  have hfirst : (firstPatched usPatch).calculationWarnings =
    [⟨.countryAddedAfterGeneration, "US"⟩] := by decide +kernel
  have hsecond : usPatchedTwice.calculationWarnings =
    [⟨.missingVelocity, "US"⟩] := by decide +kernel
  refine ⟨apply_usPatch, itemOf_setItem,
    ⟨_, patchItem_ok rfl (by decide) rfl (by decide +kernel), ?_⟩, hfirst,
    hsecond, by decide +kernel, fun h => ?_⟩
  · have hdate : ∀ s : Suggestion, s.snapshotDemandDate = some "2026-05-01" →
        suggestionDemandDate .ascii s = some "2026-05-01" := by
      intro s hs
      unfold suggestionDemandDate
      rw [hs]
      decide +kernel
    rw [hdate _ rfl]
    exact itemOf_setItem
  · rw [h, hfirst] at hsecond
    cases hsecond

end Restock
