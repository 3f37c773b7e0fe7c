/-
# Step 3: the quantities to send (`engine/step3_country_qty.py`)

A SKU is sent to the countries where it sells and its known stock is below the target.
What is sent is the least number of units with which step 2 sees the target days
(`countryQty_least`). A run keeps of it the countries that count in its configuration
(`engineCountryQty_eq`).
-/
import Restock.EngineOutput

namespace Restock

open PyText

section CountryQty

variable (U : CharTable)

def computeCountryQty (velocity : Velocity) (inventory : InventoryMap) (targetDays : ℤ) :
    Dict String (Dict String ℤ) :=
  (velocity.mapVal (countryQtyOf U inventory targetDays)).filter fun _ countryMap =>
    !countryMap.items.isEmpty

theorem getD_computeCountryQty (velocity : Velocity) (inventory : InventoryMap) (targetDays : ℤ)
    (sku : String) :
    (computeCountryQty U velocity inventory targetDays).getD sku .empty =
      countryQtyOf U inventory targetDays sku (velocity.getD sku .empty) := by
  rw [computeCountryQty, Dict.getD_filter_nonEmpty, Dict.getD]
  cases velocity.get? sku with
  | none => rfl
  | some countryMap => rfl

theorem get?_countryQtyOf (inventory : InventoryMap) (targetDays : ℤ) (sku country : String)
    (countryMap : Dict String ℚ) :
    (countryQtyOf U inventory targetDays sku countryMap).get? country =
      (countryMap.get? country).bind fun v => (inventory.get? (sku, country)).bind fun stock =>
        if isReportableCountryCode U (.str country) ∧ 0 < v ∧
            (stock.total : ℚ) < targetDays * v then
          some ⌈(targetDays : ℚ) * v - stock.total⌉ else none := by
  rw [countryQtyOf, Dict.get?_mapVal, Dict.get?_filter]
  cases countryMap.get? country with
  | none => rfl
  | some v =>
    cases inventory.get? (sku, country) with
    | none => simp [Option.filter]
    | some stock =>
      by_cases h : isReportableCountryCode U (.str country) = true ∧ 0 < v ∧
        (stock.total : ℚ) < targetDays * v
      · simp [Option.filter, h]
      · have hnot : isReportableCountryCode U (.str country) = true → 0 < v →
          targetDays * v ≤ (stock.total : ℚ) :=
          fun hrep hpos => not_lt.mp fun hshort => h ⟨hrep, hpos, hshort⟩
        simpa [Option.filter, h] using hnot

/-- The units of a SKU for a country, from its sales and its stock there. -/
theorem get?_countryQty (velocity : Velocity) (inventory : InventoryMap) (targetDays : ℤ)
    (sku country : String) :
    ((computeCountryQty U velocity inventory targetDays).getD sku .empty).get? country =
      ((velocity.getD sku .empty).get? country).bind fun v =>
      (inventory.get? (sku, country)).bind fun stock =>
        if isReportableCountryCode U (.str country) ∧ 0 < v ∧
            (stock.total : ℚ) < targetDays * v then
          some ⌈(targetDays : ℚ) * v - stock.total⌉ else none := by
  rw [getD_computeCountryQty, get?_countryQtyOf]

theorem countryQty_eq_some_iff {velocity : Velocity} {inventory : InventoryMap} {targetDays : ℤ}
    {sku country : String} {q : ℤ} :
    ((computeCountryQty U velocity inventory targetDays).getD sku .empty).get? country = some q ↔
      isReportableCountryCode U (.str country) = true ∧
        ∃ v stock, (velocity.getD sku .empty).get? country = some v ∧
          inventory.get? (sku, country) = some stock ∧ 0 < v ∧ (stock.total : ℚ) < targetDays * v ∧
          q = ⌈(targetDays : ℚ) * v - stock.total⌉ := by
  rw [get?_countryQty]
  constructor
  · intro h
    obtain ⟨v, hv, h⟩ := Option.bind_eq_some_iff.mp h
    obtain ⟨stock, hs, h⟩ := Option.bind_eq_some_iff.mp h
    split_ifs at h with hcond
    exact ⟨hcond.1, v, stock, hv, hs, hcond.2.1, hcond.2.2, (Option.some.inj h).symm⟩
  · intro h
    obtain ⟨hrep, v, stock, hv, hs, hpos, hshort, rfl⟩ := h
    rw [hv, Option.bind_some, hs, Option.bind_some, if_pos ⟨hrep, hpos, hshort⟩]

/-- The stock with `n` units more lasts for the target exactly from the rounded need on. -/
theorem target_le_days_iff {targetDays total n : ℤ} {v : ℚ} (hv : 0 < v) :
    (targetDays : ℚ) ≤ (total + n) / v ↔ ⌈(targetDays : ℚ) * v - total⌉ ≤ n := by
  rw [le_div_iff₀ hv, Int.ceil_le, sub_le_iff_le_add']

/-- The days that step 2 sees with another stock record. -/
theorem saleDays_set {velocity : Velocity} {inventory : InventoryMap} {sku country : String} {v : ℚ}
    (hrep : isReportableCountryCode U (.str country) = true)
    (hv : (velocity.getD sku .empty).get? country = some v) (hpos : 0 < v)
    (stock : InventoryStock) :
    ((computeSaleDays U velocity (inventory.set (sku, country) stock)).getD sku .empty).get?
      country = some (stock.total / v) := by
  rw [get?_saleDays, hv, Option.bind_some, Dict.get?_set_self, Option.bind_some,
    if_pos ⟨hrep, hpos⟩]

end CountryQty

/-- **The quantity is the least sufficient one.** A country gets one exactly if it counts,
the SKU sells there, and its known stock is below the target; with it step 2 sees the
target days, and with one unit less it does not. -/
theorem countryQty_least (U : CharTable) (velocity : Velocity) (inventory : InventoryMap)
    (targetDays : ℤ) (sku country : String) :
    ((∃ q, ((computeCountryQty U velocity inventory targetDays).getD sku .empty).get?
      country = some q) ↔ isReportableCountryCode U (.str country) = true ∧
        ∃ v stock, (velocity.getD sku .empty).get? country = some v ∧
        inventory.get? (sku, country) = some stock ∧ 0 < v ∧ (stock.total : ℚ) < targetDays * v) ∧
    ∀ q, ((computeCountryQty U velocity inventory targetDays).getD sku .empty).get?
      country = some q → ∃ v stock, (velocity.getD sku .empty).get? country = some v ∧
        inventory.get? (sku, country) = some stock ∧
        IsLeast {n : ℤ | (targetDays : ℚ) ≤ (stock.total + n) / v} q ∧ 1 ≤ q ∧
          (∀ stock', stock'.total = stock.total + q →
            ∃ days, ((computeSaleDays U velocity (inventory.set (sku, country) stock')).getD sku
            .empty).get? country = some days ∧ targetDays ≤ days) ∧
        ∀ stock', stock'.total = stock.total + (q - 1) → ∃ days,
          ((computeSaleDays U velocity (inventory.set (sku, country) stock')).getD sku .empty).get?
            country = some days ∧ days < targetDays := by
  constructor
  · simp only [countryQty_eq_some_iff]
    constructor
    · intro h
      obtain ⟨q, hrep, v, stock, hv, hs, hpos, hshort, -⟩ := h
      exact ⟨hrep, v, stock, hv, hs, hpos, hshort⟩
    · intro h
      obtain ⟨hrep, v, stock, hv, hs, hpos, hshort⟩ := h
      exact ⟨_, hrep, v, stock, hv, hs, hpos, hshort, rfl⟩
  · intro q h
    obtain ⟨hrep, v, stock, hv, hs, hpos, hshort, rfl⟩ := (countryQty_eq_some_iff U).mp h
    set q := ⌈(targetDays : ℚ) * v - stock.total⌉ with hq
    have hle : ∀ n : ℤ, (targetDays : ℚ) ≤ (stock.total + n) / v ↔ q ≤ n :=
      fun n => target_le_days_iff hpos
    have hone : 1 ≤ q := Int.ceil_pos.mpr (sub_pos.mpr hshort)
    refine ⟨v, stock, hv, hs, ⟨(hle q).mpr le_rfl, fun n hn => (hle n).mp hn⟩, hone, ?_, ?_⟩
    · intro stock' htotal
      refine ⟨_, saleDays_set U hrep hv hpos stock', ?_⟩
      rw [htotal]
      push_cast
      exact (hle q).mpr le_rfl
    · intro stock' htotal
      refine ⟨_, saleDays_set U hrep hv hpos stock', ?_⟩
      have hless : ¬ q ≤ q - 1 := by omega
      rw [← hle, not_le] at hless
      rw [htotal]
      push_cast at hless ⊢
      exact hless

/-- A run keeps the quantities of step 3 in the countries of its configuration. -/
theorem engineCountryQty_eq (U : CharTable) (env : EngineEnv) (sku : String) :
    engineCountryQty U env sku = filterAllowedCountryMap U env.config.allowedCountries
      ((computeCountryQty U (engineVelocity U env)
        (engineStep2 U env).2 (effectiveTargetDays env)).getD sku .empty) := by
  rw [getD_computeCountryQty, engineCountryQty]

end Restock
