/-
# Editing suggestions (`api/suggestion.py`, `api/snapshot.py`)

A suggestion is created by the engine with its counts of items to buy and to send;
afterwards its items are patched and recalculated one by one, and an export checks
them again. The system `suggestionRuns` takes engine runs, patches and
recalculations in any order, each on whatever the rest of the database holds then.

What every run keeps is `SplitsAddUp` (`splitsAddUp_of_reach`). The check of an
export accepts an item of any reachable state exactly if it is `Exportable`
(`validate_iff_exportable`): the sums of the splits need no further condition, but
an edit may leave zero quantities, countries that are not reportable, and splits
of countries that were removed.
-/
import Restock.EngineRun
import Restock.Lib.Checked
import Restock.Lib.Lts

namespace Restock

open PyText Query

/-- The suggestions with their items, and the numbers that come next. -/
structure SuggestionDb where
  suggestions : Dict ℕ Suggestion
  nextSuggestionId : ℕ
  nextItemId : ℕ
deriving DecidableEq

/-! ### Storing a suggestion -/

/-- The items under consecutive ids. -/
def numberItems (firstId : ℕ) (items : List SuggestionItem) : Dict ℕ SuggestionItem :=
  ⟨(items.zipIdx firstId).map Prod.swap, by
    have h : (((items.zipIdx firstId).map Prod.swap).map Prod.fst) =
        List.range' firstId items.length := by
      rw [List.map_map, ← List.zipIdx_map_snd]
      rfl
    rw [h]
    exact List.nodup_range'⟩

theorem mem_of_numberItems {firstId itemId : ℕ} {items : List SuggestionItem}
    {item : SuggestionItem} (h : (numberItems firstId items).get? itemId = some item) :
    item ∈ items := by
  have hm : (itemId, item) ∈ (items.zipIdx firstId).map Prod.swap := Dict.get?_eq_some_iff.mp h
  obtain ⟨⟨x, n⟩, hx, he⟩ := List.mem_map.mp hm
  obtain ⟨-, rfl⟩ := Prod.mk.inj he
  exact (List.mem_zipIdx hx).2.2 ▸ List.getElem_mem _

/-- The row that the engine inserts, with its items. -/
def newSuggestion (env : EngineEnv) (firstId : ℕ) (items : List SuggestionItem) : Suggestion where
  status := .draft
  snapshotLeadTimeDays := env.config.leadTimeDays
  snapshotDemandDate := some env.demandDate
  totalItems := items.length
  procurementItemCount := items.countP fun item => 0 < item.purchaseQty
  restockItemCount := items.countP fun item => 0 < item.totalQty
  items := numberItems firstId items

/-- The draft of a run is stored. -/
def persistSuggestion (env : EngineEnv) (db : SuggestionDb) (items : List SuggestionItem) :
    SuggestionDb where
  suggestions := db.suggestions.set db.nextSuggestionId (newSuggestion env db.nextItemId items)
  nextSuggestionId := db.nextSuggestionId + 1
  nextItemId := db.nextItemId + items.length

/-- The drafts that are there are archived. -/
def archiveActive (db : SuggestionDb) : SuggestionDb :=
  { db with suggestions := db.suggestions.mapVal fun _ s => if s.status = .draft then { s with
    status := .archived } else s }

section Edit

variable (U : CharTable)

/-- `run_engine` on the stored suggestions; without items it stores nothing. -/
def runEngine (env : EngineEnv) (db : SuggestionDb) : Except String SuggestionDb :=
  (engineItems U env).map fun items => if items.isEmpty then db
    else persistSuggestion env (archiveActive db) items

/-! ### Patching an item -/

/-- A patch that passed the schema: no quantity is negative. -/
structure SuggestionItemPatch where
  totalQty : Option ℤ
  purchaseQty : Option ℤ
  countryBreakdown : Option (Dict String ℤ)
  warehouseBreakdown : Option (Dict String (Dict String ℤ))
  total_nonneg : ∀ n ∈ totalQty, 0 ≤ n
  purchase_nonneg : ∀ n ∈ purchaseQty, 0 ≤ n
  country_nonneg : ∀ m ∈ countryBreakdown, ∀ entry ∈ m.items, 0 ≤ entry.2
  warehouse_nonneg : ∀ m ∈ warehouseBreakdown, ∀ entry ∈ m.items, ∀ part ∈ entry.2.items, 0 ≤ part.2

/-- A country whose warehouse split does not add up to its quantity. -/
def mismatchedCountry (countryBreakdown : Dict String ℤ)
    (warehouseBreakdown : Dict String (Dict String ℤ)) : Option String :=
  (positiveQtyCountries countryBreakdown).find? fun country =>
    let warehouseValues := (warehouseBreakdown.getD country .empty).values
    !warehouseValues.isEmpty && warehouseValues.sum != countryBreakdown.getD country 0

/-- The lead time of the SKU, or that of the configuration. -/
def resolveEffectiveLeadTimeDays (skuConfigs : Dict String SkuConfig) (suggestion : Suggestion)
    (item : SuggestionItem) : ℤ :=
  ((skuConfigs.get? item.commoditySku).bind SkuConfig.leadTimeDays).getD
    (suggestion.snapshotLeadTimeDays.getD 50)

/-- `_suggestion_demand_date`. -/
def suggestionDemandDate (suggestion : Suggestion) : Option String :=
  (suggestion.snapshotDemandDate.map (strip U)).filter (· ≠ "")

/-- The countries that a patch raises from nothing. -/
def addedCountries (countryBreakdown : Dict String ℤ) (item : SuggestionItem) : List String :=
  (countryBreakdown.filter fun country qty => 0 < qty ∧
    item.countryBreakdown.getD country 0 ≤ 0).keys

/-- The item that `patch_item` stores. -/
def patchedItem (leadTimeDays : ℤ) (demandDate : Option String) (item : SuggestionItem)
    (patch : SuggestionItemPatch) : SuggestionItem :=
  let base : SuggestionItem := { item with
    totalQty := patch.totalQty.getD item.totalQty
    purchaseQty := patch.purchaseQty.getD item.purchaseQty
    warehouseBreakdown := patch.warehouseBreakdown.getD item.warehouseBreakdown
    allocationSnapshot :=
      if patch.countryBreakdown.isSome ∨ patch.warehouseBreakdown.isSome then none
      else item.allocationSnapshot }
  match patch.countryBreakdown with
  | none => base
  | some countryBreakdown => { base with
      countryBreakdown := countryBreakdown
      totalQty := countryBreakdown.values.sum
      urgent := hasUrgentSaleDays item.saleDaysSnapshot leadTimeDays
        (positiveQtyCountries countryBreakdown)
      restockDates := demandRestockDates countryBreakdown demandDate
      calculationWarnings := buildCalculationWarnings U countryBreakdown item.saleDaysSnapshot
        (addedCountries countryBreakdown item) [] }

/-- The item after an update of the row. -/
def setItem (db : SuggestionDb) (suggestionId : ℕ) (suggestion : Suggestion) (itemId : ℕ)
    (item : SuggestionItem) : SuggestionDb :=
  { db with suggestions := db.suggestions.set suggestionId { suggestion with
    items := suggestion.items.set itemId item } }

/-- `patch_item`. -/
def patchItem (skuConfigs : Dict String SkuConfig) (suggestionId itemId : ℕ)
    (patch : SuggestionItemPatch) (db : SuggestionDb) : Except String SuggestionDb :=
  match db.suggestions.get? suggestionId with
  | none => .error s!"建议单 {suggestionId} 不存在"
  | some parent =>
    if parent.status = .archived then .error "已归档的建议单不可编辑"
    else match parent.items.get? itemId with
      | none => .error s!"建议条目 {itemId} 不存在"
      | some item =>
        match mismatchedCountry (patch.countryBreakdown.getD item.countryBreakdown)
            (patch.warehouseBreakdown.getD item.warehouseBreakdown) with
        | some country => .error s!"{country} 的 warehouse_breakdown 之和与 country_breakdown 不一致"
        | none => .ok (setItem db suggestionId parent itemId (patchedItem U
            (resolveEffectiveLeadTimeDays skuConfigs parent item) (suggestionDemandDate U parent)
              item patch))

/-! ### Recalculating an item -/

/-- Step 2 for the SKU of the item alone, with the sales it was generated from. -/
def recalculateStep2 (env : EngineEnv) (item : SuggestionItem) : SaleDaysMap × InventoryMap :=
  runStep2 U env.plan env.stock env.rules (loadPhysicalSkuResolver env.aliases) env.euCountries
    (Dict.empty.set item.commoditySku item.velocitySnapshot) (some [item.commoditySku])

/-- The item that `recalculate_item` stores. -/
def recalculatedItem (env : EngineEnv) (leadTimeDays : ℤ) (demandDate : Option String)
    (item : SuggestionItem) : SuggestionItem :=
  let saleDays := (recalculateStep2 U env item).1.getD item.commoditySku .empty
  let missing := (item.velocitySnapshot.filter fun country value =>
    decide (0 < value) && ((recalculateStep2 U env item).2.get?
      (item.commoditySku, country)).isNone).keys
  { item with
    saleDaysSnapshot := saleDays
    urgent := hasUrgentSaleDays saleDays leadTimeDays (positiveQtyCountries item.countryBreakdown)
    restockDates := demandRestockDates item.countryBreakdown demandDate
    calculationWarnings := buildCalculationWarnings U item.countryBreakdown saleDays [] missing }

/-- `recalculate_item`. -/
def recalculateItem (env : EngineEnv) (suggestionId itemId : ℕ) (db : SuggestionDb) :
    Except String SuggestionDb :=
  match db.suggestions.get? suggestionId with
  | none => .error s!"建议单 {suggestionId} 不存在"
  | some parent =>
    if parent.status ≠ .draft then .error "仅 draft 建议单允许重新计算条目"
    else match parent.items.get? itemId with
      | none => .error s!"建议条目 {itemId} 不存在"
      | some item => .ok (setItem db suggestionId parent itemId (recalculatedItem U env
          (resolveEffectiveLeadTimeDays env.skuConfigs parent item)
            (suggestionDemandDate U parent) item))

/-! ### The check of an export -/

/-- What is wrong with the quantities of an item by country. -/
def countryErrors (itemId : ℕ) (countryBreakdown : Dict String ℤ) : List String :=
  countryBreakdown.items.filterMap fun entry =>
    if !isReportableCountryCode U (.str entry.1) then some s!"{itemId}:{entry.1} 国家不可报表展示"
    else if entry.2 ≤ 0 then some s!"{itemId}:{entry.1} 补货量必须为正整数"
    else none

/-- The sum of the quantities that are counted. -/
def positiveTotal (countryBreakdown : Dict String ℤ) : ℤ :=
  ((countryBreakdown.items.filter fun entry => isReportableCountryCode U (.str entry.1) && decide
    (0 < entry.2)).map
    Prod.snd).sum

/-- What is wrong with the split of a country. -/
def splitErrors (itemId : ℕ) (country : String) (qty : ℤ) (warehouses : Dict String ℤ) :
    List String :=
  (warehouses.items.filterMap fun part =>
    if part.2 ≤ 0 then some s!"{itemId}:{country}:{part.1} 仓库补货量必须为正整数" else none) ++
  if ((warehouses.items.filter fun part => 0 < part.2).map Prod.snd).sum ≠ qty then
    [s!"{itemId}:{country} 仓库拆分合计必须等于国家补货量"] else []

/-- What is wrong with the quantities of an item by warehouse. -/
def warehouseErrors (itemId : ℕ) (countryBreakdown : Dict String ℤ)
    (warehouseBreakdown : Dict String (Dict String ℤ)) : List String :=
  warehouseBreakdown.items.flatMap fun entry =>
    match countryBreakdown.get? entry.1 with
    | none => [s!"{itemId}:{entry.1} 仓库拆分缺少国家补货量"]
    | some qty => if entry.2.items.isEmpty then [] else splitErrors itemId entry.1 qty entry.2

/-- What is wrong with an item. -/
def itemErrors (entry : ℕ × SuggestionItem) : List String :=
  countryErrors U entry.1 entry.2.countryBreakdown ++
  (if positiveTotal U entry.2.countryBreakdown ≤ 0 then
    [s!"{entry.1}:补货快照仅允许补货量 > 0 的条目"] else []) ++
  warehouseErrors entry.1 entry.2.countryBreakdown entry.2.warehouseBreakdown

/-- The check of the items before a restock export. -/
def validateRestockSnapshotItems (items : List (ℕ × SuggestionItem)) : Except String Unit :=
  let errors := items.flatMap (itemErrors U)
  if errors.isEmpty then .ok () else .error ("; ".intercalate errors)

/-! ### The system -/

/-- The requests that write items. -/
inductive SuggestionOp
  | runEngine (env : EngineEnv)
  | patchItem (skuConfigs : Dict String SkuConfig) (suggestionId itemId : ℕ)
    (patch : SuggestionItemPatch)
  | recalculateItem (env : EngineEnv) (suggestionId itemId : ℕ)

/-- What a request makes of the suggestions. -/
def SuggestionOp.apply (db : SuggestionDb) : SuggestionOp → Except String SuggestionDb
  | .runEngine env => Restock.runEngine U env db
  | .patchItem skuConfigs suggestionId itemId patch =>
    Restock.patchItem U skuConfigs suggestionId itemId patch db
  | .recalculateItem env suggestionId itemId => Restock.recalculateItem U env suggestionId itemId db

/-- Engine runs, patches and recalculations in any order, from no suggestion. -/
def suggestionRuns : Lts SuggestionDb SuggestionOp where
  start db := db = ⟨.empty, 1, 1⟩
  step db op db' := op.apply U db = .ok db'

/-! ### What a step can do -/

/-- What a request does to the item it names. -/
inductive ItemStep : SuggestionOp → ℕ → ℕ → SuggestionItem → SuggestionItem → Prop
  | patch {skuConfigs suggestionId itemId patch leadTimeDays demandDate item}
      (h : mismatchedCountry (patch.countryBreakdown.getD item.countryBreakdown)
        (patch.warehouseBreakdown.getD item.warehouseBreakdown) = none) :
      ItemStep (.patchItem skuConfigs suggestionId itemId patch) suggestionId itemId item
        (patchedItem U leadTimeDays demandDate item patch)
  | recalculate {env suggestionId itemId leadTimeDays demandDate item} :
      ItemStep (.recalculateItem env suggestionId itemId) suggestionId itemId item
        (recalculatedItem U env leadTimeDays demandDate item)

variable {U}

theorem engineItems_spec {env : EngineEnv} {items : List SuggestionItem}
    (h : engineItems U env = .ok items) : ∀ item ∈ items, EngineItem U item := by
  rcases (engineItems_ok_iff U).mp h with ⟨-, rfl⟩ | ⟨leadTimeDays, -, rfl⟩
  · exact fun item hi => absurd hi List.not_mem_nil
  · intro item hi
    obtain ⟨sku, -, hs⟩ := List.mem_filterMap.mp hi
    exact engineItem_spec hs

/-- A patch of an item that is there, in a suggestion that is not archived, with
splits that add up. -/
theorem patchItem_ok {skuConfigs : Dict String SkuConfig} {db : SuggestionDb}
    {suggestionId itemId : ℕ} {parent : Suggestion} {item : SuggestionItem}
    {patch : SuggestionItemPatch} (hparent : db.suggestions.get? suggestionId = some parent)
    (hstatus : parent.status ≠ .archived) (hitem : parent.items.get? itemId = some item)
    (hmatch : mismatchedCountry (patch.countryBreakdown.getD item.countryBreakdown)
      (patch.warehouseBreakdown.getD item.warehouseBreakdown) = none) :
    patchItem U skuConfigs suggestionId itemId patch db = .ok
    (setItem db suggestionId parent itemId (patchedItem U
      (resolveEffectiveLeadTimeDays skuConfigs parent item)
      (suggestionDemandDate U parent) item patch)) := by
  unfold patchItem
  rw [hparent]
  simp only
  rw [if_neg hstatus, hitem]
  simp only
  rw [hmatch]

/-- **A step** leaves the suggestions as they are, archives the drafts and stores a
new suggestion of engine items, or changes one item. -/
theorem step_cases {op : SuggestionOp} {db db' : SuggestionDb} (h : op.apply U db = .ok db') :
    db' = db ∨
    (∃ env items, (∀ item ∈ items, EngineItem U item) ∧
      db' = persistSuggestion env (archiveActive db) items) ∨
      ∃ suggestionId parent itemId item item', db.suggestions.get? suggestionId = some parent ∧
      parent.items.get? itemId = some item ∧ ItemStep U op suggestionId itemId item item' ∧
      db' = setItem db suggestionId parent itemId item' := by
  cases op with
  | runEngine env =>
    obtain ⟨items, hitems, rfl⟩ := Checked.map_ok h
    split_ifs
    · exact Or.inl rfl
    · exact Or.inr (Or.inl ⟨env, items, engineItems_spec hitems, rfl⟩)
  | patchItem skuConfigs suggestionId itemId patch =>
    unfold SuggestionOp.apply at h
    simp only at h
    unfold patchItem at h
    split at h
    · simp only [reduceCtorEq] at h
    · rename_i parent hparent
      split_ifs at h
      split at h
      · simp only [reduceCtorEq] at h
      · rename_i item hitem
        split at h
        · simp only [reduceCtorEq] at h
        · rename_i hmatch
          exact Or.inr (Or.inr ⟨suggestionId, parent, itemId, item, _, hparent, hitem,
            .patch hmatch, (Except.ok.inj h).symm⟩)
  | recalculateItem env suggestionId itemId =>
    unfold SuggestionOp.apply at h
    simp only at h
    unfold recalculateItem at h
    split at h
    · simp only [reduceCtorEq] at h
    · rename_i parent hparent
      split_ifs at h
      split at h
      · simp only [reduceCtorEq] at h
      · rename_i item hitem
        exact Or.inr (Or.inr ⟨suggestionId, parent, itemId, item, _, hparent, hitem, .recalculate,
          (Except.ok.inj h).symm⟩)

/-- **What runs keep of every suggestion**: a property that does not read the status,
holds of a new suggestion, and survives the steps on its items. -/
theorem forall_suggestion_of_reach {ok : SuggestionOp → SuggestionDb → Prop} {Q : Suggestion → Prop}
    (hstatus : ∀ s status, Q s → Q { s with status := status })
    (hnew : ∀ env firstId items, (∀ item ∈ items, EngineItem U item) →
      Q (newSuggestion env firstId items))
    (hstep : ∀ {op db suggestionId parent itemId item item'}, ok op db →
      db.suggestions.get? suggestionId = some parent → parent.items.get? itemId = some item →
      ItemStep U op suggestionId itemId item item' → Q parent →
      Q { parent with items := parent.items.set itemId item' })
    {db : SuggestionDb} (h : (suggestionRuns U).ReachIf ok db) :
    ∀ suggestionId s, db.suggestions.get? suggestionId = some s → Q s := by
  refine Lts.ReachIf.invariant
    (I := fun db => ∀ suggestionId s, db.suggestions.get? suggestionId = some s → Q s)
    ?_ ?_ h
  · rintro db rfl suggestionId s hs
    exact absurd hs (by simp)
  · intro db op db' hQ hok happly
    obtain rfl | ⟨env, items, hitems, rfl⟩ | ⟨sid, parent, iid, item, item', hparent, hitem,
        hst, rfl⟩ :=
      step_cases happly
    · exact hQ
    · refine Dict.forall_set (Dict.forall_mapVal fun sid s hs => ?_) (hnew env _ items hitems)
      split_ifs
      · exact hstatus s _ (hQ sid s hs)
      · exact hQ sid s hs
    · exact Dict.forall_set hQ (hstep hok hparent hitem hst (hQ sid parent hparent))

/-- The same for a property of single items. -/
theorem forall_item_of_reach {ok : SuggestionOp → SuggestionDb → Prop} {P : SuggestionItem → Prop}
    (hengine : ∀ item, EngineItem U item → P item)
    (hstep : ∀ {op db suggestionId parent itemId item item'}, ok op db →
      db.suggestions.get? suggestionId = some parent → parent.items.get? itemId = some item →
      ItemStep U op suggestionId itemId item item' → P item → P item')
    {db : SuggestionDb} (h : (suggestionRuns U).ReachIf ok db) :
    ∀ suggestionId s, db.suggestions.get? suggestionId = some s →
      ∀ itemId item, s.items.get? itemId = some item → P item := by
  refine forall_suggestion_of_reach
    (Q := fun s => ∀ itemId item, s.items.get? itemId = some item → P item)
    (fun s _ hs => hs) ?_ ?_ h
  · intro env firstId items hitems itemId item hi
    exact hengine item (hitems item (mem_of_numberItems hi))
  · intro op db sid parent iid item item' hok hparent hitem hst hP
    exact Dict.forall_set hP (hstep hok hparent hitem hst (hP iid item hitem))

/-! ### Splits -/

theorem mem_positiveQtyCountries {countryQty : Dict String ℤ} {country : String} :
    country ∈ positiveQtyCountries countryQty ↔ ∃ qty, countryQty.get? country = some qty ∧
    0 < qty := by
  simp only [positiveQtyCountries, List.mem_map, List.mem_filter, decide_eq_true_eq,
    Dict.get?_eq_some_iff]
  constructor
  · rintro ⟨⟨c, q⟩, ⟨hm, hq⟩, rfl⟩
    exact ⟨q, hm, hq⟩
  · rintro ⟨q, hm, hq⟩
    exact ⟨(country, q), ⟨hm, hq⟩, rfl⟩

/-- The check of a patch is that the splits of the effective values add up. -/
theorem mismatchedCountry_eq_none_iff {countryBreakdown : Dict String ℤ}
    {warehouseBreakdown : Dict String (Dict String ℤ)} :
    mismatchedCountry countryBreakdown warehouseBreakdown = none ↔
      SplitsAddUp countryBreakdown warehouseBreakdown := by
  rw [mismatchedCountry, List.find?_eq_none]
  constructor
  · intro h country qty hq hpos m hm hne
    have hc := h country (mem_positiveQtyCountries.mpr ⟨qty, hq, hpos⟩)
    simp only [Dict.getD, hm, hq, Option.getD_some, Bool.and_eq_true, Bool.not_eq_true', bne_iff_ne,
      ne_eq, not_and, not_not] at hc
    exact hc (by simpa [Dict.values] using hne)
  · intro h country hc
    obtain ⟨qty, hq, hpos⟩ := mem_positiveQtyCountries.mp hc
    simp only [Dict.getD, hq, Option.getD_some, Bool.and_eq_true, Bool.not_eq_true', bne_iff_ne,
      ne_eq, not_and, not_not]
    intro hne
    cases hm : warehouseBreakdown.get? country with
    | none =>
      rw [hm] at hne
      simp [Dict.values, Dict.empty] at hne
    | some m =>
      rw [hm, Option.getD_some] at hne
      exact h country qty hq hpos m hm (by simpa [Dict.values] using hne)

/-- **Every reachable item has splits that add up.** -/
theorem splitsAddUp_of_reach {db : SuggestionDb} (h : (suggestionRuns U).Reach db) :
    ∀ suggestionId s, db.suggestions.get? suggestionId = some s →
      ∀ itemId item, s.items.get? itemId = some item →
      SplitsAddUp item.countryBreakdown item.warehouseBreakdown := by
  refine forall_item_of_reach (fun item hi => hi.splits) ?_ h
  intro op db sid parent iid item item' _ _ _ hst hP
  cases hst with
  | patch hmatch =>
    rename_i patch _ _
    have hadd := mismatchedCountry_eq_none_iff.mp hmatch
    unfold patchedItem
    cases hc : patch.countryBreakdown with
    | none => rwa [hc] at hadd
    | some m => rwa [hc] at hadd
  | recalculate => exact hP

/-! ### What an export accepts -/

/-- The countries are reportable with positive quantities, and the splits are of
these countries, in positive parts. -/
structure Exportable (U : CharTable) (item : SuggestionItem) : Prop where
  total : 0 < item.countryBreakdown.values.sum
  countries : ∀ country qty, item.countryBreakdown.get? country = some qty →
    isReportableCountryCode U (.str country) = true ∧ 0 < qty
  warehouses : ∀ country m, item.warehouseBreakdown.get? country = some m →
    (item.countryBreakdown.get? country).isSome ∧ ∀ part ∈ m.items, 0 < part.2

theorem countryErrors_eq_nil_iff {itemId : ℕ} {countryBreakdown : Dict String ℤ} :
    countryErrors U itemId countryBreakdown = [] ↔
      ∀ country qty, countryBreakdown.get? country = some qty →
      isReportableCountryCode U (.str country) = true ∧ 0 < qty := by
  unfold countryErrors
  rw [List.filterMap_eq_nil_iff]
  constructor
  · intro h country qty hq
    have he := h _ (Dict.get?_eq_some_iff.mp hq)
    split_ifs at he with h1 h2
    exact ⟨by simpa using h1, not_le.mp h2⟩
  · rintro h ⟨country, qty⟩ he
    obtain ⟨h1, h2⟩ := h country qty (Dict.get?_eq_some_iff.mpr he)
    rw [if_neg (by simpa using h1), if_neg (not_le.mpr h2)]

theorem positiveTotal_eq {countryBreakdown : Dict String ℤ} (h : ∀ country qty,
    countryBreakdown.get? country = some qty →
    isReportableCountryCode U (.str country) = true ∧ 0 < qty) :
    positiveTotal U countryBreakdown = countryBreakdown.values.sum := by
  unfold positiveTotal
  rw [List.filter_eq_self.mpr]
  · rfl
  · rintro ⟨country, qty⟩ he
    obtain ⟨h1, h2⟩ := h country qty (Dict.get?_eq_some_iff.mpr he)
    simp [h1, h2]

theorem splitErrors_eq_nil_iff {itemId : ℕ} {country : String} {qty : ℤ}
    {warehouses : Dict String ℤ} :
    splitErrors itemId country qty warehouses = [] ↔
      (∀ part ∈ warehouses.items, 0 < part.2) ∧ warehouses.values.sum = qty := by
  unfold splitErrors
  rw [List.append_eq_nil_iff, List.filterMap_eq_nil_iff]
  have hpos : (∀ part ∈ warehouses.items, (if part.2 ≤ 0 then
      some s!"{itemId}:{country}:{part.1} 仓库补货量必须为正整数" else none) = none) ↔
      ∀ part ∈ warehouses.items, 0 < part.2 := by
    refine forall₂_congr fun part _ => ?_
    split_ifs with h
    · simp [h]
    · simpa using h
  rw [hpos]
  refine and_congr_right fun h => ?_
  have hfilter : warehouses.items.filter (fun part => 0 < part.2) = warehouses.items :=
    List.filter_eq_self.mpr fun part hp => decide_eq_true (h part hp)
  rw [hfilter, ite_eq_right_iff]
  constructor
  · intro he
    by_contra hne
    exact absurd (he hne) (by simp)
  · intro he hne
    exact absurd he hne

theorem warehouseErrors_eq_nil_iff {itemId : ℕ} {countryBreakdown : Dict String ℤ}
    {warehouseBreakdown : Dict String (Dict String ℤ)} :
    warehouseErrors itemId countryBreakdown warehouseBreakdown = [] ↔
      ∀ country m, warehouseBreakdown.get? country = some m →
        ∃ qty, countryBreakdown.get? country = some qty ∧
        (m.items = [] ∨ (∀ part ∈ m.items, 0 < part.2) ∧ m.values.sum = qty) := by
  unfold warehouseErrors
  rw [List.flatMap_eq_nil_iff]
  constructor
  · intro h country m hm
    have he := h _ (Dict.get?_eq_some_iff.mp hm)
    cases hq : countryBreakdown.get? country with
    | none => simp [hq] at he
    | some qty =>
      simp only [hq] at he
      split_ifs at he with hnil
      · exact ⟨qty, rfl, Or.inl (by simpa using hnil)⟩
      · exact ⟨qty, rfl, Or.inr (splitErrors_eq_nil_iff.mp he)⟩
  · rintro h ⟨country, m⟩ he
    obtain ⟨qty, hq, hm⟩ := h country m (Dict.get?_eq_some_iff.mpr he)
    simp only [hq]
    rcases hm with hm | hm
    · rw [if_pos (by simpa using hm)]
    · split_ifs
      · rfl
      · exact splitErrors_eq_nil_iff.mpr hm

/-- On an item whose splits add up the check asks for nothing else. -/
theorem itemErrors_eq_nil_iff {itemId : ℕ} {item : SuggestionItem}
    (h : SplitsAddUp item.countryBreakdown item.warehouseBreakdown) :
    itemErrors U (itemId, item) = [] ↔ Exportable U item := by
  have hpos : (if positiveTotal U item.countryBreakdown ≤ 0 then
      [s!"{itemId}:补货快照仅允许补货量 > 0 的条目"] else []) = [] ↔
          0 < positiveTotal U item.countryBreakdown := by
    split_ifs with h0
    · simp only [false_iff, not_lt]
      exact h0
    · simpa using h0
  unfold itemErrors
  simp only
  rw [List.append_eq_nil_iff, List.append_eq_nil_iff, hpos, countryErrors_eq_nil_iff,
    warehouseErrors_eq_nil_iff]
  constructor
  · rintro ⟨⟨hc, ht⟩, hw⟩
    rw [positiveTotal_eq hc] at ht
    refine ⟨ht, hc, fun country m hm => ?_⟩
    obtain ⟨qty, hq, hparts⟩ := hw country m hm
    refine ⟨by rw [hq]; rfl, ?_⟩
    rcases hparts with hnil | hparts
    · simp [hnil]
    · exact hparts.1
  · intro he
    refine ⟨⟨he.countries, by rw [positiveTotal_eq he.countries]; exact he.total⟩,
      fun country m hm => ?_⟩
    obtain ⟨hsome, hparts⟩ := he.warehouses country m hm
    obtain ⟨qty, hq⟩ := Option.isSome_iff_exists.mp hsome
    refine ⟨qty, hq, ?_⟩
    by_cases hnil : m.items = []
    · exact Or.inl hnil
    · exact Or.inr ⟨hparts, h country qty hq (he.countries country qty hq).2 m hm hnil⟩

theorem validate_singleton_iff {itemId : ℕ} {item : SuggestionItem} :
    validateRestockSnapshotItems U [(itemId, item)] = .ok () ↔
    itemErrors U (itemId, item) = [] := by
  unfold validateRestockSnapshotItems
  simp only [List.flatMap_cons, List.flatMap_nil, List.append_nil]
  cases itemErrors U (itemId, item) with
  | nil => simp
  | cons e es => simp

/-- **What can be exported**: in every reachable state the check accepts an item
exactly if it is exportable; that the splits add up never has to be asked. -/
theorem validate_iff_exportable {db : SuggestionDb} (h : (suggestionRuns U).Reach db)
    {suggestionId itemId : ℕ} {s : Suggestion} {item : SuggestionItem}
    (hs : db.suggestions.get? suggestionId = some s) (hi : s.items.get? itemId = some item) :
    validateRestockSnapshotItems U [(itemId, item)] = .ok () ↔ Exportable U item := by
  rw [validate_singleton_iff]
  exact itemErrors_eq_nil_iff (splitsAddUp_of_reach h suggestionId s hs itemId item hi)

end Edit

/-! ### A first suggestion -/

/-- One SKU that sells a unit a day and has no stock record: nothing to send, and the
safety stock to buy. -/
def firstEnv : EngineEnv where
  config := ⟨true, 30, 0, some 10, 15, none⟩
  demandDays := 0
  demandDate := "2026-05-01"
  skuConfigs := .set .empty "A" ⟨true, none⟩
  velocity := .set .empty "A" (.set .empty "US" 1)
  plan := .identity
  stock := ⟨.empty, [], .empty, .empty, [], List.nodup_nil⟩
  rules := ⟨[], List.nodup_nil⟩
  aliases := ⟨[], [], List.nodup_nil⟩
  euCountries := []
  localStock := .empty
  countryWarehouses := .empty
  orders := .empty
  matchWarehouses := fun _ _ => .ok []

def firstItem : SuggestionItem where
  commoditySku := "A"
  totalQty := 0
  countryBreakdown := .empty
  warehouseBreakdown := .empty
  allocationSnapshot := some .empty
  velocitySnapshot := .set .empty "US" 1
  saleDaysSnapshot := .empty
  calculationWarnings := [⟨.missingInventoryRecord, "US"⟩]
  urgent := false
  purchaseQty := 15
  restockDates := .empty

def firstSuggestion : Suggestion := newSuggestion firstEnv 1 [firstItem]

def firstDb : SuggestionDb := ⟨.set .empty 1 firstSuggestion, 2, 2⟩

theorem apply_firstEnv :
    (SuggestionOp.runEngine firstEnv).apply CharTable.ascii ⟨.empty, 1, 1⟩ = .ok firstDb := by
  decide +kernel

/-- The item after a patch. -/
def firstPatched (patch : SuggestionItemPatch) : SuggestionItem :=
  patchedItem CharTable.ascii 10 (some "2026-05-01") firstItem patch

def firstPatchedDb (patch : SuggestionItemPatch) :
    SuggestionDb := setItem firstDb 1 firstSuggestion 1 (firstPatched patch)

theorem apply_firstPatch {patch : SuggestionItemPatch}
    (h : mismatchedCountry (patch.countryBreakdown.getD .empty)
      (patch.warehouseBreakdown.getD .empty) = none) :
    (SuggestionOp.patchItem .empty 1 1 patch).apply CharTable.ascii firstDb = .ok
    (firstPatchedDb patch) := by
  have hdate : suggestionDemandDate CharTable.ascii firstSuggestion =
    some "2026-05-01" := by decide +kernel
  have hparent : firstDb.suggestions.get? 1 = some firstSuggestion := rfl
  have hitem : firstSuggestion.items.get? 1 = some firstItem := rfl
  show patchItem CharTable.ascii .empty 1 1 patch firstDb = _
  rw [patchItem_ok hparent (by decide) hitem h, hdate]
  rfl

/-- A run of the engine and a patch, each meeting the condition of the run. -/
theorem reach_firstPatch {ok : SuggestionOp → SuggestionDb → Prop} {patch : SuggestionItemPatch}
    (hrun : ok (.runEngine firstEnv) ⟨.empty, 1, 1⟩)
    (hpatch : ok (.patchItem .empty 1 1 patch) firstDb)
    (h : mismatchedCountry (patch.countryBreakdown.getD .empty)
    (patch.warehouseBreakdown.getD .empty) = none) :
    (suggestionRuns CharTable.ascii).ReachIf ok (firstPatchedDb patch) :=
  .step (.step (.start rfl) hrun apply_firstEnv) hpatch (apply_firstPatch h)

theorem noQty_nonneg : ∀ n ∈ (none : Option ℤ), 0 ≤ n := by simp

theorem noCountries_nonneg :
    ∀ m ∈ (none : Option (Dict String ℤ)), ∀ entry ∈ m.items, 0 ≤ entry.2 := by simp

theorem noWarehouses_nonneg :
    ∀ m ∈ (none : Option (Dict String (Dict String ℤ))), ∀ entry ∈ m.items, ∀ part ∈ entry.2.items,
    0 ≤ part.2 := by simp

/-- The quantities that a patch enters by country. -/
def countryPatch (countryBreakdown : Dict String ℤ)
    (h : ∀ entry ∈ countryBreakdown.items, 0 ≤ entry.2) : SuggestionItemPatch where
  totalQty := none
  purchaseQty := none
  countryBreakdown := some countryBreakdown
  warehouseBreakdown := none
  total_nonneg := noQty_nonneg
  purchase_nonneg := noQty_nonneg
  country_nonneg := by
    intro m hm
    rw [← Option.some.inj hm]
    exact h
  warehouse_nonneg := noWarehouses_nonneg

/-- Five units for the US. -/
def usPatch : SuggestionItemPatch := countryPatch ⟨[("US", 5)], by decide⟩ (by decide)

/-- Five units for the US and none for Canada. -/
def usZeroPatch : SuggestionItemPatch :=
  countryPatch ⟨[("US", 5), ("CA", 0)], by decide⟩ (by decide)

/-- An edited item that can be exported. -/
theorem validate_usPatch :
    (validateRestockSnapshotItems CharTable.ascii [(1, firstPatched usPatch)] = .ok () ↔
    Exportable CharTable.ascii (firstPatched usPatch)) ∧
    Exportable CharTable.ascii (firstPatched usPatch) := by
  have hreach : (suggestionRuns CharTable.ascii).Reach (firstPatchedDb usPatch) :=
    reach_firstPatch trivial trivial (by decide +kernel)
  have hs : (firstPatchedDb usPatch).suggestions.get? 1 = some
    { firstSuggestion with items := firstSuggestion.items.set 1 (firstPatched usPatch) } := rfl
  have hi : (firstSuggestion.items.set 1 (firstPatched usPatch)).get? 1 =
    some (firstPatched usPatch) := rfl
  have hiff := validate_iff_exportable hreach hs hi
  refine ⟨hiff, hiff.mp ?_⟩
  rw [validate_singleton_iff]
  decide +kernel

/-- An edited item of positive total that cannot be exported: it has a country
without a quantity. -/
theorem not_validate_usZeroPatch :
    (suggestionRuns CharTable.ascii).Reach (firstPatchedDb usZeroPatch) ∧
    ((firstPatchedDb usZeroPatch).suggestions.get? 1).bind (·.items.get? 1) =
    some (firstPatched usZeroPatch) ∧ 0 < (firstPatched usZeroPatch).countryBreakdown.values.sum ∧
    validateRestockSnapshotItems CharTable.ascii [(1, firstPatched usZeroPatch)] ≠ .ok () := by
  refine ⟨reach_firstPatch trivial trivial (by decide +kernel), rfl, by decide +kernel, ?_⟩
  rw [Ne, validate_singleton_iff]
  decide +kernel

end Restock
