/-
# The country that component stock is counted for (`engine/sku_mapping.py`, step 2)

Component stock is grouped by SKU, warehouse and country in the database, and kept by
physical item and warehouse in the program, under the first country that the groups
name. Which one comes first is up to the database. So every unit is counted for its own
country, in whatever order the groups come, exactly if no warehouse that can be counted
for a country holds units of another one (`OneCountry`, `creditsOwn_iff`); for a country
with goods that have no warehouse yet, the same of every single item of a warehouse.
Then the stock of a run does not depend on the order either.
-/
import Restock.SkuMappingBound
import Restock.SaleDays

namespace Restock

open PyText Query

/-! ### Adding the stock of several rows -/

section AddStock

theorem addStock_total (a b : WarehouseStock) : (addStock a b).total = a.total + b.total := rfl

theorem addStock_country (a b : WarehouseStock) :
    (addStock a b).country = a.country ∨ (addStock a b).country = b.country := by
  unfold addStock
  split_ifs
  · exact Or.inl rfl
  · exact Or.inr rfl

/-- The sum of several rows has the country of one of them. -/
theorem combine_country {f : WarehouseStock → WarehouseStock → WarehouseStock}
    (hf : ∀ a b, (f a b).country = a.country ∨ (f a b).country = b.country) :
    ∀ (vs : List WarehouseStock) (o : Option WarehouseStock) {stock : WarehouseStock},
      Dict.combine f o vs = some stock → ∃ v ∈ o.toList ++ vs, v.country = stock.country
  | [], o, stock, h => by
    have ho : o = some stock := by cases o <;> exact h
    exact ⟨stock, by simp [ho], rfl⟩
  | v :: vs, none, stock, h => by
    obtain ⟨u, hu, hc⟩ := combine_country hf vs (some v) h
    exact ⟨u, hu, hc⟩
  | v :: vs, some w, stock, h => by
    obtain ⟨u, hu, hc⟩ := combine_country hf vs (some (f w v)) h
    rcases List.mem_cons.mp hu with rfl | hu
    · rcases hf w v with hw | hv
      · exact ⟨w, List.mem_cons_self, hw.symm.trans hc⟩
      · exact ⟨v, List.mem_cons_of_mem _ List.mem_cons_self, hv.symm.trans hc⟩
    · exact ⟨u, List.mem_cons_of_mem _ (List.mem_cons_of_mem _ hu), hc⟩

/-- The first country stays. -/
theorem combine_addStock_first : ∀ (vs : List WarehouseStock) {first stock : WarehouseStock},
    textOr first.country ≠ "" → Dict.combine addStock (some first) vs = some stock →
    stock.country = first.country
  | [], first, stock, _, h => by rw [← Option.some.inj h]
  | v :: vs, first, stock, hne, h => by
    have hfirst : (addStock first v).country = first.country := if_pos hne
    have hrest := combine_addStock_first vs (hfirst ▸ hne) h
    rw [hrest, hfirst]

end AddStock

/-! ### The rows of a query -/

section Rows

variable (skuGroups : Dict String String) (country : String → Option String)

/-- A row of the component in the warehouse that counts for `c`. -/
def HasRow (rows : List ((String × String × String) × ℤ)) (key warehouseId c : String) : Prop :=
  ∃ row ∈ rows, resolveSku skuGroups row.1.1 = key ∧ row.1.2.1 = warehouseId ∧
    country row.1.2.2 = some c

variable {skuGroups country} {plan : Plan} {rows : List ((String × String × String) × ℤ)}
    {key warehouseId : String}

/-- The values that the loop adds for a component of a warehouse. -/
theorem mem_valuesAt_groups {v : WarehouseStock} :
    v ∈ Dict.valuesAt ((plan.order (groupSum rows)).filterMap fun row =>
    (country row.1.2.2).map fun mapped =>
      ((resolveSku skuGroups row.1.1, row.1.2.1), (⟨some mapped, row.2⟩ : WarehouseStock)))
        (key, warehouseId) →
    ∃ c, v.country = some c ∧ HasRow skuGroups country rows key warehouseId c := by
  intro hv
  obtain ⟨row, hrow, hm⟩ := List.mem_filterMap.mp (Dict.mem_valuesAt.mp hv)
  obtain ⟨c, hc, he⟩ := Option.map_eq_some_iff.mp hm
  obtain ⟨hk, rfl⟩ := Prod.mk.inj he
  obtain ⟨total, hmem⟩ := mem_keys_groupSum.mp ⟨row.2, (plan.perm _).mem_iff.mp hrow⟩
  exact ⟨c, rfl, (row.1, total), hmem, (Prod.mk.inj hk).1, (Prod.mk.inj hk).2, hc⟩

/-- What is kept has the country of a row. -/
theorem country_of_stockByWarehouse {stock : WarehouseStock}
    (h : (stockByWarehouse plan skuGroups country rows).get? (key, warehouseId) = some stock) :
    ∃ c, stock.country = some c ∧ HasRow skuGroups country rows key warehouseId c := by
  rw [stockByWarehouse, Dict.get?_mergeAll] at h
  obtain ⟨v, hv, hc⟩ := combine_country addStock_country _ _ h
  obtain ⟨c, hvc, hrow⟩ := mem_valuesAt_groups hv
  exact ⟨c, hc ▸ hvc, hrow⟩

variable (plan) in
/-- The kept totals, which no order changes. -/
theorem total_stockByWarehouse :
    ((stockByWarehouse plan skuGroups country rows).get? (key, warehouseId)).map
    WarehouseStock.total = (Dict.sumBy (rekey (fun k : String × String × String =>
      (country k.2.2).map fun _ => (resolveSku skuGroups k.1, k.2.1)) rows)).get? (key,
          warehouseId) := by
  rw [← get?_sumRows plan, sumRows, Dict.sumBy, Dict.get?_mergeAll, stockByWarehouse,
    Dict.get?_mergeAll, Dict.map_combine addStock_total]
  have hvalues : ∀ l : List ((String × String × String) × ℤ), (Dict.valuesAt (l.filterMap fun row =>
      (country row.1.2.2).map fun mapped =>
        ((resolveSku skuGroups row.1.1, row.1.2.1), (⟨some mapped, row.2⟩ : WarehouseStock)))
          (key, warehouseId)).map
          WarehouseStock.total =
      Dict.valuesAt (rekey (fun k : String × String × String =>
        (country k.2.2).map fun _ => (resolveSku skuGroups k.1, k.2.1)) l) (key, warehouseId) := by
    intro l
    unfold rekey
    rw [← Dict.valuesAt_map WarehouseStock.total, List.map_filterMap]
    refine congrArg (fun l => Dict.valuesAt l (key, warehouseId))
      (List.filterMap_congr fun row _ => ?_)
    simp only
    cases country row.1.2.2 <;> rfl
  rw [hvalues]
  rfl

/-- A component of a warehouse is kept if it has a row. -/
theorem isSome_stockByWarehouse :
    ((stockByWarehouse plan skuGroups country rows).get? (key, warehouseId)).isSome = true ↔
      ∃ c, HasRow skuGroups country rows key warehouseId c := by
  constructor
  · intro h
    obtain ⟨stock, hs⟩ := Option.isSome_iff_exists.mp h
    obtain ⟨c, -, hrow⟩ := country_of_stockByWarehouse hs
    exact ⟨c, hrow⟩
  · intro h
    obtain ⟨c, row, hrow, hkey, hw, hc⟩ := h
    have hsome : (((stockByWarehouse plan skuGroups country rows).get? (key, warehouseId)).map
        WarehouseStock.total).isSome = true := by
      rw [total_stockByWarehouse, Dict.isSome_get?_sumBy]
      have hmem : row.2 ∈ Dict.valuesAt (rekey (fun k : String × String × String =>
          (country k.2.2).map fun _ => (resolveSku skuGroups k.1, k.2.1)) rows) (key,
              warehouseId) := by
        rw [Dict.mem_valuesAt]
        refine List.mem_filterMap.mpr ⟨row, hrow, ?_⟩
        simp only [hc, hkey, hw, Option.map_some]
      simpa using List.ne_nil_of_mem hmem
    rwa [Option.isSome_map] at hsome

/-- Any row can be the first that is kept, and its country is then the one that counts. -/
theorem exists_plan_first {c : String} (h : HasRow skuGroups country rows key warehouseId c)
    (hc : c ≠ "") :
    ∃ plan : Plan, ∃ stock rest, (stockByWarehouse plan skuGroups country rows).keys =
      (key, warehouseId) :: rest ∧
      (stockByWarehouse plan skuGroups country rows).get? (key, warehouseId) = some stock ∧
      stock.country = some c := by
  obtain ⟨row, hrow, hkey, hw, hcountry⟩ := h
  obtain ⟨total, hgroup⟩ := mem_keys_groupSum.mpr ⟨row.2, hrow⟩
  obtain ⟨n, rest, horder⟩ := exists_rotate_cons hgroup
  set mapRow := fun row : (String × String × String) × ℤ => (country row.1.2.2).map fun mapped =>
    ((resolveSku skuGroups row.1.1, row.1.2.1), (⟨some mapped, row.2⟩ : WarehouseStock)) with
      hmapRow
  have hlist : ((Plan.rotate n).order (groupSum rows)).filterMap mapRow =
      ((key, warehouseId), ⟨some c, total⟩) :: rest.filterMap mapRow := by
    rw [horder, List.filterMap_cons]
    simp only [hmapRow, hcountry, Option.map_some, hkey, hw]
  have hstock : stockByWarehouse (Plan.rotate n) skuGroups country rows =
      Dict.mergeAll addStock (Dict.empty.merge addStock (key, warehouseId) ⟨some c, total⟩)
          (rest.filterMap mapRow) := by
    show Dict.mergeAll addStock .empty
      (((Plan.rotate n).order (groupSum rows)).filterMap mapRow) = _
    rw [hlist]
    rfl
  have hfirst : (Dict.empty.merge addStock (key, warehouseId)
      (⟨some c, total⟩ : WarehouseStock)).get?
      (key, warehouseId) = some ⟨some c, total⟩ := Dict.get?_set_self _ _ _
  obtain ⟨more, hkeys⟩ := Dict.keys_prefix_mergeAll addStock (rest.filterMap mapRow)
    (Dict.empty.merge addStock (key, warehouseId) ⟨some c, total⟩)
  have hsome : (Dict.combine addStock (some (⟨some c, total⟩ : WarehouseStock))
      (Dict.valuesAt (rest.filterMap mapRow) (key, warehouseId))).isSome = true := by
    rw [Dict.isSome_combine]
    rfl
  obtain ⟨stock, hs⟩ := Option.isSome_iff_exists.mp hsome
  have hcountry : stock.country = some c := @combine_addStock_first _ ⟨some c, total⟩ _ hc hs
  refine ⟨Plan.rotate n, stock, more, ?_, ?_, hcountry⟩
  · rw [hstock, ← hkeys]
    rfl
  · rw [hstock, Dict.get?_mergeAll, hfirst, hs]

end Rows

/-! ### Two sources -/

section Merge

variable {first second stock : ComponentStock} {key warehouseId c : String}

theorem mergeWarehouseStock_pair (first second : ComponentStock) :
    mergeWarehouseStock [first, second] = Dict.mergeAll addStock first second.items := by
  have hlist : [first, second].flatMap Dict.items = first.items ++ second.items := by
    simp
  rw [mergeWarehouseStock, hlist, Dict.mergeAll, List.foldl_append]
  show Dict.mergeAll addStock (Dict.mergeAll addStock .empty first.items) second.items = _
  rw [Dict.mergeAll_items]

theorem get?_mergeWarehouseStock (k : String × String) :
    (mergeWarehouseStock [first, second]).get? k = Dict.combine addStock (first.get? k)
    (second.get? k).toList := by
  rw [mergeWarehouseStock_pair, Dict.get?_mergeAll, Dict.valuesAt_items]

/-- The country of the first source stays. -/
theorem get?_merge_of_first (second : ComponentStock) {a : WarehouseStock}
    (ha : first.get? (key, warehouseId) = some a) (hne : textOr a.country ≠ "") :
    ∃ stock, (mergeWarehouseStock [first, second]).get? (key, warehouseId) = some stock ∧
    stock.country = a.country := by
  have hsome : (Dict.combine addStock (some a) (second.get? (key, warehouseId)).toList).isSome =
      true := by
    rw [Dict.isSome_combine]
    rfl
  obtain ⟨stock, hs⟩ := Option.isSome_iff_exists.mp hsome
  exact ⟨stock, by rw [get?_mergeWarehouseStock, ha, hs], combine_addStock_first _ hne hs⟩

theorem get?_merge_of_second (ha : first.get? (key, warehouseId) = none) :
    (mergeWarehouseStock [first, second]).get? (key, warehouseId) = second.get?
    (key, warehouseId) := by
  rw [get?_mergeWarehouseStock, ha]
  cases second.get? (key, warehouseId) <;> rfl

/-- A warehouse has the country of one of its components. -/
theorem exists_of_countryByWarehouse (h : countryByWarehouse stock warehouseId = some c) :
    c ≠ "" ∧ ∃ key kept, stock.get? (key, warehouseId) = some kept ∧ kept.country = some c := by
  obtain ⟨entry, hfind, hc⟩ := Option.bind_eq_some_iff.mp h
  set wanted := fun entry : (String × String) × WarehouseStock =>
    decide (entry.1.2 = warehouseId ∧ textOr entry.2.country ≠ "")
  have hpred : wanted entry = true := List.find?_some hfind
  obtain ⟨hid, hne⟩ := of_decide_eq_true hpred
  have hmem := Dict.get?_eq_some_iff.mpr (List.mem_of_find?_eq_some hfind)
  rw [hc] at hne
  subst hid
  exact ⟨hne, entry.1.1, entry.2, hmem, hc⟩

/-- Keys that come first decide the country, if one of them is of the warehouse and has
a country. -/
theorem countryByWarehouse_of_prefix {keys : List (String × String)} (hpre : keys <+: stock.keys)
    {a : WarehouseStock} (hk : (key, warehouseId) ∈ keys)
    (ha : stock.get? (key, warehouseId) = some a) (hne : textOr a.country ≠ "") :
    ∃ key' a', (key', warehouseId) ∈ keys ∧ stock.get? (key', warehouseId) = some a' ∧
    textOr a'.country ≠ "" ∧ countryByWarehouse stock warehouseId = a'.country := by
  obtain ⟨more, hmore⟩ := hpre
  obtain ⟨items, items', hitems, hkeys, -⟩ := List.map_eq_append_iff.mp hmore.symm
  have hentry : ((key, warehouseId), a) ∈ items := by
    have hmem := Dict.get?_eq_some_iff.mp ha
    rw [hitems, List.mem_append] at hmem
    refine hmem.resolve_right fun hin => ?_
    have hnd := stock.nodup
    rw [hitems, List.map_append, List.nodup_append] at hnd
    exact hnd.2.2 _ (hkeys ▸ hk) _ (List.mem_map_of_mem hin) rfl
  set wanted := fun entry : (String × String) × WarehouseStock =>
    decide (entry.1.2 = warehouseId ∧ textOr entry.2.country ≠ "") with hwanted
  have hsome : (items.find? wanted).isSome = true := by
    rw [List.find?_isSome]
    exact ⟨_, hentry, decide_eq_true ⟨rfl, hne⟩⟩
  obtain ⟨found, hfound⟩ := Option.isSome_iff_exists.mp hsome
  have hpred : wanted found = true := List.find?_some hfound
  obtain ⟨hid, hcountry⟩ := of_decide_eq_true hpred
  have hmem := List.mem_of_find?_eq_some hfound
  have hstock : countryByWarehouse stock warehouseId = found.2.country := by
    show (stock.items.find? wanted).bind _ = _
    rw [hitems, List.find?_append, hfound]
    rfl
  subst hid
  refine ⟨found.1.1, found.2, ?_, ?_, hcountry, hstock⟩
  · rw [← hkeys]
    exact List.mem_map_of_mem hmem
  · rw [Dict.get?_eq_some_iff, hitems]
    exact List.mem_append_left _ hmem

end Merge

/-! ### What the count of a country depends on -/

section Assembly

variable {U : CharTable} {rules : MappingRules} {stock stock' : ComponentStock}
    {velocity : Option Velocity} {c : String}

theorem assembledUnits_congr {warehouseId : String}
    (hcountry : countryByWarehouse stock warehouseId = countryByWarehouse stock' warehouseId)
    (hkept : ∀ key, stock.get? (key, warehouseId) = stock'.get? (key, warehouseId)) (sku : String)
    (components : MappingGroup) : assembledUnits U rules stock velocity sku warehouseId components =
      assembledUnits U rules stock' velocity sku warehouseId components := by
  have hkeys : ∀ key, (key, warehouseId) ∈ stock.keys ↔ (key, warehouseId) ∈ stock'.keys := by
    intro key
    rw [Dict.mem_keys_iff, Dict.mem_keys_iff, hkept]
  have hparts : partOf rules stock velocity sku warehouseId =
      partOf rules stock' velocity sku warehouseId := by
    funext key
    rw [partOf_eq, partOf_eq, hkept]
  unfold partOf at hparts
  unfold assembledUnits
  simp only [hcountry, hkeys, hparts]

/-- The values that are summed for a commodity and a country. -/
theorem valuesAt_assembled (sku : String) (hc : c ≠ "") :
    Dict.valuesAt (rules.items.flatMap fun rule => (warehouseIds stock).flatMap fun warehouseId =>
      rule.2.filterMap fun components =>
        (assembledUnits U rules stock velocity rule.1 warehouseId components).map
        fun units => ((rule.1, textOr (countryByWarehouse stock warehouseId)), units)) (sku, c) =
    rules.items.flatMap fun rule =>
      ((warehouseIds stock).filter fun w => countryByWarehouse stock w = some c).flatMap
      fun warehouseId => if rule.1 = sku then
        rule.2.filterMap (assembledUnits U rules stock velocity rule.1 warehouseId) else [] := by
  have hfilter : ∀ (f : String → List ℤ) (l : List String),
      (l.flatMap fun w => if countryByWarehouse stock w = some c then f w else []) =
        (l.filter fun w => countryByWarehouse stock w = some c).flatMap f := by
    intro f l
    induction l with
    | nil => rfl
    | cons w l ih =>
      rw [List.flatMap_cons, ih, List.filter_cons]
      by_cases hw : countryByWarehouse stock w = some c
      · rw [if_pos hw, if_pos (decide_eq_true hw), List.flatMap_cons]
      · rw [if_neg hw, if_neg (by simpa using hw), List.nil_append]
  have htext : ∀ w, textOr (countryByWarehouse stock w) = c ↔
      countryByWarehouse stock w = some c := by
    intro w
    cases countryByWarehouse stock w with
    | none => simpa [textOr] using fun h : "" = c => hc h.symm
    | some d => simp [textOr]
  rw [Dict.valuesAt_flatMap]
  refine List.flatMap_congr fun rule _ => ?_
  rw [Dict.valuesAt_flatMap, ← hfilter]
  refine List.flatMap_congr fun w _ => ?_
  rw [Dict.valuesAt_filterMap_const]
  simp only [Prod.mk.injEq, htext]
  by_cases hs : rule.1 = sku
  · by_cases hw : countryByWarehouse stock w = some c
    · rw [if_pos ⟨hs, hw⟩, if_pos hw, if_pos hs]
    · rw [if_neg fun h => hw h.2, if_neg hw]
  · rw [if_neg fun h => hs h.1, if_neg hs, ite_self]

/-- **The stock of a country** is a matter of the warehouses of that country. -/
theorem get?_computeMapped_congr (hc : c ≠ "")
    (hsame : ∀ w, countryByWarehouse stock w = some c ↔ countryByWarehouse stock' w = some c)
    (hkept : ∀ w, countryByWarehouse stock w = some c →
      ∀ key, stock.get? (key, w) = stock'.get? (key, w))
    (sku : String) : (computeMappedStockByCountry U rules stock velocity).get? (sku, c) =
      (computeMappedStockByCountry U rules stock' velocity).get? (sku, c) := by
  have hids : ∀ (stock : ComponentStock) (w : String), countryByWarehouse stock w = some c →
      w ∈ warehouseIds stock := by
    intro stock w hw
    obtain ⟨-, key, kept, hk, -⟩ := exists_of_countryByWarehouse hw
    rw [warehouseIds, List.mem_dedup, List.mem_map]
    exact ⟨(key, w), Dict.mem_keys_iff.mpr ⟨kept, hk⟩, rfl⟩
  have hperm : ((warehouseIds stock).filter fun w => countryByWarehouse stock w = some c).Perm
      ((warehouseIds stock').filter fun w => countryByWarehouse stock' w = some c) := by
    refine (List.perm_ext_iff_of_nodup ((List.nodup_dedup _).filter _)
      ((List.nodup_dedup _).filter _)).mpr fun w => ?_
    rw [List.mem_filter, List.mem_filter, decide_eq_true_eq, decide_eq_true_eq]
    exact ⟨fun h => ⟨hids _ w ((hsame w).mp h.2), (hsame w).mp h.2⟩,
      fun h => ⟨hids _ w ((hsame w).mpr h.2), (hsame w).mpr h.2⟩⟩
  have hvalues : (rules.items.flatMap fun rule => ((warehouseIds stock).filter fun w =>
        countryByWarehouse stock w = some c).flatMap fun warehouseId => if rule.1 = sku then
          rule.2.filterMap (assembledUnits U rules stock velocity rule.1 warehouseId) else []).Perm
      (rules.items.flatMap fun rule => ((warehouseIds stock').filter fun w =>
        countryByWarehouse stock' w = some c).flatMap fun warehouseId => if rule.1 = sku then
          rule.2.filterMap (assembledUnits U rules stock' velocity rule.1 warehouseId)
              else []) := by
    refine List.Perm.flatMap_left _ fun rule _ => ?_
    have hpoint : ∀ w ∈ (warehouseIds stock).filter fun w => countryByWarehouse stock w = some c,
        (if rule.1 = sku then rule.2.filterMap (assembledUnits U rules stock velocity rule.1 w)
          else []) = if rule.1 = sku then
          rule.2.filterMap (assembledUnits U rules stock' velocity rule.1 w) else [] := by
      intro w hw
      have hcountry := of_decide_eq_true (List.mem_filter.mp hw).2
      have hunits : assembledUnits U rules stock velocity rule.1 w =
          assembledUnits U rules stock' velocity rule.1 w :=
        funext fun components =>
          assembledUnits_congr (hcountry.trans ((hsame w).mp hcountry).symm)
            (hkept w hcountry) rule.1 components
      rw [hunits]
    rw [List.flatMap_congr hpoint]
    exact hperm.flatMap_right _
  refine Dict.get?_sumBy_of_perm ?_
  rw [valuesAt_assembled sku hc, valuesAt_assembled sku hc]
  exact hvalues

/-- Only reportable countries are counted. -/
theorem get?_computeMapped_not_reportable (hc : isReportableCountryCode U (.str c) = false)
    (sku : String) : (computeMappedStockByCountry U rules stock velocity).get? (sku, c) = none := by
  rw [computeMappedStockByCountry, Dict.get?_sumBy, if_pos]
  rw [List.eq_nil_iff_forall_not_mem]
  intro n hn
  obtain ⟨rule, -, hrule⟩ := List.mem_flatMap.mp (Dict.mem_valuesAt.mp hn)
  obtain ⟨w, -, hw⟩ := List.mem_flatMap.mp hrule
  obtain ⟨components, -, hm⟩ := List.mem_filterMap.mp hw
  obtain ⟨units, hunits, he⟩ := Option.map_eq_some_iff.mp hm
  have hcountry : textOr (countryByWarehouse stock w) = c := (Prod.mk.inj (Prod.mk.inj he).1).2
  unfold assembledUnits at hunits
  cases hw' : countryByWarehouse stock w with
  | none =>
    rw [hw'] at hunits
    cases hunits
  | some d =>
    obtain rfl : d = c := by rwa [hw'] at hcountry
    rw [hw'] at hunits
    simp only [hc, Bool.not_false, if_true] at hunits
    cases hunits

end Assembly

/-! ### One pool for a country -/

section Pool

variable {U : CharTable} {stock stock' : ComponentStock}
    {transit transit' : Dict (String × String) ℤ} {c : String}

theorem countryLevelWarehouseId_inj {a b : String}
    (h : countryLevelWarehouseId a = countryLevelWarehouseId b) : a = b := by
  unfold countryLevelWarehouseId at h
  have hlist := congrArg String.toList h
  rw [String.toList_append, String.toList_append, List.append_cancel_left_eq] at hlist
  exact String.toList_inj.mp hlist

/-- The entries of the pools: what warehouses hold of a reportable country. -/
def pooledEntry (entry : (String × String) × WarehouseStock) :
    Option ((String × String) × WarehouseStock) :=
  if textOr entry.2.country ≠ "" ∧ isReportableCountryCode U (.str (textOr entry.2.country)) then
    some ((entry.1.1, countryLevelWarehouseId (textOr entry.2.country)), entry.2)
  else none

/-- And the goods that have no warehouse yet. -/
def pooledTransit (entry : (String × String) × ℤ) : Option ((String × String) × WarehouseStock) :=
  if isReportableCountryCode U (.str entry.1.2) then
    some ((entry.1.1, countryLevelWarehouseId entry.1.2), ⟨some entry.1.2, entry.2⟩)
  else none

def poolEntries (U : CharTable) (stock : ComponentStock) (transit : Dict (String × String) ℤ) :
    List ((String × String) × WarehouseStock) :=
  stock.items.filterMap (pooledEntry (U := U)) ++ transit.items.filterMap (pooledTransit (U := U))

def poolStock (current stock : WarehouseStock) :
    WarehouseStock := ⟨stock.country, current.total + stock.total⟩

theorem poolStock_country (a b : WarehouseStock) :
    (poolStock a b).country = a.country ∨ (poolStock a b).country = b.country :=
  Or.inr rfl

theorem poolStock_total (a b : WarehouseStock) : (poolStock a b).total = a.total + b.total := rfl

theorem get?_aggregate (k : String × String) :
    (aggregateComponentStockByCountry U stock transit).get? k = Dict.combine poolStock none
    (Dict.valuesAt (poolEntries U stock transit) k) := Dict.get?_mergeAll _ _ _ _

/-- A pool holds the entries of its country. -/
theorem pooledEntry_eq {entry : (String × String) × WarehouseStock} {key w : String}
    {kept : WarehouseStock} :
    pooledEntry (U := U) entry = some ((key, w), kept) ↔
      ∃ c, isReportableCountryCode U (.str c) = true ∧ w = countryLevelWarehouseId c ∧
      kept.country = some c ∧ entry.1.1 = key ∧ entry.2 = kept := by
  have hnone : ¬isReportableCountryCode U (.str "") = true := by
    rw [isReportable_empty]
    exact Bool.false_ne_true
  unfold pooledEntry
  cases hc : entry.2.country with
  | none =>
    rw [if_neg fun h => h.1 rfl]
    constructor
    · intro h
      cases h
    · rintro ⟨c, -, -, hk, -, rfl⟩
      rw [hc] at hk
      cases hk
  | some d =>
    have htext : textOr (some d) = d := rfl
    rw [htext]
    constructor
    · intro h
      split_ifs at h with hd
      obtain ⟨hk, rfl⟩ := Prod.mk.inj (Option.some.inj h)
      exact ⟨d, hd.2, (Prod.mk.inj hk).2.symm, hc, (Prod.mk.inj hk).1, rfl⟩
    · rintro ⟨c, hr, rfl, hk, rfl, rfl⟩
      obtain rfl : d = c := Option.some.inj (hc.symm.trans hk)
      have hne : d ≠ "" := fun he => hnone (he ▸ hr)
      rw [if_pos ⟨hne, hr⟩]

theorem pooledTransit_eq {entry : (String × String) × ℤ} {key w : String} {kept : WarehouseStock} :
    pooledTransit (U := U) entry = some ((key, w), kept) ↔
      ∃ c, isReportableCountryCode U (.str c) = true ∧ w = countryLevelWarehouseId c ∧
      kept = ⟨some c, entry.2⟩ ∧ entry.1 = (key, c) := by
  unfold pooledTransit
  constructor
  · intro h
    split_ifs at h with hr
    obtain ⟨hk, rfl⟩ := Prod.mk.inj (Option.some.inj h)
    obtain ⟨rfl, rfl⟩ := Prod.mk.inj hk
    exact ⟨entry.1.2, hr, rfl, rfl, rfl⟩
  · rintro ⟨c, hr, rfl, rfl, he⟩
    rw [he, if_pos hr]

/-- What a pool is given has the country of the pool. -/
theorem country_of_mem_pool {key w : String} {kept : WarehouseStock}
    (h : kept ∈ Dict.valuesAt (poolEntries U stock transit) (key, w)) :
    ∃ c, isReportableCountryCode U (.str c) = true ∧ w = countryLevelWarehouseId c ∧
    kept.country = some c := by
  rcases List.mem_append.mp (Dict.mem_valuesAt.mp h) with hstock | htransit
  · obtain ⟨entry, -, he⟩ := List.mem_filterMap.mp hstock
    obtain ⟨c, hr, hw, hc, -⟩ := pooledEntry_eq.mp he
    exact ⟨c, hr, hw, hc⟩
  · obtain ⟨entry, -, he⟩ := List.mem_filterMap.mp htransit
    obtain ⟨c, hr, hw, rfl, -⟩ := pooledTransit_eq.mp he
    exact ⟨c, hr, hw, rfl⟩

theorem country_of_aggregate {key w : String} {kept : WarehouseStock}
    (h : (aggregateComponentStockByCountry U stock transit).get? (key, w) = some kept) :
    ∃ c, isReportableCountryCode U (.str c) = true ∧ w = countryLevelWarehouseId c ∧
    kept.country = some c := by
  rw [get?_aggregate] at h
  obtain ⟨v, hv, hc⟩ := combine_country poolStock_country _ _ h
  obtain ⟨c, hr, hw, hvc⟩ := country_of_mem_pool hv
  exact ⟨c, hr, hw, hc ▸ hvc⟩

/-- A pool counts for its own country. -/
theorem countryByWarehouse_aggregate {w : String} :
    countryByWarehouse (aggregateComponentStockByCountry U stock transit) w = some c ↔
      w = countryLevelWarehouseId c ∧
        ∃ key kept, (aggregateComponentStockByCountry U stock transit).get? (key, w) =
        some kept := by
  constructor
  · intro h
    obtain ⟨-, key, kept, hk, hc⟩ := exists_of_countryByWarehouse h
    obtain ⟨d, -, hw, hd⟩ := country_of_aggregate hk
    obtain rfl : d = c := Option.some.inj (hd.symm.trans hc)
    exact ⟨hw, key, kept, hk⟩
  · rintro ⟨rfl, key, kept, hk⟩
    obtain ⟨d, hr, hw, hd⟩ := country_of_aggregate hk
    have hne : textOr kept.country ≠ "" := by
      rw [hd]
      exact ne_empty_of_reportable hr
    obtain ⟨key', kept', -, hk', -, hcountry⟩ := countryByWarehouse_of_prefix (List.prefix_refl _)
      (Dict.mem_keys_iff.mpr ⟨kept, hk⟩) hk hne
    obtain ⟨d', -, hw', hd'⟩ := country_of_aggregate hk'
    rw [hcountry, hd', countryLevelWarehouseId_inj hw']

/-- Rows of one country add up to a row of that country. -/
theorem combine_of_country {f : WarehouseStock → WarehouseStock → WarehouseStock}
    (hcountry : ∀ a b, (f a b).country = a.country ∨ (f a b).country = b.country)
    (htotal : ∀ a b, (f a b).total = a.total + b.total) {vs : List WarehouseStock}
    (hvs : ∀ v ∈ vs, v.country = some c) : Dict.combine f none vs =
      if vs = [] then none else some ⟨some c, (vs.map WarehouseStock.total).sum⟩ := by
  by_cases hnil : vs = []
  · rw [hnil, if_pos rfl]
    rfl
  · have hmap := Dict.map_combine htotal vs none
    rw [Option.map_none, Dict.combine_add_none, if_neg (by simpa using hnil)] at hmap
    obtain ⟨stock, hstock, htotal⟩ := Option.map_eq_some_iff.mp hmap
    obtain ⟨v, hv, hc⟩ := combine_country hcountry _ _ hstock
    rw [hstock, if_neg hnil, ← htotal, ← hvs v hv, hc]

/-- **The pool of a country** is a matter of the stock of that country. -/
theorem get?_aggregate_congr
    (hstock : ∀ key w kept, kept.country = some c →
      (stock.get? (key, w) = some kept ↔ stock'.get? (key, w) = some kept))
      (htransit : ∀ k, transit.get? k = transit'.get? k) (key : String) :
    (aggregateComponentStockByCountry U stock transit).get? (key, countryLevelWarehouseId c) =
      (aggregateComponentStockByCountry U stock' transit').get?
      (key, countryLevelWarehouseId c) := by
  have hcountry : ∀ (stock : ComponentStock) (transit : Dict (String × String) ℤ),
      ∀ v ∈ Dict.valuesAt (poolEntries U stock transit) (key, countryLevelWarehouseId c),
          v.country = some c := by
    intro stock transit v hv
    obtain ⟨d, -, hw, hd⟩ := country_of_mem_pool hv
    rw [hd, countryLevelWarehouseId_inj hw]
  have hheld : (Dict.valuesAt (stock.items.filterMap (pooledEntry (U := U)))
      (key, countryLevelWarehouseId c)).Perm
      (Dict.valuesAt (stock'.items.filterMap (pooledEntry (U := U)))
          (key, countryLevelWarehouseId c)) := by
    rw [Dict.valuesAt_filterMap, Dict.valuesAt_filterMap]
    refine ((Dict.items_filter_perm fun k v hp => ?_).filterMap _).map _
    obtain ⟨⟨k', kept⟩, hq, hk⟩ := (Option.any_eq_true _ _).mp hp
    obtain rfl : k' = (key, countryLevelWarehouseId c) := of_decide_eq_true hk
    obtain ⟨d, -, hw, hd, -, rfl⟩ := pooledEntry_eq.mp hq
    rw [← countryLevelWarehouseId_inj hw] at hd
    exact hstock k.1 k.2 v hd
  have hvalues : (Dict.valuesAt (poolEntries U stock transit) (key, countryLevelWarehouseId c)).Perm
      (Dict.valuesAt (poolEntries U stock' transit') (key, countryLevelWarehouseId c)) := by
    rw [poolEntries, poolEntries, Dict.valuesAt_append, Dict.valuesAt_append]
    exact hheld.append ((((Dict.items_perm htransit).filterMap _).filter _).map _)
  have hnil : ∀ {l l' : List WarehouseStock}, l.Perm l' → (l = [] ↔ l' = []) := by
    intro l l' hp
    rw [← List.length_eq_zero_iff, ← List.length_eq_zero_iff, hp.length_eq]
  rw [get?_aggregate, get?_aggregate,
    combine_of_country poolStock_country poolStock_total (hcountry stock transit),
    combine_of_country poolStock_country poolStock_total (hcountry stock' transit'),
    (hvalues.map _).sum_eq]
  simp only [hnil hvalues]

/-- The assembled stock of a country: a pool, if goods for it have no warehouse yet. -/
theorem get?_mappedStock {rules : MappingRules} {velocity : Velocity} {sku : String} :
    (mappedStock U rules stock transit velocity).get? (sku, c) =
      if c ∈ transit.keys.map Prod.snd then
        (computeMappedStockByCountry U rules (aggregateComponentStockByCountry U stock transit)
          (some velocity)).get? (sku, c)
      else (computeMappedStockByCountry U rules stock (some velocity)).get? (sku, c) := by
  set pooled := computeMappedStockByCountry U rules
    (aggregateComponentStockByCountry U stock transit) (some velocity)
    with hpooled
  set mapped := computeMappedStockByCountry U rules stock (some velocity) with hmapped
  unfold mappedStock
  by_cases hnil : transit.items = []
  · have hkeys : transit.keys = [] := by rw [Dict.keys, hnil, List.map_nil]
    simp [hnil, hkeys, hmapped]
  · simp only [hnil, if_false, ← hpooled, ← hmapped]
    have hset : ∀ d e : Dict (String × String) ℤ,
        (e.items.foldl (fun d p => d.set p.1 p.2) d).get? (sku, c) = (e.get? (sku, c)).or
        (d.get? (sku, c)) := fun d e => Dict.get?_foldl_set_of_nodup e.items d e.nodup _
    have hpool := hset (mapped.filter fun key _ => key.2 ∉ transit.keys.map Prod.snd)
      (pooled.filter fun key _ => key.2 ∈ transit.keys.map Prod.snd)
    rw [Dict.get?_filter, Dict.get?_filter] at hpool
    refine hpool.trans ?_
    by_cases hc : c ∈ transit.keys.map Prod.snd
    · rw [if_pos hc]
      cases pooled.get? (sku, c) <;> cases mapped.get? (sku, c) <;> simp [hc]
    · rw [if_neg hc]
      cases pooled.get? (sku, c) <;> cases mapped.get? (sku, c) <;> simp [hc]

end Pool

/-! ### The rows of a run, by their own country -/

section Own

/-- The rows that `load_third_party_component_inventory_by_warehouse` groups. -/
def thirdPartyComponentRows (db : StockDb) (inventorySkus : List String) :
    List ((String × String × String) × ℤ) :=
  db.thirdPartyInventory.filterMap fun row =>
    if row.commoditySku ∈ inventorySkus then
      (db.thirdPartyWarehouses.getD row.warehouseId none).map fun country =>
        ((row.commoditySku, thirdPartyWarehouseKey row.warehouseId, country),
          row.available + row.reserved)
    else none

/-- The rows that `load_in_transit_totals_by_warehouse` groups. -/
def warehouseTransitRows (db : StockDb) (inventorySkus : List String) :
    List ((String × String × String) × ℤ) :=
  db.inTransitItems.filterMap fun item =>
    match db.inTransitRecords.get? item.saihuOutRecordId with
    | none => none
    | some record =>
      match record.targetWarehouseId, record.targetCountry with
      | some warehouseId, some country =>
        if item.commoditySku ∈ inventorySkus ∧ record.isInTransit ∧
            ((db.warehouses.get? warehouseId).elim false
                fun type => type ∉ localWarehouseTypes) then
          some ((item.commoditySku, warehouseId, country), item.goods)
        else none
      | _, _ => none

/-- The rows that `load_in_transit_totals_by_country` groups. -/
def countryTransitRows (db : StockDb) (inventorySkus : List String) :
    List ((String × String) × ℤ) :=
  db.inTransitItems.filterMap fun item =>
    match db.inTransitRecords.get? item.saihuOutRecordId with
    | none => none
    | some record =>
      if item.commoditySku ∈ inventorySkus ∧ record.isInTransit ∧
          record.targetWarehouseId = none then
        record.targetCountry.map fun country => ((item.commoditySku, country), item.goods)
      else none

/-- What the component loaders of a run read. -/
structure ComponentQuery where
  db : StockDb
  inventorySkus : List String
  skuToGroupKey : Dict String String
  euCountries : List String

variable (U : CharTable) (q : ComponentQuery)

/-- Units of the component that a third-party warehouse holds for `c`. -/
def ThirdParty (key warehouseId c : String) : Prop :=
  HasRow q.skuToGroupKey (thirdPartyCountry U q.euCountries)
    (thirdPartyComponentRows q.db q.inventorySkus) key warehouseId c

/-- Units of the component on their way to a warehouse for `c`. -/
def Transit (key warehouseId c : String) : Prop :=
  HasRow q.skuToGroupKey some (warehouseTransitRows q.db q.inventorySkus) key warehouseId c

/-- Units of the component in a warehouse, or on their way to it, whose own country is `c`. -/
def Own (key warehouseId c : String) :
    Prop := ThirdParty U q key warehouseId c ∨ Transit q key warehouseId c

/-- Goods for the country have no warehouse yet. -/
def CountryLevel (c : String) : Prop :=
  isReportableCountryCode U (.str c) = true ∧
    ∃ row ∈ countryTransitRows q.db q.inventorySkus, row.1.2 = c

/-- The warehouse can be counted for `c`: stock that is there comes before goods on
their way to it. -/
def Leads (warehouseId c : String) : Prop :=
  (∃ key, ThirdParty U q key warehouseId c) ∨
    (∀ key d, ¬ThirdParty U q key warehouseId d) ∧ ∃ key, Transit q key warehouseId c

/-- So for one component of the warehouse. -/
def LeadsAt (key warehouseId c : String) : Prop :=
  ThirdParty U q key warehouseId c ∨ (∀ d, ¬ThirdParty U q key warehouseId d) ∧
    Transit q key warehouseId c

/-- Whatever can be counted for a reportable country holds units of that country only. -/
structure OneCountry : Prop where
  warehouse : ∀ w c, isReportableCountryCode U (.str c) = true → ¬CountryLevel U q c →
    Leads U q w c → ∀ key d, Own U q key w d → d = c
  component : ∀ key w c, CountryLevel U q c → LeadsAt U q key w c → ∀ d, Own U q key w d → d = c

/-- The component stock of a run. -/
def componentStock (plan : Plan) : ComponentStock :=
  mergeWarehouseStock
    [loadThirdPartyComponentInventoryByWarehouse U plan q.db q.inventorySkus q.skuToGroupKey
      q.euCountries, loadInTransitTotalsByWarehouse plan q.db q.inventorySkus q.skuToGroupKey]

/-- The units of a component in a warehouse are counted for `c`: in the pool of a
country with goods that have no warehouse yet, else with their warehouse. -/
structure CountedFor (plan : Plan) (key warehouseId c : String) : Prop where
  pooled : CountryLevel U q c →
    ∃ stock, (componentStock U q plan).get? (key, warehouseId) = some stock ∧ stock.country = some c
  assembled : ¬CountryLevel U q c →
    countryByWarehouse (componentStock U q plan) warehouseId = some c

/-- The units that are counted for a reportable country are its own. -/
def CreditsOwn (plan : Plan) : Prop :=
  ∀ c, isReportableCountryCode U (.str c) = true → ∀ key w, CountedFor U q plan key w c →
    ∀ d, Own U q key w d → d = c

variable {U q} {plan : Plan} {key warehouseId c : String}

theorem thirdPartyCountry_reportable {eu : List String} {country : String}
    (h : thirdPartyCountry U eu country = some c) :
    isReportableCountryCode U (.str c) = true := (Option.filter_eq_some_iff.mp h).2

theorem ThirdParty.ne_empty (h : ThirdParty U q key warehouseId c) : c ≠ "" := by
  obtain ⟨row, -, -, -, hc⟩ := h
  exact ne_empty_of_reportable (thirdPartyCountry_reportable hc)

/-- What is held for a component, in a third-party warehouse or on its way. -/
theorem isSome_componentStock : ((componentStock U q plan).get? (key, warehouseId)).isSome = true ↔
    ∃ c, Own U q key warehouseId c := by
  have hthird := @isSome_stockByWarehouse q.skuToGroupKey (thirdPartyCountry U q.euCountries) plan
    (thirdPartyComponentRows q.db q.inventorySkus) key warehouseId
  have htransit := @isSome_stockByWarehouse q.skuToGroupKey some plan
    (warehouseTransitRows q.db q.inventorySkus) key warehouseId
  unfold componentStock Own
  rw [get?_mergeWarehouseStock, Dict.isSome_combine, Bool.or_eq_true, exists_or]
  refine or_congr hthird ?_
  refine Iff.trans ?_ htransit
  show (!(Option.toList ((stockByWarehouse plan q.skuToGroupKey some
    (warehouseTransitRows q.db q.inventorySkus)).get? (key, warehouseId))).isEmpty) = true ↔ _
  cases (stockByWarehouse plan q.skuToGroupKey
    some (warehouseTransitRows q.db q.inventorySkus)).get? (key, warehouseId) <;> simp

/-- The country that a component of a warehouse is kept under is one that leads there. -/
theorem leadsAt_of_componentStock {stock : WarehouseStock}
    (h : (componentStock U q plan).get? (key, warehouseId) = some stock) :
    ∃ c, stock.country = some c ∧ LeadsAt U q key warehouseId c := by
  unfold componentStock at h
  cases hfirst : (loadThirdPartyComponentInventoryByWarehouse U plan q.db q.inventorySkus
      q.skuToGroupKey
      q.euCountries).get? (key, warehouseId) with
  | none =>
    rw [get?_merge_of_second hfirst] at h
    obtain ⟨c, hc, hrow⟩ := country_of_stockByWarehouse h
    refine ⟨c, hc, Or.inr ⟨fun d hd => ?_, hrow⟩⟩
    have hsome : ((loadThirdPartyComponentInventoryByWarehouse U plan q.db q.inventorySkus
        q.skuToGroupKey
        q.euCountries).get? (key, warehouseId)).isSome = true := isSome_stockByWarehouse.mpr ⟨d, hd⟩
    rw [hfirst] at hsome
    cases hsome
  | some a =>
    obtain ⟨c, hc, hrow⟩ := country_of_stockByWarehouse hfirst
    have hne : textOr a.country ≠ "" := by
      rw [hc]
      exact ThirdParty.ne_empty hrow
    obtain ⟨stock', hs, hcountry⟩ := get?_merge_of_first (loadInTransitTotalsByWarehouse plan q.db
      q.inventorySkus q.skuToGroupKey) hfirst hne
    obtain rfl : stock' = stock := Option.some.inj (hs.symm.trans h)
    exact ⟨c, hcountry.trans hc, Or.inl hrow⟩

/-- The totals of a run do not depend on the order of the groups. -/
theorem total_componentStock (plan plan' : Plan) (k : String × String) :
    ((componentStock U q plan).get? k).map WarehouseStock.total =
      ((componentStock U q plan').get? k).map WarehouseStock.total := by
  have hlist : ∀ o : Option WarehouseStock,
      o.toList.map WarehouseStock.total = (o.map WarehouseStock.total).toList := by
    intro o
    cases o <;> rfl
  have htotal : ∀ plan, ((componentStock U q plan).get? k).map WarehouseStock.total =
      Dict.combine (· + ·)
      ((Dict.sumBy (rekey (fun k : String × String × String =>
          (thirdPartyCountry U q.euCountries k.2.2).map fun _ =>
        (resolveSku q.skuToGroupKey k.1, k.2.1))
          (thirdPartyComponentRows q.db q.inventorySkus))).get? k)
      ((Dict.sumBy (rekey (fun k : String × String × String => (some k.2.2).map fun _ =>
        (resolveSku q.skuToGroupKey k.1, k.2.1))
            (warehouseTransitRows q.db q.inventorySkus))).get? k).toList := by
    intro plan
    unfold componentStock
    rw [get?_mergeWarehouseStock, Dict.map_combine addStock_total,
      hlist, ← total_stockByWarehouse plan, ← total_stockByWarehouse plan]
    rfl
  rw [htotal plan, htotal plan']

theorem componentStock_congr {plan plan' : Plan} {k : String × String} {kept kept' : WarehouseStock}
    (h : (componentStock U q plan).get? k = some kept)
    (h' : (componentStock U q plan').get? k = some kept') (hc : kept.country = kept'.country) :
    kept = kept' := by
  have htotal := total_componentStock (U := U) (q := q) plan plan' k
  rw [h, h'] at htotal
  obtain ⟨country, total⟩ := kept
  obtain ⟨country', total'⟩ := kept'
  obtain rfl : country = country' := hc
  obtain rfl : total = total' := Option.some.inj htotal
  rfl

theorem keys_prefix_componentStock :
    (loadThirdPartyComponentInventoryByWarehouse U plan q.db q.inventorySkus
    q.skuToGroupKey q.euCountries).keys <+: (componentStock U q plan).keys := by
  unfold componentStock
  rw [mergeWarehouseStock_pair]
  exact Dict.keys_prefix_mergeAll _ _ _

/-- Stock in a third-party warehouse comes first. -/
theorem thirdParty_of_leadsAt {d : String} (h : LeadsAt U q key warehouseId c)
    (hd : ThirdParty U q key warehouseId d) : ThirdParty U q key warehouseId c := by
  rcases h with h | ⟨hno, -⟩
  · exact h
  · exact absurd hd (hno d)

/-- The country of a warehouse is one that leads there. -/
theorem leads_of_countryByWarehouse
    (h : countryByWarehouse (componentStock U q plan) warehouseId = some c) :
    Leads U q warehouseId c := by
  by_cases hthird : ∃ key d, ThirdParty U q key warehouseId d
  · obtain ⟨key, d, hrow⟩ := hthird
    have hsome : ((componentStock U q plan).get? (key, warehouseId)).isSome = true :=
      isSome_componentStock.mpr ⟨d, Or.inl hrow⟩
    obtain ⟨kept, hkept⟩ := Option.isSome_iff_exists.mp hsome
    obtain ⟨e, he, hlead⟩ := leadsAt_of_componentStock hkept
    have hne : textOr kept.country ≠ "" := by
      rw [he]
      exact (thirdParty_of_leadsAt hlead hrow).ne_empty
    have hkey : (key, warehouseId) ∈
        (loadThirdPartyComponentInventoryByWarehouse U plan q.db q.inventorySkus
        q.skuToGroupKey q.euCountries).keys :=
      Dict.mem_keys_iff.mpr (Option.isSome_iff_exists.mp (isSome_stockByWarehouse.mpr ⟨d, hrow⟩))
    obtain ⟨key', kept', hkey', hkept', -, hcountry⟩ :=
      countryByWarehouse_of_prefix keys_prefix_componentStock hkey hkept hne
    obtain ⟨e', hrow'⟩ := isSome_stockByWarehouse.mp
      (Option.isSome_iff_exists.mpr (Dict.mem_keys_iff.mp hkey'))
    obtain ⟨c', hc', hlead'⟩ := leadsAt_of_componentStock hkept'
    obtain rfl : c' = c := by
      rw [h, hc'] at hcountry
      exact (Option.some.inj hcountry).symm
    exact Or.inl ⟨key', thirdParty_of_leadsAt hlead' hrow'⟩
  · obtain ⟨-, key, kept, hkept, hc⟩ := exists_of_countryByWarehouse h
    obtain ⟨c', hc', hlead⟩ := leadsAt_of_componentStock hkept
    obtain rfl : c' = c := Option.some.inj (hc'.symm.trans hc)
    rcases hlead with hrow | ⟨-, hrow⟩
    · exact absurd ⟨key, c', hrow⟩ hthird
    · exact Or.inr ⟨fun key d hd => hthird ⟨key, d, hd⟩, key, hrow⟩

/-- Some order of the groups counts a component of a warehouse for a country that leads. -/
theorem exists_plan_leadsAt (hc : c ≠ "") (h : LeadsAt U q key warehouseId c) :
    ∃ plan stock, (componentStock U q plan).get? (key, warehouseId) = some stock ∧
    stock.country = some c := by
  rcases h with h | ⟨hno, h⟩
  · obtain ⟨plan, a, -, -, hget, hcountry⟩ := exists_plan_first h hc
    obtain ⟨stock, hs, hsc⟩ :=
      get?_merge_of_first (loadInTransitTotalsByWarehouse plan q.db q.inventorySkus
      q.skuToGroupKey) hget (by rw [hcountry]; exact hc)
    exact ⟨plan, stock, hs, hsc.trans hcountry⟩
  · obtain ⟨plan, stock, -, -, hget, hcountry⟩ := exists_plan_first h hc
    have hnone : (loadThirdPartyComponentInventoryByWarehouse U plan q.db q.inventorySkus
        q.skuToGroupKey
        q.euCountries).get? (key, warehouseId) = none := by
      rw [← Option.not_isSome_iff_eq_none]
      intro hsome
      obtain ⟨d, hd⟩ := isSome_stockByWarehouse.mp hsome
      exact hno d hd
    exact ⟨plan, stock, (get?_merge_of_second hnone).trans hget, hcountry⟩

/-- Some order of the groups counts a warehouse for a country that leads. -/
theorem exists_plan_leads (hc : c ≠ "") (h : Leads U q warehouseId c) :
    ∃ plan, countryByWarehouse (componentStock U q plan) warehouseId = some c := by
  rcases h with ⟨key, h⟩ | ⟨hno, key, h⟩
  · obtain ⟨plan, a, rest, hkeys, hget, hcountry⟩ := exists_plan_first h hc
    obtain ⟨stock, hs, hsc⟩ :=
      get?_merge_of_first (loadInTransitTotalsByWarehouse plan q.db q.inventorySkus
      q.skuToGroupKey) hget (by rw [hcountry]; exact hc)
    have hpre : [(key, warehouseId)] <+: (componentStock U q plan).keys :=
      List.IsPrefix.trans ⟨rest, hkeys.symm⟩ keys_prefix_componentStock
    obtain ⟨key', stock', hkey', hs', -, hby⟩ :=
      countryByWarehouse_of_prefix hpre List.mem_cons_self hs
      (by rw [hsc, hcountry]; exact hc)
    obtain rfl : key' = key := by simpa using hkey'
    obtain rfl : stock' = stock := Option.some.inj (hs'.symm.trans hs)
    exact ⟨plan, by rw [hby, hsc, hcountry]⟩
  · obtain ⟨plan, stock, rest, hkeys, hget, hcountry⟩ := exists_plan_first h hc
    set first := loadThirdPartyComponentInventoryByWarehouse U plan q.db q.inventorySkus
      q.skuToGroupKey q.euCountries
      with hfirst
    set second := loadInTransitTotalsByWarehouse plan q.db q.inventorySkus q.skuToGroupKey with
      hsecond
    have hout : ∀ key', (key', warehouseId) ∉ first.keys := by
      intro key' hmem
      obtain ⟨d, hd⟩ := isSome_stockByWarehouse.mp
        (Option.isSome_iff_exists.mpr (Dict.mem_keys_iff.mp hmem))
      exact hno key' d hd
    obtain ⟨⟨k, a⟩, items, hitems, rfl, -⟩ := List.map_eq_cons_iff.mp hkeys
    have hnone : first.get? (key, warehouseId) = none := Dict.get?_eq_none_iff.mpr (hout key)
    have hpre : first.keys ++ [(key, warehouseId)] <+: (componentStock U q plan).keys := by
      have hmerge : componentStock U q plan =
          Dict.mergeAll addStock (first.merge addStock (key, warehouseId) a) items := by
        unfold componentStock
        rw [← hfirst, ← hsecond, mergeWarehouseStock_pair]
        exact congrArg (Dict.mergeAll addStock first) hitems
      have hnew : (first.merge addStock (key, warehouseId) a).keys = first.keys ++
          [(key, warehouseId)] := by
        rw [Dict.merge, hnone, Dict.keys, Dict.items_set_of_new hnone, List.map_append]
        rfl
      rw [hmerge, ← hnew]
      exact Dict.keys_prefix_mergeAll _ _ _
    have hs : (componentStock U q plan).get? (key, warehouseId) = some stock :=
      (get?_merge_of_second hnone).trans hget
    obtain ⟨key', stock', hkey', hs', -, hby⟩ := countryByWarehouse_of_prefix hpre
      (List.mem_append_right _ List.mem_cons_self) hs (by rw [hcountry]; exact hc)
    obtain rfl : key' = key := by
      rcases List.mem_append.mp hkey' with hin | hin
      · exact absurd hin (hout key')
      · simpa using hin
    obtain rfl : stock' = stock := Option.some.inj (hs'.symm.trans hs)
    exact ⟨plan, by rw [hby, hcountry]⟩

theorem LeadsAt.own (h : LeadsAt U q key warehouseId c) : Own U q key warehouseId c := by
  rcases h with h | ⟨-, h⟩
  · exact Or.inl h
  · exact Or.inr h

end Own

/-! ### Every unit is counted for its own country -/

section Credit

variable {U : CharTable} {q : ComponentQuery} {plan plan' : Plan} {key warehouseId c : String}

/-- The countries that goods without a warehouse go to. -/
theorem mem_countryTransit :
    c ∈ (loadInTransitTotalsByCountry U plan q.db q.inventorySkus q.skuToGroupKey).keys.map
    Prod.snd ↔ CountryLevel U q c := by
  have hkey : ∀ k : String × String,
      k ∈ (loadInTransitTotalsByCountry U plan q.db q.inventorySkus q.skuToGroupKey).keys ↔
      ∃ row ∈ countryTransitRows q.db q.inventorySkus,
      (if isReportableCountryCode U (.str row.1.2) then
        some (resolveSku q.skuToGroupKey row.1.1, row.1.2) else none) = some k := by
    intro k
    have hget : (loadInTransitTotalsByCountry U plan q.db q.inventorySkus q.skuToGroupKey).get? k =
        _ :=
      get?_sumRows plan _ (countryTransitRows q.db q.inventorySkus) k
    rw [Dict.mem_keys_iff, ← Option.isSome_iff_exists, hget, Dict.isSome_get?_sumBy,
      Bool.not_eq_true', ← Bool.not_eq_true, List.isEmpty_iff, valuesAt_rekey_eq_nil]
    push Not
    rfl
  rw [List.mem_map]
  constructor
  · rintro ⟨k, hk, rfl⟩
    obtain ⟨row, hrow, he⟩ := (hkey k).mp hk
    split_ifs at he with hr
    obtain rfl := Option.some.inj he
    exact ⟨hr, row, hrow, rfl⟩
  · rintro ⟨hr, row, hrow, rfl⟩
    exact ⟨(resolveSku q.skuToGroupKey row.1.1, row.1.2), (hkey _).mpr ⟨row, hrow, if_pos hr⟩, rfl⟩

/-- A component of a warehouse whose units are all of one country is kept the same way
in every order. -/
theorem componentStock_of_own (hown : ∀ d, Own U q key warehouseId d → d = c) :
    (componentStock U q plan).get? (key, warehouseId) = (componentStock U q plan').get?
    (key, warehouseId) := by
  have hcountry : ∀ {plan : Plan} {kept : WarehouseStock},
      (componentStock U q plan).get? (key, warehouseId) = some kept → kept.country = some c := by
    intro plan kept hkept
    obtain ⟨d, hd, hlead⟩ := leadsAt_of_componentStock hkept
    rw [hd, hown d hlead.own]
  have hsome : ((componentStock U q plan).get? (key, warehouseId)).isSome = true ↔
      ((componentStock U q plan').get? (key, warehouseId)).isSome = true :=
    isSome_componentStock.trans isSome_componentStock.symm
  cases h : (componentStock U q plan).get? (key, warehouseId) with
  | none =>
    rw [h] at hsome
    exact (Option.not_isSome_iff_eq_none.mp fun hs => by simpa using hsome.mpr hs).symm
  | some kept =>
    rw [h] at hsome
    obtain ⟨kept', h'⟩ := Option.isSome_iff_exists.mp (hsome.mp rfl)
    rw [h', componentStock_congr h h' ((hcountry h).trans (hcountry h').symm)]

variable (h : OneCountry U q)

include h

theorem OneCountry.component_congr (hl : CountryLevel U q c) {kept : WarehouseStock}
    (hkept : (componentStock U q plan).get? (key, warehouseId) = some kept)
    (hc : kept.country = some c) :
    (componentStock U q plan').get? (key, warehouseId) = some kept := by
  obtain ⟨d, hd, hlead⟩ := leadsAt_of_componentStock hkept
  obtain rfl : d = c := Option.some.inj (hd.symm.trans hc)
  rw [← hkept]
  exact componentStock_of_own (h.component key warehouseId d hl hlead)

theorem OneCountry.warehouse_congr (hr : isReportableCountryCode U (.str c) = true)
    (hl : ¬CountryLevel U q c)
    (hw : countryByWarehouse (componentStock U q plan) warehouseId = some c) :
    countryByWarehouse (componentStock U q plan') warehouseId = some c ∧
      ∀ key, (componentStock U q plan).get? (key, warehouseId) = (componentStock U q plan').get?
      (key, warehouseId) := by
  have hown := h.warehouse warehouseId c hr hl (leads_of_countryByWarehouse hw)
  have hsame : ∀ key, (componentStock U q plan).get? (key, warehouseId) =
      (componentStock U q plan').get? (key, warehouseId) :=
        fun key => componentStock_of_own (hown key)
  obtain ⟨hne, key, kept, hkept, hc⟩ := exists_of_countryByWarehouse hw
  rw [hsame key] at hkept
  obtain ⟨key', kept', -, hkept', -, hby⟩ := countryByWarehouse_of_prefix (List.prefix_refl _)
    (Dict.mem_keys_iff.mpr ⟨kept, hkept⟩) hkept (by rw [hc]; exact hne)
  obtain ⟨d, hd, hlead⟩ := leadsAt_of_componentStock hkept'
  refine ⟨?_, hsame⟩
  rw [hby, hd, hown key' d hlead.own]

/-- **Then the order of the groups does not change the assembled stock.** -/
theorem OneCountry.mappedStock_congr (rules : MappingRules) (velocity : Velocity)
    (plan plan' : Plan) (key : String × String) :
    (mappedStock U rules (componentStock U q plan)
        (loadInTransitTotalsByCountry U plan q.db q.inventorySkus q.skuToGroupKey) velocity).get?
        key =
      (mappedStock U rules (componentStock U q plan')
        (loadInTransitTotalsByCountry U plan' q.db q.inventorySkus q.skuToGroupKey) velocity).get?
        key := by
  obtain ⟨sku, c⟩ := key
  rw [get?_mappedStock, get?_mappedStock]
  by_cases hr : isReportableCountryCode U (.str c) = true
  · by_cases hl : CountryLevel U q c
    · rw [if_pos (mem_countryTransit.mpr hl), if_pos (mem_countryTransit.mpr hl)]
      have hpool : ∀ key, (aggregateComponentStockByCountry U (componentStock U q plan)
          (loadInTransitTotalsByCountry U
          plan q.db q.inventorySkus q.skuToGroupKey)).get? (key, countryLevelWarehouseId c) =
          (aggregateComponentStockByCountry U (componentStock U q plan')
            (loadInTransitTotalsByCountry U
            plan' q.db q.inventorySkus q.skuToGroupKey)).get? (key, countryLevelWarehouseId c) := by
        refine get?_aggregate_congr (fun key w kept hc => ?_) fun k => ?_
        · exact ⟨fun hk => h.component_congr hl hk hc, fun hk => h.component_congr hl hk hc⟩
        · exact (get?_sumRows plan _ _ k).trans (get?_sumRows plan' _ _ k).symm
      refine get?_computeMapped_congr (ne_empty_of_reportable hr) (fun w => ?_)
        (fun w hw key => ?_) sku
      · rw [countryByWarehouse_aggregate, countryByWarehouse_aggregate]
        refine and_congr_right fun hw => ?_
        rw [hw]
        simp only [hpool]
      · rw [(countryByWarehouse_aggregate.mp hw).1]
        exact hpool key
    · rw [if_neg (mt mem_countryTransit.mp hl), if_neg (mt mem_countryTransit.mp hl)]
      refine get?_computeMapped_congr (ne_empty_of_reportable hr) (fun w => ?_)
        (fun w hw key => ?_) sku
      · exact ⟨fun hw => (h.warehouse_congr hr hl hw).1, fun hw => (h.warehouse_congr hr hl hw).1⟩
      · exact (h.warehouse_congr hr hl hw).2 key
  · rw [Bool.not_eq_true] at hr
    simp only [get?_computeMapped_not_reportable hr, ite_self]

theorem OneCountry.creditsOwn (plan : Plan) : CreditsOwn U q plan := by
  intro c hr key w hcounted d hd
  by_cases hl : CountryLevel U q c
  · obtain ⟨kept, hkept, hc⟩ := hcounted.pooled hl
    obtain ⟨e, he, hlead⟩ := leadsAt_of_componentStock hkept
    obtain rfl : e = c := Option.some.inj (he.symm.trans hc)
    exact h.component key w e hl hlead d hd
  · exact h.warehouse w c hr hl (leads_of_countryByWarehouse (hcounted.assembled hl)) key d hd

omit h

/-- Only then is every unit counted for its own country in whatever order. -/
theorem OneCountry.of_creditsOwn (h : ∀ plan, CreditsOwn U q plan) : OneCountry U q where
  warehouse := by
    intro w c hr hl hlead key d hd
    obtain ⟨plan, hw⟩ := exists_plan_leads (ne_empty_of_reportable hr) hlead
    exact h plan c hr key w ⟨fun hl' => absurd hl' hl, fun _ => hw⟩ d hd
  component := by
    intro key w c hl hlead d hd
    obtain ⟨plan, kept, hkept, hc⟩ := exists_plan_leadsAt (ne_empty_of_reportable hl.1) hlead
    exact h plan c hl.1 key w ⟨fun _ => ⟨kept, hkept, hc⟩, fun hl' => absurd hl hl'⟩ d hd

/-- Units that are all of one country are of one country in every warehouse. -/
theorem OneCountry.of_own (h : ∀ key w d, Own U q key w d → d = c) : OneCountry U q where
  warehouse := by
    intro w c' _ _ hlead key d hd
    have hc' : c' = c := by
      rcases hlead with ⟨key', hthird⟩ | ⟨-, key', htransit⟩
      · exact h key' w c' (Or.inl hthird)
      · exact h key' w c' (Or.inr htransit)
    rw [h key w d hd, hc']
  component := by
    intro key w c' _ hlead d hd
    rw [h key w d hd, h key w c' hlead.own]

/-- Where no component is asked for, nothing is of two countries. -/
theorem OneCountry.of_not_asked (h : q.inventorySkus = []) : OneCountry U q := by
  refine OneCountry.of_own (c := "") fun key w d hown => ?_
  rcases hown with ⟨row, hrow, -⟩ | ⟨row, hrow, -⟩
  · obtain ⟨stored, -, hs⟩ := List.mem_filterMap.mp hrow
    rw [h, if_neg List.not_mem_nil] at hs
    cases hs
  · obtain ⟨item, -, hi⟩ := List.mem_filterMap.mp hrow
    rw [h] at hi
    split at hi
    · cases hi
    · split at hi
      · rw [if_neg fun hasked => absurd hasked.1 List.not_mem_nil] at hi
        cases hi
      · cases hi

end Credit

/-! ### A run -/

/-- What step 2 reads for the components of the active rules. -/
def runQuery (db : StockDb) (rules : RuleTable) (resolver : PhysicalSkuResolver)
    (euCountries : List String) (commoditySkus : Option (List String)) : ComponentQuery :=
  ⟨db, componentQuerySkus resolver
    (loadActiveMappingRules rules commoditySkus resolver.skuToGroupKey), resolver.skuToGroupKey,
    euCountries⟩

/-- What a run assembles does not depend on the order of the groups. -/
theorem OneCountry.loadMappedStock_congr {U : CharTable} {db : StockDb} {rules : RuleTable}
    {resolver : PhysicalSkuResolver} {euCountries : List String}
    {commoditySkus : Option (List String)}
    (h : OneCountry U (runQuery db rules resolver euCountries commoditySkus)) (velocity : Velocity)
    (plan plan' : Plan) (key : String × String) :
    (loadMappedStock U plan db resolver euCountries
        (loadActiveMappingRules rules commoditySkus resolver.skuToGroupKey) velocity).get? key =
      (loadMappedStock U plan' db resolver euCountries
        (loadActiveMappingRules rules commoditySkus resolver.skuToGroupKey) velocity).get? key := by
  unfold loadMappedStock
  split_ifs
  · rfl
  · exact h.mappedStock_congr _ velocity plan plan' key

/-- Nor does the stock that it finds. -/
theorem OneCountry.stock_congr {U : CharTable} {db : StockDb} {rules : RuleTable}
    {resolver : PhysicalSkuResolver} {euCountries : List String}
    {commoditySkus : Option (List String)}
    (h : OneCountry U (runQuery db rules resolver euCountries commoditySkus)) (velocity : Velocity)
    (plan plan' : Plan) (key : String × String) :
    (runStep2 U plan db rules resolver euCountries velocity commoditySkus).2.get? key =
      (runStep2 U plan' db rules resolver euCountries velocity commoditySkus).2.get? key := by
  rw [get?_runStep2, get?_runStep2, h.loadMappedStock_congr velocity plan plan' key,
    loadThirdPartyInventory_order U plan db plan', loadInTransit_order U plan db plan']

/-- **Stock is counted for its own country, and the same in every order**, exactly if no
warehouse that can be counted for a country has units of another one. -/
theorem creditsOwn_iff (U : CharTable) (db : StockDb) (rules : RuleTable)
    (resolver : PhysicalSkuResolver) (euCountries : List String) (velocity : Velocity)
    (commoditySkus : Option (List String)) :
    ((∀ plan, CreditsOwn U (runQuery db rules resolver euCountries commoditySkus) plan) ∧
      ∀ plan plan' key, (runStep2 U plan db rules resolver euCountries velocity
        commoditySkus).2.get? key =
        (runStep2 U plan' db rules resolver euCountries velocity commoditySkus).2.get? key) ↔
      OneCountry U (runQuery db rules resolver euCountries commoditySkus) := by
  constructor
  · intro h
    exact OneCountry.of_creditsOwn h.1
  · intro h
    exact ⟨h.creditsOwn, h.stock_congr velocity⟩

/-! ### One warehouse, two countries -/

/-- Ten units of the component on their way to `W` for the American shop, ten for the
Canadian one. -/
def twoCountries : StockDb where
  thirdPartyWarehouses := .empty
  thirdPartyInventory := []
  warehouses := Dict.empty.set "W" 3
  inTransitRecords := (Dict.empty.set "1" ⟨some "W", some "US", true⟩).set "2"
    ⟨some "W", some "CA", true⟩
  inTransitItems := [⟨"1", "X", 10⟩, ⟨"2", "X", 10⟩]
  unique_inventory := noInventory_nodup

def oneX : SkuMappingComponent := ⟨1, "X", 1, Nat.one_pos, Nat.one_pos⟩

theorem oneX_nodup : ([oneX].map (·.inventorySku)).Nodup := List.nodup_singleton _

def setOfX : SkuMappingRule := ⟨"A", true, [oneX], oneX_nodup⟩

theorem setOfX_nodup : ([setOfX].map (·.commoditySku)).Nodup := List.nodup_singleton _

/-- A set of one `X`. -/
def oneComponent : RuleTable := ⟨[setOfX], setOfX_nodup⟩

def plainSkus : PhysicalSkuResolver := ⟨.empty, .empty⟩

/-- As the rows come, all twenty are American; in the other order none is. -/
theorem transit_counted_for_first_country :
    ¬CreditsOwn .ascii (runQuery twoCountries oneComponent plainSkus [] none) .identity ∧
      (runStep2 .ascii .identity twoCountries oneComponent plainSkus [] .empty none).2.get?
        ("A", "US") = some ⟨20, 0, 0⟩ ∧
      (runStep2 .ascii (.rotate 1) twoCountries oneComponent plainSkus [] .empty none).2.get?
      ("A", "US") = none := by
  refine ⟨fun h => ?_, by decide +kernel, by decide +kernel⟩
  have hnone : countryTransitRows twoCountries ["X"] = [] := by decide +kernel
  have hcounted : CountedFor .ascii (runQuery twoCountries oneComponent plainSkus [] none)
      .identity "X" "W" "US" := by
    refine ⟨fun hl => ?_, fun _ => by decide +kernel⟩
    obtain ⟨-, row, hrow, -⟩ := hl
    have hskus : componentQuerySkus plainSkus
        (loadActiveMappingRules oneComponent none plainSkus.skuToGroupKey) = ["X"] := by
      decide +kernel
    have hin : row ∈ countryTransitRows twoCountries ["X"] := hskus ▸ hrow
    rw [hnone] at hin
    exact absurd hin List.not_mem_nil
  have hown : Own .ascii (runQuery twoCountries oneComponent plainSkus [] none) "X" "W" "CA" :=
    Or.inr ⟨(("X", "W", "CA"), 10), by decide +kernel, by decide +kernel, rfl, rfl⟩
  exact absurd (h "US" (isReportable_US .ascii) "X" "W" hcounted "CA" hown) (by decide)

end Restock
