/-
# Splitting a country's quantity over its warehouses (`engine/step5_warehouse_split.py`)

The quantity of a country is split between two buckets, orders with a postal code
that a rule assigns to a warehouse and the others; the first bucket is split along
the matched orders of each warehouse, the second evenly over all warehouses with a
rule. Every split is by largest remainder, so a split over at least one warehouse
adds up to the quantity in positive parts (`splitOver_explainCountryQtySplit`).

The match of a postal code is a parameter.
-/
import Restock.Lib.Apportion
import Restock.Lib.Query
import Restock.Lib.Sums

namespace Restock

open Query

inductive AllocationMode
  | zeroQty | mixedKnownUnknown | matched | noWarehouse | fallbackEven
deriving DecidableEq, Repr

structure CountryAllocationResult where
  warehouseBreakdown : Dict String ℤ
  allocationMode : AllocationMode
  matchedOrderQty : ℤ
  unknownOrderQty : ℤ
  eligibleWarehouses : List String

/-! ### Splits -/

/-- The places by falling fraction, then by place. -/
def remainderOrder (shares : List ℚ) : List ℕ :=
  (List.range shares.length).insertionSort fun i j =>
    Int.fract (shares.getD j 0) < Int.fract (shares.getD i 0) ∨
      Int.fract (shares.getD j 0) = Int.fract (shares.getD i 0) ∧ i ≤ j

/-- The positive parts of a split along weights, with their keys. -/
def allocateByWeights (totalQty : ℤ) (orderedWeights : List (String × ℚ)) : List (String × ℤ) :=
  let totalWeight := (orderedWeights.map Prod.snd).sum
  if totalQty ≤ 0 ∨ totalWeight ≤ 0 then []
  else
    let shares := orderedWeights.map fun entry => totalQty * entry.2 / totalWeight
    ((orderedWeights.map Prod.fst).zip
      (Apportion.apportion totalQty shares (remainderOrder shares))).filter
      fun part => 0 < part.2

/-- The positive parts of an even split: the first warehouses take one more. -/
def allocateEven (totalQty : ℤ) (warehouses : List String) : List (String × ℤ) :=
  if totalQty ≤ 0 ∨ warehouses = [] then []
  else
    let base := totalQty / warehouses.length
    let remainder := totalQty - base * warehouses.length
    (warehouses.zipIdx.map
      fun entry => (entry.1, base + if (entry.2 : ℤ) < remainder then 1 else 0)).filter
      fun part => 0 < part.2

/-! ### The orders of a country -/

section Orders

variable (matchWarehouses : Option String → List String) (eligible : List String)

/-- The warehouses of an order that may take part. -/
def eligibleWinners (postalCode : Option String) : List String :=
  (matchWarehouses postalCode).filter fun wid => wid ∈ eligible

def positiveOrders (orders : List (Option String × ℤ)) :
    List (Option String × ℤ) := orders.filter fun order => 0 < order.2

/-- The matched units of each warehouse; an order that matches several counts for
each in equal shares. -/
def knownCounts (orders : List (Option String × ℤ)) : Dict String ℚ :=
  Dict.sumBy ((positiveOrders orders).flatMap fun order =>
    (eligibleWinners matchWarehouses eligible order.1).map fun wid =>
      (wid, (order.2 : ℚ) / (eligibleWinners matchWarehouses eligible order.1).length))

def matchedOrderQty (orders : List (Option String × ℤ)) : ℤ :=
  (((positiveOrders orders).filter fun order => eligibleWinners matchWarehouses eligible order.1 ≠
    []).map Prod.snd).sum

def unknownOrderQty (orders : List (Option String × ℤ)) : ℤ :=
  (((positiveOrders orders).filter fun order => eligibleWinners matchWarehouses eligible order.1 =
    []).map Prod.snd).sum

end Orders

/-- The two buckets, and the sum of their splits by warehouse. -/
def splitKnownUnknown (countryQty : ℤ) (matched unknown : ℤ) (counts : Dict String ℚ)
    (eligible : List String) : Dict String ℤ :=
  let buckets := allocateByWeights countryQty [("known", matched), ("unknown", unknown)]
  let knownQty := (buckets.lookup "known").getD 0
  let unknownQty := (buckets.lookup "unknown").getD 0
  let orderedCounts := eligible.filterMap fun wid => (counts.get? wid).map fun count => (wid, count)
  (Dict.sumBy (allocateByWeights knownQty orderedCounts ++ allocateEven unknownQty eligible)).filter
    fun _ qty => 0 < qty

def explainCountryQtySplit (matchWarehouses : Option String → List String) (countryQty : ℤ)
    (orders : List (Option String × ℤ)) (countryWarehouses : List String) :
    CountryAllocationResult :=
  let eligible := Dict.fromKeys countryWarehouses
  if countryQty ≤ 0 then ⟨.empty, .zeroQty, 0, 0, eligible⟩
  else
    let counts := knownCounts matchWarehouses eligible orders
    let matched := matchedOrderQty matchWarehouses eligible orders
    let unknown := unknownOrderQty matchWarehouses eligible orders
    if 0 < counts.values.sum then
      ⟨splitKnownUnknown countryQty matched unknown counts eligible,
        if 0 < unknown then .mixedKnownUnknown else .matched, matched, unknown, eligible⟩
    else if eligible = [] then ⟨.empty, .noWarehouse, 0, unknown, []⟩
    else ⟨Dict.sumBy (allocateEven countryQty eligible), .fallbackEven, 0, unknown, eligible⟩

/-- Dropping the empty parts keeps what a key is given. -/
theorem sum_valuesAt_filter_pos {parts : List (String × ℤ)} (h : ∀ part ∈ parts, 0 ≤ part.2)
    (key : String) :
    (Dict.valuesAt (parts.filter fun part => 0 < part.2) key).sum =
    (Dict.valuesAt parts key).sum := by
  unfold Dict.valuesAt
  rw [List.filter_comm]
  exact Sums.sum_filter_pos fun part hp => h part (List.mem_of_mem_filter hp)

/-! ### A split by weights adds up -/

section Weights

variable {totalQty : ℤ} {orderedWeights : List (String × ℚ)}

theorem allocateByWeights_pos : ∀ part ∈ allocateByWeights totalQty orderedWeights, 0 < part.2 := by
  intro part hp
  unfold allocateByWeights at hp
  simp only at hp
  split_ifs at hp
  · simp at hp
  · simpa using (List.mem_filter.mp hp).2

theorem allocateByWeights_key : ∀ part ∈ allocateByWeights totalQty orderedWeights,
    part.1 ∈ orderedWeights.map Prod.fst := by
  intro part hp
  unfold allocateByWeights at hp
  simp only at hp
  split_ifs at hp
  · simp at hp
  · exact (List.of_mem_zip (List.mem_of_mem_filter hp)).1

theorem shares_sum (h : 0 < (orderedWeights.map Prod.snd).sum) :
    (orderedWeights.map fun entry => (totalQty : ℚ) * entry.2 /
      (orderedWeights.map Prod.snd).sum).sum = totalQty := by
  set w := (orderedWeights.map Prod.snd).sum with hw
  have hmap : (orderedWeights.map fun entry => (totalQty : ℚ) * entry.2 / w) =
      (orderedWeights.map Prod.snd).map fun x => x * (totalQty / w) := by
    rw [List.map_map]
    refine List.map_congr_left fun entry _ => ?_
    simp only [Function.comp_apply]
    ring
  rw [hmap, List.sum_map_mul_right, List.map_id', ← hw]
  field_simp

/-- The parts of a split, before the empty ones are dropped. -/
def partsByWeights (totalQty : ℤ) (orderedWeights : List (String × ℚ)) : List ℤ :=
  let shares := orderedWeights.map fun entry =>
    totalQty * entry.2 / (orderedWeights.map Prod.snd).sum
  Apportion.apportion totalQty shares (remainderOrder shares)

theorem length_partsByWeights :
    (partsByWeights totalQty orderedWeights).length = orderedWeights.length := by
  simp [partsByWeights]

theorem sum_partsByWeights (h : 0 < (orderedWeights.map Prod.snd).sum) :
    (partsByWeights totalQty orderedWeights).sum = totalQty :=
  Apportion.sum_apportion (shares_sum h) (List.perm_insertionSort _ _)

theorem partsByWeights_nonneg (ht : 0 ≤ totalQty) (hw : ∀ entry ∈ orderedWeights, 0 ≤ entry.2) :
    ∀ n ∈ partsByWeights totalQty orderedWeights, 0 ≤ n := by
  intro n hn
  obtain ⟨i, hi, rfl⟩ := List.getElem_of_mem hn
  have hi' : i < orderedWeights.length := length_partsByWeights ▸ hi
  have hx : (orderedWeights.map fun entry => (totalQty : ℚ) * entry.2 /
      (orderedWeights.map Prod.snd).sum)[i]? =
      some (totalQty * orderedWeights[i].2 / (orderedWeights.map Prod.snd).sum) := by simp [hi']
  have hfloor := Apportion.floor_le_apportion hx (List.getElem?_eq_getElem hi)
  have hsum : 0 ≤ (orderedWeights.map Prod.snd).sum := by
    refine List.sum_nonneg fun x hx => ?_
    obtain ⟨entry, he, rfl⟩ := List.mem_map.mp hx
    exact hw entry he
  have hshare : 0 ≤ (totalQty : ℚ) * orderedWeights[i].2 / (orderedWeights.map Prod.snd).sum := by
    have h1 : (0 : ℚ) ≤ totalQty := by exact_mod_cast ht
    have h2 := hw _ (List.getElem_mem hi')
    positivity
  exact (Int.floor_nonneg.mpr hshare).trans hfloor

theorem allocateByWeights_eq (ht : 0 < totalQty) (hw : 0 < (orderedWeights.map Prod.snd).sum) :
    allocateByWeights totalQty orderedWeights =
      ((orderedWeights.map Prod.fst).zip (partsByWeights totalQty orderedWeights)).filter
      fun part => 0 < part.2 := by
  unfold allocateByWeights
  simp only
  rw [if_neg (by simp only [not_or, not_le]; exact ⟨ht, hw⟩)]
  rfl

/-- **A split along weights adds up.** -/
theorem sum_allocateByWeights (ht : 0 ≤ totalQty) (hw : 0 < (orderedWeights.map Prod.snd).sum)
    (hnonneg : ∀ entry ∈ orderedWeights, 0 ≤ entry.2) :
    ((allocateByWeights totalQty orderedWeights).map Prod.snd).sum = totalQty := by
  rcases ht.eq_or_lt with h0 | hpos
  · rw [← h0]
    simp [allocateByWeights]
  · rw [allocateByWeights_eq hpos hw, Sums.sum_filter_pos, List.map_snd_zip, sum_partsByWeights hw]
    · simp [length_partsByWeights]
    · intro part hp
      exact partsByWeights_nonneg ht hnonneg _ (List.of_mem_zip hp).2

theorem allocateByWeights_keys_nodup (hnd : (orderedWeights.map Prod.fst).Nodup) :
    ((allocateByWeights totalQty orderedWeights).map Prod.fst).Nodup := by
  unfold allocateByWeights
  simp only
  split_ifs
  · simp
  · refine List.Nodup.sublist (List.filter_sublist.map Prod.fst) ?_
    rw [List.map_fst_zip]
    · exact hnd
    · simp

/-- **A part is its share** up to one unit. -/
theorem abs_allocateByWeights_sub_le (ht : 0 ≤ totalQty)
    (hw : 0 < (orderedWeights.map Prod.snd).sum) (hnonneg : ∀ entry ∈ orderedWeights, 0 ≤ entry.2)
    (hnd : (orderedWeights.map Prod.fst).Nodup) {key : String} {weight : ℚ}
    (hk : (key, weight) ∈ orderedWeights) :
    |(((Dict.valuesAt (allocateByWeights totalQty orderedWeights) key).sum : ℤ) : ℚ) -
      totalQty * weight / (orderedWeights.map Prod.snd).sum| ≤ 1 := by
  rcases ht.eq_or_lt with h0 | hpos
  · rw [← h0]
    simp [allocateByWeights, Dict.valuesAt]
  · obtain ⟨i, hi, hget⟩ := List.getElem_of_mem hk
    have hi' : i < (partsByWeights totalQty orderedWeights).length := by rwa [length_partsByWeights]
    have hlen : (orderedWeights.map Prod.fst).length =
        (partsByWeights totalQty orderedWeights).length := by
      rw [List.length_map, length_partsByWeights]
    have hzip : (key, (partsByWeights totalQty orderedWeights)[i]) ∈
        (orderedWeights.map Prod.fst).zip (partsByWeights totalQty orderedWeights) := by
      refine List.mem_iff_getElem.mpr ⟨i, by rw [List.length_zip]; omega, ?_⟩
      rw [List.getElem_zip, List.getElem_map, hget]
    have hparts : ∀ part ∈ (orderedWeights.map Prod.fst).zip (partsByWeights totalQty orderedWeights), 0 ≤ part.2 :=
      fun part hp => partsByWeights_nonneg ht hnonneg _ (List.of_mem_zip hp).2
    have hkeys : (((orderedWeights.map Prod.fst).zip (partsByWeights totalQty orderedWeights)).map
        Prod.fst).Nodup := by
      rwa [List.map_fst_zip hlen.le]
    have hpart : (Dict.valuesAt (allocateByWeights totalQty orderedWeights) key).sum =
        (partsByWeights totalQty orderedWeights)[i] := by
      rw [allocateByWeights_eq hpos hw, sum_valuesAt_filter_pos hparts,
        Dict.valuesAt_of_nodup hkeys, (Dict.lookup_eq_some_iff hkeys).mpr hzip, Option.toList_some,
        List.sum_singleton]
    have hshare : (orderedWeights.map fun entry => (totalQty : ℚ) * entry.2 /
        (orderedWeights.map Prod.snd).sum)[i]? =
        some (totalQty * weight / (orderedWeights.map Prod.snd).sum) := by
      rw [List.getElem?_map, List.getElem?_eq_getElem hi, hget, Option.map_some]
    have horder : (remainderOrder (orderedWeights.map fun entry =>
        (totalQty : ℚ) * entry.2 / (orderedWeights.map Prod.snd).sum)).Nodup :=
      (List.perm_insertionSort _ _).nodup_iff.mpr List.nodup_range
    rw [hpart]
    exact Apportion.abs_apportion_sub_le horder hshare (List.getElem?_eq_getElem hi')

end Weights

/-! ### An even split adds up -/

theorem sum_zipIdx_even (base remainder : ℤ) : ∀ (warehouses : List String) (k : ℕ),
    (((warehouses.zipIdx k).map fun entry => base + if (entry.2 : ℤ) < remainder then 1
      else 0)).sum = warehouses.length * base + max 0 (min (warehouses.length : ℤ) (remainder - k))
  | [], k => by simp
  | w :: warehouses, k => by
    rw [List.zipIdx_cons, List.map_cons, List.sum_cons,
      sum_zipIdx_even base remainder warehouses (k + 1)]
    push_cast [List.length_cons]
    split_ifs with h
    · have h1 : max 0 (min (warehouses.length : ℤ) (remainder - (k + 1))) =
        min (warehouses.length : ℤ) (remainder - (k + 1)) := max_eq_right (by omega)
      have h2 : max 0 (min ((warehouses.length : ℤ) + 1) (remainder - k)) =
        min (warehouses.length : ℤ) (remainder - (k + 1)) + 1 := by omega
      rw [h1, h2]
      ring
    · have h1 : max 0 (min (warehouses.length : ℤ) (remainder - (k + 1))) = 0 :=
        max_eq_left (by omega)
      have h2 : max 0 (min ((warehouses.length : ℤ) + 1) (remainder - k)) = 0 :=
        max_eq_left (by omega)
      rw [h1, h2]
      ring

theorem allocateEven_pos {totalQty : ℤ} {warehouses : List String} :
    ∀ part ∈ allocateEven totalQty warehouses, 0 < part.2 := by
  intro part hp
  unfold allocateEven at hp
  simp only at hp
  split_ifs at hp
  · simp at hp
  · simpa using (List.mem_filter.mp hp).2

theorem allocateEven_key {totalQty : ℤ} {warehouses : List String} :
    ∀ part ∈ allocateEven totalQty warehouses, part.1 ∈ warehouses := by
  intro part hp
  unfold allocateEven at hp
  simp only at hp
  split_ifs at hp
  · simp at hp
  · obtain ⟨⟨wid, i⟩, hm, rfl⟩ := List.mem_map.mp (List.mem_of_mem_filter hp)
    exact List.fst_mem_of_mem_zipIdx hm

/-- **An even split adds up.** -/
theorem sum_allocateEven {totalQty : ℤ} {warehouses : List String} (ht : 0 ≤ totalQty)
    (hw : warehouses ≠ []) : ((allocateEven totalQty warehouses).map Prod.snd).sum = totalQty := by
  rcases ht.eq_or_lt with h0 | hpos
  · rw [← h0]
    simp [allocateEven]
  · have hlen : (0 : ℤ) < warehouses.length := by exact_mod_cast List.length_pos_of_ne_nil hw
    have hbase : 0 ≤ totalQty / warehouses.length := Int.ediv_nonneg ht hlen.le
    have hmod := Int.emod_add_mul_ediv totalQty warehouses.length
    have hmod0 := Int.emod_nonneg totalQty hlen.ne'
    have hmod1 := Int.emod_lt_of_pos totalQty hlen
    unfold allocateEven
    simp only
    rw [if_neg (by simp only [not_or, not_le]; exact ⟨hpos, hw⟩), Sums.sum_filter_pos, List.map_map]
    · have hsum := sum_zipIdx_even (totalQty / warehouses.length)
        (totalQty - totalQty / warehouses.length * warehouses.length) warehouses 0
      refine hsum.trans ?_
      have hrem : totalQty - totalQty / warehouses.length * warehouses.length =
          totalQty % warehouses.length := by
        rw [mul_comm]
        omega
      rw [hrem, Nat.cast_zero, sub_zero, min_eq_right hmod1.le, max_eq_right hmod0]
      omega
    · intro part hp
      obtain ⟨entry, -, rfl⟩ := List.mem_map.mp hp
      simp only
      split_ifs <;> omega

/-- What the warehouse at a place gets. -/
theorem sum_valuesAt_allocateEven {totalQty : ℤ} {warehouses : List String} (ht : 0 < totalQty)
    (hnd : warehouses.Nodup) {i : ℕ} {wid : String} (hw : warehouses[i]? = some wid) :
    (Dict.valuesAt (allocateEven totalQty warehouses) wid).sum =
      totalQty / warehouses.length + if (i : ℤ) < totalQty % warehouses.length then 1 else 0 := by
  have hne : warehouses ≠ [] := List.ne_nil_of_mem (List.mem_of_getElem? hw)
  have hlen : (0 : ℤ) < warehouses.length := by exact_mod_cast List.length_pos_of_ne_nil hne
  have hbase : 0 ≤ totalQty / warehouses.length := Int.ediv_nonneg ht.le hlen.le
  have hremainder : totalQty - totalQty / warehouses.length * warehouses.length =
      totalQty % warehouses.length := by
    have hdiv := Int.emod_add_mul_ediv totalQty warehouses.length
    rw [mul_comm]
    omega
  set parts := warehouses.zipIdx.map fun entry =>
    (entry.1, totalQty / (warehouses.length : ℤ) + if (entry.2 : ℤ) <
      totalQty % warehouses.length then 1 else 0)
    with hparts
  have hkeys : (parts.map Prod.fst).Nodup := by
    have hfst : parts.map Prod.fst = warehouses := by
      rw [hparts, List.map_map]
      exact List.zipIdx_map_fst 0 warehouses
    rwa [hfst]
  have hmem : (wid, totalQty / warehouses.length + if (i : ℤ) < totalQty % warehouses.length then 1
      else 0) ∈ parts :=
    List.mem_map.mpr ⟨(wid, i), List.mem_zipIdx_iff_getElem?.mpr hw, rfl⟩
  have hnonneg : ∀ part ∈ parts, 0 ≤ part.2 := by
    intro part hp
    obtain ⟨entry, -, rfl⟩ := List.mem_map.mp hp
    simp only
    split_ifs <;> omega
  have heven : allocateEven totalQty warehouses = parts.filter fun part => 0 < part.2 := by
    unfold allocateEven
    simp only
    rw [if_neg (by simp only [not_or, not_le]; exact ⟨ht, hne⟩), hremainder]
  rw [heven, sum_valuesAt_filter_pos hnonneg, Dict.valuesAt_of_nodup hkeys,
    (Dict.lookup_eq_some_iff hkeys).mpr hmem, Option.toList_some, List.sum_singleton]

/-- **A part of an even split** is less than one unit from the even share. -/
theorem abs_allocateEven_sub_lt {totalQty : ℤ} {warehouses : List String} (ht : 0 ≤ totalQty)
    (hnd : warehouses.Nodup) {wid : String} (hw : wid ∈ warehouses) :
    |(((Dict.valuesAt (allocateEven totalQty warehouses) wid).sum : ℤ) : ℚ) - totalQty /
    warehouses.length| < 1 := by
  rcases ht.eq_or_lt with h0 | hpos
  · rw [← h0]
    simp [allocateEven, Dict.valuesAt]
  · obtain ⟨i, hi⟩ := List.mem_iff_getElem?.mp hw
    have hlen : (0 : ℤ) < warehouses.length := by exact_mod_cast List.length_pos_of_mem hw
    have hlenQ : (0 : ℚ) < warehouses.length := by exact_mod_cast hlen
    have hdiv : (totalQty % warehouses.length + warehouses.length *
        (totalQty / warehouses.length) : ℤ) = totalQty :=
      Int.emod_add_mul_ediv totalQty warehouses.length
    have hmod1 := Int.emod_lt_of_pos totalQty hlen
    rw [sum_valuesAt_allocateEven hpos hnd hi]
    set base := totalQty / (warehouses.length : ℤ)
    set remainder := totalQty % (warehouses.length : ℤ)
    have htotal : (totalQty : ℚ) / warehouses.length = base + remainder / warehouses.length := by
      rw [← hdiv]
      push_cast
      field_simp
      ring
    have hr1 : (remainder : ℚ) / warehouses.length < 1 := by
      rw [div_lt_one hlenQ]
      exact_mod_cast hmod1
    rw [htotal, abs_lt]
    split_ifs with h
    · have hr0 : (0 : ℚ) < remainder / warehouses.length := by
        have : (0 : ℚ) < remainder := by exact_mod_cast (show (0 : ℤ) < remainder by omega)
        positivity
      push_cast
      constructor <;> linarith
    · have hr0 : (0 : ℚ) ≤ remainder / warehouses.length := by
        have : (0 : ℚ) ≤ remainder := by exact_mod_cast Int.emod_nonneg totalQty hlen.ne'
        positivity
      push_cast
      constructor <;> linarith

/-! ### The split of a country -/

section Country

variable {matchWarehouses : Option String → List String} {eligible : List String}
    {orders : List (Option String × ℤ)}

/-- A quantity in positive parts for some of the warehouses. -/
structure SplitOver (qty : ℤ) (warehouses : List String) (breakdown : Dict String ℤ) : Prop where
  positive : ∀ entry ∈ breakdown.items, 0 < entry.2
  eligible : ∀ entry ∈ breakdown.items, entry.1 ∈ warehouses
  total : breakdown.values.sum = qty

theorem SplitOver.items_ne_nil {qty : ℤ} {warehouses : List String} {breakdown : Dict String ℤ}
    (h : SplitOver qty warehouses breakdown) (hq : 0 < qty) : breakdown.items ≠ [] := by
  intro h0
  have htotal := h.total
  rw [Dict.values, h0, List.map_nil, List.sum_nil] at htotal
  omega

/-- A sum by warehouse of positive parts. -/
theorem splitOver_sumBy {parts : List (String × ℤ)} {warehouses : List String}
    (hpos : ∀ part ∈ parts, 0 < part.2) (hkey : ∀ part ∈ parts, part.1 ∈ warehouses) :
    SplitOver (parts.map Prod.snd).sum warehouses (Dict.sumBy parts) := by
  have hvalues : ∀ entry ∈ (Dict.sumBy parts).items, Dict.valuesAt parts entry.1 ≠ [] ∧
      (Dict.valuesAt parts entry.1).sum = entry.2 := by
    intro entry he
    have hget := Dict.get?_eq_some_iff.mpr he
    rw [Dict.get?_sumBy] at hget
    split_ifs at hget with hnil
    exact ⟨hnil, Option.some.inj hget⟩
  refine ⟨fun entry he => ?_, fun entry he => ?_,
    sum_groupSum (g := fun _ v => v) (fun _ _ _ => rfl) parts⟩
  · rw [← (hvalues entry he).2]
    refine List.sum_pos _ (fun q hq => ?_) (hvalues entry he).1
    exact hpos (entry.1, q) (Dict.mem_valuesAt.mp hq)
  · obtain ⟨q, hq⟩ := List.exists_mem_of_ne_nil _ (hvalues entry he).1
    exact hkey (entry.1, q) (Dict.mem_valuesAt.mp hq)

/-- What the matched units say: only eligible warehouses have any, and none has a
negative count. -/
theorem knownCounts_spec : ∀ entry ∈ (knownCounts matchWarehouses eligible orders).items,
    entry.1 ∈ eligible ∧ 0 ≤ entry.2 := by
  rintro ⟨wid, count⟩ he
  have hget := Dict.get?_eq_some_iff.mpr he
  rw [knownCounts, Dict.get?_sumBy] at hget
  split_ifs at hget with hnil
  have hmem : ∀ c, c ∈ Dict.valuesAt ((positiveOrders orders).flatMap fun order =>
      (eligibleWinners matchWarehouses eligible order.1).map fun w =>
        (w, (order.2 : ℚ) / (eligibleWinners matchWarehouses eligible order.1).length)) wid →
      wid ∈ eligible ∧ 0 ≤ c := by
    intro c hc
    obtain ⟨order, ho, hm⟩ := List.mem_flatMap.mp (Dict.mem_valuesAt.mp hc)
    obtain ⟨w, hw, hwc⟩ := List.mem_map.mp hm
    obtain ⟨rfl, rfl⟩ := Prod.mk.inj hwc
    have hqty : (0 : ℚ) ≤ order.2 := by
      have : 0 < order.2 := by simpa using (List.mem_filter.mp ho).2
      exact_mod_cast this.le
    exact ⟨by simpa using (List.mem_filter.mp hw).2, by positivity⟩
  constructor
  · obtain ⟨c, hc⟩ := List.exists_mem_of_ne_nil _ hnil
    exact (hmem c hc).1
  · rw [← Option.some.inj hget]
    exact List.sum_nonneg fun c hc => (hmem c hc).2

theorem unknownOrderQty_nonneg : 0 ≤ unknownOrderQty matchWarehouses eligible orders := by
  refine Sums.sum_nonneg fun order ho => ?_
  have : 0 < order.2 := by simpa using (List.mem_filter.mp (List.mem_of_mem_filter ho)).2
  exact this.le

/-- Where a warehouse has matched units, some order was matched. -/
theorem matchedOrderQty_pos (h : (knownCounts matchWarehouses eligible orders).items ≠ []) :
    0 < matchedOrderQty matchWarehouses eligible orders := by
  obtain ⟨⟨wid, count⟩, he⟩ := List.exists_mem_of_ne_nil _ h
  have hsome := Dict.isSome_get?_sumBy ((positiveOrders orders).flatMap fun order =>
    (eligibleWinners matchWarehouses eligible order.1).map fun w =>
      (w, (order.2 : ℚ) / (eligibleWinners matchWarehouses eligible order.1).length)) wid
  rw [← knownCounts, Dict.get?_eq_some_iff.mpr he] at hsome
  obtain ⟨c, hc⟩ := List.exists_mem_of_ne_nil _ (by simpa using hsome.symm)
  obtain ⟨order, ho, hm⟩ := List.mem_flatMap.mp (Dict.mem_valuesAt.mp hc)
  have hwinners : eligibleWinners matchWarehouses eligible order.1 ≠ [] := by
    intro h0
    simp [h0] at hm
  have hqty : 0 < order.2 := by simpa using (List.mem_filter.mp ho).2
  refine hqty.trans_le (Sums.le_sum (f := Prod.snd) (fun o ho' => ?_)
    (List.mem_filter.mpr ⟨ho, decide_eq_true hwinners⟩))
  have : 0 < o.2 := by simpa using (List.mem_filter.mp (List.mem_of_mem_filter ho')).2
  exact this.le

/-- The two buckets are not negative and add up. -/
theorem buckets_add {countryQty matched unknown : ℤ} (hq : 0 < countryQty) (hm : 0 < matched)
    (hu : 0 ≤ unknown) :
    0 ≤ ((allocateByWeights countryQty
      [("known", (matched : ℚ)), ("unknown", (unknown : ℚ))]).lookup "known").getD 0 ∧
      0 ≤ ((allocateByWeights countryQty
      [("known", (matched : ℚ)), ("unknown", (unknown : ℚ))]).lookup "unknown").getD 0 ∧
    ((allocateByWeights countryQty [("known", (matched : ℚ)), ("unknown", (unknown : ℚ))]).lookup
      "known").getD 0 + ((allocateByWeights countryQty
      [("known", (matched : ℚ)), ("unknown", (unknown : ℚ))]).lookup "unknown").getD 0 =
      countryQty := by
  have hm' : (0 : ℚ) < matched := by exact_mod_cast hm
  have hu' : (0 : ℚ) ≤ unknown := by exact_mod_cast hu
  have hw : 0 < (([("known", (matched : ℚ)), ("unknown", (unknown : ℚ))] : List (String × ℚ)).map
      Prod.snd).sum := by
    simp only [List.map_cons, List.map_nil, List.sum_cons, List.sum_nil]
    linarith
  have hnonneg : ∀ entry ∈ ([("known", (matched : ℚ)), ("unknown", (unknown : ℚ))] : List (String × ℚ)),
      0 ≤ entry.2 := by
    simp only [List.mem_cons, List.not_mem_nil, or_false, forall_eq_or_imp, forall_eq]
    exact ⟨hm'.le, hu'⟩
  obtain ⟨a, b, hab⟩ := List.length_eq_two.mp (length_partsByWeights :
    (partsByWeights countryQty [("known", (matched : ℚ)), ("unknown", (unknown : ℚ))]).length = 2)
  have hsum : (partsByWeights countryQty
      [("known", (matched : ℚ)), ("unknown", (unknown : ℚ))]).sum = countryQty :=
    sum_partsByWeights hw
  have hparts := partsByWeights_nonneg hq.le hnonneg
  rw [hab] at hsum hparts
  have ha : 0 ≤ a := hparts a (by simp)
  have hb : 0 ≤ b := hparts b (by simp)
  rw [allocateByWeights_eq hq hw, hab]
  simp only [List.map_cons, List.map_nil, List.zip_cons_cons, List.zip_nil_right, List.filter_cons,
    List.filter_nil]
  simp only [List.sum_cons, List.sum_nil, add_zero] at hsum
  rcases ha.eq_or_lt with ha0 | hapos <;> rcases hb.eq_or_lt with hb0 | hbpos
  · omega
  · simp [← ha0, hbpos, List.lookup]
    omega
  · simp [← hb0, hapos, List.lookup]
    omega
  · simp [hapos, hbpos, List.lookup]
    omega

/-- The weights of the first bucket: the counts, in the order of the warehouses. -/
def orderedCounts (counts : Dict String ℚ) (eligible : List String) : List (String × ℚ) :=
  eligible.filterMap fun wid => (counts.get? wid).map fun count => (wid, count)

theorem mem_orderedCounts {counts : Dict String ℚ} {wid : String} {count : ℚ} :
    (wid, count) ∈ orderedCounts counts eligible ↔ wid ∈ eligible ∧
    counts.get? wid = some count := by
  rw [orderedCounts, List.mem_filterMap]
  constructor
  · rintro ⟨w, hw, h⟩
    obtain ⟨c, hc, he⟩ := Option.map_eq_some_iff.mp h
    obtain ⟨rfl, rfl⟩ := Prod.mk.inj he
    exact ⟨hw, hc⟩
  · rintro ⟨hw, hc⟩
    exact ⟨wid, hw, by rw [hc]; rfl⟩

/-- The parts of both buckets, before they are added. -/
def bucketParts (countryQty matched unknown : ℤ) (counts : Dict String ℚ) (eligible : List String) :
    List (String × ℤ) :=
  let buckets := allocateByWeights countryQty [("known", matched), ("unknown", unknown)]
  allocateByWeights ((buckets.lookup "known").getD 0) (orderedCounts counts eligible) ++
    allocateEven ((buckets.lookup "unknown").getD 0) eligible

theorem bucketParts_pos {countryQty matched unknown : ℤ} {counts : Dict String ℚ} :
    ∀ part ∈ bucketParts countryQty matched unknown counts eligible, 0 < part.2 := by
  intro part hp
  rcases List.mem_append.mp hp with hp | hp
  · exact allocateByWeights_pos part hp
  · exact allocateEven_pos part hp

theorem bucketParts_key {countryQty matched unknown : ℤ} {counts : Dict String ℚ} :
    ∀ part ∈ bucketParts countryQty matched unknown counts eligible, part.1 ∈ eligible := by
  intro part hp
  rcases List.mem_append.mp hp with hp | hp
  · obtain ⟨⟨wid, count⟩, hm, he⟩ := List.mem_map.mp (allocateByWeights_key part hp)
    exact he ▸ (mem_orderedCounts.mp hm).1
  · exact allocateEven_key part hp

/-- Nothing is dropped from the sums of positive parts. -/
theorem splitKnownUnknown_eq {countryQty matched unknown : ℤ} {counts : Dict String ℚ} :
    splitKnownUnknown countryQty matched unknown counts eligible =
      Dict.sumBy (bucketParts countryQty matched unknown counts eligible) := by
  have hpos : ∀ wid qty,
      (Dict.sumBy (bucketParts countryQty matched unknown counts eligible)).get? wid = some qty →
      decide (0 < qty) = true := by
    intro wid qty h
    have hsplit := splitOver_sumBy (@bucketParts_pos eligible countryQty matched unknown counts)
      bucketParts_key
    exact decide_eq_true (hsplit.positive (wid, qty) (Dict.get?_eq_some_iff.mp h))
  exact Dict.filter_eq_self hpos

/-- The counts that are weights are those of the eligible warehouses, and not all are 0. -/
theorem orderedCounts_spec {counts : Dict String ℚ}
    (hcounts : ∀ entry ∈ counts.items, entry.1 ∈ eligible ∧ 0 ≤ entry.2)
      (hsum : 0 < counts.values.sum) : (∀ entry ∈ orderedCounts counts eligible, 0 ≤ entry.2) ∧
      0 < ((orderedCounts counts eligible).map Prod.snd).sum ∧ eligible ≠ [] := by
  have hfrom : ∀ entry ∈ orderedCounts counts eligible, 0 ≤ entry.2 := fun entry he =>
    (hcounts entry (Dict.get?_eq_some_iff.mp (mem_orderedCounts.mp he).2)).2
  obtain ⟨⟨wid, count⟩, he, hpos⟩ : ∃ entry ∈ counts.items, 0 < entry.2 := by
    by_contra hno
    push Not at hno
    have hzero : counts.values.sum = 0 := by
      refine List.sum_eq_zero fun x hx => ?_
      obtain ⟨entry, hentry, rfl⟩ := List.mem_map.mp hx
      exact le_antisymm (hno entry hentry) (hcounts entry hentry).2
    exact absurd hzero hsum.ne'
  have hmem : (wid, count) ∈ orderedCounts counts eligible :=
    mem_orderedCounts.mpr ⟨(hcounts _ he).1, Dict.get?_eq_some_iff.mpr he⟩
  refine ⟨hfrom, hpos.trans_le (List.single_le_sum (fun x hx => ?_) _ (List.mem_map_of_mem hmem)),
    List.ne_nil_of_mem (hcounts _ he).1⟩
  obtain ⟨entry, hentry, rfl⟩ := List.mem_map.mp hx
  exact hfrom entry hentry

theorem splitOver_splitKnownUnknown {countryQty matched unknown : ℤ} {counts : Dict String ℚ}
    (hq : 0 < countryQty) (hm : 0 < matched) (hu : 0 ≤ unknown)
    (hcounts : ∀ entry ∈ counts.items, entry.1 ∈ eligible ∧ 0 ≤ entry.2)
    (hsum : 0 < counts.values.sum) :
    SplitOver countryQty eligible
    (splitKnownUnknown countryQty matched unknown counts eligible) := by
  obtain ⟨hk, hn, hadd⟩ := buckets_add hq hm hu
  obtain ⟨hnonneg, hweight, hne⟩ := orderedCounts_spec hcounts hsum
  have htotal : ((bucketParts countryQty matched unknown counts eligible).map Prod.snd).sum =
      countryQty := by
    rw [bucketParts, List.map_append, List.sum_append, sum_allocateByWeights hk hweight hnonneg,
      sum_allocateEven hn hne, hadd]
  have hsplit := splitOver_sumBy (@bucketParts_pos eligible countryQty matched unknown counts)
    bucketParts_key
  rw [splitKnownUnknown_eq]
  rwa [htotal] at hsplit

/-- **The split of a country** goes over its warehouses and adds up to its quantity. -/
theorem splitOver_explainCountryQtySplit (matchWarehouses : Option String → List String)
    {countryQty : ℤ} (hq : 0 < countryQty) (orders : List (Option String × ℤ))
    {countryWarehouses : List String} (hne : countryWarehouses ≠ []) :
    SplitOver countryQty countryWarehouses
      (explainCountryQtySplit matchWarehouses countryQty orders
        countryWarehouses).warehouseBreakdown := by
  set eligible := Dict.fromKeys countryWarehouses with heligible
  have hmem : ∀ wid, wid ∈ eligible → wid ∈ countryWarehouses := fun _ => Dict.mem_fromKeys.mp
  have hnil : eligible ≠ [] := by
    obtain ⟨wid, hw⟩ := List.exists_mem_of_ne_nil _ hne
    exact List.ne_nil_of_mem (Dict.mem_fromKeys.mpr hw)
  have hover : ∀ {breakdown : Dict String ℤ}, SplitOver countryQty eligible breakdown →
      SplitOver countryQty countryWarehouses breakdown := fun h =>
    ⟨h.positive, fun entry he => hmem _ (h.eligible entry he), h.total⟩
  unfold explainCountryQtySplit
  simp only [if_neg (not_le.mpr hq), ← heligible]
  by_cases hsum : 0 < (knownCounts matchWarehouses eligible orders).values.sum
  · have hcounts : (knownCounts matchWarehouses eligible orders).items ≠ [] := by
      intro h0
      simp [Dict.values, h0] at hsum
    rw [if_pos hsum]
    exact hover (splitOver_splitKnownUnknown hq (matchedOrderQty_pos hcounts) unknownOrderQty_nonneg
      knownCounts_spec hsum)
  · rw [if_neg hsum, if_neg hnil]
    have hsplit : SplitOver ((allocateEven countryQty eligible).map Prod.snd).sum eligible
        (Dict.sumBy (allocateEven countryQty eligible)) :=
          splitOver_sumBy allocateEven_pos allocateEven_key
    rw [sum_allocateEven hq.le hnil] at hsplit
    exact hover hsplit

/-- Without a warehouse there is no split. -/
theorem explainCountryQtySplit_nil (matchWarehouses : Option String → List String) (countryQty : ℤ)
    (orders : List (Option String × ℤ)) :
    (explainCountryQtySplit matchWarehouses countryQty orders []).warehouseBreakdown = .empty := by
  have heligible : Dict.fromKeys ([] : List String) = [] := rfl
  have hcounts : (knownCounts matchWarehouses [] orders).values.sum = 0 := by
    have hitems : (knownCounts matchWarehouses [] orders).items = [] := by
      rw [List.eq_nil_iff_forall_not_mem]
      intro entry he
      exact absurd (knownCounts_spec entry he).1 (by simp)
    rw [Dict.values, hitems, List.map_nil, List.sum_nil]
  unfold explainCountryQtySplit
  simp only [heligible, hcounts, lt_irrefl, if_false, if_true]
  split_ifs <;> rfl

end Country

end Restock
