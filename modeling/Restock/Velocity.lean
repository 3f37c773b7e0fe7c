/-
# Step 1: the sales (`engine/step1_velocity.py`)

The sales of a SKU in a country are a weighted mean of the totals of the thirty days
before today: a day counts in the windows of seven, fourteen and thirty days that it lies
in, so its weight (`dayWeight`) depends on its age only, does not grow with it, and the
weights sum to one (`velocityAt_eq`, `velocity_weighted_mean`).

Step 5 loads the orders again, to split by postal code. The bounds of both queries are
Beijing midnights, which select exactly the days of the window, so both see the same
quantities (`orders_sum_eq`).
-/
import Restock.CountrySync
import Restock.Lib.Query
import Restock.Lib.Sums
import Restock.SkuMapping

namespace Restock

open PyText Query

/-! ### The formula -/

/-- A row of the orders; days are counted from some day on. -/
structure VelocityItem where
  commoditySku : String
  country : String
  orderDate : ℤ
  quantityOrdered : ℤ
deriving DecidableEq, Repr

/-- What the daily totals are grouped by. -/
def VelocityItem.key (item : VelocityItem) : String × String := (item.commoditySku, item.country)

/-- `compute_velocity`: three windows with their weights. -/
def computeVelocity (day7Sum day14Sum day30Sum : ℤ) : ℚ :=
  day7Sum / 7 * (1 / 2) + day14Sum / 14 * (3 / 10) + day30Sum / 30 * (1 / 5)

/-- From `daysAgo` days before today to yesterday. -/
def isInWindow (orderDate today daysAgo : ℤ) : Bool :=
  let yesterday := today - 1
  let earliest := yesterday - (daysAgo - 1)
  decide (earliest ≤ orderDate) && decide (orderDate ≤ yesterday)

/-- `daily[(sku, country)][d] += eff`. -/
def addDaily (daily : Dict (String × String) (Dict ℤ ℤ)) (item : VelocityItem) :
    Dict (String × String) (Dict ℤ ℤ) :=
  let eff := max item.quantityOrdered 0
  if eff ≤ 0 then daily
  else daily.set item.key ((daily.getD item.key .empty).merge (· + ·) item.orderDate eff)

/-- The units by SKU, country and day. -/
def dailyTotals (items : List VelocityItem) :
    Dict (String × String) (Dict ℤ ℤ) := items.foldl addDaily .empty

/-- The units of the days of a window. -/
def windowSum (dateMap : Dict ℤ ℤ) (today daysAgo : ℤ) : ℤ :=
  ((dateMap.items.filter fun entry => isInWindow entry.1 today daysAgo).map Prod.snd).sum

/-- The velocity of a SKU in a country. -/
def velocityOf (dateMap : Dict ℤ ℤ) (today : ℤ) : ℚ :=
  computeVelocity (windowSum dateMap today 7) (windowSum dateMap today 14)
    (windowSum dateMap today 30)

section Aggregate

variable (U : CharTable)

/-- The velocity of one entry; countries that are not reported are left out. -/
def addVelocity (today : ℤ) (result : Velocity) (entry : (String × String) × Dict ℤ ℤ) : Velocity :=
  if !isReportableCountryCode U (.str entry.1.2) then result
  else result.set entry.1.1
    ((result.getD entry.1.1 .empty).set entry.1.2 (velocityOf entry.2 today))

/-- `aggregate_velocity_from_items`. -/
def aggregateVelocityFromItems (items : List VelocityItem) (today : ℤ) : Velocity :=
  (dailyTotals items).items.foldl (addVelocity U today) .empty

/-- `velocity[sku][country]`. -/
def velocityAt (velocity : Velocity) (sku country : String) :
    Option ℚ := (velocity.get? sku).bind (·.get? country)

end Aggregate

/-! ### The days -/

/-- The rows that count for a SKU in a country. -/
def soldRows (items : List VelocityItem) (key : String × String) : List VelocityItem :=
  items.filter fun item => decide (item.key = key) && decide (0 < item.quantityOrdered)

/-- What was sold on a day. -/
def dayTotal (items : List VelocityItem) (key : String × String) (day : ℤ) : ℤ :=
  (((soldRows items key).filter fun item => item.orderDate = day).map
    VelocityItem.quantityOrdered).sum

/-- The weight of a day, by how many days ago it was. -/
def dayWeight (age : ℤ) : ℚ :=
  (if age ≤ 7 then 1 / 14 else 0) + (if age ≤ 14 then 3 / 140 else 0) + 1 / 150

theorem mem_soldRows {items : List VelocityItem} {key : String × String} {item : VelocityItem} :
    item ∈ soldRows items key ↔ item ∈ items ∧ item.key = key ∧ 0 < item.quantityOrdered := by
  unfold soldRows
  rw [List.mem_filter, Bool.and_eq_true, decide_eq_true_eq, decide_eq_true_eq]

theorem soldRows_append (items items' : List VelocityItem) (key : String × String) :
    soldRows (items ++ items') key = soldRows items key ++ soldRows items' key :=
  List.filter_append ..

theorem soldRows_push {items : List VelocityItem} {item : VelocityItem}
    (hq : 0 < item.quantityOrdered) :
    soldRows (items ++ [item]) item.key = soldRows items item.key ++ [item] := by
  rw [soldRows_append]
  simp [soldRows, hq]

theorem soldRows_push_of_not {items : List VelocityItem} {item : VelocityItem}
    {key : String × String} (h : ¬ (item.key = key ∧ 0 < item.quantityOrdered)) :
    soldRows (items ++ [item]) key = soldRows items key := by
  have hnone : soldRows [item] key = [] := by
    rw [List.eq_nil_iff_forall_not_mem]
    intro row hm
    obtain ⟨hrow, hsold⟩ := mem_soldRows.mp hm
    exact h (List.mem_singleton.mp hrow ▸ hsold)
  rw [soldRows_append, hnone, List.append_nil]

/-- The buckets of a SKU in a country are the sums of its rows by day. -/
theorem get?_dailyTotals (items : List VelocityItem) (key : String × String) :
    (dailyTotals items).get? key = if soldRows items key = [] then none
      else some (Dict.sumBy ((soldRows items key).map
        fun item => (item.orderDate, item.quantityOrdered))) := by
  induction items using List.reverseRecOn with
  | nil => rfl
  | append_singleton items item ih =>
    have hstep : dailyTotals (items ++ [item]) = addDaily (dailyTotals items) item := by
      unfold dailyTotals
      rw [List.foldl_append, List.foldl_cons, List.foldl_nil]
    rw [hstep]
    unfold addDaily
    by_cases hq : 0 < item.quantityOrdered
    · have heff : max item.quantityOrdered 0 = item.quantityOrdered := max_eq_left hq.le
      simp only [heff]
      rw [if_neg (not_le.mpr hq), Dict.get?_set]
      by_cases hk : key = item.key
      · subst hk
        have hbucket : (dailyTotals items).getD item.key .empty =
            Dict.sumBy ((soldRows items item.key).map
                fun item => (item.orderDate, item.quantityOrdered)) := by
          rw [Dict.getD, ih]
          split_ifs with h0
          · rw [h0]
            rfl
          · rfl
        rw [if_pos rfl, soldRows_push hq, if_neg (by simp), hbucket, List.map_append,
          Dict.sumBy, Dict.sumBy, Dict.mergeAll, Dict.mergeAll, List.foldl_append]
        rfl
      · rw [if_neg hk, soldRows_push_of_not fun h => hk h.1.symm, ih]
    · have heff : max item.quantityOrdered 0 ≤ 0 := max_le (not_lt.mp hq) le_rfl
      rw [if_pos heff, soldRows_push_of_not fun h => hq h.2, ih]

theorem isInWindow_iff {orderDate today daysAgo : ℤ} :
    isInWindow orderDate today daysAgo = true ↔ 1 ≤ today - orderDate ∧
    today - orderDate ≤ daysAgo := by
  unfold isInWindow
  rw [Bool.and_eq_true, decide_eq_true_eq, decide_eq_true_eq]
  omega

/-- A window of the buckets is a window of the rows. -/
theorem windowSum_sumBy (rows : List (ℤ × ℤ)) (today daysAgo : ℤ) :
    windowSum (Dict.sumBy rows) today daysAgo =
      (rows.map fun row => if isInWindow row.1 today daysAgo then row.2 else 0).sum := by
  unfold windowSum
  rw [Sums.sum_map_filter]
  refine sum_groupSum (g := fun day qty => if isInWindow day today daysAgo then qty else 0)
    (fun day a b => ?_) rows
  split_ifs <;> simp

/-- The sum of a window that a key has in the loop. -/
theorem windowSum_dailyTotals (items : List VelocityItem) (key : String × String)
    (today daysAgo : ℤ) :
    windowSum ((dailyTotals items).getD key .empty) today daysAgo =
      ((soldRows items key).map fun item => if isInWindow item.orderDate today daysAgo then
        item.quantityOrdered else 0).sum := by
  rw [Dict.getD, get?_dailyTotals]
  split_ifs with h0
  · rw [h0]
    rfl
  · rw [Option.getD_some, windowSum_sumBy, List.map_map]
    rfl

/-- A window adds the totals of its days. -/
theorem sum_window (rows : List VelocityItem) (today daysAgo : ℤ) :
    (rows.map fun item => if isInWindow item.orderDate today daysAgo then item.quantityOrdered
      else 0).sum = ∑ age ∈ Finset.Icc 1 daysAgo,
        ((rows.filter fun item => item.orderDate = today - age).map
          VelocityItem.quantityOrdered).sum := by
  induction rows with
  | nil => simp
  | cons item rows ih =>
    have hday : ∀ age, (((item :: rows).filter fun row => row.orderDate = today - age).map
        VelocityItem.quantityOrdered).sum =
          (if age = today - item.orderDate then item.quantityOrdered else 0) +
          ((rows.filter fun row => row.orderDate = today - age).map
          VelocityItem.quantityOrdered).sum := by
      intro age
      by_cases hage : age = today - item.orderDate
      · have hdate : item.orderDate = today - age := by omega
        simp [hage]
      · have hdate : item.orderDate ≠ today - age := by omega
        simp [hage, hdate]
    simp only [hday]
    rw [List.map_cons, List.sum_cons, ih, Finset.sum_add_distrib, Finset.sum_ite_eq']
    simp only [isInWindow_iff, Finset.mem_Icc]

theorem windowSum_eq (items : List VelocityItem) (key : String × String) (today daysAgo : ℤ) :
    windowSum ((dailyTotals items).getD key .empty) today daysAgo =
      ∑ age ∈ Finset.Icc 1 daysAgo, dayTotal items key (today - age) := by
  rw [windowSum_dailyTotals, sum_window]
  rfl

/-! ### The weights -/

theorem dayWeight_nonneg (age : ℤ) : 0 ≤ dayWeight age := by
  unfold dayWeight
  split_ifs <;> norm_num

/-- The longer ago a day was, the less it weighs. -/
theorem dayWeight_antitone : Antitone dayWeight := by
  intro age age' h
  have hstep : ∀ (n : ℤ) (w : ℚ), 0 ≤ w → (if age' ≤ n then w else 0) ≤ if age ≤ n then w
      else 0 := by
    intro n w hw
    split_ifs with h' h''
    · exact le_rfl
    · exact absurd (h.trans h') h''
    · exact hw
    · exact le_rfl
  have h7 := hstep 7 (1 / 14) (by norm_num)
  have h14 := hstep 14 (3 / 140) (by norm_num)
  unfold dayWeight
  linarith

/-- A part of the thirty days, as a sum over all of them. -/
theorem sum_Icc_ite {n : ℤ} (hn : n ≤ 30) (w : ℚ) (f : ℤ → ℚ) :
    ∑ age ∈ Finset.Icc 1 30,
    (if age ≤ n then w else 0) * f age = w * ∑ age ∈ Finset.Icc 1 n, f age := by
  have hsub : (Finset.Icc 1 30).filter (fun age : ℤ => age ≤ n) = Finset.Icc 1 n := by
    ext age
    rw [Finset.mem_filter, Finset.mem_Icc, Finset.mem_Icc]
    omega
  simp only [ite_mul, zero_mul]
  rw [← Finset.sum_filter, hsub, Finset.mul_sum]

/-- **The formula as a weighted sum of the days.** -/
theorem computeVelocity_eq (total : ℤ → ℤ) :
    computeVelocity (∑ age ∈ Finset.Icc 1 7, total age) (∑ age ∈ Finset.Icc 1 14, total age)
      (∑ age ∈ Finset.Icc 1 30, total age) = ∑ age ∈ Finset.Icc 1 30,
      dayWeight age * total age := by
  unfold computeVelocity dayWeight
  simp only [add_mul, Finset.sum_add_distrib, ← Finset.mul_sum]
  rw [sum_Icc_ite (by norm_num), sum_Icc_ite (by norm_num)]
  push_cast
  ring

theorem sum_dayWeight : ∑ age ∈ Finset.Icc 1 30, dayWeight age = 1 := by
  have h := computeVelocity_eq fun _ => 1
  simp only [Int.cast_one, mul_one] at h
  rw [← h]
  simp [computeVelocity]
  norm_num

/-- A weighted mean of totals lies between their bounds. -/
theorem weighted_mean_between {total : ℤ → ℤ} {lo hi : ℤ}
    (h : ∀ age ∈ Finset.Icc 1 30, lo ≤ total age ∧ total age ≤ hi) :
    (lo : ℚ) ≤ ∑ age ∈ Finset.Icc 1 30, dayWeight age * total age ∧
      ∑ age ∈ Finset.Icc 1 30, dayWeight age * total age ≤ hi := by
  have hconst : ∀ c : ℤ, ∑ age ∈ Finset.Icc 1 30, dayWeight age * (c : ℚ) = c := by
    intro c
    rw [← Finset.sum_mul, sum_dayWeight, one_mul]
  constructor
  · calc (lo : ℚ) = ∑ age ∈ Finset.Icc 1 30, dayWeight age * (lo : ℚ) := (hconst lo).symm
      _ ≤ ∑ age ∈ Finset.Icc 1 30, dayWeight age * total age := Finset.sum_le_sum fun age ha =>
        mul_le_mul_of_nonneg_left (by exact_mod_cast (h age ha).1) (dayWeight_nonneg age)
  · calc ∑ age ∈ Finset.Icc 1 30, dayWeight age * (total age : ℚ)
        ≤ ∑ age ∈ Finset.Icc 1 30, dayWeight age * (hi : ℚ) := Finset.sum_le_sum fun age ha =>
          mul_le_mul_of_nonneg_left (by exact_mod_cast (h age ha).2) (dayWeight_nonneg age)
      _ = hi := hconst hi

/-! ### The velocities -/

section Lookup

variable (U : CharTable)

theorem velocityAt_addVelocity (today : ℤ) (result : Velocity)
    (entry : (String × String) × Dict ℤ ℤ) (sku country : String) :
    velocityAt (addVelocity U today result entry) sku country =
      if isReportableCountryCode U (.str entry.1.2) = true ∧ entry.1 = (sku, country) then
      some (velocityOf entry.2 today)
      else velocityAt result sku country := by
  obtain ⟨⟨sku', country'⟩, dateMap⟩ := entry
  unfold addVelocity velocityAt
  by_cases hrep : isReportableCountryCode U (.str country') = true
  · simp only [hrep, Bool.not_true, Bool.false_eq_true, if_false, true_and, Prod.mk.injEq]
    rw [Dict.get?_set]
    by_cases hs : sku = sku'
    · subst hs
      rw [if_pos rfl, Option.bind_some, Dict.get?_set]
      by_cases hc : country = country'
      · rw [if_pos hc, if_pos ⟨rfl, hc.symm⟩]
      · rw [if_neg hc, if_neg fun h => hc h.2.symm, Dict.getD]
        cases result.get? sku <;> rfl
    · rw [if_neg hs, if_neg fun h => hs h.1.symm]
  · simp [hrep]

theorem velocityAt_foldl (today : ℤ) (sku country : String) :
    ∀ (entries : List ((String × String) × Dict ℤ ℤ))
    (hnd : (entries.map Prod.fst).Nodup) (result : Velocity),
    velocityAt (entries.foldl (addVelocity U today) result) sku country =
      if isReportableCountryCode U (.str country) = true then
        (((Dict.mk entries hnd).get? (sku, country)).map fun dateMap => velocityOf dateMap today).or
          (velocityAt result sku country)
      else velocityAt result sku country
  | [], _, result => by simp [Dict.get?]
  | entry :: entries, hnd, result => by
    have hrest : (entries.map Prod.fst).Nodup := (List.nodup_cons.mp hnd).2
    have hcons : (Dict.mk (entry :: entries) hnd).get? (sku, country) =
        if (sku, country) = entry.1 then some entry.2
        else (Dict.mk entries hrest).get? (sku, country) :=
      Dict.lookup_cons_ite entry entries (sku, country)
    rw [List.foldl_cons, velocityAt_foldl today sku country entries hrest,
      velocityAt_addVelocity, hcons]
    by_cases hk : entry.1 = (sku, country)
    · have hno : (Dict.mk entries hrest).get? (sku, country) = none :=
        Dict.get?_eq_none_iff.mpr (hk ▸ (List.nodup_cons.mp hnd).1)
      by_cases hrep : isReportableCountryCode U (.str country) = true
      · simp [hk, hno, hrep]
      · simp [hk, hrep]
    · have hk' : (sku, country) ≠ entry.1 := fun h => hk h.symm
      simp only [hk, hk', and_false, if_false]

/-- **A velocity is the weighted sum of the days before today**, and there is one where
something was sold, in a country that counts. -/
theorem velocityAt_eq (items : List VelocityItem) (today : ℤ) (sku country : String) :
    velocityAt (aggregateVelocityFromItems U items today) sku country =
      if isReportableCountryCode U (.str country) = true ∧ soldRows items (sku, country) ≠ [] then
        some (∑ age ∈ Finset.Icc 1 30, dayWeight age * dayTotal items (sku, country) (today - age))
      else none := by
  have hlookup : velocityAt (aggregateVelocityFromItems U items today) sku country =
      if isReportableCountryCode U (.str country) = true then
        ((dailyTotals items).get? (sku, country)).map fun dateMap => velocityOf dateMap today
      else none := by
    unfold aggregateVelocityFromItems
    rw [velocityAt_foldl U today sku country _ (dailyTotals items).nodup]
    exact if_congr Iff.rfl (Option.or_none) rfl
  rw [hlookup]
  by_cases hrep : isReportableCountryCode U (.str country) = true
  · by_cases h0 : soldRows items (sku, country) = []
    · rw [get?_dailyTotals, if_pos h0, if_pos hrep, if_neg fun h => h.2 h0]
      rfl
    · obtain ⟨dateMap, hd⟩ : ∃ dateMap, (dailyTotals items).get? (sku, country) = some dateMap := by
        rw [get?_dailyTotals, if_neg h0]
        exact ⟨_, rfl⟩
      have hwindow : ∀ daysAgo, windowSum dateMap today daysAgo =
          ∑ age ∈ Finset.Icc 1 daysAgo, dayTotal items (sku, country) (today - age) := by
        intro daysAgo
        rw [← windowSum_eq, Dict.getD, hd, Option.getD_some]
      rw [hd, if_pos hrep, if_pos ⟨hrep, h0⟩, Option.map_some, velocityOf, hwindow, hwindow,
        hwindow, computeVelocity_eq]
  · rw [if_neg hrep, if_neg fun h => hrep h.1]

end Lookup

/-! ### Rows that sell alike -/

section Alike

variable {items items' : List VelocityItem} {key : String × String}

/-- The total of a day, as a sum over all the rows. -/
theorem dayTotal_eq (items : List VelocityItem) (key : String × String) (day : ℤ) :
    dayTotal items key day =
      (items.map fun item => if item.key = key ∧ item.orderDate = day then
        max item.quantityOrdered 0 else 0).sum := by
  unfold dayTotal soldRows
  rw [List.filter_filter, Sums.sum_map_filter]
  refine congrArg List.sum (List.map_congr_left fun item _ => ?_)
  by_cases hq : 0 < item.quantityOrdered
  · have hmax : max item.quantityOrdered 0 = item.quantityOrdered := max_eq_left hq.le
    simp [hq, hmax, and_comm]
  · have hmax : max item.quantityOrdered 0 = 0 := max_eq_right (not_lt.mp hq)
    simp [hq, hmax]

/-- A row in parts: of the same day, with the same sum, and without parts of both signs. -/
structure SplitsInto (row : VelocityItem) (parts : List VelocityItem) : Prop where
  key_eq : ∀ part ∈ parts, part.key = row.key
  date_eq : ∀ part ∈ parts, part.orderDate = row.orderDate
  sum_eq : (parts.map VelocityItem.quantityOrdered).sum = row.quantityOrdered
  one_sign : (∀ part ∈ parts, 0 ≤ part.quantityOrdered) ∨ ∀ part ∈ parts, part.quantityOrdered ≤ 0

theorem SplitsInto.sum_max {row : VelocityItem} {parts : List VelocityItem}
    (h : SplitsInto row parts) :
    (parts.map fun part => max part.quantityOrdered 0).sum = max row.quantityOrdered 0 := by
  rw [← h.sum_eq]
  rcases h.one_sign with hpos | hneg
  · have hmax : parts.map (fun part => max part.quantityOrdered 0) =
      parts.map VelocityItem.quantityOrdered :=
      List.map_congr_left fun part hp => max_eq_left (hpos part hp)
    rw [hmax, max_eq_left (Sums.sum_nonneg hpos)]
  · have hmax : parts.map (fun part => max part.quantityOrdered 0) = parts.map fun _ => (0 : ℤ) :=
      List.map_congr_left fun part hp => max_eq_right (hneg part hp)
    have hsum : (parts.map VelocityItem.quantityOrdered).sum ≤ 0 := by
      refine (List.sum_le_sum hneg).trans_eq ?_
      simp
    rw [hmax, max_eq_right hsum]
    simp

/-- A row that does not count: outside of the window, or without a positive quantity. -/
def Idle (today : ℤ) (item : VelocityItem) : Prop :=
  item.quantityOrdered ≤ 0 ∨ isInWindow item.orderDate today 30 = false

theorem dayTotal_perm (h : items'.Perm items) (day : ℤ) :
    dayTotal items' key day = dayTotal items key day := by
  rw [dayTotal_eq, dayTotal_eq]
  exact (h.map _).sum_eq

theorem dayTotal_append (items items' : List VelocityItem) (key : String × String) (day : ℤ) :
    dayTotal (items ++ items') key day = dayTotal items key day + dayTotal items' key day := by
  rw [dayTotal_eq, dayTotal_eq, dayTotal_eq, List.map_append, List.sum_append]

/-- The parts of a row give every day what the row gives it. -/
theorem SplitsInto.dayTotal_eq {row : VelocityItem} {parts : List VelocityItem}
    (h : SplitsInto row parts) (day : ℤ) : dayTotal parts key day = dayTotal [row] key day := by
  have hparts : parts.map
      (fun part => if part.key = key ∧ part.orderDate = day then max part.quantityOrdered 0
      else 0) = parts.map fun part => if row.key = key ∧
      row.orderDate = day then max part.quantityOrdered 0 else 0 :=
    List.map_congr_left fun part hp => by rw [h.key_eq part hp, h.date_eq part hp]
  rw [Restock.dayTotal_eq, Restock.dayTotal_eq, hparts, List.map_singleton, List.sum_singleton]
  split_ifs
  · exact h.sum_max
  · simp

/-- Some part of a row that counts does. -/
theorem SplitsInto.exists_pos {row : VelocityItem} {parts : List VelocityItem}
    (h : SplitsInto row parts) (hq : 0 < row.quantityOrdered) :
    ∃ part ∈ parts, part.key = row.key ∧ 0 < part.quantityOrdered := by
  by_contra hn
  have hzero : ∀ part ∈ parts, max part.quantityOrdered 0 = 0 := fun part hp =>
    max_eq_right (not_lt.mp fun hpos => hn ⟨part, hp, h.key_eq part hp, hpos⟩)
  have hsum := h.sum_max
  rw [List.map_congr_left hzero] at hsum
  simp only [List.map_const', List.sum_replicate, smul_zero] at hsum
  omega

theorem dayTotal_idle {today : ℤ} (h : ∀ item ∈ items, Idle today item) {age : ℤ}
    (hage : age ∈ Finset.Icc 1 30) : dayTotal items key (today - age) = 0 := by
  rw [dayTotal_eq]
  refine List.sum_eq_zero fun q hq => ?_
  obtain ⟨item, hi, rfl⟩ := List.mem_map.mp hq
  split_ifs with hitem
  · rcases h item hi with hnone | hout
    · exact max_eq_right hnone
    · rw [Finset.mem_Icc] at hage
      have hin : isInWindow item.orderDate today 30 = true := by
        rw [isInWindow_iff]
        omega
      rw [hout] at hin
      cases hin
  · rfl

end Alike

/-- Something is sold of the SKU in the country. -/
def Sold (items : List VelocityItem) (key : String × String) : Prop :=
  ∃ item ∈ items, item.key = key ∧ 0 < item.quantityOrdered

theorem velocityAt_of_sold {U : CharTable} {items items' : List VelocityItem} {today : ℤ}
    {sku country : String} (hrep : isReportableCountryCode U (.str country) = true)
    (hsold : Sold items' (sku, country)) (hdays : ∀ age ∈ Finset.Icc 1 30,
      dayTotal items' (sku, country) (today - age) = dayTotal items (sku, country) (today - age)) :
    velocityAt (aggregateVelocityFromItems U items' today) sku country =
      some (∑ age ∈ Finset.Icc 1 30, dayWeight age * dayTotal items (sku, country)
        (today - age)) := by
  obtain ⟨item, hi, hsold⟩ := hsold
  have hne : soldRows items' (sku, country) ≠ [] :=
    List.ne_nil_of_mem (mem_soldRows.mpr ⟨hi, hsold⟩)
  rw [velocityAt_eq, if_pos ⟨hrep, hne⟩]
  refine congrArg some (Finset.sum_congr rfl fun age ha => ?_)
  rw [hdays age ha]

/-- **The velocity is a weighted mean of the daily demand.** The weights do not depend on
the rows; the velocity depends on the totals of the thirty days before today only. -/
theorem velocity_weighted_mean (U : CharTable) (items : List VelocityItem) (today : ℤ)
    (sku country : String) (hrep : isReportableCountryCode U (.str country) = true)
    (hsold : Sold items (sku, country)) :
    ((∀ age, 0 ≤ dayWeight age) ∧ Antitone dayWeight ∧ ∑ age ∈ Finset.Icc 1 30, dayWeight age = 1) ∧
    ∃ v, velocityAt (aggregateVelocityFromItems U items today) sku country = some v ∧
      v = ∑ age ∈ Finset.Icc 1 30, dayWeight age * dayTotal items (sku, country) (today - age) ∧
      (∀ lo hi : ℤ, (∀ age ∈ Finset.Icc 1 30, lo ≤ dayTotal items (sku, country) (today - age) ∧
        dayTotal items (sku, country) (today - age) ≤ hi) → lo ≤ v ∧ v ≤ hi) ∧
      (∀ q : ℤ, (∀ age ∈ Finset.Icc 1 30, dayTotal items (sku, country) (today - age) = q) →
        v = q) ∧ (∀ items', items'.Perm items →
        velocityAt (aggregateVelocityFromItems U items' today) sku country = some v) ∧
      (∀ before row after parts, items = before ++ row :: after → SplitsInto row parts →
        velocityAt (aggregateVelocityFromItems U (before ++ parts ++ after) today)
        sku country = some v) ∧
      ∀ items' extra, items'.Perm (items ++ extra) → (∀ row ∈ extra, Idle today row) →
        velocityAt (aggregateVelocityFromItems U items' today) sku country = some v := by
  have hkeeps : ∀ items', Sold items' (sku, country) → (∀ age ∈ Finset.Icc 1 30,
      dayTotal items' (sku, country) (today - age) = dayTotal items (sku, country) (today - age)) →
          _ :=
    fun items' hsold' hdays => velocityAt_of_sold (U := U) hrep hsold' hdays
  refine ⟨⟨dayWeight_nonneg, dayWeight_antitone, sum_dayWeight⟩, _,
    hkeeps items hsold fun _ _ => rfl, rfl, fun lo hi h => weighted_mean_between h, ?_, ?_, ?_, ?_⟩
  · intro q h
    obtain ⟨hle, hge⟩ := weighted_mean_between fun age ha => ⟨(h age ha).ge, (h age ha).le⟩
    exact le_antisymm hge hle
  · intro items' hperm
    obtain ⟨item, hi, hitem⟩ := hsold
    exact hkeeps items' ⟨item, hperm.mem_iff.mpr hi, hitem⟩ fun age _ => dayTotal_perm hperm _
  · intro before row after parts hitems hsplit
    refine hkeeps _ ?_ fun age _ => ?_
    · obtain ⟨item, hi, hkey, hq⟩ := hsold
      rw [hitems, List.mem_append, List.mem_cons] at hi
      rcases hi with hb | rfl | ha
      · exact ⟨item, by simp [hb], hkey, hq⟩
      · obtain ⟨part, hp, hpart, hpos⟩ := hsplit.exists_pos hq
        exact ⟨part, by simp [hp], hpart.trans hkey, hpos⟩
      · exact ⟨item, by simp [ha], hkey, hq⟩
    · have hcons : before ++ row :: after = before ++ [row] ++ after := by simp
      rw [hitems, hcons, dayTotal_append, dayTotal_append, dayTotal_append, dayTotal_append,
        hsplit.dayTotal_eq]
  · intro items' extra hperm hidle
    refine hkeeps items' ?_ fun age ha => ?_
    · obtain ⟨item, hi, hitem⟩ := hsold
      exact ⟨item, hperm.mem_iff.mpr (List.mem_append_left _ hi), hitem⟩
    · rw [dayTotal_perm hperm, dayTotal_append, dayTotal_idle hidle ha, add_zero]

/-- Rows of a SKU in the US: a day of the shortest window, one in two parts, one that does
not count. -/
def usRows : List VelocityItem :=
  [⟨"A", "US", 99, 14⟩, ⟨"A", "US", 85, 20⟩, ⟨"A", "US", 85, 10⟩, ⟨"A", "US", 100, 7⟩]

theorem velocity_weighted_mean_us :
    ∃ v, velocityAt (aggregateVelocityFromItems .ascii usRows 100) "A" "US" = some v ∧
      v = ∑ age ∈ Finset.Icc 1 30, dayWeight age * dayTotal usRows ("A", "US") (100 - age) := by
  obtain ⟨-, v, hv, hsum, -⟩ :=
    velocity_weighted_mean .ascii usRows 100 "A" "US" (isReportable_US _)
    ⟨⟨"A", "US", 99, 14⟩, by decide, rfl, by decide⟩
  exact ⟨v, hv, hsum⟩

/-! ### The two queries -/

/-- A row of `order_header` with the columns that the queries read; instants are
microseconds. -/
structure DemandOrder where
  header : OrderHeader
  source : String
  packageStatus : Option String
deriving DecidableEq, Repr

/-- What the demand queries read of `order_item`. -/
structure DemandItem where
  orderId : ℕ
  commoditySku : String
  quantityOrdered : ℤ
deriving DecidableEq, Repr

/-- The order tables. -/
structure DemandDb where
  orders : List DemandOrder
  items : List DemandItem

def microsPerDay : ℤ := 24 * 60 * 60 * 1000000

/-- Eight hours. -/
def beijingOffset : ℤ := 8 * 60 * 60 * 1000000

/-- `func.date(func.timezone("Asia/Shanghai", purchase_date))`. -/
def beijingDate (instant : ℤ) : ℤ := (instant + beijingOffset) / microsPerDay

/-- `datetime.combine(day, datetime.min.time(), tzinfo=BEIJING)`. -/
def beijingMidnight (day : ℤ) : ℤ := day * microsPerDay - beijingOffset

/-- The status of a cancelled package. -/
def canceledStatus : String := "has_canceled"

/-- The days that the queries look back. -/
def windowDays : ℤ := 30

/-- The join of the two tables. -/
def DemandDb.joined (db : DemandDb) : List (DemandItem × DemandOrder) :=
  db.items.flatMap fun item => (db.orders.filter fun order => order.header.id = item.orderId).map
    fun order => (item, order)

section Loaders

variable (U : CharTable) (plan : Plan) (db : DemandDb)

/-- The rows of step 1; no list of SKUs means all of them. -/
def loadVelocityInputs (commoditySkus : Option (List String)) (today : ℤ)
    (allowedCountries : Option (List String)) : List VelocityItem :=
  let yesterday := today - 1
  let earliest := yesterday - (windowDays - 1)
  let rows := plan.order (db.joined.filter fun row =>
    decide (row.2.source = orderSourcePackage) &&
    decide (row.2.packageStatus.getD "" ≠ canceledStatus) &&
    decide (row.2.header.countryCode ≠ "ZZ") &&
    decide (beijingMidnight earliest ≤ row.2.header.purchaseDate) &&
    decide (row.2.header.purchaseDate < beijingMidnight today) &&
    commoditySkus.all (fun skus => row.1.commoditySku ∈ skus) &&
    allowedCountries.all (fun countries => row.2.header.countryCode ∈ countries))
  (rows.filter fun row => isReportableCountryCode U (.str row.2.header.countryCode)).map fun row =>
    ⟨row.1.commoditySku, row.2.header.countryCode, beijingDate row.2.header.purchaseDate,
      row.1.quantityOrdered⟩

/-- The orders of step 5, by SKU and country. -/
def loadAllSkuCountryOrders (commoditySkus : List String) (today : ℤ)
    (allowedCountries : Option (List String)) : Dict (String × String) (List (Option String × ℤ)) :=
  if commoditySkus = [] then .empty
  else
    let rows := plan.order (db.joined.filter fun row =>
      decide (row.1.commoditySku ∈ commoditySkus) &&
      decide (beijingMidnight (today - windowDays) ≤ row.2.header.purchaseDate) &&
      decide (row.2.header.purchaseDate < beijingMidnight today) &&
      decide (row.2.source = orderSourcePackage) &&
      decide (row.2.packageStatus.getD "" ≠ canceledStatus) &&
      decide (row.2.header.countryCode ≠ "ZZ") &&
      allowedCountries.all (fun countries => row.2.header.countryCode ∈ countries))
    Dict.mergeAll (· ++ ·) .empty (rows.filterMap fun row =>
      let effectiveQty := max row.1.quantityOrdered 0
      if !isReportableCountryCode U (.str row.2.header.countryCode) || decide
        (effectiveQty ≤ 0) then none
      else some ((row.1.commoditySku, row.2.header.countryCode),
        [(row.2.header.postalCode, effectiveQty)]))

end Loaders

/-- The window of timestamps is a window of days. -/
theorem between_midnights_iff (instant today : ℤ) :
    beijingMidnight (today - windowDays) ≤ instant ∧ instant < beijingMidnight today ↔
      isInWindow (beijingDate instant) today windowDays = true := by
  rw [isInWindow_iff]
  unfold beijingMidnight beijingDate windowDays beijingOffset microsPerDay
  omega

/-! ### The same orders -/

section Same

variable {U : CharTable} {plan plan' : Plan} {db : DemandDb} {today : ℤ} {skus : List String}
  {allowedCountries : Option (List String)}

/-- The rows of an order that both steps count. -/
structure Demanded (U : CharTable) (skus : List String) (today : ℤ)
    (allowedCountries : Option (List String)) (key : String × String)
    (row : DemandItem × DemandOrder) : Prop where
  source_eq : row.2.source = orderSourcePackage
  not_canceled : row.2.packageStatus.getD "" ≠ canceledStatus
  known : row.2.header.countryCode ≠ "ZZ"
  inWindow : isInWindow (beijingDate row.2.header.purchaseDate) today windowDays = true
  listed : row.1.commoditySku ∈ skus
  allowed : ∀ countries, allowedCountries = some countries → row.2.header.countryCode ∈ countries
  reportable : isReportableCountryCode U (.str row.2.header.countryCode) = true
  sold : 0 < row.1.quantityOrdered
  key_eq : (row.1.commoditySku, row.2.header.countryCode) = key

open Classical in
/-- The units of the joined rows that count for a key. -/
noncomputable def demandedUnits (U : CharTable) (db : DemandDb) (skus : List String) (today : ℤ)
    (allowedCountries : Option (List String)) (key : String × String) : ℤ :=
  (db.joined.map fun row => if Demanded U skus today allowedCountries key row then
    row.1.quantityOrdered else 0).sum

theorem allowed_iff {country : String} :
    (allowedCountries.all fun countries => decide (country ∈ countries)) = true ↔
      ∀ countries, allowedCountries = some countries → country ∈ countries := by
  simp only [Option.all_eq_true, decide_eq_true_eq]

theorem sum_order {A : Type} (plan : Plan) (f : A → ℤ) (rows : List A) :
    ((plan.order rows).map f).sum = (rows.map f).sum :=
  ((plan.perm rows).map f).sum_eq

theorem sum_loadVelocityInputs (key : String × String) :
    windowSum ((dailyTotals (loadVelocityInputs U plan db (some skus) today allowedCountries)).getD
      key .empty) today windowDays = demandedUnits U db skus today allowedCountries key := by
  classical
  unfold loadVelocityInputs demandedUnits
  rw [windowSum_dailyTotals]
  unfold soldRows
  rw [Sums.sum_map_filter, List.map_map, Sums.sum_map_filter, sum_order, Sums.sum_map_filter]
  refine congrArg List.sum (List.map_congr_left fun row _ => ?_)
  have hwindow := between_midnights_iff row.2.header.purchaseDate today
  have hearliest : today - 1 - (windowDays - 1) = today - windowDays := by omega
  by_cases h : Demanded U skus today allowedCountries key row
  · have hallowed := allowed_iff.mpr h.allowed
    have hbounds := hwindow.mpr h.inWindow
    simp [h, h.source_eq, h.not_canceled, h.known, h.inWindow, h.listed, h.reportable, h.sold,
      h.key_eq, hallowed, hearliest, hbounds, VelocityItem.key]
  · rw [if_neg h]
    simp only [Function.comp_apply]
    split_ifs with hselect hrep hkey hday
    · refine absurd ?_ h
      simp only [Bool.and_eq_true, decide_eq_true_eq, Option.all_some,
        VelocityItem.key] at hselect hkey
      obtain ⟨⟨⟨⟨⟨⟨hsource, hstatus⟩, hknown⟩, -⟩, -⟩, hlisted⟩, hallowed⟩ := hselect
      exact ⟨hsource, hstatus, hknown, hday, hlisted, allowed_iff.mp hallowed, hrep, hkey.2,
        of_decide_eq_true hkey.1⟩
    all_goals rfl

theorem sum_valuesAt_filterMap {A K V : Type} [DecidableEq K] (f : A → Option (K × V)) (g : V → ℤ)
    (key : K) (rows : List A) :
    ((Dict.valuesAt (rows.filterMap f) key).map g).sum =
      (rows.map fun row => (f row).elim 0 fun entry => if entry.1 = key then g entry.2
        else 0).sum := by
  induction rows with
  | nil => rfl
  | cons row rows ih =>
    rw [List.filterMap_cons, List.map_cons, List.sum_cons, ← ih]
    cases hrow : f row with
    | none => exact (zero_add _).symm
    | some entry =>
      by_cases hk : entry.1 = key
      · subst hk
        rw [Dict.valuesAt_cons_self, List.map_cons, List.sum_cons, Option.elim_some, if_pos rfl]
      · rw [Dict.valuesAt_cons_ne hk, Option.elim_some, if_neg hk, zero_add]

/-- The quantities of a list of orders that a loop gathers are those of the rows. -/
theorem sum_gathered (entries : List ((String × String) × List (Option String × ℤ)))
    (key : String × String) :
    (((Dict.mergeAll (· ++ ·) .empty entries).getD key []).map Prod.snd).sum =
      ((Dict.valuesAt entries key).map fun orders => (orders.map Prod.snd).sum).sum := by
  have hcombine : ∀ (vs : List (List (Option String × ℤ))) (o : Option (List (Option String × ℤ))),
      (((Dict.combine (· ++ ·) o vs).getD []).map Prod.snd).sum =
        ((o.getD []).map Prod.snd).sum + (vs.map fun orders => (orders.map Prod.snd).sum).sum := by
    intro vs
    induction vs with
    | nil =>
      intro o
      cases o <;> simp [Dict.combine]
    | cons v vs ih =>
      intro o
      cases o with
      | none => simp [Dict.combine, ih]
      | some w => simp [Dict.combine, ih, add_assoc]
  rw [Dict.getD, Dict.get?_mergeAll, hcombine]
  simp

theorem sum_loadAllSkuCountryOrders (key : String × String) :
    (((loadAllSkuCountryOrders U plan db skus today allowedCountries).getD key []).map
      Prod.snd).sum = demandedUnits U db skus today allowedCountries key := by
  classical
  unfold loadAllSkuCountryOrders demandedUnits
  by_cases hskus : skus = []
  · have hzero : db.joined.map
        (fun row => if Demanded U skus today allowedCountries key row then row.1.quantityOrdered
        else 0) = db.joined.map fun _ => 0 := by
      refine List.map_congr_left fun row _ => if_neg fun h => ?_
      have hlisted := h.listed
      rw [hskus] at hlisted
      cases hlisted
    rw [if_pos hskus, hzero]
    simp [Dict.getD]
  · rw [if_neg hskus]
    simp only
    rw [sum_gathered, sum_valuesAt_filterMap, sum_order, Sums.sum_map_filter]
    refine congrArg List.sum (List.map_congr_left fun row _ => ?_)
    have hwindow := between_midnights_iff row.2.header.purchaseDate today
    by_cases h : Demanded U skus today allowedCountries key row
    · have hallowed := allowed_iff.mpr h.allowed
      have hbounds := hwindow.mpr h.inWindow
      have hmax : max row.1.quantityOrdered 0 = row.1.quantityOrdered := max_eq_left h.sold.le
      have hpos : ¬ row.1.quantityOrdered ≤ 0 := not_le.mpr h.sold
      simp [h, h.source_eq, h.not_canceled, h.known, h.listed, h.reportable, hpos, h.key_eq,
        hallowed, hbounds, hmax]
    · rw [if_neg h]
      split_ifs with hselect hskip
      · rfl
      · rw [Option.elim_some]
        split_ifs with hkey
        · refine absurd ?_ h
          simp only [Bool.and_eq_true, Bool.or_eq_true, Bool.not_eq_true', decide_eq_true_eq,
            not_or, not_le] at hselect hskip
          obtain ⟨⟨⟨⟨⟨⟨hlisted, hstart⟩, hend⟩, hsource⟩, hstatus⟩, hknown⟩, hallowed⟩ := hselect
          exact ⟨hsource, hstatus, hknown, hwindow.mp ⟨hstart, hend⟩, hlisted,
            allowed_iff.mp hallowed, by simpa using hskip.1, by simpa using hskip.2, hkey⟩
        · rfl
      · rfl

end Same

/-- **Demand and allocation look at the same orders.** For every key the quantities of
step 5 add up to the thirty days of step 1, whatever the order of the rows; and the
midnights select the rows of these days. -/
theorem orders_sum_eq (U : CharTable) (plan plan' : Plan) (db : DemandDb) (today : ℤ)
    (skus : List String) (allowedCountries : Option (List String)) :
    (∀ instant, beijingMidnight (today - windowDays) ≤ instant ∧ instant < beijingMidnight today ↔
      isInWindow (beijingDate instant) today 30 = true) ∧
    ∀ key, (((loadAllSkuCountryOrders U plan' db skus today allowedCountries).getD key []).map
      Prod.snd).sum = windowSum
      ((dailyTotals (loadVelocityInputs U plan db (some skus) today allowedCountries)).getD key
      .empty) today 30 :=
  ⟨fun instant => between_midnights_iff instant today, fun key => by
    rw [sum_loadAllSkuCountryOrders]
    exact (sum_loadVelocityInputs key).symm⟩

/-- One order of yesterday counts, one that was cancelled does not. -/
def twoOrders : DemandDb :=
  ⟨[⟨⟨1, "US", none, "M", some "94107", beijingMidnight 99, 0, false⟩, orderSourcePackage, none⟩,
      ⟨⟨2, "US", none, "M", some "94107", beijingMidnight 99, 0, false⟩, orderSourcePackage,
        some canceledStatus⟩],
    [⟨1, "A", 3⟩, ⟨2, "A", 5⟩]⟩

example : ((loadAllSkuCountryOrders .ascii (.rotate 1) twoOrders ["A"] 100 none).getD ("A", "US")
    []) = [(some "94107", 3)] ∧
    windowSum ((dailyTotals
    (loadVelocityInputs .ascii .identity twoOrders (some ["A"]) 100 none)).getD ("A", "US") .empty)
      100 30 = 3 := by decide +kernel

end Restock
