/-
# Splitting a quantity by the postal codes of its orders

`explain_country_qty_split` matches the postal code of every order with a positive
quantity, and an exception of the match ends it. Where none is raised, the split
conserves the quantity and accounts for every order (`splitByRules_conserves`), gives
every warehouse its share up to less than three units (`splitByRules_proportional`),
and depends on the total quantity under each normalised postal code only, not on the
order of the orders and of the rules (`splitByRules_congr`).
-/
import Restock.Lib.Checked
import Restock.WarehouseSplit
import Restock.ZipcodeMatcher

namespace Restock

open PyText Query

section Split

variable (U : CharTable) (N : NumberReader) (country : String) (rules : List ZipcodeRule)

/-- The warehouses that a postal code matches, where the match does not raise. -/
def matchedBy (postalCode : Option String) : List String :=
  (matchWarehouses U N postalCode country rules).toOption.getD []

/-- `explain_country_qty_split` with its rules: the loop over the orders goes through
their matches, unless the quantity is not positive. -/
def splitByRules (countryQty : ℤ) (orders : List (Option String × ℤ))
    (countryWarehouses : List String) : Except String CountryAllocationResult :=
  (if countryQty ≤ 0 then .ok () else (positiveOrders orders).forM fun order =>
    (matchWarehouses U N order.1 country rules).map fun _ => ()).map fun _ =>
      explainCountryQtySplit (matchedBy U N country rules) countryQty orders countryWarehouses

/-- No match of an order raises. -/
def MatchesAll (orders : List (Option String × ℤ)) : Prop :=
  ∀ order ∈ positiveOrders orders, ∃ winners,
    matchWarehouses U N order.1 country rules = .ok winners

instance (orders : List (Option String × ℤ)) : Decidable (MatchesAll U N country rules orders) :=
  decidable_of_iff (∀ order ∈ positiveOrders orders,
      (matchWarehouses U N order.1 country rules).toOption.isSome = true) <| by
    refine forall₂_congr fun order _ => ?_
    cases matchWarehouses U N order.1 country rules with
    | error e => simp [Except.toOption]
    | ok winners => simp [Except.toOption]

variable {U N country rules}

theorem splitByRules_ok_iff {countryQty : ℤ} (hq : 0 < countryQty)
    {orders : List (Option String × ℤ)} {countryWarehouses : List String}
    {a : CountryAllocationResult} :
    splitByRules U N country rules countryQty orders countryWarehouses = .ok a ↔
      MatchesAll U N country rules orders ∧
      a = explainCountryQtySplit (matchedBy U N country rules)
      countryQty orders countryWarehouses := by
  have hall : ((positiveOrders orders).forM fun order =>
      (matchWarehouses U N order.1 country rules).map fun _ => ()) = .ok () ↔
          MatchesAll U N country rules orders := by
    rw [Checked.forM_ok_iff]
    refine forall₂_congr fun order _ => ?_
    cases matchWarehouses U N order.1 country rules with
    | error e => simp [Except.map]
    | ok winners => simp [Except.map]
  rw [← hall, splitByRules, if_neg (not_le.mpr hq)]
  cases (positiveOrders orders).forM fun order =>
      (matchWarehouses U N order.1 country rules).map fun _ => () with
  | error e => simp [Except.map]
  | ok u => simp [Except.map, eq_comm]

end Split

/-! ### The orders that are counted -/

section Orders

variable {matchWarehouses : Option String → List String} {eligible : List String}
    {orders : List (Option String × ℤ)}

theorem positiveOrders_pos : ∀ order ∈ positiveOrders orders, 0 < order.2 := fun order ho => by
  simpa [positiveOrders] using (List.mem_filter.mp ho).2

/-- Every order that is counted is matched or unknown. -/
theorem matched_add_unknown : matchedOrderQty matchWarehouses eligible orders +
    unknownOrderQty matchWarehouses eligible orders =
    ((positiveOrders orders).map Prod.snd).sum := by
  unfold matchedOrderQty unknownOrderQty
  rw [Sums.sum_map_filter, Sums.sum_map_filter, ← List.sum_map_add]
  refine congrArg List.sum (List.map_congr_left fun order _ => ?_)
  by_cases h : eligibleWinners matchWarehouses eligible order.1 = []
  · simp [h]
  · simp [h]

/-- The part of an order that counts for a warehouse, as a share of its quantity. -/
def winnerShare (matchWarehouses : Option String → List String) (eligible : List String)
    (wid : String) (postalCode : Option String) : ℚ :=
  (eligibleWinners matchWarehouses eligible postalCode).count wid /
    (eligibleWinners matchWarehouses eligible postalCode).length

theorem winnerShare_nonneg (wid : String) (postalCode : Option String) :
    0 ≤ winnerShare matchWarehouses eligible wid postalCode := by
  unfold winnerShare
  positivity

theorem winnerShare_eq_zero_iff {wid : String} {postalCode : Option String} :
    winnerShare matchWarehouses eligible wid postalCode = 0 ↔
      wid ∉ eligibleWinners matchWarehouses eligible postalCode := by
  unfold winnerShare
  rw [div_eq_zero_iff, Nat.cast_eq_zero, Nat.cast_eq_zero, List.count_eq_zero,
    List.length_eq_zero_iff]
  constructor
  · rintro (h | h)
    · exact h
    · simp [h]
  · exact Or.inl

theorem sum_valuesAt_winners (wid : String) (x : ℚ) : ∀ winners : List String,
    (Dict.valuesAt (winners.map fun w => (w, x)) wid).sum = winners.count wid * x
  | [] => by simp [Dict.valuesAt]
  | w :: winners => by
    have ih := sum_valuesAt_winners wid x winners
    rw [List.map_cons, List.count_cons]
    by_cases h : w = wid
    · subst h
      have hcons := Dict.valuesAt_cons_self (w, x) (winners.map fun w => (w, x))
      simp only at hcons
      rw [hcons, List.sum_cons, ih, beq_self_eq_true, if_pos rfl]
      push_cast
      ring
    · rw [Dict.valuesAt_cons_ne h, ih, beq_eq_false_iff_ne.mpr h,
        if_neg Bool.false_ne_true, add_zero]

/-- **What a warehouse counts** is its share of every order; without a share it is
not counted at all. -/
theorem get?_knownCounts (wid : String) : (knownCounts matchWarehouses eligible orders).get? wid =
    if ((positiveOrders orders).map fun o => winnerShare matchWarehouses eligible wid o.1 *
      o.2).sum = 0 then none
    else some ((positiveOrders orders).map fun o => winnerShare matchWarehouses eligible wid o.1 *
      o.2).sum := by
  have hsum : (Dict.valuesAt ((positiveOrders orders).flatMap fun order =>
      (eligibleWinners matchWarehouses eligible order.1).map fun w =>
        (w, (order.2 : ℚ) / (eligibleWinners matchWarehouses eligible order.1).length)) wid).sum =
      ((positiveOrders orders).map fun o => winnerShare matchWarehouses eligible wid o.1 *
          o.2).sum := by
    rw [Dict.valuesAt_flatMap, List.flatMap_def, List.sum_flatten, List.map_map]
    refine congrArg List.sum (List.map_congr_left fun order _ => ?_)
    rw [Function.comp_apply, sum_valuesAt_winners, winnerShare]
    ring
  have hnil : Dict.valuesAt ((positiveOrders orders).flatMap fun order =>
      (eligibleWinners matchWarehouses eligible order.1).map fun w =>
        (w, (order.2 : ℚ) / (eligibleWinners matchWarehouses eligible order.1).length)) wid = [] ↔
      ((positiveOrders orders).map fun o => winnerShare matchWarehouses eligible wid o.1 *
          o.2).sum = 0 := by
    have hnonneg : ∀ x ∈ (positiveOrders orders).map fun o =>
        winnerShare matchWarehouses eligible wid o.1 * o.2, 0 ≤ x := by
      intro x hx
      obtain ⟨o, ho, rfl⟩ := List.mem_map.mp hx
      have hqty : (0 : ℚ) ≤ o.2 := by exact_mod_cast (positiveOrders_pos o ho).le
      exact mul_nonneg (winnerShare_nonneg wid o.1) hqty
    constructor
    · intro h
      rw [← hsum, h, List.sum_nil]
    · intro h
      rw [List.eq_nil_iff_forall_not_mem]
      intro x hx
      obtain ⟨order, ho, hm⟩ := List.mem_flatMap.mp (Dict.mem_valuesAt.mp hx)
      obtain ⟨w, hw, hwx⟩ := List.mem_map.mp hm
      obtain ⟨rfl, -⟩ := Prod.mk.inj hwx
      have hzero := List.all_zero_of_le_zero_le_of_sum_eq_zero hnonneg h (List.mem_map_of_mem ho)
      have hqty : (order.2 : ℚ) ≠ 0 := by exact_mod_cast (positiveOrders_pos order ho).ne'
      exact winnerShare_eq_zero_iff.mp ((mul_eq_zero.mp hzero).resolve_right hqty) hw
  rw [knownCounts, Dict.get?_sumBy, hsum]
  simp only [hnil]

/-- The counts add up to the matched quantity. -/
theorem sum_knownCounts : (knownCounts matchWarehouses eligible orders).values.sum =
    (matchedOrderQty matchWarehouses eligible orders : ℚ) := by
  have hall := sum_groupSum (g := fun _ (v : ℚ) => v) (fun _ _ _ => rfl)
      ((positiveOrders orders).flatMap fun order =>
    (eligibleWinners matchWarehouses eligible order.1).map fun wid =>
      (wid, (order.2 : ℚ) / (eligibleWinners matchWarehouses eligible order.1).length))
  refine hall.trans ?_
  rw [List.map_flatMap, List.flatMap_def, List.sum_flatten, List.map_map, matchedOrderQty,
    Sums.sum_map_filter]
  push_cast
  rw [List.map_map]
  refine congrArg List.sum (List.map_congr_left fun order _ => ?_)
  simp only [Function.comp_apply, List.map_map, Function.comp_def, List.map_const',
    List.sum_replicate, nsmul_eq_mul]
  by_cases h : eligibleWinners matchWarehouses eligible order.1 = []
  · simp [h]
  · have hlen : ((eligibleWinners matchWarehouses eligible order.1).length : ℚ) ≠ 0 := by
      exact_mod_cast (List.length_pos_of_ne_nil h).ne'
    simp only [h, ne_eq, not_false_eq_true, decide_true, if_true]
    field_simp

theorem matchedOrderQty_nonneg : 0 ≤ matchedOrderQty matchWarehouses eligible orders := by
  refine Sums.sum_nonneg fun order ho => ?_
  exact (positiveOrders_pos order (List.mem_of_mem_filter ho)).le

end Orders

/-! ### The two outcomes of a split -/

section Outcomes

variable {matchWarehouses : Option String → List String} {countryQty : ℤ}
    {orders : List (Option String × ℤ)}
  {countryWarehouses : List String}

/-- With a matched order both buckets are split. -/
theorem explainCountryQtySplit_of_matched (hq : 0 < countryQty)
    (hm : 0 < matchedOrderQty matchWarehouses (Dict.fromKeys countryWarehouses) orders) :
    explainCountryQtySplit matchWarehouses countryQty orders countryWarehouses =
      ⟨splitKnownUnknown countryQty
        (matchedOrderQty matchWarehouses (Dict.fromKeys countryWarehouses) orders)
        (unknownOrderQty matchWarehouses (Dict.fromKeys countryWarehouses) orders)
        (knownCounts matchWarehouses (Dict.fromKeys countryWarehouses) orders)
        (Dict.fromKeys countryWarehouses),
        if 0 < unknownOrderQty matchWarehouses (Dict.fromKeys countryWarehouses) orders then
        .mixedKnownUnknown
          else .matched,
        matchedOrderQty matchWarehouses (Dict.fromKeys countryWarehouses) orders,
        unknownOrderQty matchWarehouses (Dict.fromKeys countryWarehouses) orders,
        Dict.fromKeys countryWarehouses⟩ := by
  have hsum : 0 < (knownCounts matchWarehouses (Dict.fromKeys countryWarehouses)
      orders).values.sum := by
    rw [sum_knownCounts]
    exact_mod_cast hm
  unfold explainCountryQtySplit
  simp only [if_neg (not_le.mpr hq), if_pos hsum]

/-- Without one nothing depends on the counts. -/
theorem explainCountryQtySplit_of_unmatched (hq : 0 < countryQty)
    (hm : matchedOrderQty matchWarehouses (Dict.fromKeys countryWarehouses) orders = 0) :
    explainCountryQtySplit matchWarehouses countryQty orders countryWarehouses =
      if Dict.fromKeys countryWarehouses = [] then
        ⟨.empty, .noWarehouse, 0,
          unknownOrderQty matchWarehouses (Dict.fromKeys countryWarehouses) orders, []⟩
      else ⟨Dict.sumBy (allocateEven countryQty (Dict.fromKeys countryWarehouses)),
        .fallbackEven, 0, unknownOrderQty matchWarehouses (Dict.fromKeys countryWarehouses) orders,
        Dict.fromKeys countryWarehouses⟩ := by
  have hsum : ¬ 0 < (knownCounts matchWarehouses (Dict.fromKeys countryWarehouses)
      orders).values.sum := by
    rw [sum_knownCounts, hm, Int.cast_zero]
    exact lt_irrefl 0
  unfold explainCountryQtySplit
  simp only [if_neg (not_le.mpr hq), if_neg hsum]

/-- Every order is reported, as matched or as unknown. -/
theorem reported_orderQty (hq : 0 < countryQty) :
    (explainCountryQtySplit matchWarehouses countryQty orders countryWarehouses).matchedOrderQty +
      (explainCountryQtySplit matchWarehouses countryQty orders countryWarehouses).unknownOrderQty =
      ((positiveOrders orders).map Prod.snd).sum := by
  have hadd := @matched_add_unknown matchWarehouses (Dict.fromKeys countryWarehouses) orders
  rcases (@matchedOrderQty_nonneg matchWarehouses (Dict.fromKeys countryWarehouses)
    orders).eq_or_lt with hm | hm
  · rw [explainCountryQtySplit_of_unmatched hq hm.symm]
    rw [← hm] at hadd
    split_ifs
    · exact hadd
    · exact hadd
  · rw [explainCountryQtySplit_of_matched hq hm]
    exact hadd

end Outcomes

/-! ### Conservation -/

/-- **The split conserves the quantity** and accounts for every order: where no match
raises, the parts are positive, go to warehouses of the country and add up to its
quantity, and without a warehouse there is none. -/
theorem splitByRules_conserves (U : CharTable) (N : NumberReader) (country : String)
    (rules : List ZipcodeRule) {countryQty : ℤ} (hq : 0 < countryQty)
    {orders : List (Option String × ℤ)} (hmatch : MatchesAll U N country rules orders)
    (countryWarehouses : List String) :
    ∃ a, splitByRules U N country rules countryQty orders countryWarehouses = .ok a ∧
      (countryWarehouses ≠ [] → SplitOver countryQty countryWarehouses a.warehouseBreakdown) ∧
      (countryWarehouses = [] → a.warehouseBreakdown = .empty) ∧
      a.matchedOrderQty + a.unknownOrderQty = ((positiveOrders orders).map Prod.snd).sum := by
  refine ⟨_, (splitByRules_ok_iff hq).mpr ⟨hmatch, rfl⟩, ?_, ?_, reported_orderQty hq⟩
  · intro hne
    exact splitOver_explainCountryQtySplit _ hq _ hne
  · intro hnil
    rw [hnil]
    exact explainCountryQtySplit_nil _ _ _

/-- Two rules of one priority, the first on the first digit. -/
def exampleRules : List ZipcodeRule :=
  [⟨1, "DE", 1, .number, .lt, "5", "A", 1⟩, ⟨2, "DE", 1, .string, .ne, "2", "B", 1⟩]

theorem splitByRules_conserves_example :
    ∃ a, splitByRules .ascii .digits "DE" exampleRules 5
      [(some "10-1", 3), (some "70", 0), (none, 2)] ["A", "B"] = .ok a ∧
      (["A", "B"] ≠ [] → SplitOver 5 ["A", "B"] a.warehouseBreakdown) ∧
      (["A", "B"] = [] → a.warehouseBreakdown = .empty) ∧ a.matchedOrderQty + a.unknownOrderQty =
        ((positiveOrders [(some "10-1", 3), (some "70", 0), (none, 2)]).map Prod.snd).sum :=
  splitByRules_conserves .ascii .digits "DE" exampleRules (by decide) (by decide +kernel) ["A", "B"]

/-! ### The order of the rows -/

section Rows

variable {U : CharTable} {N : NumberReader} {country : String} {rules : List ZipcodeRule}

/-- The positive quantity under a normalised postal code. -/
def postalTotal (U : CharTable) (orders : List (Option String × ℤ)) (code : String) : ℤ :=
  (((positiveOrders orders).filter fun order => normalizePostal U order.1 = code).map Prod.snd).sum

/-- The warehouses of a normalised postal code. -/
def matchedByCode (U : CharTable) (N : NumberReader) (country : String) (rules : List ZipcodeRule)
    (code : String) :
    List String := (matchNormalized U N code country rules).toOption.getD []

/-- A code with a positive total is the code of an order. -/
theorem postalTotal_ne_zero_iff {orders : List (Option String × ℤ)} {code : String} :
    postalTotal U orders code ≠ 0 ↔
    ∃ order ∈ positiveOrders orders, normalizePostal U order.1 = code := by
  have hpos : ∀ order ∈ (positiveOrders orders).filter fun order =>
      normalizePostal U order.1 = code, 0 < order.2 :=
    fun order ho => positiveOrders_pos order (List.mem_of_mem_filter ho)
  constructor
  · intro h
    by_contra hno
    push Not at hno
    have hnil : ((positiveOrders orders).filter fun order => normalizePostal U order.1 = code) =
        [] := by
      rw [List.filter_eq_nil_iff]
      intro order ho
      simpa using hno order ho
    rw [postalTotal, hnil] at h
    exact h rfl
  · intro h
    obtain ⟨order, ho, hcode⟩ := h
    have hmem : order ∈ (positiveOrders orders).filter fun order =>
        normalizePostal U order.1 = code :=
      List.mem_filter.mpr ⟨ho, decide_eq_true hcode⟩
    have hle := Sums.le_sum (fun o ho' => (hpos o ho').le) hmem
    have hqty := hpos order hmem
    unfold postalTotal
    omega

/-- Whether a match raises depends on the codes with a total only. -/
theorem matchesAll_iff {orders : List (Option String × ℤ)} : MatchesAll U N country rules orders ↔
    ∀ code, postalTotal U orders code ≠ 0 →
    ∃ winners, matchNormalized U N code country rules = .ok winners := by
  constructor
  · intro h code hcode
    obtain ⟨order, ho, rfl⟩ := postalTotal_ne_zero_iff.mp hcode
    exact h order ho
  · intro h order ho
    exact h _ (postalTotal_ne_zero_iff.mpr ⟨order, ho, rfl⟩)

variable {orders orders' : List (Option String × ℤ)}

/-- Sums that weigh the orders by their codes are the same. -/
theorem sum_positiveOrders_congr
    (hsame : ∀ code, postalTotal U orders code = postalTotal U orders' code) (g : String → ℚ) :
    ((positiveOrders orders).map fun o => g (normalizePostal U o.1) * o.2).sum =
      ((positiveOrders orders').map fun o => g (normalizePostal U o.1) * o.2).sum := by
  refine Sums.sum_congr_of_totals (fun o : Option String × ℤ => normalizePostal U o.1)
    (fun o => (o.2 : ℚ)) ?_ g
  intro code
  have hcast : ∀ l : List (Option String × ℤ),
      Sums.totalAt (fun o : Option String × ℤ => normalizePostal U o.1)
      (fun o => (o.2 : ℚ)) (positiveOrders l) code = (postalTotal U l code : ℚ) := by
    intro l
    unfold Sums.totalAt postalTotal
    push_cast
    rw [List.map_map]
    rfl
  rw [hcast, hcast, hsame]

theorem matchedOrderQty_congr
    (hsame : ∀ code, postalTotal U orders code = postalTotal U orders' code)
    (eligible : List String) :
    matchedOrderQty (matchedBy U N country rules) eligible orders =
      matchedOrderQty (matchedBy U N country rules) eligible orders' := by
  have hsum : ∀ l : List (Option String × ℤ),
      (matchedOrderQty (matchedBy U N country rules) eligible l : ℚ) =
      ((positiveOrders l).map fun o =>
        (if (matchedByCode U N country rules (normalizePostal U o.1)).filter
          (fun wid => wid ∈ eligible) ≠ []
          then 1 else 0 : ℚ) * o.2).sum := by
    intro l
    rw [matchedOrderQty, Sums.sum_map_filter]
    push_cast
    rw [List.map_map]
    refine congrArg List.sum (List.map_congr_left fun order _ => ?_)
    rw [Function.comp_apply, ite_mul, one_mul, zero_mul, apply_ite (Int.cast : ℤ → ℚ)]
    simp only [decide_eq_true_eq, Int.cast_zero]
    rfl
  have hcast := sum_positiveOrders_congr hsame fun code =>
    if (matchedByCode U N country rules code).filter (fun wid => wid ∈ eligible) ≠ [] then 1 else 0
  rw [← hsum, ← hsum] at hcast
  exact_mod_cast hcast

theorem unknownOrderQty_congr
    (hsame : ∀ code, postalTotal U orders code = postalTotal U orders' code)
    (eligible : List String) :
    unknownOrderQty (matchedBy U N country rules) eligible orders =
      unknownOrderQty (matchedBy U N country rules) eligible orders' := by
  have htotal := sum_positiveOrders_congr hsame fun _ => 1
  simp only [one_mul] at htotal
  have hcast : ∀ l : List (Option String × ℤ),
      ((positiveOrders l).map fun o => (o.2 : ℚ)).sum =
          (((positiveOrders l).map Prod.snd).sum : ℤ) := by
    intro l
    push_cast
    rw [List.map_map]
    rfl
  rw [hcast, hcast] at htotal
  have hsum : ((positiveOrders orders).map Prod.snd).sum =
      ((positiveOrders orders').map Prod.snd).sum := by
    exact_mod_cast htotal
  have h1 := @matched_add_unknown (matchedBy U N country rules) eligible orders
  have h2 := @matched_add_unknown (matchedBy U N country rules) eligible orders'
  rw [matchedOrderQty_congr hsame] at h1
  omega

theorem get?_knownCounts_congr
    (hsame : ∀ code, postalTotal U orders code = postalTotal U orders' code)
    (eligible : List String) (wid : String) :
    (knownCounts (matchedBy U N country rules) eligible orders).get? wid =
      (knownCounts (matchedBy U N country rules) eligible orders').get? wid := by
  -- the share of a warehouse in an order is a function of the order's code
  have hsum : ((positiveOrders orders).map fun o =>
      winnerShare (matchedBy U N country rules) eligible wid o.1 * o.2).sum =
      ((positiveOrders orders').map fun o => winnerShare (matchedBy U N country rules)
          eligible wid o.1 * o.2).sum :=
    sum_positiveOrders_congr hsame fun code =>
      winnerShare (fun _ => matchedByCode U N country rules code) eligible wid none
  rw [get?_knownCounts, get?_knownCounts, hsum]

/-- The split of a country depends on the totals of the codes only. -/
theorem explainCountryQtySplit_congr
    (hsame : ∀ code, postalTotal U orders code = postalTotal U orders' code) {countryQty : ℤ}
    (hq : 0 < countryQty) (countryWarehouses : List String) :
    explainCountryQtySplit (matchedBy U N country rules) countryQty orders countryWarehouses =
      explainCountryQtySplit (matchedBy U N country rules)
      countryQty orders' countryWarehouses := by
  set eligible := Dict.fromKeys countryWarehouses with heligible
  have hm := @matchedOrderQty_congr U N country rules orders orders' hsame eligible
  have hu := @unknownOrderQty_congr U N country rules orders orders' hsame eligible
  rcases (@matchedOrderQty_nonneg (matchedBy U N country rules) eligible orders).eq_or_lt with
    h0 | hpos
  · rw [explainCountryQtySplit_of_unmatched hq h0.symm,
      explainCountryQtySplit_of_unmatched hq (hm ▸ h0.symm), hu]
  · have hsplit : ∀ counts counts' : Dict String ℚ, (∀ wid, counts.get? wid = counts'.get? wid) →
        ∀ matched unknown, splitKnownUnknown countryQty matched unknown counts eligible =
          splitKnownUnknown countryQty matched unknown counts' eligible := by
      intro counts counts' h matched unknown
      unfold splitKnownUnknown
      simp only [h]
    rw [explainCountryQtySplit_of_matched hq hpos,
      explainCountryQtySplit_of_matched hq (hm ▸ hpos), hm, hu,
      hsplit _ _ (get?_knownCounts_congr hsame eligible)]

/-- The split does not depend on the order of the rules. -/
theorem splitByRules_perm {rules' : List ZipcodeRule} (hrules : rules.Perm rules')
    (hid : (rules.map (·.id)).Nodup) (countryQty : ℤ) (countryWarehouses : List String) :
    splitByRules U N country rules countryQty orders countryWarehouses =
      splitByRules U N country rules' countryQty orders countryWarehouses := by
  have hmatch : ∀ code, matchWarehouses U N code country rules =
      matchWarehouses U N code country rules' :=
    fun code => matchNormalized_perm U N hrules hid (normalizePostal U code) country
  have hmatched : matchedBy U N country rules = matchedBy U N country rules' := by
    funext code
    rw [matchedBy, hmatch, matchedBy]
  unfold splitByRules
  simp only [hmatch, hmatched]

end Rows

/-- **The split does not depend on the order of the rows**: rules in another order and
orders with the same total under every normalised postal code give the same result,
or raise alike. -/
theorem splitByRules_congr (U : CharTable) (N : NumberReader) (country : String)
    {rules rules' : List ZipcodeRule} (hrules : rules.Perm rules') (hid : (rules.map (·.id)).Nodup)
    {orders orders' : List (Option String × ℤ)}
    (hsame : ∀ code, postalTotal U orders code = postalTotal U orders' code) (countryQty : ℤ)
    (countryWarehouses : List String) :
    (splitByRules U N country rules countryQty orders countryWarehouses).toOption =
      (splitByRules U N country rules' countryQty orders' countryWarehouses).toOption := by
  rw [splitByRules_perm hrules hid]
  by_cases hq : 0 < countryQty
  · have hmatches : MatchesAll U N country rules' orders ↔
      MatchesAll U N country rules' orders' := by
      rw [matchesAll_iff, matchesAll_iff]
      simp only [hsame]
    have hok : ∀ a, splitByRules U N country rules' countryQty orders countryWarehouses = .ok a ↔
        splitByRules U N country rules' countryQty orders' countryWarehouses = .ok a := by
      intro a
      rw [splitByRules_ok_iff hq, splitByRules_ok_iff hq, hmatches,
        explainCountryQtySplit_congr hsame hq]
    exact Checked.toOption_eq_of_ok_iff hok
  · unfold splitByRules explainCountryQtySplit
    simp only [if_pos (not_lt.mp hq)]

theorem splitByRules_congr_example :
    (splitByRules .ascii .digits "DE" exampleRules 5 [(some "10-1", 3), (none, 2)]
      ["A", "B"]).toOption =
        (splitByRules .ascii .digits "DE" exampleRules.reverse 5
        [(none, 2), (some "101", 1), (some "1 01", 2)] ["A", "B"]).toOption := by
  have hcode : normalizePostal .ascii (some "10-1") = "101" ∧
      normalizePostal .ascii (some "1 01") = "101" ∧ normalizePostal .ascii (some "101") = "101" ∧
      normalizePostal .ascii none = "" := by decide +kernel
  obtain ⟨h1, h2, h3, h4⟩ := hcode
  have hpos : positiveOrders [(some "10-1", 3), (none, 2)] = [(some "10-1", 3), (none, 2)] ∧
      positiveOrders [(none, 2), (some "101", 1), (some "1 01", 2)] =
          [(none, 2), (some "101", 1), (some "1 01", 2)] := by
    decide
  refine splitByRules_congr .ascii .digits "DE" (List.reverse_perm _).symm (by decide)
    (fun code => ?_) 5 ["A", "B"]
  unfold postalTotal
  rw [hpos.1, hpos.2]
  simp only [List.filter_cons, List.filter_nil, h1, h2, h3, h4]
  by_cases ha : "101" = code <;> by_cases hb : "" = code <;> simp [ha, hb]

/-! ### Proportion -/

section Proportion

variable {matchWarehouses : Option String → List String} {eligible : List String}
    {orders : List (Option String × ℤ)}
  {counts : Dict String ℚ}

theorem orderedCounts_keys_nodup (hnd : eligible.Nodup) :
    ((orderedCounts counts eligible).map Prod.fst).Nodup := by
  have hkeys : (orderedCounts counts eligible).map Prod.fst = eligible.filter fun wid =>
      (counts.get? wid).isSome := by
    rw [orderedCounts, List.map_filterMap, ← List.filterMap_eq_filter]
    refine List.filterMap_congr fun wid _ => ?_
    cases hget : counts.get? wid with
    | none => simp [Option.guard, hget]
    | some count => simp [Option.guard, hget]
  rw [hkeys]
  exact hnd.filter _

/-- No count is left out of the weights. -/
theorem sum_orderedCounts (hnd : eligible.Nodup)
    (hcounts : ∀ entry ∈ counts.items, entry.1 ∈ eligible) :
    ((orderedCounts counts eligible).map Prod.snd).sum = counts.values.sum := by
  have hperm : (orderedCounts counts eligible).Perm counts.items := by
    refine (List.perm_ext_iff_of_nodup
      (orderedCounts_keys_nodup hnd).of_map counts.nodup.of_map).mpr fun entry => ?_
    rw [mem_orderedCounts, Dict.get?_eq_some_iff]
    exact ⟨fun h => h.2, fun h => ⟨hcounts entry h, h⟩⟩
  exact (hperm.map Prod.snd).sum_eq

/-- The part of a warehouse in the first bucket, without a count too. -/
theorem abs_knownPart_sub_le {knownQty : ℤ} (hk : 0 ≤ knownQty) (hnd : eligible.Nodup)
    (hcounts : ∀ entry ∈ counts.items, entry.1 ∈ eligible ∧ 0 ≤ entry.2)
    (hsum : 0 < counts.values.sum) (wid : String) :
    |(((Dict.valuesAt (allocateByWeights knownQty (orderedCounts counts eligible))
      wid).sum : ℤ) : ℚ) - knownQty * counts.getD wid 0 / counts.values.sum| ≤ 1 := by
  obtain ⟨hnonneg, hweight, -⟩ := orderedCounts_spec hcounts hsum
  have htotal := sum_orderedCounts hnd fun entry he => (hcounts entry he).1
  cases hget : counts.get? wid with
  | none =>
    have hnil : Dict.valuesAt (allocateByWeights knownQty (orderedCounts counts eligible))
        wid = [] := by
      rw [List.eq_nil_iff_forall_not_mem]
      intro q hq
      obtain ⟨⟨w, count⟩, hm, he⟩ :=
        List.mem_map.mp (allocateByWeights_key _ (Dict.mem_valuesAt.mp hq))
      have hsome := (mem_orderedCounts.mp hm).2
      rw [show w = wid from he, hget] at hsome
      cases hsome
    rw [hnil, Dict.getD, hget]
    simp
  | some count =>
    have hmem : (wid, count) ∈ orderedCounts counts eligible :=
      mem_orderedCounts.mpr ⟨(hcounts _ (Dict.get?_eq_some_iff.mp hget)).1, hget⟩
    have hle := abs_allocateByWeights_sub_le hk hweight hnonneg (orderedCounts_keys_nodup hnd) hmem
    have hcount : counts.getD wid 0 = count := by
      rw [Dict.getD, hget, Option.getD_some]
    rw [htotal] at hle
    rwa [hcount]

/-- The first bucket is its share up to one unit. -/
theorem abs_knownQty_sub_le {countryQty matched unknown : ℤ} (hq : 0 ≤ countryQty)
    (hm : 0 < matched) (hu : 0 ≤ unknown) :
    |((((allocateByWeights countryQty [("known", (matched : ℚ)), ("unknown", (unknown : ℚ))]).lookup
      "known").getD 0 : ℤ) : ℚ) - countryQty * matched / (matched + unknown)| ≤ 1 := by
  have hm' : (0 : ℚ) < matched := by exact_mod_cast hm
  have hu' : (0 : ℚ) ≤ unknown := by exact_mod_cast hu
  set weights : List (String × ℚ) :=
    [("known", (matched : ℚ)), ("unknown", (unknown : ℚ))] with hweights
  have hsum : (weights.map Prod.snd).sum = matched + unknown := by
    simp [hweights]
  have hnonneg : ∀ entry ∈ weights, 0 ≤ entry.2 := by
    simp only [hweights, List.mem_cons, List.not_mem_nil, or_false, forall_eq_or_imp, forall_eq]
    exact ⟨hm'.le, hu'⟩
  have hnd : (weights.map Prod.fst).Nodup := by
    have hkeys : weights.map Prod.fst = ["known", "unknown"] := rfl
    rw [hkeys]
    decide
  have hle := abs_allocateByWeights_sub_le hq (by rw [hsum]; linarith) hnonneg hnd
    (show ("known", (matched : ℚ)) ∈ weights from List.mem_cons_self)
  have hlookup : ∀ o : Option ℤ, o.toList.sum = o.getD 0 := by
    intro o
    cases o with
    | none => rfl
    | some n => exact List.sum_singleton
  rwa [hsum, Dict.valuesAt_of_nodup (allocateByWeights_keys_nodup hnd), hlookup] at hle

/-- **The error of the first bucket** reaches a warehouse less what it shares of it. -/
theorem abs_share_sub_le {q m u k n x y knownQty unknownQty : ℚ} (hm : 0 < m) (hu : 0 ≤ u)
    (hk0 : 0 ≤ k) (hkm : k ≤ m) (hn : 1 ≤ n) (hadd : knownQty + unknownQty = q)
    (hbucket : |knownQty - q * m / (m + u)| ≤ 1) (hx : |x - knownQty * k / m| ≤ 1)
    (hy : |y - unknownQty / n| < 1) : |x + y - q * (k + u / n) / (m + u)| < 3 := by
  set δ := knownQty - q * m / (m + u) with hδ
  have hmu : m + u ≠ 0 := by linarith
  have hm0 : m ≠ 0 := hm.ne'
  have hn0 : n ≠ 0 := by linarith
  have herror : knownQty * k / m + unknownQty / n - q * (k + u / n) / (m + u) =
      δ * (k / m - 1 / n) := by
    have hknown : knownQty = δ + q * m / (m + u) := by
      rw [hδ]
      ring
    have hunknown : unknownQty = q - (δ + q * m / (m + u)) := by
      rw [← hknown]
      linarith
    rw [hknown, hunknown]
    field_simp
    ring
  have hpart : |k / m - 1 / n| ≤ 1 := by
    have h1 : 0 ≤ k / m := div_nonneg hk0 hm.le
    have h2 : k / m ≤ 1 := (div_le_one hm).mpr hkm
    have h3 : 0 ≤ 1 / n := by positivity
    have h4 : 1 / n ≤ 1 := (div_le_one (by linarith)).mpr hn
    rw [abs_le]
    constructor <;> linarith
  have hprod : |δ * (k / m - 1 / n)| ≤ 1 := by
    rw [abs_mul]
    calc |δ| * |k / m - 1 / n| ≤ 1 * 1 := mul_le_mul hbucket hpart (abs_nonneg _) zero_le_one
      _ = 1 := one_mul 1
  rw [← herror] at hprod
  rw [abs_le] at hprod hx
  rw [abs_lt] at hy ⊢
  constructor <;> linarith [hprod.1, hprod.2, hx.1, hx.2, hy.1, hy.2]

/-- A warehouse counts no more than all of them. -/
theorem getD_knownCounts_le (wid : String) :
    0 ≤ (knownCounts matchWarehouses eligible orders).getD wid 0 ∧
    (knownCounts matchWarehouses eligible orders).getD wid 0 ≤
    matchedOrderQty matchWarehouses eligible orders := by
  have hnonneg : ∀ x ∈ (knownCounts matchWarehouses eligible orders).values, 0 ≤ x := by
    intro x hx
    obtain ⟨entry, he, rfl⟩ := List.mem_map.mp hx
    exact (knownCounts_spec entry he).2
  rw [← sum_knownCounts]
  cases hget : (knownCounts matchWarehouses eligible orders).get? wid with
  | none =>
    rw [Dict.getD, hget]
    exact ⟨le_rfl, List.sum_nonneg hnonneg⟩
  | some count =>
    have hmem : count ∈ (knownCounts matchWarehouses eligible orders).values :=
      List.mem_map_of_mem (Dict.get?_eq_some_iff.mp hget)
    rw [Dict.getD, hget]
    exact ⟨hnonneg count hmem, List.single_le_sum hnonneg _ hmem⟩

theorem abs_splitKnownUnknown_sub_lt {countryQty : ℤ} (hq : 0 < countryQty) (hnd : eligible.Nodup)
    (hm : 0 < matchedOrderQty matchWarehouses eligible orders) {wid : String}
    (hw : wid ∈ eligible) :
    |(((splitKnownUnknown countryQty (matchedOrderQty matchWarehouses eligible orders)
      (unknownOrderQty matchWarehouses eligible orders)
      (knownCounts matchWarehouses eligible orders) eligible).getD
        wid 0 : ℤ) : ℚ) - countryQty * ((knownCounts matchWarehouses eligible orders).getD wid 0 +
          unknownOrderQty matchWarehouses eligible orders / eligible.length) /
        (matchedOrderQty matchWarehouses eligible orders + unknownOrderQty matchWarehouses eligible
          orders)| < 3 := by
  set m := matchedOrderQty matchWarehouses eligible orders
  set u := unknownOrderQty matchWarehouses eligible orders
  have hu : 0 ≤ u := unknownOrderQty_nonneg
  obtain ⟨hk, hn, hadd⟩ := buckets_add hq hm hu
  have hsum : 0 < (knownCounts matchWarehouses eligible orders).values.sum := by
    rw [sum_knownCounts]
    exact_mod_cast hm
  have hx := abs_knownPart_sub_le hk hnd knownCounts_spec hsum wid
  rw [sum_knownCounts] at hx
  have hy := abs_allocateEven_sub_lt hn hnd hw
  have hlen : (1 : ℚ) ≤ eligible.length := by exact_mod_cast List.length_pos_of_mem hw
  obtain ⟨hk0, hkm⟩ := @getD_knownCounts_le matchWarehouses eligible orders wid
  have hcast := abs_share_sub_le (by exact_mod_cast hm) (by exact_mod_cast hu) hk0 hkm hlen
    (by exact_mod_cast hadd)
    (abs_knownQty_sub_le hq.le hm hu) hx hy
  rw [splitKnownUnknown_eq, Dict.getD_sumBy, bucketParts, Dict.valuesAt_append, List.sum_append,
    Int.cast_add]
  exact hcast

end Proportion

/-- **The split is proportional**: where some order is matched, every warehouse gets
its share of the matched and of the unknown units, up to less than three units. -/
theorem splitByRules_proportional (U : CharTable) (N : NumberReader) (country : String)
    (rules : List ZipcodeRule) {countryQty : ℤ} (hq : 0 < countryQty)
    {orders : List (Option String × ℤ)} (hmatch : MatchesAll U N country rules orders)
    {countryWarehouses : List String} (hnd : countryWarehouses.Nodup)
    (hm : 0 < matchedOrderQty (matchedBy U N country rules) countryWarehouses orders) :
    ∃ a, splitByRules U N country rules countryQty orders countryWarehouses = .ok a ∧
      ∀ wid ∈ countryWarehouses, |((a.warehouseBreakdown.getD wid 0 : ℤ) : ℚ) -
        countryQty * ((knownCounts (matchedBy U N country rules) countryWarehouses orders).getD wid
          0 + unknownOrderQty (matchedBy U N country rules) countryWarehouses orders /
          countryWarehouses.length) /
        (matchedOrderQty (matchedBy U N country rules) countryWarehouses orders +
          unknownOrderQty (matchedBy U N country rules) countryWarehouses orders)| < 3 := by
  refine ⟨_, (splitByRules_ok_iff hq).mpr ⟨hmatch, rfl⟩, fun wid hw => ?_⟩
  have heligible : Dict.fromKeys countryWarehouses = countryWarehouses := Dict.fromKeys_eq_self hnd
  rw [explainCountryQtySplit_of_matched hq (heligible.symm ▸ hm), heligible]
  exact abs_splitKnownUnknown_sub_lt hq hnd hm hw

theorem splitByRules_proportional_example :
    ∃ a, splitByRules .ascii .digits "DE" exampleRules 5 [(some "10-1", 3), (none, 2)]
      ["A", "B"] = .ok a ∧ ∀ wid ∈ ["A", "B"], |((a.warehouseBreakdown.getD wid 0 : ℤ) : ℚ) -
        (5 : ℤ) * ((knownCounts (matchedBy .ascii .digits "DE" exampleRules) ["A", "B"]
          [(some "10-1", 3), (none, 2)]).getD wid 0 +
          unknownOrderQty (matchedBy .ascii .digits "DE" exampleRules) ["A", "B"]
          [(some "10-1", 3), (none, 2)] /
            (["A", "B"].length : ℕ)) /
        (matchedOrderQty (matchedBy .ascii .digits "DE" exampleRules) ["A", "B"]
          [(some "10-1", 3), (none, 2)] + unknownOrderQty
          (matchedBy .ascii .digits "DE" exampleRules) ["A", "B"] [(some "10-1", 3), (none, 2)])| <
          3 :=
  splitByRules_proportional .ascii .digits "DE" exampleRules (by decide)
    (by decide +kernel) (by decide)
    (by decide +kernel)

end Restock
