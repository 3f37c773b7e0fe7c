/-
# The winners of a postal code

A rule of the country wins if it matches and no rule that matches has a smaller priority.
The matcher goes through the rules once and stops beyond the priority of its first match;
it gives the warehouses of the winners, once each and by the least id of their winners
(`matchWarehouses_spec`).

A comparison that raises ends the match, unless a rule of smaller priority matches
(`matchNormalized_ok_iff`).
-/
import Restock.Lib.Checked
import Restock.Lib.Ranked
import Restock.ZipcodeMatcher

namespace Restock

open PyText

section Winners

variable (U : CharTable) (N : NumberReader) (normalized country : String) (rules : List ZipcodeRule)

/-- The prefix of the code is there, and long enough. -/
def ZipcodeRule.Compared (rule : ZipcodeRule) : Prop :=
  extractPrefix normalized rule.prefixLength ≠ "" ∧
    rule.prefixLength ≤ (extractPrefix normalized rule.prefixLength).length

def ZipcodeRule.comparison (rule : ZipcodeRule) : Except String Bool :=
  zipcodeCompare U N (extractPrefix normalized rule.prefixLength)
    rule.operator rule.compareValue rule.valueType

/-- A rule of the country that accepts the code. -/
structure Matches (rule : ZipcodeRule) : Prop where
  mem : rule ∈ rules
  country_eq : rule.country = country
  compared : rule.Compared normalized
  accepts : rule.comparison U N normalized = .ok true

/-- No rule that accepts the code has a smaller priority. -/
structure Wins (rule : ZipcodeRule) : Prop extends Matches U N normalized country rules rule where
  least : ∀ rule', Matches U N normalized country rules rule' → rule.priority ≤ rule'.priority

/-- A rule of the country whose comparison raises. -/
structure Raises (rule : ZipcodeRule) : Prop where
  mem : rule ∈ rules
  country_eq : rule.country = country
  compared : rule.Compared normalized
  fails : ∃ e, rule.comparison U N normalized = .error e

variable {U N normalized country rules}

theorem ruleMatches_of_compared {rule : ZipcodeRule} (h : rule.Compared normalized) :
    ruleMatches U N normalized rule = rule.comparison U N normalized := by
  unfold ruleMatches
  rw [if_neg]
  · rfl
  · rintro (h0 | hlt)
    · exact h.1 h0
    · exact absurd h.2 (not_le.mpr hlt)

theorem ruleMatches_of_not_compared {rule : ZipcodeRule} (h : ¬ rule.Compared normalized) :
    ruleMatches U N normalized rule = .ok false := by
  unfold ruleMatches
  rw [if_pos]
  by_contra hn
  rw [not_or, not_lt] at hn
  exact h hn

theorem mem_countryRules {rule : ZipcodeRule} :
    rule ∈ countryRules country rules ↔ rule ∈ rules ∧ rule.country = country := by
  unfold countryRules
  rw [List.mem_insertionSort, List.mem_filter, decide_eq_true_eq]

theorem matches_iff {rule : ZipcodeRule} : Matches U N normalized country rules rule ↔
    rule ∈ countryRules country rules ∧ ruleMatches U N normalized rule = .ok true := by
  rw [mem_countryRules]
  by_cases hc : rule.Compared normalized
  · rw [ruleMatches_of_compared hc]
    exact ⟨fun h => ⟨⟨h.mem, h.country_eq⟩, h.accepts⟩, fun h => ⟨h.1.1, h.1.2, hc, h.2⟩⟩
  · rw [ruleMatches_of_not_compared hc]
    exact ⟨fun h => absurd h.compared hc, fun h => by cases h.2⟩

theorem raises_iff {rule : ZipcodeRule} : Raises U N normalized country rules rule ↔
    rule ∈ countryRules country rules ∧ ∃ e, ruleMatches U N normalized rule = .error e := by
  rw [mem_countryRules]
  by_cases hc : rule.Compared normalized
  · rw [ruleMatches_of_compared hc]
    exact ⟨fun h => ⟨⟨h.mem, h.country_eq⟩, h.fails⟩, fun h => ⟨h.1.1, h.1.2, hc, h.2⟩⟩
  · rw [ruleMatches_of_not_compared hc]
    exact ⟨fun h => absurd h.compared hc, fun h => by obtain ⟨-, e, he⟩ := h; cases he⟩

/-- The matcher is the loop of the library, with the warehouses collected on the way. -/
theorem winnersOf_eq : ∀ (rules : List ZipcodeRule) (best : Option ℤ) (winners : List String),
    winnersOf U N normalized best winners rules =
      (Ranked.firstMatches ZipcodeRule.priority (ruleMatches U N normalized)
        best rules).map fun l =>
        (l.map ZipcodeRule.warehouseId).foldl Ranked.addNew winners
  | [], _, _ => rfl
  | rule :: rules, best, winners => by
    unfold winnersOf Ranked.firstMatches
    by_cases hb : (best.any fun priority => decide (priority < rule.priority)) = true
    · rw [if_pos hb, if_pos hb]
      rfl
    · rw [if_neg hb, if_neg hb]
      cases ht : ruleMatches U N normalized rule with
      | error e => rfl
      | ok matched =>
        cases matched with
        | false => exact winnersOf_eq rules best winners
        | true =>
          show winnersOf U N normalized _ (Ranked.addNew winners rule.warehouseId) rules = _
          rw [winnersOf_eq rules]
          cases Ranked.firstMatches ZipcodeRule.priority (ruleMatches U N normalized) _ rules with
          | error e => rfl
          | ok l => rfl

theorem pairwise_countryRules : (countryRules country rules).Pairwise RuleOrder := by
  have := RuleOrder.total
  have := RuleOrder.trans
  exact List.pairwise_insertionSort _ _

/-- No comparison ends the match: those that raise come behind a rule that matches. -/
def Returns (U : CharTable) (N : NumberReader) (normalized country : String)
    (rules : List ZipcodeRule) : Prop :=
  ∀ rule, Raises U N normalized country rules rule →
    ∃ rule', Matches U N normalized country rules rule' ∧ rule'.priority < rule.priority

theorem beaten_iff {rule : ZipcodeRule} :
    Ranked.Beaten ZipcodeRule.priority (ruleMatches U N normalized) none
      (countryRules country rules) rule ↔ ∃ rule', Matches U N normalized country rules rule' ∧
      rule'.priority < rule.priority := by
  simp [Ranked.Beaten, matches_iff, and_assoc]

theorem wins_iff {rule : ZipcodeRule} (hm : rule ∈ countryRules country rules) :
    Wins U N normalized country rules rule ↔ ruleMatches U N normalized rule = .ok true ∧
      ¬ Ranked.Beaten ZipcodeRule.priority (ruleMatches U N normalized) none
      (countryRules country rules) rule := by
  rw [beaten_iff, not_exists]
  constructor
  · intro h
    refine ⟨(matches_iff.mp h.toMatches).2, fun rule' hr => ?_⟩
    exact absurd (h.least rule' hr.1) (not_le.mpr hr.2)
  · intro h
    refine ⟨matches_iff.mpr ⟨hm, h.1⟩, fun rule' hr => ?_⟩
    exact not_lt.mp fun hlt => h.2 rule' ⟨hr, hlt⟩

/-- The rules that win, in their order. -/
noncomputable def winningRules (U : CharTable) (N : NumberReader) (normalized country : String)
    (rules : List ZipcodeRule) : List ZipcodeRule :=
  Ranked.unbeaten ZipcodeRule.priority (ruleMatches U N normalized) none
    (countryRules country rules)

theorem mem_winningRules {rule : ZipcodeRule} :
    rule ∈ winningRules U N normalized country rules ↔ Wins U N normalized country rules rule := by
  unfold winningRules
  rw [Ranked.mem_unbeaten]
  constructor
  · intro h
    exact (wins_iff h.1).mpr h.2
  · intro h
    have hm := mem_countryRules.mpr ⟨h.mem, h.country_eq⟩
    exact ⟨hm, (wins_iff hm).mp h⟩

theorem winnersOf_ok_iff {winners : List String} :
    winnersOf U N normalized none [] (countryRules country rules) = .ok winners ↔
      Returns U N normalized country rules ∧
      winners = ((winningRules U N normalized country rules).map ZipcodeRule.warehouseId).foldl
      Ranked.addNew [] := by
  have hsorted : (countryRules country rules).Pairwise fun a b => a.priority ≤ b.priority :=
    pairwise_countryRules.imp fun {a b} h => by
      unfold RuleOrder at h
      omega
  have hspec := fun l =>
    @Ranked.firstMatches_ok_iff _ _ _ _ ZipcodeRule.priority (ruleMatches U N normalized) _ none
    hsorted (by simp) l
  have hfails : (∀ rule ∈ countryRules country rules,
      (∃ e, ruleMatches U N normalized rule = .error e) →
        Ranked.Beaten ZipcodeRule.priority (ruleMatches U N normalized) none
        (countryRules country rules) rule) ↔ Returns U N normalized country rules := by
    unfold Returns
    simp only [raises_iff, beaten_iff, and_imp]
  rw [winnersOf_eq, Checked.map_ok_iff]
  constructor
  · intro h
    obtain ⟨l, hl, rfl⟩ := h
    obtain ⟨hall, rfl⟩ := (hspec l).mp hl
    exact ⟨hfails.mp hall, rfl⟩
  · intro h
    exact ⟨_, (hspec _).mpr ⟨hfails.mpr h.1, rfl⟩, h.2.symm⟩

/-- No prefix of nothing is compared. -/
theorem not_compared_empty {rule : ZipcodeRule} : ¬ rule.Compared "" := by
  intro h
  refine h.1 ?_
  unfold extractPrefix
  rw [String.toList_empty, List.take_nil]

/-- **What a match returns**: the warehouses of the winners, unless a comparison ends it. -/
theorem matchNormalized_ok_iff {winners : List String} :
    matchNormalized U N normalized country rules = .ok winners ↔
      Returns U N normalized country rules ∧
      winners = ((winningRules U N normalized country rules).map ZipcodeRule.warehouseId).foldl
      Ranked.addNew [] := by
  unfold matchNormalized
  by_cases h0 : normalized = ""
  · subst h0
    have hreturns : Returns U N "" country rules :=
      fun rule hr => absurd hr.compared not_compared_empty
    have hnone : winningRules U N "" country rules = [] := by
      rw [List.eq_nil_iff_forall_not_mem]
      intro rule hm
      exact not_compared_empty (mem_winningRules.mp hm).compared
    rw [if_pos rfl, hnone]
    exact ⟨fun h => ⟨hreturns, (Except.ok.inj h).symm⟩, fun h => by rw [h.2]; rfl⟩
  · rw [if_neg h0, winnersOf_ok_iff]

/-! ### The result -/

theorem pairwise_winningRules (hid : (rules.map (·.id)).Nodup) :
    (winningRules U N normalized country rules).Pairwise fun a b => a.id < b.id := by
  have hsub : (winningRules U N normalized country rules).Sublist (countryRules country rules) :=
    Ranked.unbeaten_sublist _ _
  have hids : ((countryRules country rules).map (·.id)).Nodup :=
    ((List.perm_insertionSort _ _).map _).nodup_iff.mpr (hid.sublist (List.filter_sublist.map _))
  have hne : (winningRules U N normalized country rules).Pairwise fun a b => a.id ≠ b.id :=
    List.pairwise_map.mp (hids.sublist (hsub.map _))
  refine ((pairwise_countryRules.sublist hsub).and hne).imp_of_mem fun {a b} ha hb h => ?_
  obtain ⟨horder, hdiff⟩ := h
  have hab := (mem_winningRules.mp ha).least b (mem_winningRules.mp hb).toMatches
  have hba := (mem_winningRules.mp hb).least a (mem_winningRules.mp ha).toMatches
  unfold RuleOrder at horder
  omega

/-- Of the rules that match one has the least priority. -/
theorem exists_wins_iff :
    (∃ rule, Wins U N normalized country rules rule) ↔
    ∃ rule, Matches U N normalized country rules rule := by
  classical
  constructor
  · intro h
    obtain ⟨rule, hw⟩ := h
    exact ⟨rule, hw.toMatches⟩
  · intro h
    obtain ⟨rule₀, hm₀⟩ := h
    set s := rules.toFinset.filter fun rule => Matches U N normalized country rules rule with hs
    have hmem : ∀ rule, rule ∈ s ↔ Matches U N normalized country rules rule := by
      intro rule
      rw [hs, Finset.mem_filter, List.mem_toFinset]
      exact and_iff_right_of_imp fun hm => hm.mem
    obtain ⟨rule, hm, hmin⟩ := s.exists_min_image ZipcodeRule.priority ⟨rule₀, (hmem rule₀).mpr hm₀⟩
    exact ⟨rule, (hmem rule).mp hm, fun rule' hm' => hmin rule' ((hmem rule').mpr hm')⟩

end Winners

/-- **The matcher is its specification**: where no comparison raises, it gives the
warehouses of the rules that win, once each, in the order of their least ids; and it gives
none exactly if no rule matches. -/
theorem matchWarehouses_spec (U : CharTable) (N : NumberReader) (postalCode : Option String)
    (country : String) (rules : List ZipcodeRule) (hid : (rules.map (·.id)).Nodup)
    (hcompare : ∀ rule, ¬ Raises U N (normalizePostal U postalCode) country rules rule) :
    ∃ winners, matchWarehouses U N postalCode country rules = .ok winners ∧ winners.Nodup ∧
      (∀ wid, wid ∈ winners ↔ ∃ rule, Wins U N (normalizePostal U postalCode) country rules rule ∧
        rule.warehouseId = wid) ∧
        (winners.Pairwise fun wid wid' => ∃ rule, Wins U N (normalizePostal U postalCode)
          country rules rule ∧ rule.warehouseId = wid ∧
          ∀ rule', Wins U N (normalizePostal U postalCode) country rules rule' →
          rule'.warehouseId = wid' → rule.id < rule'.id) ∧
      (winners = [] ↔ ∀ rule, ¬ Matches U N (normalizePostal U postalCode) country rules rule) := by
  set normalized := normalizePostal U postalCode
  set winners := ((winningRules U N normalized country rules).map ZipcodeRule.warehouseId).foldl
    Ranked.addNew [] with hwinners
  have hmem : ∀ wid, wid ∈ winners ↔ ∃ rule, Wins U N normalized country rules rule ∧
      rule.warehouseId = wid := by
    intro wid
    rw [hwinners, Ranked.mem_foldl_addNew]
    simp only [mem_winningRules]
  have horder := Ranked.pairwise_foldl_addNew ZipcodeRule.warehouseId
    (@pairwise_winningRules U N normalized country rules hid)
  simp only [mem_winningRules] at horder
  have hempty : winners = [] ↔ ∀ rule, ¬ Matches U N normalized country rules rule := by
    rw [← not_exists, ← exists_wins_iff, List.eq_nil_iff_forall_not_mem, not_exists]
    constructor
    · intro h rule hw
      exact h rule.warehouseId ((hmem _).mpr ⟨rule, hw, rfl⟩)
    · intro h wid hm
      obtain ⟨rule, hw, -⟩ := (hmem wid).mp hm
      exact h rule hw
  exact ⟨winners, matchNormalized_ok_iff.mpr ⟨fun rule hr => absurd hr (hcompare rule), rfl⟩,
    Ranked.nodup_foldl_addNew _ _, hmem, horder, hempty⟩

/-- Three rules that match `500`; the two of least priority win. -/
def tiedRules : List ZipcodeRule :=
  [⟨5, "JP", 3, .number, .gt, "451", "late", 10⟩, ⟨2, "JP", 3, .number, .eq, "500", "early", 10⟩,
    ⟨1, "JP", 3, .string, .ne, "499", "never", 20⟩]

example : matchWarehouses .ascii .digits (some "500-0001") "JP" tiedRules = .ok
    ["early", "late"] := by decide +kernel

theorem matchWarehouses_spec_tied :
    ∃ winners, matchWarehouses .ascii .digits (some "500-0001") "JP" tiedRules = .ok winners ∧
      winners.Nodup ∧ (∀ wid, wid ∈ winners ↔
        ∃ rule, Wins .ascii .digits (normalizePostal .ascii (some "500-0001")) "JP" tiedRules rule ∧
        rule.warehouseId = wid) ∧
      (winners.Pairwise fun wid wid' => ∃ rule,
        Wins .ascii .digits (normalizePostal .ascii (some "500-0001")) "JP" tiedRules rule ∧
          rule.warehouseId = wid ∧
            ∀ rule', Wins .ascii .digits (normalizePostal .ascii (some "500-0001"))
            "JP" tiedRules rule' → rule'.warehouseId = wid' → rule.id < rule'.id) ∧
      (winners = [] ↔ ∀ rule, ¬ Matches .ascii .digits (normalizePostal .ascii (some "500-0001"))
        "JP" tiedRules rule) := by
  have hpasses : ∀ rule ∈ tiedRules,
      (rule.comparison .ascii .digits (normalizePostal .ascii (some "500-0001"))).toOption.isSome =
          true := by
    decide +kernel
  refine matchWarehouses_spec .ascii .digits (some "500-0001") "JP" tiedRules (by decide)
    fun rule hr => ?_
  obtain ⟨e, he⟩ := hr.fails
  have hsome := hpasses rule hr.mem
  rw [he] at hsome
  cases hsome

end Restock
