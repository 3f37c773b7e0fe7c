/-
# Stored rules and what they do to a match (`schemas/config.py`)

A rule is stored as `ZipcodeRuleIn` accepts it. The value of a number rule is a text that
`float` reads, and so may be the prefix of a postal code; but `float` reads `nan`, `inf`
and `1e999` too. `=` and `!=` compare what `int` makes of the two sides, and `int` refuses
what is not finite: in this way, and in no other, a stored rule ends a match
(`stored_returns_iff`).

Of two finite numbers `=` and `!=` compare the integer parts, the other operators the
numbers. So the operators order them totally if they are equal or have different integer
parts, and only then (`totallyOrdered_iff`).
-/
import Restock.ZipcodeSplit
import Restock.ZipcodeWinners

namespace Restock

open PyText

/-! ### The schema -/

/-- The body of a rule. -/
structure ZipcodeRuleIn where
  country : String
  prefixLength : ℤ
  valueType : RuleValueType
  operator : RuleOperator
  compareValue : String
  warehouseId : String
  priority : ℤ
deriving DecidableEq, Repr

/-- `_BETWEEN_MAX_SEGMENTS`. -/
def betweenMaxSegments : ℕ := 20

section Schema

-- `isdigit` is `str.isdigit`, which takes more than `int` does.
variable (U : CharTable) (N : NumberReader) (isdigit : String → Bool)

/-- `_parse_between_segments`; what `int` refuses is an error here too. -/
def parseBetweenSegments : List String → Except String (List (ℤ × ℤ))
  | [] => .ok []
  | chunk :: chunks =>
    let piece := strip U chunk
    if piece = "" then parseBetweenSegments chunks
    else match splitDash piece with
      | none => .error s!"between 段 '{piece}' 格式错误,需为 数字-数字"
      | some (low, high) =>
        let loRaw := strip U low
        let hiRaw := strip U high
        if !isdigit loRaw || !isdigit hiRaw then .error s!"between 段 '{piece}' 格式错误,需为 数字-数字"
        else match N.int loRaw, N.int hiRaw with
          | some lo, some hi =>
            if hi < lo then .error s!"between 区间下界不能大于上界: {piece}"
            else (parseBetweenSegments chunks).map ((lo, hi) :: ·)
          | none, _ => .error s!"invalid literal for int() with base 10: '{loRaw}'"
          | some _, none => .error s!"invalid literal for int() with base 10: '{hiRaw}'"

namespace ZipcodeRuleIn

variable (body : ZipcodeRuleIn)

/-- The check of the segments of a range. -/
def checkSegments (segments : List (ℤ × ℤ)) : Except String Unit :=
  let maxValue := 10 ^ body.prefixLength.toNat - 1
  if segments = [] then .error "between 至少需要一个有效区间段"
  else if betweenMaxSegments < segments.length then
    .error s!"between 段数不能超过 {betweenMaxSegments},当前 {segments.length}"
  else match segments.find? fun segment => maxValue < segment.2 with
    | some segment => .error s!"between 上界 {segment.2} 超出前 {body.prefixLength} 位最大值 {maxValue}"
    | none => .ok ()

/-- The check of the compared value. -/
def validateCompareValue : Except String String :=
  let compareValue := strip U body.compareValue
  if compareValue = "" then .error "compare_value 不能为空"
  else if body.operator = .between then
    if body.valueType ≠ .number then .error "between 运算符仅支持 number 值类型"
    else do
      let segments ← parseBetweenSegments U N isdigit (splitCommas compareValue)
      body.checkSegments segments
      return compareValue
  else if body.valueType = .number ∧ N.float compareValue = none then
    .error "数字类型的 compare_value 必须是有效数字"
  else if body.valueType = .string ∧ body.operator ∈ [.contains, .notContains] ∧
      splitCompareValues U compareValue = [] then
    .error "包含/不包含规则至少需要一个有效比较值"
  else .ok compareValue

/-- The check of the operator against the type of the value. -/
def validateOperatorByValueType : Except String Unit :=
  if body.valueType = .string ∧ body.operator ∉ [.eq, .ne, .contains, .notContains] then
    .error "字符串类型仅支持 等于/不等于/包含/不包含"
  else if body.valueType = .number ∧ body.operator ∉ [.eq, .ne, .gt, .ge, .lt, .le, .between] then
    .error "数字类型仅支持 等于/不等于/大于/大于等于/小于/小于等于/区间"
  else .ok ()

/-- The bounds of the fields; the texts of their errors are those of the schema library. -/
def inBounds : Bool :=
  decide (body.country.length = 2) && decide (1 ≤ body.prefixLength ∧ body.prefixLength ≤ 10) &&
    decide (body.operator ≠ .other) && decide
      (1 ≤ body.compareValue.length ∧ body.compareValue.length ≤ 200) &&
    decide (1 ≤ body.priority)

/-- The body after all checks. -/
def validate : Except String ZipcodeRuleIn :=
  if !body.inBounds then .error "validation error"
  else do
    let compareValue ← body.validateCompareValue U N isdigit
    body.validateOperatorByValueType
    return { body with compareValue := compareValue }

/-- The row that `create_zipcode_rule` stores. -/
def rule (id : ℕ) : ZipcodeRule :=
  ⟨id, upper U body.country, body.prefixLength, body.valueType, body.operator, body.compareValue,
    body.warehouseId, body.priority⟩

end ZipcodeRuleIn

/-- A rule as the endpoints store it. -/
def ZipcodeRule.Stored (rule : ZipcodeRule) : Prop :=
  ∃ body body' : ZipcodeRuleIn, body.validate U N isdigit = .ok body' ∧ rule = body'.rule U rule.id

variable {U N isdigit}

/-- The value of a stored number rule is a text that `float` reads. -/
theorem ZipcodeRule.Stored.float_isSome {rule : ZipcodeRule} (h : rule.Stored U N isdigit)
    (hnumber : rule.valueType = .number) (hbetween : rule.operator ≠ .between) :
    (N.float rule.compareValue).isSome = true := by
  obtain ⟨body, body', hv, hrule⟩ := h
  have hvalue : rule.valueType = body'.valueType ∧ rule.operator = body'.operator ∧
      rule.compareValue = body'.compareValue := by
    rw [hrule]
    exact ⟨rfl, rfl, rfl⟩
  obtain ⟨htype, hoperator, htext⟩ := hvalue
  unfold ZipcodeRuleIn.validate at hv
  split at hv
  · cases hv
  · obtain ⟨compareValue, hc, hrest⟩ := Checked.bind_ok hv
    obtain ⟨-, -, hbody⟩ := Checked.bind_ok hrest
    have hbody' : body' = { body with compareValue := compareValue } := (Except.ok.inj hbody).symm
    rw [hbody'] at htype hoperator htext
    simp only at htype hoperator htext
    unfold ZipcodeRuleIn.validateCompareValue at hc
    simp only [← hoperator, ← htype, hbetween, hnumber, if_false, true_and] at hc
    split at hc
    · cases hc
    · split at hc
      · cases hc
      · next hfloat =>
        simp only [reduceCtorEq, false_and, if_false, Except.ok.injEq] at hc
        rw [htext, ← hc]
        exact Option.isSome_iff_ne_none.mpr hfloat

/-! ### Comparisons that raise -/

/-- The number is neither infinite nor nan. -/
def FloatNumber.IsFinite : FloatNumber → Prop
  | .finite _ => True
  | _ => False

theorem FloatNumber.toInt_fails_iff {x : FloatNumber} :
    (∃ e, x.toInt = .error e) ↔ ¬ x.IsFinite := by
  cases x <;> simp [toInt, IsFinite]

/-- The comparison wants the integer parts of two numbers, and one of the two is not finite. -/
structure ZipcodeRule.Overflows (N : NumberReader) (normalized : String) (rule : ZipcodeRule) :
    Prop where
  number : rule.valueType = .number
  equality : rule.operator = .eq ∨ rule.operator = .ne
  compared : rule.Compared normalized
  notFinite : ∃ left, N.float (extractPrefix normalized rule.prefixLength) = some left ∧
    ¬ (left.IsFinite ∧ ∀ right, N.float rule.compareValue = some right → right.IsFinite)

/-- Before every rule of the country that overflows comes a rule that matches. -/
def StopsBeforeOverflow (U : CharTable) (N : NumberReader) (normalized country : String)
    (rules : List ZipcodeRule) : Prop :=
  ∀ rule ∈ rules, rule.country = country → rule.Overflows N normalized →
    ∃ rule', Matches U N normalized country rules rule' ∧ rule'.priority < rule.priority

theorem compareNumbers_fails_iff {left right : FloatNumber} {operator : RuleOperator} :
    (∃ e, compareNumbers left right operator = .error e) ↔
      (operator = .eq ∨ operator = .ne) ∧ ¬ (left.IsFinite ∧ right.IsFinite) := by
  have hparts : ∀ f : ℤ → ℤ → Bool,
      (∃ e, (do return f (← left.toInt) (← right.toInt) : Except String Bool) = .error e) ↔
      ¬ (left.IsFinite ∧ right.IsFinite) := by
    intro f
    rw [not_and_or, ← FloatNumber.toInt_fails_iff, ← FloatNumber.toInt_fails_iff]
    cases left.toInt with
    | error e => simp [bind, Except.bind]
    | ok m => cases right.toInt <;> simp [bind, Except.bind, pure, Except.pure]
  cases operator with
  | eq => simpa [compareNumbers] using hparts fun m n => decide (m = n)
  | ne => simpa [compareNumbers] using hparts fun m n => decide (m ≠ n)
  | _ => simp [compareNumbers]

theorem zipcodeCompare_of_float {left right : String} {leftNum rightNum : FloatNumber}
    {operator : RuleOperator} (hl : N.float left = some leftNum)
    (hr : N.float right = some rightNum) (hbetween : operator ≠ .between) :
    zipcodeCompare U N left operator right .number = compareNumbers leftNum rightNum operator := by
  cases operator with
  | between => exact absurd rfl hbetween
  | _ => simp [zipcodeCompare, compareNumbers, hl, hr]

theorem zipcodeCompare_of_float_none {left right : String} {operator : RuleOperator}
    (h : N.float left = none ∨ N.float right = none) (hbetween : operator ≠ .between) :
    zipcodeCompare U N left operator right .number = .ok false := by
  cases operator with
  | between => exact absurd rfl hbetween
  | other => rfl
  | _ =>
    rcases h with h | h
    · simp [zipcodeCompare, h]
    · cases hl : N.float left <;> simp [zipcodeCompare, h, hl]

/-- `=` and `!=` of numbers raise where a number is not finite, and nothing else raises. -/
theorem zipcodeCompare_fails_iff {left right : String} {operator : RuleOperator}
    {valueType : RuleValueType} :
    (∃ e, zipcodeCompare U N left operator right valueType = .error e) ↔
      valueType = .number ∧ (operator = .eq ∨ operator = .ne) ∧ ∃ leftNum rightNum,
        N.float left = some leftNum ∧ N.float right = some rightNum ∧
        ¬ (leftNum.IsFinite ∧ rightNum.IsFinite) := by
  by_cases hbetween : operator = .between
  · simp [hbetween, zipcodeCompare]
  · cases valueType with
    | string => cases operator <;> simp [zipcodeCompare]
    | number =>
      cases hl : N.float left with
      | none => simp [zipcodeCompare_of_float_none (Or.inl hl) hbetween]
      | some leftNum =>
        cases hr : N.float right with
        | none => simp [zipcodeCompare_of_float_none (Or.inr hr) hbetween]
        | some rightNum => simp [zipcodeCompare_of_float hl hr hbetween, compareNumbers_fails_iff]

/-- **A stored rule raises in one way only.** -/
theorem ZipcodeRule.Stored.fails_iff {normalized : String} {rule : ZipcodeRule}
    (hs : rule.Stored U N isdigit) (hc : rule.Compared normalized) :
    (∃ e, rule.comparison U N normalized = .error e) ↔ rule.Overflows N normalized := by
  unfold ZipcodeRule.comparison
  rw [zipcodeCompare_fails_iff]
  constructor
  · intro h
    obtain ⟨hnumber, hop, left, right, hl, hr, hnot⟩ := h
    refine ⟨hnumber, hop, hc, left, hl, fun hfinite => hnot ⟨hfinite.1, hfinite.2 right hr⟩⟩
  · intro h
    obtain ⟨left, hl, hnot⟩ := h.notFinite
    have hbetween : rule.operator ≠ .between := by
      rcases h.equality with hop | hop <;> simp [hop]
    obtain ⟨right, hr⟩ := Option.isSome_iff_exists.mp (hs.float_isSome h.number hbetween)
    refine ⟨h.number, h.equality, left, right, hl, hr,
      fun hfinite => hnot ⟨hfinite.1, fun right' hr' => ?_⟩⟩
    rw [hr, Option.some.injEq] at hr'
    exact hr' ▸ hfinite.2

section Runs

variable {country : String} {rules : List ZipcodeRule}

theorem returns_iff {normalized : String} (hs : ∀ rule ∈ rules, rule.Stored U N isdigit) :
    Returns U N normalized country rules ↔ StopsBeforeOverflow U N normalized country rules := by
  have hraises : ∀ rule, Raises U N normalized country rules rule ↔
      rule ∈ rules ∧ rule.country = country ∧ rule.Overflows N normalized := by
    intro rule
    constructor
    · intro h
      exact ⟨h.mem, h.country_eq, ((hs rule h.mem).fails_iff h.compared).mp h.fails⟩
    · intro h
      exact ⟨h.1, h.2.1, h.2.2.compared, ((hs rule h.1).fails_iff h.2.2.compared).mpr h.2.2⟩
  unfold Returns StopsBeforeOverflow
  simp only [hraises, and_imp]

theorem matchWarehouses_returns_iff (hs : ∀ rule ∈ rules, rule.Stored U N isdigit)
    (postalCode : Option String) :
    (∃ winners, matchWarehouses U N postalCode country rules = .ok winners) ↔
      StopsBeforeOverflow U N (normalizePostal U postalCode) country rules := by
  unfold matchWarehouses
  simp only [matchNormalized_ok_iff, exists_and_left, exists_eq, and_true]
  exact returns_iff hs

theorem splitByRules_returns_iff (hs : ∀ rule ∈ rules, rule.Stored U N isdigit) (countryQty : ℤ)
    (orders : List (Option String × ℤ)) (countryWarehouses : List String) :
    (∃ a, splitByRules U N country rules countryQty orders countryWarehouses = .ok a) ↔
      countryQty ≤ 0 ∨ ∀ order ∈ orders, 0 < order.2 →
        StopsBeforeOverflow U N (normalizePostal U order.1) country rules := by
  by_cases hq : 0 < countryQty
  · simp only [splitByRules_ok_iff hq, exists_and_left, exists_eq, and_true,
      not_le.mpr hq, false_or]
    unfold MatchesAll positiveOrders
    simp only [matchWarehouses_returns_iff hs, List.mem_filter, decide_eq_true_eq, and_imp]
  · refine iff_of_true ?_ (Or.inl (not_lt.mp hq))
    unfold splitByRules
    rw [if_pos (not_lt.mp hq)]
    exact ⟨_, rfl⟩

end Runs

end Schema

/-- **When stored rules can end a run**: a match returns exactly if a rule that matches
comes before every one that overflows, and a split exactly if this is so for each of its
orders. -/
theorem stored_returns_iff (U : CharTable) (N : NumberReader) (isdigit : String → Bool)
    (country : String) (rules : List ZipcodeRule) (hs : ∀ rule ∈ rules, rule.Stored U N isdigit) :
    (∀ postalCode, (∃ winners, matchWarehouses U N postalCode country rules = .ok winners) ↔
      StopsBeforeOverflow U N (normalizePostal U postalCode) country rules) ∧
    ∀ countryQty orders countryWarehouses,
      (∃ a, splitByRules U N country rules countryQty orders countryWarehouses = .ok a) ↔
        countryQty ≤ 0 ∨ ∀ order ∈ orders, 0 < order.2 →
          StopsBeforeOverflow U N (normalizePostal U order.1) country rules :=
  ⟨matchWarehouses_returns_iff hs, splitByRules_returns_iff hs⟩

/-! ### A rule that compares with `nan` -/

/-- A decimal fraction, with digits before and after the point. -/
def readFraction (text : String) : Option ℚ :=
  match text.toList.span (· ≠ '.') with
  | (whole, []) => (readDigits (String.ofList whole)).map fun m => (m : ℚ)
  | (whole, _ :: part) => do
    let m ← readDigits (String.ofList whole)
    let n ← readDigits (String.ofList part)
    return m + n / 10 ^ part.length

/-- A reader of decimal fractions and of `nan`. -/
def NumberReader.decimal : NumberReader where
  int text := (readDigits text).map Int.ofNat
  float text := if text = "nan" then some .nan else (readFraction text).map .finite

def isDecimalText (text : String) : Bool := (readDigits text).isSome

/-- The rule that an administrator makes of the input `nan`. -/
def nanRuleIn : ZipcodeRuleIn := ⟨"de", 1, .number, .eq, " nan", "W1", 100⟩

def nanRules : List ZipcodeRule := [⟨1, "DE", 1, .number, .eq, "nan", "W1", 100⟩]

theorem nanRules_stored : ∀ rule ∈ nanRules, rule.Stored .ascii .decimal isDecimalText := by
  intro rule hr
  have hrule : rule = ⟨1, "DE", 1, .number, .eq, "nan", "W1", 100⟩ := List.mem_singleton.mp hr
  subst hrule
  exact ⟨nanRuleIn, ⟨"de", 1, .number, .eq, "nan", "W1", 100⟩, by decide +kernel, by decide +kernel⟩

/-- The schema accepts the rule, and no German order can be split with it. -/
theorem stored_raises : (∀ rule ∈ nanRules, rule.Stored .ascii .decimal isDecimalText) ∧
    matchWarehouses .ascii .decimal (some "50667") "DE" nanRules =
    .error "cannot convert float NaN to integer" ∧
    ¬ ∃ a, splitByRules .ascii .decimal "DE" nanRules 1 [(some "50667", 1)] ["W1"] = .ok a := by
  refine ⟨nanRules_stored, by decide +kernel, fun h => ?_⟩
  obtain ⟨a, ha⟩ := h
  obtain ⟨winners, hw⟩ := ((splitByRules_ok_iff (by decide)).mp ha).1 (some "50667", 1) (by decide)
  have hfails : (matchWarehouses .ascii .decimal (some "50667") "DE" nanRules).toOption =
    none := by decide +kernel
  rw [hw] at hfails
  cases hfails

theorem stored_returns_iff_nan :
    (∀ postalCode, (∃ winners, matchWarehouses .ascii .decimal postalCode "DE" nanRules =
      .ok winners) ↔ StopsBeforeOverflow .ascii .decimal (normalizePostal .ascii postalCode)
      "DE" nanRules) ∧
    ∀ countryQty orders countryWarehouses,
      (∃ a, splitByRules .ascii .decimal "DE" nanRules countryQty orders
        countryWarehouses = .ok a) ↔ countryQty ≤ 0 ∨ ∀ order ∈ orders, 0 < order.2 →
          StopsBeforeOverflow .ascii .decimal (normalizePostal .ascii order.1) "DE" nanRules :=
  stored_returns_iff .ascii .decimal isDecimalText "DE" nanRules nanRules_stored

/-! ### The operators as an order -/

section Order

variable (U : CharTable) (N : NumberReader)

/-- A number rule with this operator and value accepts the prefix. -/
def Holds (left : String) (operator : RuleOperator) (right : String) : Prop :=
  zipcodeCompare U N left operator right .number = .ok true

/-- The six operators are those of a total order, on these two texts. -/
structure TotallyOrdered (left right : String) : Prop where
  some_holds : Holds U N left .lt right ∨ Holds U N left .eq right ∨ Holds U N left .gt right
  lt_not_eq : ¬ (Holds U N left .lt right ∧ Holds U N left .eq right)
  lt_not_gt : ¬ (Holds U N left .lt right ∧ Holds U N left .gt right)
  eq_not_gt : ¬ (Holds U N left .eq right ∧ Holds U N left .gt right)
  ge_iff : Holds U N left .ge right ↔ Holds U N left .gt right ∨ Holds U N left .eq right
  le_iff : Holds U N left .le right ↔ Holds U N left .lt right ∨ Holds U N left .eq right
  ne_iff : Holds U N left .ne right ↔ ¬ Holds U N left .eq right

variable {U N}

theorem FloatNumber.toInt_finite (value : ℚ) :
    (FloatNumber.finite value).toInt = .ok (truncate value) := rfl

theorem FloatNumber.le_finite {a b : ℚ} :
    (FloatNumber.finite a).le (.finite b) = decide (a ≤ b) := by
  rw [Bool.eq_iff_iff]
  simp [FloatNumber.le, FloatNumber.lt, le_iff_lt_or_eq]

section Finite

variable {left right : String} {a b : ℚ} (hl : N.float left = some (.finite a))
    (hr : N.float right = some (.finite b))

include hl hr

theorem holds_iff {operator : RuleOperator} (hbetween : operator ≠ .between) :
    Holds U N left operator right ↔ compareNumbers (.finite a) (.finite b) operator = .ok true := by
  unfold Holds
  rw [zipcodeCompare_of_float hl hr hbetween]

theorem holds_lt_iff : Holds U N left .lt right ↔ a < b := by
  simp [holds_iff hl hr, compareNumbers, FloatNumber.lt]

theorem holds_gt_iff : Holds U N left .gt right ↔ b < a := by
  simp [holds_iff hl hr, compareNumbers, FloatNumber.lt]

theorem holds_le_iff : Holds U N left .le right ↔ a ≤ b := by
  simp [holds_iff hl hr, compareNumbers, FloatNumber.le_finite]

theorem holds_ge_iff : Holds U N left .ge right ↔ b ≤ a := by
  simp [holds_iff hl hr, compareNumbers, FloatNumber.le_finite]

theorem holds_eq_iff : Holds U N left .eq right ↔ truncate a = truncate b := by
  rw [holds_iff hl hr (by decide)]
  simp [compareNumbers, FloatNumber.toInt_finite, bind, Except.bind, pure, Except.pure]

theorem holds_ne_iff : Holds U N left .ne right ↔ truncate a ≠ truncate b := by
  rw [holds_iff hl hr (by decide)]
  simp [compareNumbers, FloatNumber.toInt_finite, bind, Except.bind, pure, Except.pure]

end Finite

end Order

/-- **Where the operators order two finite numbers totally**: at equal numbers and at
numbers with different integer parts. `!=` is the complement of `=` everywhere. -/
theorem totallyOrdered_iff (U : CharTable) (N : NumberReader) (left right : String) (a b : ℚ)
    (hl : N.float left = some (.finite a)) (hr : N.float right = some (.finite b)) :
    (Holds U N left .ne right ↔ ¬ Holds U N left .eq right) ∧
      (TotallyOrdered U N left right ↔ a = b ∨ truncate a ≠ truncate b) := by
  have hlt := holds_lt_iff (U := U) hl hr
  have hgt := holds_gt_iff (U := U) hl hr
  have heq := holds_eq_iff (U := U) hl hr
  have hne : Holds U N left .ne right ↔ ¬ Holds U N left .eq right := by
    rw [heq, holds_ne_iff hl hr]
  refine ⟨hne, ?_⟩
  constructor
  · intro h
    by_contra hn
    rw [not_or, not_not, ← heq] at hn
    obtain ⟨hab, hequal⟩ := hn
    rcases lt_or_gt_of_ne hab with hless | hmore
    · exact h.lt_not_eq ⟨hlt.mpr hless, hequal⟩
    · exact h.eq_not_gt ⟨hequal, hgt.mpr hmore⟩
  · intro h
    have heq' : Holds U N left .eq right ↔ a = b := by
      rw [heq]
      rcases h with rfl | hparts
      · simp
      · refine iff_of_false hparts fun hab => hparts (by rw [hab])
    refine ⟨?_, ?_, ?_, ?_, ?_, ?_, hne⟩
    · rw [hlt, hgt, heq']
      exact lt_trichotomy a b
    · rw [hlt, heq']
      exact fun h => h.1.ne h.2
    · rw [hlt, hgt]
      exact fun h => lt_asymm h.1 h.2
    · rw [heq', hgt]
      exact fun h => h.2.ne' h.1
    · rw [holds_ge_iff hl hr, hgt, heq', le_iff_lt_or_eq, @eq_comm _ b]
    · rw [holds_le_iff hl hr, hlt, heq', le_iff_lt_or_eq]

theorem totallyOrdered_iff_two :
    (Holds .ascii .decimal "2" .ne "1.5" ↔ ¬ Holds .ascii .decimal "2" .eq "1.5") ∧
      (TotallyOrdered .ascii .decimal "2" "1.5" ↔ (2 : ℚ) = 3 / 2 ∨
        truncate 2 ≠ truncate (3 / 2)) :=
  totallyOrdered_iff .ascii .decimal "2" "1.5" 2 (3 / 2) (by decide +kernel) (by decide +kernel)

/-- A German code that starts with `1` is less than the accepted value `1.5`, and equal to it. -/
theorem not_totallyOrdered_fraction :
    (ZipcodeRuleIn.validate .ascii .decimal isDecimalText
      ⟨"DE", 1, .number, .eq, "1.5", "W1", 100⟩).isOk = true ∧
      extractPrefix (normalizePostal .ascii (some "10115")) 1 = "1" ∧
      ¬ TotallyOrdered .ascii .decimal "1" "1.5" := by
  have hfloat : NumberReader.decimal.float "1" = some (.finite 1) ∧
      NumberReader.decimal.float "1.5" = some (.finite (3 / 2)) := by decide +kernel
  refine ⟨by decide +kernel, by decide +kernel, fun h => h.lt_not_eq ⟨?_, ?_⟩⟩
  · exact (holds_lt_iff hfloat.1 hfloat.2).mpr (by norm_num)
  · exact (holds_eq_iff hfloat.1 hfloat.2).mpr (by decide +kernel)

end Restock
