/-
# Matching postal codes to warehouses (`engine/zipcode_matcher.py`)

A rule compares the first characters of a postal code with a value. Of the rules of
a country, in the order of their priorities and then of their ids, the first that
matches decides the priority, and every rule of that priority that matches gives a
warehouse.

The result depends on the normalised postal code only, and not on the order in which
rules with different ids come (`matchNormalized_perm`). A comparison of numbers can
raise: `int` refuses an infinity. What `int` and `float` read in a text is a
parameter.
-/
import Restock.Lib.PyText

namespace Restock

open PyText

/-- How a rule compares. -/
inductive RuleValueType
  | number | string
deriving DecidableEq, Repr

/-- The operators; `other` is any text that is none of them. -/
inductive RuleOperator
  | eq | ne | gt | ge | lt | le | contains | notContains | between | other
deriving DecidableEq, Repr

/-- A row of `zipcode_rule`. -/
structure ZipcodeRule where
  id : ℕ
  country : String
  prefixLength : ℤ
  valueType : RuleValueType
  operator : RuleOperator
  compareValue : String
  warehouseId : String
  priority : ℤ
deriving DecidableEq, Repr

/-! ### Numbers in texts -/

/-- A number of type `float`. -/
inductive FloatNumber
  | finite (value : ℚ)
  | posInfinity
  | negInfinity
  | nan
deriving DecidableEq, Repr

/-- `int(text)` and `float(text)`, `none` where they refuse the text. -/
structure NumberReader where
  int : String → Option ℤ
  float : String → Option FloatNumber

/-- The number that decimal digits write. -/
def readDigits (text : String) : Option ℕ :=
  if text = "" ∨ text.toList.any (!Char.isDigit ·) then none
  else some (text.toList.foldl (fun n c => 10 * n + (c.toNat - 48)) 0)

/-- A reader of decimal digits. -/
def NumberReader.digits : NumberReader :=
  ⟨fun text => (readDigits text).map Int.ofNat,
    fun text => (readDigits text).map fun n => .finite n⟩

/-- `a < b`. -/
def FloatNumber.lt : FloatNumber → FloatNumber → Bool
  | .finite a, .finite b => a < b
  | .finite _, .posInfinity => true
  | .negInfinity, .finite _ => true
  | .negInfinity, .posInfinity => true
  | _, _ => false

/-- `a <= b`. -/
def FloatNumber.le (a b : FloatNumber) : Bool := a.lt b || (a = b && a ≠ .nan)

/-- `int(x)`. -/
def FloatNumber.toInt : FloatNumber → Except String ℤ
  | .finite value => .ok (truncate value)
  | .nan => .error "cannot convert float NaN to integer"
  | _ => .error "cannot convert float infinity to integer"

section Matcher

variable (U : CharTable) (N : NumberReader)

/-! ### Comparing -/

/-- A postal code without blanks and hyphens. -/
def normalizePostal : Option String → String
  | none => ""
  | some code => String.ofList ((strip U code).toList.filter fun c => c ≠ '-' ∧ c ≠ ' ')

/-- `normalized[:prefixLength]`; a negative length counts from the end. -/
def extractPrefix (normalized : String) (prefixLength : ℤ) : String :=
  String.ofList (normalized.toList.take
    (if prefixLength < 0 then normalized.length + prefixLength else prefixLength).toNat)

/-- `text.split(",")`. -/
def splitCommas (text : String) : List String := (text.toList.splitOn ',').map String.ofList

/-- The texts that a rule lists. -/
def splitCompareValues (raw : String) :
    List String := ((splitCommas raw).map (strip U)).filter (· ≠ "")

/-- `piece.split("-", 1)`, if there are two parts. -/
def splitDash (piece : String) : Option (String × String) :=
  match piece.toList.span (· ≠ '-') with
  | (_, []) => none
  | (low, _ :: high) => some (String.ofList low, String.ofList high)

/-- The loop over the intervals of a `between` rule. -/
def compareBetween (left : ℤ) : List String → Bool
  | [] => false
  | chunk :: chunks =>
    if strip U chunk = "" then compareBetween left chunks
    else match splitDash (strip U chunk) with
      | none => false
      | some (low, high) =>
        match N.int (strip U low), N.int (strip U high) with
        | some lo, some hi =>
          if hi < lo then false
          else if lo ≤ left ∧ left ≤ hi then true
          else compareBetween left chunks
        | _, _ => false

/-- A comparison of numbers. -/
def compareNumbers (left right : FloatNumber) : RuleOperator → Except String Bool
  | .eq => do return (← left.toInt) = (← right.toInt)
  | .ne => do return (← left.toInt) ≠ (← right.toInt)
  | .gt => .ok (right.lt left)
  | .ge => .ok (right.le left)
  | .lt => .ok (left.lt right)
  | .le => .ok (left.le right)
  | _ => .ok false

/-- `token in text`. -/
def containsToken (text token : String) : Bool := token.toList <:+: text.toList

/-- A comparison of texts. -/
def compareTexts (left right : String) : RuleOperator → Bool
  | .eq => left = right
  | .ne => left ≠ right
  | .contains =>
    splitCompareValues U right ≠ [] && (splitCompareValues U right).any (containsToken left)
  | .notContains =>
    splitCompareValues U right ≠ [] && (splitCompareValues U right).all fun token =>
      !containsToken left token
  | _ => false

/-- `_compare`. -/
def zipcodeCompare (left : String) (operator : RuleOperator) (right : String)
    (valueType : RuleValueType) : Except String Bool :=
  match operator, valueType with
  | .other, _ => .ok false
  | .between, _ =>
    .ok ((N.int left).elim false fun left => compareBetween U N left (splitCommas right))
  | operator, .number =>
    match N.float left, N.float right with
    | some left, some right => compareNumbers left right operator
    | _, _ => .ok false
  | operator, .string => .ok (compareTexts U left right operator)

/-! ### Matching -/

/-- The prefix of the code is long enough, and the rule accepts it. -/
def ruleMatches (normalized : String) (rule : ZipcodeRule) : Except String Bool :=
  let codePrefix := extractPrefix normalized rule.prefixLength
  if codePrefix = "" ∨ codePrefix.length < rule.prefixLength then .ok false
  else zipcodeCompare U N codePrefix rule.operator rule.compareValue rule.valueType

/-- The loop over the rules of the country. -/
def winnersOf (normalized : String) :
    Option ℤ → List String → List ZipcodeRule → Except String (List String)
  | _, winners, [] => .ok winners
  | winningPriority, winners, rule :: rules =>
    if winningPriority.any fun priority => priority < rule.priority then .ok winners
    else do
      if ← ruleMatches U N normalized rule then
        winnersOf normalized (winningPriority.or (some rule.priority))
          (if rule.warehouseId ∈ winners then winners else winners ++ [rule.warehouseId]) rules
      else winnersOf normalized winningPriority winners rules

/-- By priority, then by id. -/
def RuleOrder (a b : ZipcodeRule) :
    Prop := a.priority < b.priority ∨ a.priority = b.priority ∧ a.id ≤ b.id

instance : DecidableRel RuleOrder := fun _ _ => inferInstanceAs (Decidable (_ ∨ _))

/-- The rules of a country, by priority and number. -/
def countryRules (country : String) (rules : List ZipcodeRule) : List ZipcodeRule :=
  (rules.filter fun rule => rule.country = country).insertionSort RuleOrder

/-- The rules on a normalised code. -/
def matchNormalized (normalized country : String) (rules : List ZipcodeRule) :
    Except String (List String) :=
  if normalized = "" then .ok [] else winnersOf U N normalized none [] (countryRules country rules)

/-- `match_warehouses`. -/
def matchWarehouses (postalCode : Option String) (country : String) (rules : List ZipcodeRule) :
    Except String (List String) := matchNormalized U N (normalizePostal U postalCode) country rules

end Matcher

/-! ### The order of the rules -/

theorem RuleOrder.total : Std.Total RuleOrder := ⟨fun a b => by unfold RuleOrder; omega⟩

theorem RuleOrder.trans :
    IsTrans ZipcodeRule RuleOrder := ⟨fun a b c h h' => by unfold RuleOrder at *; omega⟩

/-- Rules with different ids come in one order only. -/
theorem countryRules_perm {rules rules' : List ZipcodeRule} (h : rules.Perm rules')
    (hid : (rules.map (·.id)).Nodup) (country : String) :
    countryRules country rules = countryRules country rules' := by
  have := RuleOrder.total
  have := RuleOrder.trans
  have hperm : (countryRules country rules).Perm (countryRules country rules') :=
    (List.perm_insertionSort _ _).trans ((h.filter _).trans (List.perm_insertionSort _ _).symm)
  have hsub : ∀ rule ∈ countryRules country rules, rule ∈ rules := fun rule hr =>
    List.mem_of_mem_filter ((List.mem_insertionSort _).mp hr)
  refine hperm.eq_of_pairwise ?_ (List.pairwise_insertionSort _ _) (List.pairwise_insertionSort _ _)
  intro a b ha hb hab hba
  have hids : a.id = b.id := by
    unfold RuleOrder at hab hba
    omega
  exact List.inj_on_of_nodup_map hid (hsub a ha) (hsub b (hperm.mem_iff.mpr hb)) hids

/-- **The match does not depend on the order of the rules.** -/
theorem matchNormalized_perm (U : CharTable) (N : NumberReader) {rules rules' : List ZipcodeRule}
    (h : rules.Perm rules') (hid : (rules.map (·.id)).Nodup) (normalized country : String) :
    matchNormalized U N normalized country rules =
    matchNormalized U N normalized country rules' := by
  unfold matchNormalized
  rw [countryRules_perm h hid]

end Restock
