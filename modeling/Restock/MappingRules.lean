/-
# The SKU mapping rules that the API stores (`schemas/config.py`, `api/config.py`)

A rule passes the schema before it is stored: its texts are stripped, not empty and not
too long, its numbers have at most six digits, and no inventory SKU occurs twice in it.
These conditions are fields of the types (`FieldText`, `SkuMappingRuleIn`, `StoredRule`),
and no commodity has two rules (`MappingTable`); what an endpoint stores is of these types
(`createSkuMappingRule`, `patchSkuMappingRule`, `deleteSkuMappingRule`).

What was stored passes the schema again, and comes out as it is (`parse_text`,
`parseRule_body`).
-/
import Restock.PhysicalItem
import Restock.Lib.Checked
import Restock.Lib.PyText

namespace Restock

open PyText

/-! ### Fields -/

/-- A text that passed a schema. -/
structure FieldText (U : CharTable) (maxLength : ℕ) where
  text : String
  stripped : strip U text = text
  nonempty : text ≠ ""
  short : text.length ≤ maxLength
deriving DecidableEq

variable {U : CharTable}

/-- `Field(min_length=1, max_length=…)` and a validator that strips the text and refuses
a blank one. -/
def FieldText.parse (maxLength : ℕ) (blank value : String) :
    Except String (FieldText U maxLength) :=
  if value = "" then .error "String should have at least 1 character"
  else if hshort : maxLength < value.length then
    .error s!"String should have at most {maxLength} characters"
  else if hne : strip U value = "" then .error blank
  else .ok ⟨strip U value, strip_strip value, hne, (length_strip_le value).trans (not_lt.mp hshort)⟩

theorem FieldText.parse_text {n : ℕ} (blank : String) (field : FieldText U n) :
    FieldText.parse n blank field.text = .ok field := by
  obtain ⟨text, stripped, nonempty, short⟩ := field
  unfold FieldText.parse
  rw [if_neg nonempty, dif_neg (not_lt.mpr short), dif_neg (by rw [stripped]; exact nonempty)]
  simp only [stripped]

/-- `normalize_remark`: a blank remark is none. -/
def parseRemark : Option String → Except String (Option (FieldText U 1000))
  | none => .ok none
  | some remark =>
    if hshort : 1000 < remark.length then .error "String should have at most 1000 characters"
    else if hne : strip U remark = "" then .ok none
    else .ok (some ⟨strip U remark, strip_strip remark, hne,
      (length_strip_le remark).trans (not_lt.mp hshort)⟩)

theorem parseRemark_text :
    ∀ remark : Option (FieldText U 1000), parseRemark (remark.map FieldText.text) = .ok remark
  | none => rfl
  | some ⟨text, stripped, nonempty, short⟩ => by
    rw [Option.map_some, parseRemark, dif_neg (not_lt.mpr short),
      dif_neg (by rw [stripped]; exact nonempty)]
    simp only [stripped]

/-- `Field(ge=1, le=999999)`. -/
abbrev SixDigits := {n : ℤ // 1 ≤ n ∧ n ≤ 999999}

/-- A field between 1 and 999999. -/
def parseSixDigits (n : ℤ) : Except String SixDigits :=
  if hlow : n < 1 then .error "Input should be greater than or equal to 1"
  else if hhigh : 999999 < n then .error "Input should be less than or equal to 999999"
  else .ok ⟨n, not_lt.mp hlow, not_lt.mp hhigh⟩

theorem parseSixDigits_val (n : SixDigits) : parseSixDigits n.val = .ok n := by
  unfold parseSixDigits
  rw [dif_neg (not_lt.mpr n.property.1), dif_neg (not_lt.mpr n.property.2)]

/-! ### Components -/

/-- A component as a request writes it. -/
structure ComponentBody where
  groupNo : ℤ := 1
  inventorySku : String
  quantity : ℤ
deriving DecidableEq, Repr

/-- A component that was accepted. -/
structure SkuMappingComponentIn (U : CharTable) where
  groupNo : SixDigits
  inventorySku : FieldText U 100
  quantity : SixDigits
deriving DecidableEq

/-- The body that is read as the component. -/
def SkuMappingComponentIn.body (component : SkuMappingComponentIn U) : ComponentBody :=
  ⟨component.groupNo.val, component.inventorySku.text, component.quantity.val⟩

/-- The check of a component. -/
def parseComponent (body : ComponentBody) : Except String (SkuMappingComponentIn U) := do
  let groupNo ← parseSixDigits body.groupNo
  let inventorySku ← FieldText.parse 100 "库存SKU不能为空" body.inventorySku
  let quantity ← parseSixDigits body.quantity
  return ⟨groupNo, inventorySku, quantity⟩

theorem parseComponent_body (component : SkuMappingComponentIn U) :
    parseComponent component.body = .ok component := by
  unfold parseComponent SkuMappingComponentIn.body
  rw [parseSixDigits_val, parseSixDigits_val]
  simp only [FieldText.parse_text]
  rfl

/-- The components of a rule: at least one, and no inventory SKU twice. -/
structure MappingComponents (U : CharTable) where
  list : List (SkuMappingComponentIn U)
  nonempty : list ≠ []
  unique_skus : (list.map (·.inventorySku.text)).Nodup
deriving DecidableEq

/-- The loop of `validate_components`: the first text that was there before. -/
def firstRepeated : List String → List String → Option String
  | _, [] => none
  | seen, sku :: rest => if sku ∈ seen then some sku else firstRepeated (sku :: seen) rest

theorem firstRepeated_eq_none : ∀ {seen l : List String}, firstRepeated seen l = none ↔ l.Nodup ∧
    ∀ sku ∈ l, sku ∉ seen
  | seen, [] => by simp [firstRepeated]
  | seen, sku :: rest => by
    unfold firstRepeated
    by_cases hseen : sku ∈ seen
    · simp [hseen]
    · rw [if_neg hseen, firstRepeated_eq_none, List.nodup_cons]
      constructor
      · rintro ⟨hnd, hout⟩
        refine ⟨⟨fun hm => hout sku hm List.mem_cons_self, hnd⟩, fun other hm => ?_⟩
        rcases List.mem_cons.mp hm with rfl | hm
        · exact hseen
        · exact fun hin => hout other hm (List.mem_cons_of_mem _ hin)
      · rintro ⟨⟨hsku, hnd⟩, hout⟩
        refine ⟨hnd, fun other hm hin => ?_⟩
        rcases List.mem_cons.mp hin with rfl | hin
        · exact hsku hm
        · exact hout other (List.mem_cons_of_mem _ hm) hin

/-- The check of the components. -/
def parseComponents (bodies : List ComponentBody) : Except String (MappingComponents U) := do
  let list ← bodies.mapM parseComponent
  if hne : list = [] then .error "List should have at least 1 item after validation, not 0"
  else match hdup : firstRepeated [] (list.map (·.inventorySku.text)) with
    | some sku => .error s!"同一商品规则内库存SKU重复：{sku}"
    | none => .ok ⟨list, hne, (firstRepeated_eq_none.mp hdup).1⟩

/-! ### Rules -/

/-- A rule as a request writes it. -/
structure RuleBody where
  commoditySku : String
  enabled : Bool := true
  remark : Option String := none
  components : List ComponentBody
deriving DecidableEq, Repr

/-- A rule that was accepted. -/
structure SkuMappingRuleIn (U : CharTable) where
  commoditySku : FieldText U 100
  enabled : Bool
  remark : Option (FieldText U 1000)
  components : MappingComponents U
deriving DecidableEq

/-- The body that is read as the rule. -/
def SkuMappingRuleIn.body (rule : SkuMappingRuleIn U) : RuleBody :=
  ⟨rule.commoditySku.text, rule.enabled, rule.remark.map FieldText.text,
    rule.components.list.map SkuMappingComponentIn.body⟩

/-- The check of the body of a rule. -/
def parseRule (body : RuleBody) : Except String (SkuMappingRuleIn U) := do
  let commoditySku ← FieldText.parse 100 "商品SKU不能为空" body.commoditySku
  let remark ← parseRemark body.remark
  let components ← parseComponents body.components
  return ⟨commoditySku, body.enabled, remark, components⟩

theorem parseComponents_body (components : MappingComponents U) :
    parseComponents (components.list.map SkuMappingComponentIn.body) = .ok components := by
  have hlist : ∀ l : List (SkuMappingComponentIn U),
      (l.map SkuMappingComponentIn.body).mapM parseComponent = (.ok l : Except String _) := by
    intro l
    induction l with
    | nil => rfl
    | cons component l ih =>
      rw [List.map_cons, List.mapM_cons, parseComponent_body, ih]
      rfl
  have hdup : firstRepeated [] (components.list.map (·.inventorySku.text)) = none :=
    firstRepeated_eq_none.mpr ⟨components.unique_skus, fun _ _ => List.not_mem_nil⟩
  unfold parseComponents
  rw [hlist]
  show (if hne : components.list = [] then _ else _) = _
  rw [dif_neg components.nonempty]
  split
  · next sku h =>
    rw [hdup] at h
    cases h
  · rfl

/-- **A validated rule passes the schema again**, unchanged. -/
theorem parseRule_body (rule : SkuMappingRuleIn U) : parseRule rule.body = .ok rule := by
  unfold parseRule SkuMappingRuleIn.body
  simp only [FieldText.parse_text, parseRemark_text, parseComponents_body]
  rfl

/-! ### The table -/

/-- A stored rule, with the ids of the rows of its components. -/
structure StoredRule (U : CharTable) where
  commoditySku : FieldText U 100
  enabled : Bool
  remark : Option (FieldText U 1000)
  components : List (ℕ × SkuMappingComponentIn U)
  nonempty : components ≠ []
  unique_skus : (components.map (·.2.inventorySku.text)).Nodup

/-- `order_by=(group_no, id)`. -/
def ComponentOrder (a b : ℕ × SkuMappingComponentIn U) : Prop :=
  a.2.groupNo.val < b.2.groupNo.val ∨ a.2.groupNo.val = b.2.groupNo.val ∧ a.1 ≤ b.1

instance : DecidableRel (ComponentOrder (U := U)) := fun _ _ => instDecidableOr

instance : Std.Total (ComponentOrder (U := U)) where
  total a b := by
    unfold ComponentOrder
    omega

instance : IsTrans (ℕ × SkuMappingComponentIn U) ComponentOrder where
  trans a b c := by
    unfold ComponentOrder
    omega

/-- `rule.components`. -/
def StoredRule.loaded (rule : StoredRule U) : List (SkuMappingComponentIn U) :=
  (rule.components.insertionSort ComponentOrder).map Prod.snd

theorem StoredRule.loaded_sorted (rule : StoredRule U) :
    rule.loaded.Pairwise fun a b => a.groupNo.val ≤ b.groupNo.val := by
  rw [StoredRule.loaded, List.pairwise_map]
  refine (List.pairwise_insertionSort ComponentOrder rule.components).imp fun {a b} h => ?_
  unfold ComponentOrder at h
  omega

/-- `sku_mapping_rule` by id, with its sequences; no commodity has two rules. -/
structure MappingTable (U : CharTable) where
  rules : Dict ℕ (StoredRule U)
  nextRuleId : ℕ
  nextComponentId : ℕ
  unique_commodities : ∀ {id id' : ℕ} {rule rule' : StoredRule U}, rules.get? id = some rule →
    rules.get? id' = some rule' → rule.commoditySku.text = rule'.commoditySku.text → id = id'

/-- No rules. -/
def MappingTable.empty : MappingTable U := ⟨.empty, 1, 1, fun h => by cases h⟩

/-- The rows of new components. -/
def numberComponents (firstId : ℕ) (components : MappingComponents U) :
    List (ℕ × SkuMappingComponentIn U) :=
  (components.list.zipIdx firstId).map Prod.swap

theorem map_snd_numberComponents (firstId : ℕ) (components : MappingComponents U) :
    (numberComponents firstId components).map Prod.snd = components.list := by
  rw [numberComponents, List.map_map]
  exact List.zipIdx_map_fst firstId components.list

/-- The row of a rule with the rows of its components. -/
def storedRule (commoditySku : FieldText U 100) (enabled : Bool)
    (remark : Option (FieldText U 1000)) (firstId : ℕ) (components : MappingComponents U) :
    StoredRule U where
  commoditySku := commoditySku
  enabled := enabled
  remark := remark
  components := numberComponents firstId components
  nonempty h := components.nonempty
    (by rw [← map_snd_numberComponents firstId components, h, List.map_nil])
  unique_skus := by
    have hskus : (numberComponents firstId components).map (·.2.inventorySku.text) =
        components.list.map (·.inventorySku.text) := by
      rw [← map_snd_numberComponents firstId components, List.map_map]
      rfl
    rw [hskus]
    exact components.unique_skus

/-- Components that are ordered by group stay in their order. -/
theorem loaded_storedRule {commoditySku : FieldText U 100} {enabled : Bool}
    {remark : Option (FieldText U 1000)} {firstId : ℕ} {components : MappingComponents U}
    (h : components.list.Pairwise fun a b => a.groupNo.val ≤ b.groupNo.val) :
    (storedRule commoditySku enabled remark firstId components).loaded = components.list := by
  have hsorted : (numberComponents firstId components).Pairwise ComponentOrder := by
    rw [numberComponents, List.pairwise_map, List.pairwise_iff_getElem]
    intro i j hi hj hij
    rw [List.length_zipIdx] at hi hj
    have hgroup := List.pairwise_iff_getElem.mp h i j hi hj hij
    rw [List.getElem_zipIdx, List.getElem_zipIdx]
    unfold ComponentOrder
    simp only [Prod.fst_swap, Prod.snd_swap]
    omega
  unfold StoredRule.loaded storedRule
  rw [hsorted.insertionSort_eq, map_snd_numberComponents]

/-- A row is inserted or updated; another rule must not have its commodity. -/
def MappingTable.put (table : MappingTable U) (ruleId : ℕ) (rule : StoredRule U)
    (nextRuleId nextComponentId : ℕ)
    (hunique : ∀ entry ∈ table.rules.items, entry.2.commoditySku.text = rule.commoditySku.text →
    entry.1 = ruleId) :
    MappingTable U where
  rules := table.rules.set ruleId rule
  nextRuleId := nextRuleId
  nextComponentId := nextComponentId
  unique_commodities := by
    have hother : ∀ {id : ℕ} {other : StoredRule U}, table.rules.get? id = some other →
        other.commoditySku.text = rule.commoditySku.text → id = ruleId :=
      fun hget => hunique _ (Dict.get?_eq_some_iff.mp hget)
    intro id id' r r' h h' hsame
    rw [Dict.get?_set] at h h'
    by_cases hid : id = ruleId
    · rw [if_pos hid] at h
      obtain rfl := Option.some.inj h
      by_cases hid' : id' = ruleId
      · rw [hid, hid']
      · rw [if_neg hid'] at h'
        rw [hid, hother h' hsame.symm]
    · rw [if_neg hid] at h
      by_cases hid' : id' = ruleId
      · rw [if_pos hid'] at h'
        obtain rfl := Option.some.inj h'
        rw [hid', hother h hsame]
      · rw [if_neg hid'] at h'
        exact table.unique_commodities h h' hsame

/-- The rule of a commodity, with its number. -/
def MappingTable.ruleOf (table : MappingTable U) (commoditySku : String) :
    Option (ℕ × StoredRule U) :=
  table.rules.items.find? fun entry => entry.2.commoditySku.text = commoditySku

theorem MappingTable.ruleOf_eq_some_iff {table : MappingTable U} {commoditySku : String}
    {entry : ℕ × StoredRule U} :
    table.ruleOf commoditySku = some entry ↔
      table.rules.get? entry.1 = some entry.2 ∧ entry.2.commoditySku.text = commoditySku := by
  constructor
  · intro h
    exact ⟨Dict.get?_eq_some_iff.mpr
      (List.mem_of_find?_eq_some h), by simpa using List.find?_some h⟩
  · rintro ⟨hget, rfl⟩
    have hsome : (table.ruleOf entry.2.commoditySku.text).isSome = true :=
      List.find?_isSome.mpr ⟨entry, Dict.get?_eq_some_iff.mp hget, decide_eq_true rfl⟩
    obtain ⟨found, hfound⟩ := Option.isSome_iff_exists.mp hsome
    have hget' := Dict.get?_eq_some_iff.mpr (List.mem_of_find?_eq_some hfound)
    have hid : found.1 = entry.1 :=
      table.unique_commodities hget' hget (by simpa using List.find?_some hfound)
    rw [hid, hget] at hget'
    rw [hfound, Prod.ext hid (Option.some.inj hget').symm]

theorem MappingTable.ruleOf_put {table : MappingTable U} {ruleId nextRuleId nextComponentId : ℕ}
    {rule : StoredRule U} (hunique : ∀ entry ∈ table.rules.items,
    entry.2.commoditySku.text = rule.commoditySku.text → entry.1 = ruleId)
    (hold : ∀ old, table.rules.get? ruleId = some old →
      old.commoditySku.text = rule.commoditySku.text) (sku : String) :
    (table.put ruleId rule nextRuleId nextComponentId hunique).ruleOf sku =
      if sku = rule.commoditySku.text then some (ruleId, rule) else table.ruleOf sku := by
  have hget : ∀ id, (table.put ruleId rule nextRuleId nextComponentId hunique).rules.get? id =
      if id = ruleId then some rule else table.rules.get? id := fun id => Dict.get?_set _ _ _ _
  split_ifs with hsku
  · rw [ruleOf_eq_some_iff, hget, if_pos rfl]
    exact ⟨rfl, hsku.symm⟩
  · refine Option.ext fun entry => ?_
    rw [ruleOf_eq_some_iff, ruleOf_eq_some_iff, hget]
    refine and_congr_left fun hentry => ?_
    by_cases hid : entry.1 = ruleId
    · rw [if_pos hid, hid]
      constructor
      · intro h
        exact absurd (hentry.symm.trans (congrArg (·.commoditySku.text) (Option.some.inj h).symm))
          hsku
      · intro h
        exact absurd (hentry.symm.trans (hold entry.2 h)) hsku
    · rw [if_neg hid]

/-! ### The endpoints -/

/-- The check of `_replace_mapping_components`: in a group, no two components are of one
physical item. -/
def checkShared (resolver : PhysicalSkuResolver) :
    List (SixDigits × String) → List (SkuMappingComponentIn U) → Except String Unit
  | _, [] => .ok ()
  | seen, component :: rest =>
    let normalizedSku := resolveSku resolver.skuToGroupKey component.inventorySku.text
    if (component.groupNo, normalizedSku) ∈ seen then
      .error s!"同一方案内库存SKU {component.inventorySku.text} 与其他组件归属同一库存共享组"
    else checkShared resolver ((component.groupNo, normalizedSku) :: seen) rest

/-- `create_sku_mapping_rule`. -/
def createSkuMappingRule (resolver : PhysicalSkuResolver) (body : RuleBody)
    (table : MappingTable U) :
    Except String (MappingTable U) := do
  let rule : SkuMappingRuleIn U ← parseRule body
  if hunique : ∀ entry ∈ table.rules.items, entry.2.commoditySku.text ≠ rule.commoditySku.text then
    checkShared resolver [] rule.components.list
    return table.put table.nextRuleId
      (storedRule rule.commoditySku rule.enabled rule.remark table.nextComponentId rule.components)
      (table.nextRuleId + 1) (table.nextComponentId + rule.components.list.length)
      fun entry hentry hsame => absurd hsame (hunique entry hentry)
  else .error s!"商品SKU {rule.commoditySku.text} 已存在映射规则"

/-- A patch as a request writes it; of a field that may be absent or null only the remark
tells these apart. -/
structure RulePatch where
  commoditySku : Option String := none
  enabled : Option Bool := none
  remark : Option (Option String) := none
  components : Option (List ComponentBody) := none
deriving DecidableEq, Repr

/-- A patch that was accepted. -/
structure SkuMappingRulePatch (U : CharTable) where
  commoditySku : Option (FieldText U 100)
  enabled : Option Bool
  remark : Option (Option (FieldText U 1000))
  components : Option (MappingComponents U)

/-- The check of a field that the patch may leave out. -/
def parseOptional {A B : Type} (parse : A → Except String B) : Option A → Except String (Option B)
  | none => .ok none
  | some value => (parse value).map some

/-- The check of the body of a patch. -/
def parsePatch (patch : RulePatch) : Except String (SkuMappingRulePatch U) := do
  let commoditySku ← parseOptional (FieldText.parse 100 "商品SKU不能为空") patch.commoditySku
  let remark ← parseOptional parseRemark patch.remark
  let components ← parseOptional parseComponents patch.components
  return ⟨commoditySku, patch.enabled, remark, components⟩

/-- The rule after a patch. -/
def StoredRule.patched (rule : StoredRule U) (patch : SkuMappingRulePatch U) (firstId : ℕ) :
    StoredRule U :=
  let base := patch.components.elim rule
    (storedRule rule.commoditySku rule.enabled rule.remark firstId)
  { base with
    commoditySku := patch.commoditySku.getD rule.commoditySku
    enabled := patch.enabled.getD rule.enabled
    remark := patch.remark.getD rule.remark }

/-- `patch_sku_mapping_rule`. -/
def patchSkuMappingRule (resolver : PhysicalSkuResolver) (ruleId : ℕ) (patch : RulePatch)
    (table : MappingTable U) :
    Except String (MappingTable U) := do
  let patch : SkuMappingRulePatch U ← parsePatch patch
  match table.rules.get? ruleId with
  | none => .error s!"映射规则 {ruleId} 不存在"
  | some rule =>
    let newCommoditySku := (patch.commoditySku.getD rule.commoditySku).text
    if hunique : ∀ entry ∈ table.rules.items, entry.2.commoditySku.text = newCommoditySku →
        entry.1 = ruleId then
      patch.components.elim (.ok ()) fun components => checkShared resolver [] components.list
      return table.put ruleId (rule.patched patch table.nextComponentId) table.nextRuleId
        (table.nextComponentId + patch.components.elim 0 fun components => components.list.length)
          hunique
    else .error s!"商品SKU {newCommoditySku} 已存在映射规则"

/-- `delete_sku_mapping_rule`. -/
def deleteSkuMappingRule (ruleId : ℕ) (table : MappingTable U) : Except String (MappingTable U) :=
  if ruleId ∈ table.rules.keys then
    .ok { table with
      rules := table.rules.filter fun id _ => id ≠ ruleId
      unique_commodities := by
        intro id id' rule rule' h h' hsame
        rw [Dict.get?_filter] at h h'
        exact table.unique_commodities (Option.filter_eq_some_iff.mp h).1
          (Option.filter_eq_some_iff.mp h').1 hsame }
  else .error s!"映射规则 {ruleId} 不存在"

end Restock
