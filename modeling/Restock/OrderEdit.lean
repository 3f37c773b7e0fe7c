/-
# Manual order edits (`services/order_edit.py`)

A user corrects the country or the postal code of an order, one order at a time
(`patchOrderHeader`) or with a spreadsheet (`applyOrderInfoMatch`). Both lock the
row against the sync. They read the country differently: the single edit takes a
code, a label or a new country and writes the country column alone; the import
takes a code, maps it and writes both columns.
-/
import Restock.CountrySync

namespace Restock

open PyText

/-- `EDITABLE_FIELDS`. -/
inductive EditableField where
  | countryCode
  | postalCode
deriving DecidableEq, Repr

/-- The header of the column in the sheet. -/
def EditableField.label : EditableField → String
  | .countryCode => "国家"
  | .postalCode => "邮编"

/-- An error of a row of the sheet. -/
structure OrderInfoMatchError where
  row : ℕ
  field : String
  message : String
deriving DecidableEq, Repr

/-- The columns a manual edit sets; `none` is a column it does not name. -/
structure ManualUpdates where
  countryCode : Option (Option String)
  originalCountryCode : Option (Option String)
  postalCode : Option (Option String)
deriving DecidableEq, Repr

/-- Nothing is updated. -/
def ManualUpdates.empty : ManualUpdates := ⟨none, none, none⟩

/-- What `_normalize_update_values` returns. -/
structure NormalizedUpdates where
  normalized : ManualUpdates
  countryOverrides : List (String × String)
  errors : List OrderInfoMatchError

section Normalize

variable (U : CharTable)

/-- `_string_cell`. -/
def stringCell : JsonValue → String
  | .null => ""
  | value => strip U value.toText

/-- `NEW_COUNTRY_RE` on a stripped text: two ASCII letters, a dash, and a name
up to the end of the line. -/
def newCountryMatch (text : String) : Option (String × String) :=
  match text.toList with
  | a :: b :: rest =>
    match rest.dropWhile U.isSpace with
    | '-' :: rest =>
      let name := rest.dropWhile U.isSpace
      if a.isAlpha ∧ b.isAlpha ∧ name ≠ [] ∧
        '\n' ∉ name then some (String.ofList [a, b], String.ofList name)
      else none
    | _ => none
  | _ => none

/-- `_normalize_country_value`: a code, or the name of an option. -/
def normalizeCountryValue (value : String) (options : List (String × String)) :
    Except String (String × Option String) :=
  let text := strip U value
  let byCode := (normalizeObservedCountryCode U (.str text)).filter fun code =>
    code ∈ options.map Prod.fst
  match byCode, options.find? fun option => text = option.2 with
  | some code, _ => .ok (code, none)
  | none, some option => .ok (option.1, none)
  | none, none =>
    match newCountryMatch U text with
    | none => .error "国家必须使用已有代码/标签，或填写 XX - 中文名"
    | some (code, name) =>
      match normalizeObservedCountryCode U (.str code), nonEmpty (strip U name) with
      | some newCode, some name =>
        .ok (newCode, if newCode ∈ options.map Prod.fst then none else some name)
      | _, _ => .error "新国家必须填写有效的 XX - 中文名"

/-- `_normalize_country_code_value`. -/
def normalizeCountryCodeValue (value : String) : Except String String :=
  match normalizeObservedCountryCode U (.str value) with
  | none => .error "国家必须填写有效二字码"
  | some code => .ok code

/-- `_apply_import_country_mapping`. -/
def applyImportCountryMapping (code : String) (euCountries : List String) :
    String × Option String :=
  let mapped := ((applyEuMapping U (some code) euCountries).bind nonEmpty).getD code
  (mapped, if mapped = "EU" ∧ code ≠ "EU" then some code else none)

/-- How the two callers of `_normalize_update_values` read a row: the single
edit against the known countries, the import against the EU members. -/
inductive EditMode where
  | single (countryOptions : List (String × String))
  | infoMatch (euCountries : List String)

/-- The country columns of one edit, with the name of a new country. -/
def normalizeCountryField (mode : EditMode) (textValue : String) (updates : ManualUpdates) :
    Except String (ManualUpdates × List (String × String)) :=
  match mode with
  | .single options => do
    let (code, name) ← normalizeCountryValue U textValue options
    pure ({ updates with countryCode := some (some code) },
      (name.map fun name => (code, name)).toList)
  | .infoMatch euCountries => do
    let code ← normalizeCountryCodeValue U textValue
    let (mapped, original) := applyImportCountryMapping U code euCountries
    pure ({ updates with countryCode := some (some mapped), originalCountryCode := some original },
      [])

/-- One round of the loop of `_normalize_update_values`. -/
def normalizeUpdateField (mode : EditMode) (rowNumber : ℕ) (acc : NormalizedUpdates)
    (entry : EditableField × JsonValue) : NormalizedUpdates :=
  let (field, rawValue) := entry
  let textValue := stringCell U rawValue
  match mode, field with
  | .infoMatch _, .postalCode => { acc with normalized.postalCode := some (nonEmpty textValue) }
  | .single _, .postalCode =>
    { acc with normalized.postalCode := some (if rawValue = .null then none else nonEmpty textValue) }
  | .infoMatch _, .countryCode =>
    if textValue = "" then
      { acc with errors := acc.errors ++ [⟨rowNumber, field.label, "该字段不能为空"⟩] }
    else match normalizeCountryField U mode textValue acc.normalized with
      | .ok (normalized, overrides) => ⟨normalized, acc.countryOverrides ++ overrides, acc.errors⟩
      | .error message => { acc with errors := acc.errors ++ [⟨rowNumber, field.label, message⟩] }
  | .single _, .countryCode =>
    if rawValue = .null then { acc with normalized.countryCode := some none }
    else match normalizeCountryField U mode textValue acc.normalized with
      | .ok (normalized, overrides) => ⟨normalized, acc.countryOverrides ++ overrides, acc.errors⟩
      | .error message => { acc with errors := acc.errors ++ [⟨rowNumber, field.label, message⟩] }

/-- All fields of a row. -/
def normalizeUpdateValues (rawUpdates : List (EditableField × JsonValue)) (rowNumber : ℕ)
    (mode : EditMode) : NormalizedUpdates :=
  rawUpdates.foldl (normalizeUpdateField U mode rowNumber) ⟨.empty, [], []⟩

/-! ### What is accepted is normalised -/

variable {U}

/-- How a country is accepted: as a known code, as the label of an option, or
as a new code. -/
theorem normalizeCountryValue_cases {value code : String} {name : Option String}
    {options : List (String × String)}
    (h : normalizeCountryValue U value options = .ok (code, name)) :
    (∃ v, normalizeObservedCountryCode U v = some code) ∨
      name = none ∧ ∃ option ∈ options, option.1 = code := by
  unfold normalizeCountryValue at h
  simp only at h
  split at h
  next c hby =>
    simp only [Except.ok.injEq, Prod.mk.injEq] at h
    rw [← h.1]
    exact Or.inl ⟨_, (Option.filter_eq_some_iff.mp hby).1⟩
  next hf =>
    simp only [Except.ok.injEq, Prod.mk.injEq] at h
    exact Or.inr ⟨h.2.symm, _, List.mem_of_find?_eq_some hf, h.1⟩
  next =>
    split at h
    · simp only [reduceCtorEq] at h
    · split at h
      next c n hn _ =>
        simp only [Except.ok.injEq, Prod.mk.injEq] at h
        rw [← h.1]
        exact Or.inl ⟨_, hn⟩
      · simp only [reduceCtorEq] at h

theorem normalizeCountryValue_normalized {value code : String} {name : Option String}
    {options : List (String × String)} (hopt : ∀ option ∈ options, IsNormalized U option.1)
    (h : normalizeCountryValue U value options = .ok (code, name)) : IsNormalized U code := by
  rcases normalizeCountryValue_cases h with ⟨v, hv⟩ | ⟨-, option, ho, rfl⟩
  · exact isNormalized_of_normalize U hv
  · exact hopt option ho

/-- A new name is only kept for a normalised code. -/
theorem normalizeCountryValue_name {value code name : String} {options : List (String × String)}
    (h : normalizeCountryValue U value options = .ok (code, some name)) : IsNormalized U code := by
  rcases normalizeCountryValue_cases h with ⟨v, hv⟩ | ⟨hn, -⟩
  · exact isNormalized_of_normalize U hv
  · exact absurd hn (by simp)

theorem normalizeCountryCodeValue_normalized {value code : String}
    (h : normalizeCountryCodeValue U value = .ok code) : IsNormalized U code := by
  unfold normalizeCountryCodeValue at h
  split at h
  · simp only [reduceCtorEq] at h
  next c hn => exact Except.ok.inj h ▸ isNormalized_of_normalize U hn

/-- The import writes the representation of the code. -/
theorem applyImportCountryMapping_eq {E : List String} (hE : EuMembers U E) {code : String}
    (hc : IsNormalized U code) : (⟨some (applyImportCountryMapping U code E).1,
      (applyImportCountryMapping U code E).2⟩ : CountryCols) = represent E code := by
  have hEU := hE.EU_not_mem
  simp only [applyImportCountryMapping, applyEuMapping_canonical hE hc.pyCanonical, represent]
  by_cases hm : code ∈ E
  · have hne : code ≠ "EU" := fun he => hEU (he ▸ hm)
    simp [hm, nonEmpty, hne]
  · simp [hm, nonEmpty, hc.ne_empty]

/-! ### What an edit sets -/

variable (U)

/-- The columns a single edit without errors sets: never the original, and the
code it was given when it names a country. -/
structure SingleUpdates (options : List (String × String)) (sent : Option (Option String))
    (result : NormalizedUpdates) : Prop where
  original : result.normalized.originalCountryCode = none
  unsent : sent = none → result.normalized.countryCode = none
  cleared : sent = some none → result.normalized.countryCode = some none
  sent : ∀ value, sent = some (some value) → ∃ code name,
    normalizeCountryValue U (stringCell U (.str value)) options = .ok (code, name) ∧
      result.normalized.countryCode = some (some code)
  names : ∀ entry ∈ result.countryOverrides, IsNormalized U entry.1

/-- The columns an import without errors sets: none, or the pair of a code that
one of the given texts normalises to. -/
def InfoMatchUpdates (E : List String) (updates : ManualUpdates) : Prop :=
  updates.countryCode = none ∧ updates.originalCountryCode = none ∨
    ∃ code, IsNormalized U code ∧ updates.countryCode = some (represent E code).country ∧
      updates.originalCountryCode = some (represent E code).original

variable {U}

theorem normalizeCountryField_single {options : List (String × String)} {text : String}
    {updates : ManualUpdates} {result : ManualUpdates × List (String × String)}
    (h : normalizeCountryField U (.single options) text updates = .ok result) :
    ∃ code name, normalizeCountryValue U text options = .ok (code, name) ∧
      result.1 = { updates with countryCode := some (some code) } ∧
      ∀ entry ∈ result.2, IsNormalized U entry.1 := by
  unfold normalizeCountryField at h
  simp only at h
  cases hv : normalizeCountryValue U text options with
  | error e => rw [hv] at h; simp [bind, Except.bind] at h
  | ok r =>
    rw [hv] at h
    obtain ⟨code, name⟩ := r
    have h := (Except.ok.inj h).symm
    refine ⟨code, name, rfl, by rw [h], fun entry he => ?_⟩
    rw [h] at he
    cases name with
    | none => simp at he
    | some name =>
      simp only [Option.map_some, Option.toList_some, List.mem_singleton] at he
      rw [he]
      exact normalizeCountryValue_name hv

theorem normalizeCountryField_infoMatch {E : List String} {text : String} {updates : ManualUpdates}
    {result : ManualUpdates × List (String × String)}
    (h : normalizeCountryField U (.infoMatch E) text updates = .ok result) :
    ∃ code, normalizeCountryCodeValue U text = .ok code ∧
      result = ({ updates with
        countryCode := some (some (applyImportCountryMapping U code E).1)
        originalCountryCode := some (applyImportCountryMapping U code E).2 }, []) := by
  unfold normalizeCountryField at h
  simp only at h
  cases hv : normalizeCountryCodeValue U text with
  | error e => rw [hv] at h; simp [bind, Except.bind] at h
  | ok code =>
    rw [hv] at h
    exact ⟨code, rfl, (Except.ok.inj h).symm⟩

/-- A postal code touches neither the country columns nor the errors. -/
theorem normalizeUpdateField_postal (mode : EditMode) (n : ℕ) (acc : NormalizedUpdates)
    (v : JsonValue) :
    ∃ code, normalizeUpdateField U mode n acc (.postalCode, v) =
      { acc with normalized := { acc.normalized with postalCode := some code } } := by
  cases mode <;> exact ⟨_, rfl⟩

/-- What a single edit's country does to what was gathered before. -/
theorem normalizeUpdateField_single {options : List (String × String)} {n : ℕ}
    {acc : NormalizedUpdates} {v : JsonValue} (hv : v ≠ .null)
    (he : (normalizeUpdateField U (.single options) n acc (.countryCode, v)).errors = []) :
    ∃ code name overrides, normalizeCountryValue U (stringCell U v) options = .ok (code, name) ∧
      (∀ entry ∈ overrides, IsNormalized U entry.1) ∧
      normalizeUpdateField U (.single options) n acc (.countryCode, v) =
        ⟨{ acc.normalized with countryCode := some (some code) }, acc.countryOverrides ++ overrides,
          acc.errors⟩ := by
  unfold normalizeUpdateField at he ⊢
  simp only [hv, if_false] at he ⊢
  cases h : normalizeCountryField U (.single options) (stringCell U v) acc.normalized with
  | error e => rw [h] at he; simp at he
  | ok result =>
    obtain ⟨code, name, hcode, hres, hnames⟩ := normalizeCountryField_single h
    refine ⟨code, name, result.2, hcode, hnames, ?_⟩
    rw [← hres]

theorem normalizeUpdateField_null (options : List (String × String)) (n : ℕ)
    (acc : NormalizedUpdates) :
    normalizeUpdateField U (.single options) n acc (.countryCode, .null) =
      { acc with normalized := { acc.normalized with countryCode := some none } } := by
  unfold normalizeUpdateField
  simp only [if_true]

/-- What an import's country does to what was gathered before. -/
theorem normalizeUpdateField_infoMatch {E : List String} {n : ℕ} {acc : NormalizedUpdates}
    {v : JsonValue} (he : (normalizeUpdateField U (.infoMatch E) n acc (.countryCode, v)).errors =
    []) :
    ∃ code, normalizeCountryCodeValue U (stringCell U v) = .ok code ∧
      normalizeUpdateField U (.infoMatch E) n acc (.countryCode, v) =
        { acc with normalized := { acc.normalized with
          countryCode := some (some (applyImportCountryMapping U code E).1)
          originalCountryCode := some (applyImportCountryMapping U code E).2 } } := by
  unfold normalizeUpdateField at he ⊢
  simp only at he ⊢
  split_ifs at he ⊢ with h0
  · simp at he
  · cases h : normalizeCountryField U (.infoMatch E) (stringCell U v) acc.normalized with
    | error e => rw [h] at he; simp at he
    | ok result =>
      obtain ⟨code, hcode, hres⟩ := normalizeCountryField_infoMatch h
      exact ⟨code, hcode, by rw [hres]; simp⟩

/-- The errors of a row only grow. -/
theorem normalizeUpdateField_errors {mode : EditMode} {n : ℕ} {acc : NormalizedUpdates}
    {entry : EditableField × JsonValue}
    (he : (normalizeUpdateField U mode n acc entry).errors = []) :
    acc.errors = [] := by
  obtain ⟨field, v⟩ := entry
  cases field with
  | postalCode =>
    obtain ⟨code, hp⟩ := normalizeUpdateField_postal (U := U) mode n acc v
    rwa [hp] at he
  | countryCode =>
    unfold normalizeUpdateField at he
    cases mode <;> simp only at he <;> split_ifs at he <;> (try split at he) <;> simp_all

end Normalize

/-! ### The database -/

/-- The tables that keep a country, the country names and the EU members. -/
structure CountryDb where
  euCountries : List String
  warehouses : Dict String (Option String)
  orders : Dict OrderKey OrderHeader
  inventory : Dict (String × String) InventorySnapshotLatest
  inTransit : Dict String InTransitRecord
  countryNames : Dict String String

section Database

variable (U : CharTable)

/-- `_load_country_options`; two codes never have one label, so the order in
which the options are searched does not matter. -/
def loadCountryOptions (db : CountryDb) : List (String × String) :=
  let overrides : Dict String String :=
    Dict.ofList (db.countryNames.items.map fun row => (upper U row.1, row.2))
  let observed := db.orders.values.filterMap fun row =>
    if row.countryCode = "" then none else normalizeObservedCountryCode U (.str row.countryCode)
  let codes := (builtinCountryNames.map Prod.fst ++ overrides.keys ++ observed).dedup
  codes.map fun code => (code, countryLabel U code overrides.get?)

/-- The names that the rows give to countries are stored. -/
def saveCountryOverrides (overrides : List (String × String)) (names : Dict String String) :
    Dict String String :=
  overrides.foldl (fun names row => names.set row.1 row.2) names

/-- `_apply_manual_updates`; a missing country is refused by the column's
`NOT NULL` when the transaction commits. -/
def applyManualUpdates (header : OrderHeader) (updates : ManualUpdates) :
    Except String OrderHeader :=
  match updates.countryCode.getD (some header.countryCode) with
  | none => .error "null value in column country_code violates not-null constraint"
  | some countryCode =>
    .ok { header with
      countryCode := countryCode
      originalCountryCode := updates.originalCountryCode.getD header.originalCountryCode
      postalCode := updates.postalCode.getD header.postalCode
      manualEditLocked := true }

/-! ### The single edit -/

/-- `DataOrderPatch`; `none` is a field that was not sent. -/
structure DataOrderPatch where
  countryCode : Option (Option String)
  postalCode : Option (Option String)

/-- The fields that the body of a patch has. -/
def DataOrderPatch.updates (patch : DataOrderPatch) : List (EditableField × JsonValue) :=
  (patch.countryCode.map fun v => (EditableField.countryCode, v.elim .null JsonValue.str)).toList ++
    (patch.postalCode.map fun v => (EditableField.postalCode, v.elim .null JsonValue.str)).toList

variable {U} in
/-- A single edit without errors sets what was sent. -/
theorem singleUpdates_of_patch {patch : DataOrderPatch} {options : List (String × String)} {n : ℕ}
    (he : (normalizeUpdateValues U patch.updates n (.single options)).errors = []) :
    SingleUpdates U options patch.countryCode
    (normalizeUpdateValues U patch.updates n (.single options)) := by
  obtain ⟨country, postal⟩ := patch
  -- the postal code comes last and leaves the country columns alone
  have hpostal : ∀ acc : NormalizedUpdates, ∃ p,
      (postal.map fun v => (EditableField.postalCode,
        v.elim JsonValue.null JsonValue.str)).toList.foldl
        (normalizeUpdateField U (.single options) n) acc =
        { acc with normalized := { acc.normalized with postalCode := p } } := by
    intro acc
    cases postal with
    | none => exact ⟨_, rfl⟩
    | some v =>
      obtain ⟨code, hp⟩ := normalizeUpdateField_postal (U := U)
        (.single options) n acc (v.elim .null .str)
      exact ⟨some code, by simpa using hp⟩
  simp only [normalizeUpdateValues, DataOrderPatch.updates, List.foldl_append] at he ⊢
  cases country with
  | none =>
    obtain ⟨p, hp⟩ := hpostal ⟨.empty, [], []⟩
    simp only [Option.map_none, Option.toList_none, List.foldl_nil, hp]
    exact ⟨rfl, fun _ => rfl, by simp, by simp, by simp⟩
  | some sent =>
    simp only [Option.map_some, Option.toList_some, List.foldl_cons, List.foldl_nil] at he ⊢
    obtain ⟨p, hp⟩ := hpostal (normalizeUpdateField U (.single options) n ⟨.empty, [], []⟩
      (.countryCode, sent.elim .null .str))
    rw [hp] at he ⊢
    cases sent with
    | none =>
      simp only [Option.elim_none, normalizeUpdateField_null]
      exact ⟨rfl, by simp, fun _ => rfl, by simp, by simp⟩
    | some value =>
      simp only [Option.elim_some] at he ⊢
      obtain ⟨code, name, overrides, hcode, hnames, hr⟩ := normalizeUpdateField_single (by simp) he
      simp only [hr, List.nil_append]
      refine ⟨rfl, by simp, by simp, ?_, hnames⟩
      rintro v hv
      cases Option.some.inj (Option.some.inj hv)
      exact ⟨code, name, hcode, rfl⟩

/-- The order a patch is about: the one of the package, or the latest by
purchase date and id when no package is named. -/
def selectHeader (orders : Dict OrderKey OrderHeader) (shopId amazonOrderId : String)
    (packageSn : Option String) : Option (OrderKey × OrderHeader) :=
  match packageSn with
  | some sn =>
    (orders.get? ⟨shopId, amazonOrderId, sn⟩).map fun row => (⟨shopId, amazonOrderId, sn⟩, row)
  | none =>
    ((orders.items.filter fun p => p.1.shopId = shopId ∧
        p.1.amazonOrderId = amazonOrderId).insertionSort fun p q =>
      q.2.purchaseDate < p.2.purchaseDate ∨ q.2.purchaseDate = p.2.purchaseDate ∧
        q.2.id ≤ p.2.id).head?

/-- `patch_order_header`. -/
def patchOrderHeader (shopId amazonOrderId : String) (packageSn : Option String)
    (patch : DataOrderPatch) (db : CountryDb) : Except String (OrderKey × CountryDb) :=
  if patch.updates = [] then .error "没有提交任何可更新字段"
  else
    let result := normalizeUpdateValues U patch.updates 0 (.single (loadCountryOptions U db))
    if result.errors ≠ [] then .error "订单编辑校验失败"
    else match selectHeader db.orders shopId amazonOrderId packageSn with
      | none => .error s!"订单 {shopId}/{amazonOrderId} 不存在"
      | some (key, header) => do
        let header ← applyManualUpdates header result.normalized
        pure (key, { db with
          orders := db.orders.set key header
          countryNames := saveCountryOverrides result.countryOverrides db.countryNames })

/-! ### The import -/

/-- What `_parse_match_workbook` has gathered so far. -/
structure ParsedRows where
  seenOrders : Dict String ℕ
  updatesByOrder : Dict String ManualUpdates
  countryOverrides : List (String × String)
  errors : List OrderInfoMatchError

/-- The header of the first column. -/
def orderNumberHeader : String := "订单号"

/-- A cell of a row of the sheet; a cell beyond the row is empty. -/
def cellAt (row : List JsonValue) (column : ℕ) : JsonValue := row.getD column .null

/-- The columns of a row that belong to the chosen fields. -/
def rawRowUpdates (fields : List EditableField) (row : List JsonValue) :
    List (EditableField × JsonValue) :=
  fields.zip ((List.range fields.length).map fun index => cellAt row (index + 1))

/-- One round of the loop of `_parse_match_workbook`. -/
def parseMatchRow (fields : List EditableField) (allOrderIds : List String)
    (euCountries : List String) (acc : ParsedRows) (entry : ℕ × List JsonValue) : ParsedRows :=
  let (rowNumber, row) := entry
  let fail (field message : String) :=
    { acc with errors := acc.errors ++ [⟨rowNumber, field, message⟩] }
  if (List.range (fields.length + 1)).all fun column =>
    stringCell U (cellAt row column) = "" then acc
  else
    let amazonOrderId := stringCell U (cellAt row 0)
    if amazonOrderId = "" then fail orderNumberHeader "订单号不能为空"
    else match acc.seenOrders.get? amazonOrderId with
      | some previousRow => fail orderNumberHeader s!"订单号与第 {previousRow} 行重复"
      | none =>
        let acc := { acc with seenOrders := acc.seenOrders.set amazonOrderId rowNumber }
        if amazonOrderId ∉ allOrderIds then
          { acc with errors := acc.errors ++ [⟨rowNumber, orderNumberHeader, "订单号不存在"⟩] }
        else
          let result := normalizeUpdateValues U (rawRowUpdates fields row) rowNumber
            (.infoMatch euCountries)
          if result.errors = [] then
            { acc with
              updatesByOrder := acc.updatesByOrder.set amazonOrderId result.normalized
              countryOverrides := acc.countryOverrides ++ result.countryOverrides }
          else { acc with errors := acc.errors ++ result.errors }

/-- The rows of the sheet with their numbers, gathered one by one. -/
def parsedRows (fields : List EditableField) (sheet : List (List JsonValue)) (db : CountryDb)
    (euCountries : List String) : ParsedRows :=
  ((sheet.drop 1).zipIdx.map fun p => (p.2 + 2, p.1)).foldl
    (parseMatchRow U fields (db.orders.keys.map OrderKey.amazonOrderId) euCountries)
      ⟨.empty, .empty, [], []⟩

/-- `_parse_match_workbook` on the cells of the sheet; a workbook that cannot be
read is refused before. -/
def parseMatchWorkbook (fields : List EditableField) (sheet : List (List JsonValue))
    (db : CountryDb) : Except String ParsedRows :=
  let expectedHeaders := orderNumberHeader :: fields.map EditableField.label
  let headerRow := sheet.headD []
  if (List.range expectedHeaders.length).map
      (fun column => stringCell U (cellAt headerRow column)) ≠ expectedHeaders ∨
      (headerRow.drop expectedHeaders.length).any (fun value => stringCell U value ≠ "") then
    .error "表头必须严格等于：订单号 + 勾选字段"
  else (loadEuCountries U (db.euCountries.map .str)).map (parsedRows U fields sheet db)

/-- `_format_match_errors`. -/
def formatMatchErrors : List OrderInfoMatchError → String
  | [] => "订单信息匹配校验失败"
  | first :: rest =>
    let suffix := if rest = [] then "" else s!"等 {rest.length + 1} 个错误"
    s!"订单信息匹配校验失败：第 {first.row} 行 {first.field}：{first.message}{suffix}"

/-- The loop of `apply_parsed_order_info_match` over the rows. -/
def applyParsedUpdates (updatesByOrder : Dict String ManualUpdates)
    (orders : Dict OrderKey OrderHeader) :
    List OrderKey → Except String (Dict OrderKey OrderHeader)
  | [] => .ok orders
  | key :: keys =>
    match updatesByOrder.get? key.amazonOrderId, orders.get? key with
    | some updates, some row => do
      let row ← applyManualUpdates row updates
      applyParsedUpdates updatesByOrder (orders.set key row) keys
    | _, _ => applyParsedUpdates updatesByOrder orders keys

/-- The rows are applied, if none has an error. -/
def applyParsedOrderInfoMatch (db : CountryDb) (parsed : ParsedRows) : Except String CountryDb :=
  if parsed.errors ≠ [] then .error (formatMatchErrors parsed.errors)
  else (applyParsedUpdates parsed.updatesByOrder db.orders db.orders.keys).map fun orders =>
    { db with
      orders := orders
      countryNames := saveCountryOverrides parsed.countryOverrides db.countryNames }

/-- The sheet is parsed and applied. -/
def applyOrderInfoMatch (fields : List EditableField) (sheet : List (List JsonValue))
    (db : CountryDb) : Except String CountryDb :=
  (parseMatchWorkbook U fields sheet db).bind (applyParsedOrderInfoMatch db)

/-! ### What the single edit does -/

variable {U}

/-- The codes of the country names are normalised; only edits write them. -/
def NamesNormalized (U : CharTable) (names : Dict String String) :
    Prop := ∀ code ∈ names.keys, IsNormalized U code

theorem saveCountryOverrides_normalized :
    ∀ {overrides : List (String × String)} {names : Dict String String},
    (∀ entry ∈ overrides, IsNormalized U entry.1) → NamesNormalized U names →
    NamesNormalized U (saveCountryOverrides overrides names)
  | [], _, _, hn => hn
  | entry :: overrides, names, ho, hn => by
    show NamesNormalized U (saveCountryOverrides overrides (names.set entry.1 entry.2))
    refine saveCountryOverrides_normalized (fun e he => ho e (List.mem_cons_of_mem _ he))
      fun code hc => ?_
    obtain ⟨v, hv⟩ := Dict.mem_keys_iff.mp hc
    rw [Dict.get?_set] at hv
    split_ifs at hv with h1
    · exact h1 ▸ ho entry List.mem_cons_self
    · exact hn code (Dict.mem_keys_iff.mpr ⟨v, hv⟩)

theorem loadCountryOptions_normalized {db : CountryDb} (hn : NamesNormalized U db.countryNames) :
    ∀ option ∈ loadCountryOptions U db, IsNormalized U option.1 := by
  intro option ho
  simp only [loadCountryOptions, List.mem_map, List.mem_dedup] at ho
  obtain ⟨code, hc, rfl⟩ := ho
  rcases List.mem_append.mp hc with hc | hc
  · rcases List.mem_append.mp hc with hc | hc
    · obtain ⟨entry, he, rfl⟩ := List.mem_map.mp hc
      exact builtinCountryNames_normalized U entry he
    · obtain ⟨v, hv⟩ := Dict.mem_keys_iff.mp hc
      have hm := (Dict.get?_foldl_set _ _ hv).resolve_right (by simp)
      obtain ⟨row, hrow, he⟩ := List.mem_map.mp hm
      have hcode := hn row.1 (List.mem_map_of_mem hrow)
      have hup : upper U row.1 = row.1 := by
        rw [← hcode.facts.1, upper_upper]
      have h1 : upper U row.1 = code := congrArg Prod.fst he
      rw [← h1, hup]
      exact hcode
  · obtain ⟨row, -, h⟩ := List.mem_filterMap.mp hc
    split_ifs at h
    exact isNormalized_of_normalize U h

/-- A builtin code is accepted as it is. -/
theorem normalizeCountryValue_builtin {value code : String} (db : CountryDb)
    (hn : normalizeObservedCountryCode U (.str (strip U value)) = some code)
    (hc : code ∈ builtinCountryNames.map Prod.fst) :
    normalizeCountryValue U value (loadCountryOptions U db) = .ok (code, none) := by
  have hmem : code ∈ (loadCountryOptions U db).map Prod.fst := by
    simp only [loadCountryOptions, List.map_map, Function.comp_def, List.map_id', List.mem_dedup]
    exact List.mem_append_left _ (List.mem_append_left _ hc)
  unfold normalizeCountryValue
  simp only [hn, Option.filter_some, hmem, decide_true, if_true]

theorem selectHeader_mem {orders : Dict OrderKey OrderHeader} {shopId amazonOrderId : String}
    {packageSn : Option String} {key : OrderKey} {header : OrderHeader}
    (h : selectHeader orders shopId amazonOrderId packageSn = some (key, header)) :
    orders.get? key = some header := by
  cases packageSn with
  | some sn =>
    obtain ⟨row, hrow, he⟩ := Option.map_eq_some_iff.mp h
    obtain ⟨rfl, rfl⟩ := Prod.mk.inj he
    exact hrow
  | none =>
    have hm := (List.mem_insertionSort _).mp (List.mem_of_head? h)
    exact Dict.get?_eq_some_iff.mpr (List.mem_filter.mp hm).1

theorem applyManualUpdates_ok {header header' : OrderHeader} {updates : ManualUpdates}
    (h : applyManualUpdates header updates = .ok header') :
    updates.countryCode.getD (some header.countryCode) = some header'.countryCode ∧
      header' = { header with
        countryCode := header'.countryCode
        originalCountryCode := updates.originalCountryCode.getD header.originalCountryCode
        postalCode := updates.postalCode.getD header.postalCode
        manualEditLocked := true } := by
  unfold applyManualUpdates at h
  split at h
  · simp only [reduceCtorEq] at h
  next countryCode hc =>
    cases Except.ok.inj h
    exact ⟨hc, rfl⟩

/-- What a single edit does: one row is locked and keeps its original country;
its country is the code that was entered, or unchanged when none was sent. -/
structure Patched (U : CharTable) (selected : Option (OrderKey × OrderHeader))
    (patch : DataOrderPatch) (db : CountryDb) (key : OrderKey) (db' : CountryDb) : Prop where
  tables : db'.euCountries = db.euCountries ∧ db'.warehouses = db.warehouses ∧
    db'.inventory = db.inventory ∧ db'.inTransit = db.inTransit
  names : NamesNormalized U db.countryNames → NamesNormalized U db'.countryNames
  row : ∃ row row', selected = some (key, row) ∧ db.orders.get? key = some row ∧
    db'.orders = db.orders.set key row' ∧
    row'.manualEditLocked = true ∧ row'.originalCountryCode = row.originalCountryCode ∧
    (patch.countryCode = none → row'.countryCode = row.countryCode) ∧
    ∀ value, patch.countryCode = some (some value) → ∃ name,
      normalizeCountryValue U (stringCell U (.str value)) (loadCountryOptions U db) = .ok
        (row'.countryCode, name)
  sent : patch.countryCode ≠ some none

theorem patchOrderHeader_ok {shopId amazonOrderId : String} {packageSn : Option String}
    {patch : DataOrderPatch} {db db' : CountryDb} {key : OrderKey}
    (h : patchOrderHeader U shopId amazonOrderId packageSn patch db = .ok (key, db')) :
    Patched U (selectHeader db.orders shopId amazonOrderId packageSn) patch db key db' := by
  unfold patchOrderHeader at h
  simp only at h
  split_ifs at h with h0 he
  rw [not_not] at he
  have hs := singleUpdates_of_patch he
  split at h
  · simp only [reduceCtorEq] at h
  next k header hsel =>
    cases ha : applyManualUpdates header
        (normalizeUpdateValues U patch.updates 0
            (.single (loadCountryOptions U db))).normalized with
    | error e => rw [ha] at h; simp [bind, Except.bind] at h
    | ok header' =>
      rw [ha] at h
      obtain ⟨rfl, rfl⟩ := Prod.mk.inj (Except.ok.inj h)
      obtain ⟨hc, hrow⟩ := applyManualUpdates_ok ha
      refine ⟨⟨rfl, rfl, rfl, rfl⟩, saveCountryOverrides_normalized hs.names,
        ⟨header, header', hsel, selectHeader_mem hsel,
        rfl, by rw [hrow], by rw [hrow, hs.original]; rfl, fun hu => ?_, fun value hv => ?_⟩,
        fun hcl => ?_⟩
      · rw [hs.unsent hu] at hc
        exact (Option.some.inj hc).symm
      · obtain ⟨code, name, hcode, hset⟩ := hs.sent value hv
        rw [hset] at hc
        exact ⟨name, Option.some.inj hc ▸ hcode⟩
      · rw [hs.cleared hcl] at hc
        simp at hc

/-! ### What the import does -/

/-- The errors of a run of rounds only grow. -/
theorem normalizeUpdateValues_errors {mode : EditMode} {n : ℕ} :
    ∀ (l : List (EditableField × JsonValue))
    {acc : NormalizedUpdates}, (l.foldl (normalizeUpdateField U mode n) acc).errors = [] →
    acc.errors = []
  | [], _, h => h
  | _ :: l, _, h => normalizeUpdateField_errors (normalizeUpdateValues_errors l h)

/-- Without a country among them, the fields leave the country columns alone. -/
theorem foldl_postal (mode : EditMode) (n : ℕ) :
    ∀ (l : List (EditableField × JsonValue)) (acc : NormalizedUpdates),
    EditableField.countryCode ∉ l.map Prod.fst →
      (l.foldl (normalizeUpdateField U mode n) acc).normalized.countryCode =
        acc.normalized.countryCode ∧
        (l.foldl (normalizeUpdateField U mode n) acc).normalized.originalCountryCode =
        acc.normalized.originalCountryCode
  | [], _, _ => ⟨rfl, rfl⟩
  | (.countryCode, _) :: _, _, h => absurd List.mem_cons_self h
  | (.postalCode, v) :: l, acc, h => by
    obtain ⟨code, hp⟩ := normalizeUpdateField_postal (U := U) mode n acc v
    have := foldl_postal mode n l (normalizeUpdateField U mode n acc (.postalCode, v))
      fun hm => h (List.mem_cons_of_mem _ hm)
    rw [List.foldl_cons]
    exact ⟨this.1.trans (by rw [hp]), this.2.trans (by rw [hp])⟩

/-- The row of the import that has the country text `v`. -/
theorem infoMatch_country {E : List String} {n : ℕ} {l : List (EditableField × JsonValue)}
    (hnd : (l.map Prod.fst).Nodup) {v : JsonValue} (hv : (EditableField.countryCode, v) ∈ l)
    (he : (normalizeUpdateValues U l n (.infoMatch E)).errors = []) :
    ∃ code, normalizeCountryCodeValue U (stringCell U v) = .ok code ∧
      (normalizeUpdateValues U l n (.infoMatch E)).normalized.countryCode =
        some (some (applyImportCountryMapping U code E).1) ∧
      (normalizeUpdateValues U l n (.infoMatch E)).normalized.originalCountryCode =
        some (applyImportCountryMapping U code E).2 := by
  obtain ⟨l₁, l₂, rfl⟩ := List.append_of_mem hv
  have h2 : EditableField.countryCode ∉ l₂.map Prod.fst := by
    rw [List.map_append, List.map_cons, List.nodup_append] at hnd
    exact (List.nodup_cons.mp hnd.2.1).1
  rw [normalizeUpdateValues, List.foldl_append, List.foldl_cons] at he ⊢
  set acc := l₁.foldl (normalizeUpdateField U (.infoMatch E) n) ⟨.empty, [], []⟩ with hacc
  obtain ⟨code, hcode, hr⟩ := normalizeUpdateField_infoMatch (normalizeUpdateValues_errors l₂ he)
  obtain ⟨h3, h4⟩ := foldl_postal (.infoMatch E) n l₂
    (normalizeUpdateField U (.infoMatch E) n acc (.countryCode, v)) h2
  exact ⟨code, hcode, h3.trans (by rw [hr]), h4.trans (by rw [hr])⟩

/-- An import row without errors. -/
theorem infoMatchUpdates_of_row {E : List String} (hE : EuMembers U E) {n : ℕ}
    {l : List (EditableField × JsonValue)} (hnd : (l.map Prod.fst).Nodup)
    (he : (normalizeUpdateValues U l n (.infoMatch E)).errors = []) :
    InfoMatchUpdates U E (normalizeUpdateValues U l n (.infoMatch E)).normalized := by
  by_cases hm : EditableField.countryCode ∈ l.map Prod.fst
  · obtain ⟨⟨field, v⟩, hv, hf⟩ := List.mem_map.mp hm
    cases hf
    obtain ⟨code, hcode, h1, h2⟩ := infoMatch_country hnd hv he
    have hc := normalizeCountryCodeValue_normalized hcode
    have hrep := applyImportCountryMapping_eq hE hc
    exact Or.inr ⟨code, hc, by rw [h1, ← hrep], by rw [h2, ← hrep]⟩
  · exact Or.inl (foldl_postal (.infoMatch E) n l ⟨.empty, [], []⟩ hm)

/-- An import names no new country. -/
theorem normalizeUpdateField_overrides (E : List String) (n : ℕ) (acc : NormalizedUpdates)
    (entry : EditableField × JsonValue) :
    (normalizeUpdateField U (.infoMatch E) n acc entry).countryOverrides =
    acc.countryOverrides := by
  obtain ⟨field, v⟩ := entry
  cases field with
  | postalCode =>
    obtain ⟨code, hp⟩ := normalizeUpdateField_postal (U := U) (.infoMatch E) n acc v
    rw [hp]
  | countryCode =>
    unfold normalizeUpdateField
    simp only
    split_ifs with h0
    · rfl
    · cases h : normalizeCountryField U (.infoMatch E) (stringCell U v) acc.normalized with
      | error e => rfl
      | ok result =>
        obtain ⟨code, -, hres⟩ := normalizeCountryField_infoMatch h
        simp [hres]

theorem infoMatch_overrides (E : List String) (n : ℕ) : ∀ (l : List (EditableField × JsonValue))
    (acc : NormalizedUpdates),
      (l.foldl (normalizeUpdateField U (.infoMatch E) n) acc).countryOverrides =
      acc.countryOverrides
  | [], _ => rfl
  | entry :: l, acc =>
    by rw [List.foldl_cons, infoMatch_overrides E n l, normalizeUpdateField_overrides]

theorem map_fst_rawRowUpdates (fields : List EditableField) (row : List JsonValue) :
    (rawRowUpdates fields row).map Prod.fst = fields := by
  rw [rawRowUpdates, List.map_fst_zip (by simp)]

section Rows

variable {fields : List EditableField} {ids E : List String}

/-- What a row of the sheet does to what was gathered before, when it makes no
error: nothing when it is blank, else it enters its order for the first time. -/
theorem parseMatchRow_cases {acc : ParsedRows} {n : ℕ} {row : List JsonValue}
    (he : (parseMatchRow U fields ids E acc (n, row)).errors = []) :
    acc.errors = [] ∧ (stringCell U (cellAt row 0) = "" ∧
      parseMatchRow U fields ids E acc (n, row) = acc ∨
        acc.seenOrders.get? (stringCell U (cellAt row 0)) = none ∧
        (normalizeUpdateValues U (rawRowUpdates fields row) n (.infoMatch E)).errors = [] ∧
          parseMatchRow U fields ids E acc (n, row) = { acc with
            seenOrders := acc.seenOrders.set (stringCell U (cellAt row 0)) n
            updatesByOrder := acc.updatesByOrder.set (stringCell U (cellAt row 0))
              (normalizeUpdateValues U (rawRowUpdates fields row) n (.infoMatch E)).normalized
            countryOverrides := acc.countryOverrides ++
              (normalizeUpdateValues U (rawRowUpdates fields row) n (.infoMatch E)).countryOverrides
              }) := by
  unfold parseMatchRow at he ⊢
  simp only at he ⊢
  by_cases hblank : ((List.range (fields.length + 1)).all fun column => stringCell U
    (cellAt row column) = "") = true
  · rw [if_pos hblank] at he ⊢
    refine ⟨he, Or.inl ⟨?_, rfl⟩⟩
    simpa using List.all_eq_true.mp hblank 0 (by simp)
  rw [if_neg hblank] at he ⊢
  by_cases h0 : stringCell U (cellAt row 0) = ""
  · rw [if_pos h0] at he
    simp at he
  rw [if_neg h0] at he ⊢
  cases hseen : acc.seenOrders.get? (stringCell U (cellAt row 0)) with
  | some previous => rw [hseen] at he; simp at he
  | none =>
    rw [hseen] at he
    by_cases hid : stringCell U (cellAt row 0) ∈ ids
    · simp only [hid, not_true_eq_false, if_false] at he ⊢
      by_cases hres : (normalizeUpdateValues U (rawRowUpdates fields row) n (.infoMatch E)).errors =
        []
      · rw [if_pos hres] at he ⊢
        exact ⟨he, Or.inr ⟨trivial, hres, rfl⟩⟩
      · rw [if_neg hres] at he
        exact absurd (List.append_eq_nil_iff.mp he).2 hres
    · simp [hid] at he

/-- The rows of a sheet without errors: every order keeps the updates of the one
row that names it. -/
structure ParsedOk (U : CharTable) (fields : List EditableField) (E : List String)
    (acc : ParsedRows) (rows : List (ℕ × List JsonValue)) (result : ParsedRows) : Prop where
  kept : ∀ id, (acc.seenOrders.get? id).isSome →
    result.updatesByOrder.get? id = acc.updatesByOrder.get? id
  entered : ∀ entry ∈ rows, stringCell U (cellAt entry.2 0) ≠ "" →
    (normalizeUpdateValues U (rawRowUpdates fields entry.2) entry.1 (.infoMatch E)).errors = [] ∧
      result.updatesByOrder.get? (stringCell U (cellAt entry.2 0)) =
        some (normalizeUpdateValues U (rawRowUpdates fields entry.2) entry.1
          (.infoMatch E)).normalized
  names : result.countryOverrides = acc.countryOverrides
  source : ∀ id updates, result.updatesByOrder.get? id = some updates →
    acc.updatesByOrder.get? id = some updates ∨ ∃ entry ∈ rows,
      (normalizeUpdateValues U (rawRowUpdates fields entry.2) entry.1 (.infoMatch E)).errors = [] ∧
        (normalizeUpdateValues U (rawRowUpdates fields entry.2) entry.1 (.infoMatch E)).normalized =
          updates

theorem parsedOk_foldl (ids : List String) :
    ∀ (rows : List (ℕ × List JsonValue)) (acc : ParsedRows),
    (rows.foldl (parseMatchRow U fields ids E) acc).errors = [] →
    ParsedOk U fields E acc rows (rows.foldl (parseMatchRow U fields ids E) acc) ∧ acc.errors = []
  | [], acc, he => ⟨⟨fun _ _ => rfl, by simp, rfl, fun _ _ h => Or.inl h⟩, he⟩
  | (n, row) :: rows, acc, he => by
    obtain ⟨ih, he'⟩ := parsedOk_foldl ids rows (parseMatchRow U fields ids E acc (n, row)) he
    obtain ⟨he0, ⟨hb, hacc⟩ | ⟨hseen, hres, hacc⟩⟩ := parseMatchRow_cases he'
    · rw [List.foldl_cons]
      refine ⟨⟨fun id hid => ?_,
        fun entry hm hne => ?_, by rw [ih.names, hacc], fun id updates hu => ?_⟩, he0⟩
      · rw [ih.kept id (by rw [hacc]; exact hid), hacc]
      · rcases List.mem_cons.mp hm with rfl | hm
        · exact absurd hb hne
        · exact ih.entered entry hm hne
      · rcases ih.source id updates hu with h | ⟨entry, hm, h⟩
        · exact Or.inl (by rwa [hacc] at h)
        · exact Or.inr ⟨entry, List.mem_cons_of_mem _ hm, h⟩
    · rw [List.foldl_cons]
      refine ⟨⟨fun id hid => ?_, fun entry hm hne => ?_, ?_, fun id updates hu => ?_⟩, he0⟩
      · have hne : id ≠ stringCell U (cellAt row 0) := fun h => by rw [h, hseen] at hid; simp at hid
        rw [ih.kept id (by rw [hacc, Dict.get?_set_ne _ _ hne]; exact hid), hacc,
          Dict.get?_set_ne _ _ hne]
      · rcases List.mem_cons.mp hm with rfl | hm
        · refine ⟨hres, ?_⟩
          rw [ih.kept _ (by rw [hacc, Dict.get?_set_self]; rfl), hacc, Dict.get?_set_self]
        · exact ih.entered entry hm hne
      · rw [ih.names, hacc, normalizeUpdateValues, infoMatch_overrides, List.append_nil]
      · rcases ih.source id updates hu with h | ⟨entry, hm, h⟩
        · rw [hacc, Dict.get?_set] at h
          split_ifs at h with hid
          · exact Or.inr ⟨(n, row), List.mem_cons_self, hres, Option.some.inj h⟩
          · exact Or.inl h
        · exact Or.inr ⟨entry, List.mem_cons_of_mem _ hm, h⟩

end Rows

theorem applyParsedUpdates_frame {updatesByOrder : Dict String ManualUpdates} {key : OrderKey} :
    ∀ {keys : List OrderKey} {orders orders' : Dict OrderKey OrderHeader},
    applyParsedUpdates updatesByOrder orders keys = .ok orders' → key ∉ keys →
    orders'.get? key = orders.get? key
  | [], _, _, h, _ => by rw [Except.ok.inj h]
  | k :: keys, orders, orders', h, hk => by
    have hne : key ≠ k := fun he => hk (he ▸ List.mem_cons_self)
    have hk' : key ∉ keys := fun hm => hk (List.mem_cons_of_mem _ hm)
    unfold applyParsedUpdates at h
    split at h
    next updates row _ _ =>
      cases ha : applyManualUpdates row updates with
      | error e => rw [ha] at h; simp [bind, Except.bind] at h
      | ok row' =>
        rw [ha] at h
        have h : applyParsedUpdates updatesByOrder (orders.set k row') keys = .ok orders' := h
        rw [applyParsedUpdates_frame h hk', Dict.get?_set_ne _ _ hne]
    next => exact applyParsedUpdates_frame h hk'

/-- The rows an import leaves: those it has updates for are edited, the others
are as they were. -/
theorem applyParsedUpdates_ok {updatesByOrder : Dict String ManualUpdates} {key : OrderKey}
    {row : OrderHeader} :
    ∀ {keys : List OrderKey} {orders orders' : Dict OrderKey OrderHeader}, keys.Nodup →
    applyParsedUpdates updatesByOrder orders keys = .ok orders' → key ∈ keys →
    orders.get? key = some row → match updatesByOrder.get? key.amazonOrderId with
    | none => orders'.get? key = some row
    | some updates =>
      ∃ row', applyManualUpdates row updates = .ok row' ∧ orders'.get? key = some row'
  | [], _, _, _, _, hm, _ => absurd hm (by simp)
  | k :: keys, orders, orders', hnd, h, hm, hrow => by
    obtain ⟨hk, hnd⟩ := List.nodup_cons.mp hnd
    unfold applyParsedUpdates at h
    split at h
    next updates row₀ hu hrow₀ =>
      cases ha : applyManualUpdates row₀ updates with
      | error e => rw [ha] at h; simp [bind, Except.bind] at h
      | ok row' =>
        rw [ha] at h
        have h : applyParsedUpdates updatesByOrder (orders.set k row') keys = .ok orders' := h
        by_cases hkey : key = k
        · subst hkey
          rw [hrow] at hrow₀
          cases Option.some.inj hrow₀
          simp only [hu]
          exact ⟨row', ha, by rw [applyParsedUpdates_frame h hk, Dict.get?_set_self]⟩
        · exact applyParsedUpdates_ok hnd h ((List.mem_cons.mp hm).resolve_left hkey)
            (by rwa [Dict.get?_set_ne _ _ hkey])
    next hno =>
      by_cases hkey : key = k
      · subst hkey
        cases hu : updatesByOrder.get? key.amazonOrderId with
        | none => rw [applyParsedUpdates_frame h hk, hrow]
        | some updates => exact absurd hrow (hno updates row hu)
      · exact applyParsedUpdates_ok hnd h ((List.mem_cons.mp hm).resolve_left hkey) hrow

/-- What an import does: the rows of the orders in the sheet are edited. -/
structure InfoMatched (U : CharTable) (fields : List EditableField) (sheet : List (List JsonValue))
    (E : List String) (updatesByOrder : Dict String ManualUpdates) (db db' : CountryDb) : Prop where
  members : EuMembers U E
  loaded : loadEuCountries U (db.euCountries.map .str) = .ok E
  tables : db'.euCountries = db.euCountries ∧ db'.warehouses = db.warehouses ∧
    db'.inventory = db.inventory ∧ db'.inTransit = db.inTransit
  names : db'.countryNames = db.countryNames
  updates : ∀ id updates, updatesByOrder.get? id = some updates → InfoMatchUpdates U E updates
  entered : ∀ row ∈ sheet.drop 1, stringCell U (cellAt row 0) ≠ "" → ∃ n,
    (normalizeUpdateValues U (rawRowUpdates fields row) n (.infoMatch E)).errors = [] ∧
      updatesByOrder.get? (stringCell U (cellAt row 0)) =
        some (normalizeUpdateValues U (rawRowUpdates fields row) n (.infoMatch E)).normalized
  absent : ∀ key, db.orders.get? key = none → db'.orders.get? key = none
  rows : ∀ key row, db.orders.get? key = some row → match updatesByOrder.get? key.amazonOrderId with
    | none => db'.orders.get? key = some row
    | some updates =>
      ∃ row', applyManualUpdates row updates = .ok row' ∧ db'.orders.get? key = some row'

theorem applyOrderInfoMatch_ok {fields : List EditableField} (hf : fields.Nodup)
    {sheet : List (List JsonValue)} {db db' : CountryDb}
    (h : applyOrderInfoMatch U fields sheet db = .ok db') :
    ∃ E updatesByOrder, InfoMatched U fields sheet E updatesByOrder db db' := by
  obtain ⟨parsed, hp, h⟩ := Checked.bind_ok h
  unfold parseMatchWorkbook at hp
  simp only at hp
  split_ifs at hp with hhead
  obtain ⟨E, hE, hp⟩ := Checked.map_ok hp
  unfold applyParsedOrderInfoMatch at h
  split_ifs at h with he
  rw [not_not] at he
  obtain ⟨orders, ha, hdb⟩ := Checked.map_ok h
  have hmem : EuMembers U E := normalizeCountryListForEuMembers_spec U hE
  rw [← hp] at he
  obtain ⟨hok, -⟩ := parsedOk_foldl _ _ _ he
  change ParsedOk U fields E _ _ (parsedRows U fields sheet db E) at hok
  rw [hp] at hok
  have hnames : db'.countryNames = db.countryNames := by
    rw [← hdb, hok.names]
    rfl
  refine ⟨E, parsed.updatesByOrder, ⟨hmem, hE, by rw [← hdb]; exact ⟨rfl, rfl, rfl, rfl⟩, hnames,
    fun id updates hu => ?_, fun row hrow hne => ?_, fun key hkey => ?_, fun key row hrow => ?_⟩⟩
  · rcases hok.source id updates hu with hnil | ⟨entry, -, hres, rfl⟩
    · simp at hnil
    · exact infoMatchUpdates_of_row hmem (by rw [map_fst_rawRowUpdates]; exact hf) hres
  · obtain ⟨n, hn⟩ := List.getElem?_of_mem hrow
    have hm : (n + 2, row) ∈ (sheet.drop 1).zipIdx.map fun p => (p.2 + 2, p.1) :=
      List.mem_map.mpr ⟨(row, n), List.mk_mem_zipIdx_iff_getElem?.mpr hn, rfl⟩
    have hrow' := hok.entered (n + 2, row) hm hne
    simp only at hrow'
    exact ⟨n + 2, hrow'⟩
  · rw [← hdb]
    exact (applyParsedUpdates_frame ha (Dict.get?_eq_none_iff.mp hkey)).trans hkey
  · rw [← hdb]
    exact applyParsedUpdates_ok db.orders.nodup ha (Dict.mem_keys_iff.mpr ⟨row, hrow⟩) hrow

end Database

end Restock
