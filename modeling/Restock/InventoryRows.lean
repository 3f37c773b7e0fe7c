/-
# The rows of an inventory workbook (`services/third_party_inventory.py`)

The import of third-party inventory reads a sheet with four required columns, skips blank
rows and collects what is wrong with each of the others. A quantity goes through `int`,
which reads what a text or a number denotes. But of a fractional number it takes the
integer part, an infinite one it refuses with an error that nothing catches, and in a text
it reads a limited number of digits. Unless one of these comes up, a row is accepted exactly
if it is valid (`parses_right_iff`).

An integer in a cell was read from a text with no more digits than the interpreter's
limit, so `str` prints it.
-/
import Restock.MappingImport
import Restock.ZipcodeRuleIn

namespace Restock

open PyText

/-- `ParsedThirdPartyInventoryRow`. -/
structure ParsedRow where
  sourceRowNo : ℕ
  warehouseName : String
  commoditySku : Option String
  available : Option ℤ
  reserved : Option ℤ
  errorMessage : Option String
deriving DecidableEq, Repr

/-- An answer with a message, or an exception that nothing expects. -/
inductive ParseFailure
  | validationFailed (message : String)
  | raised (message : String)
deriving DecidableEq, Repr

/-- `REQUIRED_HEADERS`. -/
def inventoryHeaders : List String := ["仓库", "SKU", "可用数", "待出库"]

section Parse

variable (U : ReadTable)

/-- `_cell_text`. -/
def inventoryCellText (value : Cell) :
    String := strip U.toCharTable (if value = .none then "" else value.toText)

/-- What `int` read, unless it refused the value. -/
def checkQuantity (fieldName : String) : Option ℤ → Except String ℤ
  | none => .error s!"{fieldName} 必须为非负整数"
  | some parsed => if parsed < 0 then .error s!"{fieldName} 必须为非负整数" else .ok parsed

/-- What `_parse_quantity` returns or refuses, unless `int` raises an error that it does not
catch. -/
def parseQuantity (value : Cell) (fieldName : String) : Except String (Except String ℤ) :=
  if value = .none ∨ strip U.toCharTable value.toText = "" then .ok (.ok 0)
  else (value.readInt U).map (checkQuantity fieldName)

/-- The columns by their headers; of two columns with one header the last one counts. -/
def headerIndex (header : List Cell) : Dict String ℕ :=
  Dict.ofList (((header.map (inventoryCellText U)).zipIdx).filter fun e => e.1 ≠ "")

/-- The cell of a row under a header; a row may be short. -/
def cellUnder (index : Dict String ℕ) (row : List Cell) (header : String) : Cell :=
  (index.get? header).elim .none fun idx => row.getD idx .none

def isBlankRow (row : List Cell) : Bool := !row.any fun value => inventoryCellText U value ≠ ""

/-- The message of a quantity that is refused. -/
def messageOf : Except String ℤ → List String
  | .error message => [message]
  | .ok _ => []

def rowErrors (warehouseName commoditySku : String) (available reserved : Except String ℤ) :
    List String :=
  (if warehouseName = "" then ["仓库不能为空"] else []) ++
    (if commoditySku = "" then ["SKU 不能为空"] else []) ++ messageOf available ++ messageOf reserved

/-- The row of what was read; a row with an error keeps no quantity. -/
def parsedRow (rowNo : ℕ) (warehouseName commoditySku : String)
    (available reserved : Except String ℤ) : ParsedRow :=
  let errors := rowErrors warehouseName commoditySku available reserved
  { sourceRowNo := rowNo
    warehouseName := warehouseName
    commoditySku := nonEmpty commoditySku
    available := if errors = [] then available.toOption else none
    reserved := if errors = [] then reserved.toOption else none
    errorMessage := if errors = [] then none else some ("；".intercalate errors) }

/-- One round of the loop. -/
def parseRow (index : Dict String ℕ) (rowNo : ℕ) (row : List Cell) : Except String ParsedRow := do
  let available ← parseQuantity U (cellUnder index row "可用数") "可用数"
  let reserved ← parseQuantity U (cellUnder index row "待出库") "待出库"
  return parsedRow rowNo (inventoryCellText U (cellUnder index row "仓库"))
    (inventoryCellText U (cellUnder index row "SKU"))
    available reserved

/-- The rows that are not blank, with their numbers. -/
def filledRows (rows : List (List Cell)) :
    List (List Cell × ℕ) := (rows.zipIdx 2).filter fun e => !isBlankRow U e.1

/-- What the loop over the rows leaves. -/
def collectedRows : Except String (List ParsedRow) → Except ParseFailure (List ParsedRow)
  | .error message => .error (.raised message)
  | .ok [] => .error (.validationFailed "导入文件没有有效数据")
  | .ok parsed => .ok parsed

def parseSheet : List (List Cell) → Except ParseFailure (List ParsedRow)
  | [] => .error (.validationFailed "导入文件没有有效数据")
  | header :: rows =>
    let missing := inventoryHeaders.filter fun name => ((headerIndex U header).get? name).isNone
    if missing ≠ [] then .error (.validationFailed ("导入文件缺少必要列：" ++ ", ".intercalate missing))
    else collectedRows ((filledRows U rows).mapM fun e => parseRow U (headerIndex U header) e.2 e.1)

/-- `load` reads the rows of the active sheet of a file; an empty file has no content. -/
def parseThirdPartyInventoryWorkbook {Content : Type}
    (load : Content → Except String (List (List Cell))) :
    Option Content → Except ParseFailure (List ParsedRow)
  | none => .error (.validationFailed "导入文件没有有效数据")
  | some content =>
    match load content with
    | .error _ => .error (.validationFailed "导入文件无法解析，请上传 Excel 文件")
    | .ok sheet => parseSheet U sheet

/-! ### What a cell says -/

def Blank (value : Cell) : Prop := inventoryCellText U value = ""

/-- The cell denotes the integer: an integer or a number that is one, or a text of its
digits, however many they are. -/
def Denotes : Cell → ℤ → Prop
  | .bool b, n => (if b then 1 else 0) = n
  | .int m, n => m = n
  | .float value _, n => value = .finite n
  | .text s, n => denotedInt U s = some n
  | .none, _ | .other _, _ => False

/-- The quantity of a cell: none if it is blank, or the integer that it denotes, if that is
not negative. -/
def Quantity (value : Cell) (n : ℤ) :
    Prop := (Blank U value ∧ n = 0) ∨ (¬ Blank U value ∧ Denotes U value n ∧ 0 ≤ n)

/-- A number with a fraction whose integer part is not negative. -/
def Fraction (value : Cell) : Prop :=
  ¬ Blank U value ∧ ∃ (q : ℚ) (shown : String), value = .float (.finite q) shown ∧ -1 < q ∧
    ∀ n : ℤ, q ≠ n

def Infinite (value : Cell) : Prop :=
  ¬ Blank U value ∧ ∃ shown, value = .float .posInfinity shown ∨ value = .float .negInfinity shown

/-- A text with more digits than `int` reads. -/
def TooLong (value : Cell) : Prop := ∃ s, value = .text s ∧ Overlong U s

variable {U}

theorem blank_iff {value : Cell} :
    Blank U value ↔ value = .none ∨ strip U.toCharTable value.toText = "" := by
  unfold Blank inventoryCellText
  by_cases h : value = .none
  · simp only [h, if_true, true_or, iff_true]
    exact strip_eq_self ⟨fun hne => absurd rfl hne, fun hne => absurd rfl hne⟩
  · simp only [h, if_false, false_or]

/-- The integer part is not negative from the first number above minus one on. -/
theorem truncate_nonneg_iff {q : ℚ} : 0 ≤ truncate q ↔ -1 < q := by
  unfold truncate
  split_ifs with h
  · exact iff_of_true (Int.floor_nonneg.mpr h) (by linarith)
  · have hceil : -1 < ⌈q⌉ ↔ ((-1 : ℤ) : ℚ) < q := Int.lt_ceil
    rw [Int.cast_neg, Int.cast_one] at hceil
    rw [← hceil]
    omega

theorem truncate_intCast (n : ℤ) : truncate n = n := by
  unfold truncate
  split_ifs <;> simp

theorem checkQuantity_eq_ok_iff {fieldName : String} {parsed : Option ℤ} {n : ℤ} :
    checkQuantity fieldName parsed = .ok n ↔ parsed = some n ∧ 0 ≤ n := by
  cases parsed with
  | none => simp [checkQuantity]
  | some m =>
    have hcheck : checkQuantity fieldName (some m) =
        if m < 0 then .error s!"{fieldName} 必须为非负整数" else .ok m := rfl
    rw [hcheck]
    by_cases h : m < 0
    · rw [if_pos h]
      refine iff_of_false (by simp) fun hn => ?_
      have hm := Option.some.inj hn.1
      omega
    · rw [if_neg h, Except.ok.injEq, Option.some.injEq]
      exact ⟨fun hm => ⟨hm, by omega⟩, fun hn => hn.1⟩

variable {value : Cell} (fieldName : String)

theorem parseQuantity_of_blank (h : Blank U value) :
    parseQuantity U value fieldName = .ok (.ok 0) := by
  unfold parseQuantity
  rw [if_pos (blank_iff.mp h)]

theorem parseQuantity_of_not_blank (h : ¬ Blank U value) :
    parseQuantity U value fieldName = (value.readInt U).map (checkQuantity fieldName) := by
  unfold parseQuantity
  rw [if_neg fun hb => h (blank_iff.mpr hb)]

/-- `int` fails for an infinity only. -/
theorem parseQuantity_fails_iff :
    (∃ e, parseQuantity U value fieldName = .error e) ↔ Infinite U value := by
  by_cases hb : Blank U value
  · rw [parseQuantity_of_blank fieldName hb]
    exact iff_of_false (by simp) fun h => h.1 hb
  · rw [parseQuantity_of_not_blank fieldName hb]
    have hmap : (∃ e, (value.readInt U).map (checkQuantity fieldName) = .error e) ↔
        ∃ e, value.readInt U = .error e := by
      cases value.readInt U <;> simp [Except.map]
    rw [hmap]
    unfold Infinite
    rw [and_iff_right hb]
    cases value with
    | float q shown => cases q <;> simp [Cell.readInt, FloatNumber.toInt, Except.map]
    | _ => simp [Cell.readInt]

/-- `int` of a cell: what it denotes, or the integer part of a fraction. -/
theorem readInt_cell_iff {n : ℤ} :
    value.readInt U = .ok (some n) ↔ (Denotes U value n ∧ ¬ TooLong U value) ∨
    ∃ (q : ℚ) (shown : String), value = .float (.finite q) shown ∧ (∀ m : ℤ, q ≠ m) ∧
    truncate q = n := by
  cases value with
  | float q shown =>
    cases q with
    | finite q =>
      have hread : Cell.readInt U (.float (.finite q) shown) = .ok (some (truncate q)) := rfl
      have hshort : ¬ TooLong U (.float (.finite q) shown) := by simp [TooLong]
      rw [hread]
      simp only [Denotes, hshort, not_false_eq_true, and_true, Except.ok.injEq, Option.some.injEq,
        FloatNumber.finite.injEq, Cell.float.injEq]
      constructor
      · intro h
        by_cases hq : ∃ m : ℤ, q = m
        · obtain ⟨m, rfl⟩ := hq
          rw [truncate_intCast] at h
          exact Or.inl (by rw [h])
        · exact Or.inr ⟨q, shown, ⟨rfl, rfl⟩, not_exists.mp hq, h⟩
      · intro h
        rcases h with rfl | ⟨q', -, ⟨rfl, -⟩, -, rfl⟩
        · exact truncate_intCast n
        · rfl
    | _ => simp [Cell.readInt, FloatNumber.toInt, Denotes, Except.map]
  | text s => simp [Cell.readInt, Denotes, TooLong, readInt_eq_some_iff]
  | _ => simp [Cell.readInt, Denotes, TooLong]

theorem not_tooLong_of_blank (h : Blank U value) : ¬ TooLong U value := by
  intro hlong
  obtain ⟨s, rfl, hlong⟩ := hlong
  have hs : strip U.toCharTable s = "" := (blank_iff.mp h).resolve_left (by simp)
  unfold Overlong unsignedDigits at hlong
  rw [hs] at hlong
  simp at hlong

/-- **What the code takes for a quantity**: what the cell denotes unless its text is too long,
or the integer part of a fraction. -/
theorem parseQuantity_eq_ok_iff {n : ℤ} : parseQuantity U value fieldName = .ok (.ok n) ↔
    (Quantity U value n ∧ ¬ TooLong U value) ∨ (¬ Blank U value ∧ ∃ (q : ℚ) (shown : String),
      value = .float (.finite q) shown ∧ -1 < q ∧ (∀ m : ℤ, q ≠ m) ∧ truncate q = n) := by
  unfold Quantity
  by_cases hb : Blank U value
  · rw [parseQuantity_of_blank fieldName hb, Except.ok.injEq, Except.ok.injEq, eq_comm]
    simp only [hb, not_tooLong_of_blank hb, not_true_eq_false, not_false_eq_true, true_and,
      false_and, and_true, or_false]
  · have hread : parseQuantity U value fieldName = .ok (.ok n) ↔
      value.readInt U = .ok (some n) ∧ 0 ≤ n := by
      rw [parseQuantity_of_not_blank fieldName hb, Checked.map_ok_iff]
      simp only [checkQuantity_eq_ok_iff]
      constructor
      · intro h
        obtain ⟨o, hv, rfl, hn⟩ := h
        exact ⟨hv, hn⟩
      · intro h
        exact ⟨some n, h.1, rfl, h.2⟩
    rw [hread, readInt_cell_iff]
    simp only [hb, not_false_eq_true, true_and, false_and, false_or]
    constructor
    · intro h
      obtain ⟨⟨hd, hshort⟩ | ⟨q, shown, hv, hfrac, rfl⟩, hn⟩ := h
      · exact Or.inl ⟨⟨hd, hn⟩, hshort⟩
      · exact Or.inr ⟨q, shown, hv, truncate_nonneg_iff.mp hn, hfrac, rfl⟩
    · intro h
      rcases h with ⟨⟨hd, hn⟩, hshort⟩ | ⟨q, shown, hv, hq, hfrac, rfl⟩
      · exact ⟨Or.inl ⟨hd, hshort⟩, hn⟩
      · exact ⟨Or.inr ⟨q, shown, hv, hfrac, rfl⟩, truncate_nonneg_iff.mpr hq⟩

/-- The code takes a quantity from the cell. -/
def Taken (U : ReadTable) (value : Cell) :
    Prop := ((∃ n, Quantity U value n) ∧ ¬ TooLong U value) ∨ Fraction U value

theorem taken_iff : (∃ n, parseQuantity U value fieldName = .ok (.ok n)) ↔ Taken U value := by
  constructor
  · intro h
    obtain ⟨n, hn⟩ := h
    rcases (parseQuantity_eq_ok_iff fieldName).mp hn with
      ⟨hn, hshort⟩ | ⟨hb, q, shown, hv, hq, hfrac, -⟩
    · exact Or.inl ⟨⟨n, hn⟩, hshort⟩
    · exact Or.inr ⟨hb, q, shown, hv, hq, hfrac⟩
  · intro h
    rcases h with ⟨⟨n, hn⟩, hshort⟩ | ⟨hb, q, shown, hv, hq, hfrac⟩
    · exact ⟨n, (parseQuantity_eq_ok_iff fieldName).mpr (Or.inl ⟨hn, hshort⟩)⟩
    · exact ⟨_, (parseQuantity_eq_ok_iff fieldName).mpr (Or.inr ⟨hb, q, shown, hv, hq, hfrac, rfl⟩)⟩

/-- A fraction denotes no integer. -/
theorem Fraction.not_quantity (h : Fraction U value) (n : ℤ) : ¬ Quantity U value n := by
  obtain ⟨hb, q, shown, rfl, -, hfrac⟩ := h
  intro hn
  rcases hn with ⟨hblank, -⟩ | ⟨-, hd, -⟩
  · exact hb hblank
  · exact hfrac n (FloatNumber.finite.inj hd)

/-- What the code takes and the cell denotes is not too long. -/
theorem Taken.not_tooLong (h : Taken U value) (hquantity : ∃ n, Quantity U value n) :
    ¬ TooLong U value := by
  rcases h with ⟨-, hshort⟩ | hf
  · exact hshort
  · obtain ⟨n, hn⟩ := hquantity
    exact absurd hn (hf.not_quantity n)

/-! ### Rows -/

/-- The warehouse and the SKU are there, and both quantities are blank or denoted. -/
structure ValidRow (U : ReadTable) (index : Dict String ℕ) (row : List Cell) : Prop where
  warehouse : ¬ Blank U (cellUnder index row "仓库")
  sku : ¬ Blank U (cellUnder index row "SKU")
  available : ∃ n, Quantity U (cellUnder index row "可用数") n
  reserved : ∃ n, Quantity U (cellUnder index row "待出库") n

/-- The row was read as it is: it is accepted exactly if it is valid, and then with the
quantities that its cells denote. -/
structure ReadRight (U : ReadTable) (index : Dict String ℕ) (row : List Cell) (rowNo : ℕ)
    (parsed : ParsedRow) : Prop where
  rowNo_eq : parsed.sourceRowNo = rowNo
  warehouse_eq : parsed.warehouseName = inventoryCellText U (cellUnder index row "仓库")
  sku_eq : parsed.commoditySku = nonEmpty (inventoryCellText U (cellUnder index row "SKU"))
  accepted_iff : parsed.errorMessage = none ↔ ValidRow U index row
  quantities : ∀ m n, Quantity U (cellUnder index row "可用数") m →
    Quantity U (cellUnder index row "待出库") n → parsed.errorMessage = none →
    parsed.available = some m ∧ parsed.reserved = some n

/-- Neither quantity is infinite, in a row that the code accepts neither is a fraction, and in a
valid row neither is too long. -/
structure Readable (U : ReadTable) (index : Dict String ℕ) (row : List Cell) : Prop where
  finite : ¬ Infinite U (cellUnder index row "可用数") ∧ ¬ Infinite U (cellUnder index row "待出库")
  whole : ¬ Blank U (cellUnder index row "仓库") → ¬ Blank U (cellUnder index row "SKU") →
    Taken U (cellUnder index row "可用数") → Taken U (cellUnder index row "待出库") →
      ¬ Fraction U (cellUnder index row "可用数") ∧ ¬ Fraction U (cellUnder index row "待出库")
  short : ValidRow U index row → ¬ TooLong U (cellUnder index row "可用数") ∧
    ¬ TooLong U (cellUnder index row "待出库")

section Row

variable {index : Dict String ℕ} {row : List Cell} {rowNo : ℕ} {parsed : ParsedRow}

theorem messageOf_eq_nil_iff {quantity : Except String ℤ} :
    messageOf quantity = [] ↔ ∃ n, quantity = .ok n := by
  cases quantity <;> simp [messageOf]

theorem rowErrors_eq_nil_iff {warehouseName commoditySku : String}
    {available reserved : Except String ℤ} :
    rowErrors warehouseName commoditySku available reserved = [] ↔
      warehouseName ≠ "" ∧ commoditySku ≠ "" ∧ (∃ n, available = .ok n) ∧
      ∃ n, reserved = .ok n := by
  unfold rowErrors
  simp only [List.append_eq_nil_iff, messageOf_eq_nil_iff]
  by_cases hw : warehouseName = "" <;> by_cases hs : commoditySku = "" <;> simp [hw, hs]

/-- A row is read unless a quantity is infinite. -/
theorem parseRow_fails_iff (rowNo : ℕ) : (∃ e, parseRow U index rowNo row = .error e) ↔
    Infinite U (cellUnder index row "可用数") ∨ Infinite U (cellUnder index row "待出库") := by
  rw [← parseQuantity_fails_iff "可用数", ← parseQuantity_fails_iff "待出库"]
  unfold parseRow
  cases parseQuantity U (cellUnder index row "可用数") "可用数" with
  | error e => simp [bind, Except.bind]
  | ok available =>
    cases parseQuantity U (cellUnder index row "待出库") "待出库" with
    | error e => simp [bind, Except.bind]
    | ok reserved => simp [bind, Except.bind, pure, Except.pure]

/-- A row has no error exactly if nothing is missing or refused, and then it keeps its
quantities. -/
theorem parsedRow_errorMessage {warehouseName commoditySku : String}
    {available reserved : Except String ℤ} :
    ((parsedRow rowNo warehouseName commoditySku available reserved).errorMessage = none ↔
      warehouseName ≠ "" ∧ commoditySku ≠ "" ∧ (∃ n, available = .ok n) ∧ ∃ n, reserved = .ok n) ∧
    ((parsedRow rowNo warehouseName commoditySku available reserved).errorMessage = none →
      (parsedRow rowNo warehouseName commoditySku available reserved).available =
      available.toOption ∧ (parsedRow rowNo warehouseName commoditySku available
      reserved).reserved = reserved.toOption) := by
  have hnone : (parsedRow rowNo warehouseName commoditySku available reserved).errorMessage = none ↔
      rowErrors warehouseName commoditySku available reserved = [] := by
    unfold parsedRow
    by_cases h : rowErrors warehouseName commoditySku available reserved = []
    · simp [h]
    · simp [h]
  refine ⟨hnone.trans rowErrors_eq_nil_iff, fun h => ?_⟩
  exact ⟨if_pos (hnone.mp h), if_pos (hnone.mp h)⟩

/-- A row that is read, from what the code takes for its quantities. -/
theorem parseRow_ok (h : parseRow U index rowNo row = .ok parsed) : ∃ available reserved,
    parseQuantity U (cellUnder index row "可用数") "可用数" = .ok available ∧
      parseQuantity U (cellUnder index row "待出库") "待出库" = .ok reserved ∧
      parsed = parsedRow rowNo (inventoryCellText U (cellUnder index row "仓库"))
        (inventoryCellText U (cellUnder index row "SKU")) available reserved := by
  unfold parseRow at h
  obtain ⟨available, ha, h⟩ := Checked.bind_ok h
  obtain ⟨reserved, hr, h⟩ := Checked.bind_ok h
  exact ⟨available, reserved, ha, hr, (Except.ok.inj h).symm⟩

theorem readRight_parsedRow {warehouse sku : String} {available reserved : Except String ℤ}
    (hwarehouse : warehouse = inventoryCellText U (cellUnder index row "仓库"))
    (hsku : sku = inventoryCellText U (cellUnder index row "SKU"))
    (haccepted : (parsedRow rowNo warehouse sku available reserved).errorMessage = none ↔
      ValidRow U index row)
    (hquantities : ∀ m n, Quantity U (cellUnder index row "可用数") m →
      Quantity U (cellUnder index row "待出库") n →
        (parsedRow rowNo warehouse sku available reserved).errorMessage = none →
          (parsedRow rowNo warehouse sku available reserved).available = some m ∧
          (parsedRow rowNo warehouse sku available reserved).reserved = some n) :
    ReadRight U index row rowNo (parsedRow rowNo warehouse sku available reserved) where
  rowNo_eq := rfl
  warehouse_eq := hwarehouse
  sku_eq := congrArg nonEmpty hsku
  accepted_iff := haccepted
  quantities := hquantities

/-- **A row that is read is read right** unless the code accepts a fraction in it or refuses a
text that is too long. -/
theorem readRight_iff (h : parseRow U index rowNo row = .ok parsed) :
    ReadRight U index row rowNo parsed ↔ Readable U index row := by
  obtain ⟨available, reserved, ha, hr, rfl⟩ := parseRow_ok h
  have hfinite : ¬ Infinite U (cellUnder index row "可用数") ∧
      ¬ Infinite U (cellUnder index row "待出库") := by
    rw [← not_or, ← parseRow_fails_iff rowNo, h]
    simp
  have htaken : (∃ n, available = .ok n) ↔ Taken U (cellUnder index row "可用数") := by
    rw [← taken_iff "可用数", ha]
    simp only [Except.ok.injEq]
  have htaken' : (∃ n, reserved = .ok n) ↔ Taken U (cellUnder index row "待出库") := by
    rw [← taken_iff "待出库", hr]
    simp only [Except.ok.injEq]
  generalize hwarehouse : inventoryCellText U (cellUnder index row "仓库") = warehouse at *
  generalize hsku : inventoryCellText U (cellUnder index row "SKU") = sku at *
  obtain ⟨haccepted, hkept⟩ := @parsedRow_errorMessage rowNo warehouse sku available reserved
  have hwarehouse_iff : ¬ Blank U (cellUnder index row "仓库") ↔ warehouse ≠ "" := by
    unfold Blank
    rw [hwarehouse]
  have hsku_iff : ¬ Blank U (cellUnder index row "SKU") ↔ sku ≠ "" := by
    unfold Blank
    rw [hsku]
  rw [htaken, htaken', ← hwarehouse_iff, ← hsku_iff] at haccepted
  constructor
  · intro hright
    refine ⟨hfinite, fun hw hs ht ht' => ?_, fun hvalid => ?_⟩
    · obtain ⟨-, -, ⟨m, hm⟩, ⟨n, hn⟩⟩ := hright.accepted_iff.mp (haccepted.mpr ⟨hw, hs, ht, ht'⟩)
      exact ⟨fun hf => hf.not_quantity m hm, fun hf => hf.not_quantity n hn⟩
    · obtain ⟨-, -, ht, ht'⟩ := haccepted.mp (hright.accepted_iff.mpr hvalid)
      exact ⟨ht.not_tooLong hvalid.available, ht'.not_tooLong hvalid.reserved⟩
  · intro hread
    refine readRight_parsedRow hwarehouse.symm hsku.symm ⟨fun hnone => ?_, fun hvalid => ?_⟩
      fun m n hm hn hnone => ?_
    · obtain ⟨hw, hs, ht, ht'⟩ := haccepted.mp hnone
      obtain ⟨hfrac, hfrac'⟩ := hread.whole hw hs ht ht'
      exact ⟨hw, hs, (ht.resolve_right hfrac).1, (ht'.resolve_right hfrac').1⟩
    · obtain ⟨hshort, hshort'⟩ := hread.short hvalid
      exact haccepted.mpr ⟨hvalid.warehouse, hvalid.sku, Or.inl ⟨hvalid.available, hshort⟩,
        Or.inl ⟨hvalid.reserved, hshort'⟩⟩
    · obtain ⟨-, -, ht, ht'⟩ := haccepted.mp hnone
      obtain ⟨havailable, hreserved⟩ := hkept hnone
      have hm' := (parseQuantity_eq_ok_iff "可用数").mpr (Or.inl ⟨hm, ht.not_tooLong ⟨m, hm⟩⟩)
      have hn' := (parseQuantity_eq_ok_iff "待出库").mpr (Or.inl ⟨hn, ht'.not_tooLong ⟨n, hn⟩⟩)
      rw [ha, Except.ok.injEq] at hm'
      rw [hr, Except.ok.injEq] at hn'
      rw [havailable, hreserved, hm', hn']
      exact ⟨rfl, rfl⟩

end Row

/-! ### Sheets -/

/-- The required columns are in the header. -/
def HasColumns (U : ReadTable) (header : List Cell) :
    Prop := ∀ name ∈ inventoryHeaders, name ∈ header.map (inventoryCellText U)

/-- Nothing unexpected is raised; the result has a row for every row that is not blank, in
order, each read right; and only a sheet of blank rows is refused. -/
structure ParsesRight (U : ReadTable) (header : List Cell) (rows : List (List Cell))
    (result : Except ParseFailure (List ParsedRow)) : Prop where
  onlyValidation : ∀ message, result ≠ .error (.raised message)
  refused : ∀ message, result = .error (.validationFailed message) → filledRows U rows = []
  rows : ∀ parsed, result = .ok parsed →
    List.Forall₂ (fun e parsedRow => ReadRight U (headerIndex U header) e.1 e.2 parsedRow)
      (filledRows U rows) parsed

theorem get?_headerIndex_isSome {header : List Cell} {name : String} (hne : name ≠ "")
    (hm : name ∈ header.map (inventoryCellText U)) :
    ((headerIndex U header).get? name).isSome = true := by
  have hkey : name ∈ (headerIndex U header).keys := by
    unfold headerIndex
    rw [Dict.mem_keys_ofList, List.mem_map]
    obtain ⟨i, hi, hname⟩ := List.getElem_of_mem hm
    refine ⟨(name, i), List.mem_filter.mpr ⟨?_, decide_eq_true hne⟩, rfl⟩
    rw [List.mk_mem_zipIdx_iff_getElem?, List.getElem?_eq_getElem hi, hname]
  obtain ⟨idx, hidx⟩ := Dict.mem_keys_iff.mp hkey
  rw [hidx]
  rfl

/-- Elements related one by one. -/
theorem forall₂_iff_forall {α β : Type} {R S : α → β → Prop} {P : α → Prop} {l : List α}
    {l' : List β} (h : List.Forall₂ R l l') (hiff : ∀ a b, R a b → (S a b ↔ P a)) :
    List.Forall₂ S l l' ↔ ∀ a ∈ l, P a := by
  induction h with
  | nil => simp
  | cons hab _ ih => rw [List.forall₂_cons, List.forall_mem_cons, hiff _ _ hab, ih]

/-- With the required columns every row that is not blank is read in turn. -/
theorem parseSheet_eq {header : List Cell} (hcolumns : HasColumns U header)
    (rows : List (List Cell)) :
    parseSheet U (header :: rows) =
      collectedRows ((filledRows U rows).mapM fun e => parseRow U (headerIndex U header)
        e.2 e.1) := by
  have hmissing : inventoryHeaders.filter
      (fun name => ((headerIndex U header).get? name).isNone) = [] := by
    rw [List.filter_eq_nil_iff]
    intro name hm
    have hne : name ≠ "" := by
      intro he
      subst he
      revert hm
      decide
    have hsome := get?_headerIndex_isSome hne (hcolumns name hm)
    rw [Option.isNone_iff_eq_none]
    intro hnone
    rw [hnone] at hsome
    cases hsome
  show (if inventoryHeaders.filter (fun name => ((headerIndex U header).get? name).isNone) ≠ [] then
    _ else _) = _
  rw [if_neg (not_not.mpr hmissing)]

/-- The loop's result is right exactly if every row is readable. -/
theorem parsesRight_iff (header : List Cell) (rows : List (List Cell)) :
    ParsesRight U header rows
      (collectedRows ((filledRows U rows).mapM fun e => parseRow U (headerIndex U header)
      e.2 e.1)) ↔ ∀ e ∈ filledRows U rows, Readable U (headerIndex U header) e.1 := by
  cases h : (filledRows U rows).mapM fun e => parseRow U (headerIndex U header) e.2 e.1 with
  | error message =>
    obtain ⟨e, he, hfail⟩ := Checked.exists_of_mapM_error _ h
    have hinfinite := (parseRow_fails_iff e.2).mp ⟨message, hfail⟩
    refine iff_of_false (fun hright => hright.onlyValidation message rfl) fun hread => ?_
    have hfinite := (hread e he).finite
    exact hinfinite.elim hfinite.1 hfinite.2
  | ok parsed =>
    have hrows := Checked.mapM_ok _ h
    cases hparsed : parsed with
    | nil =>
      rw [hparsed, List.forall₂_nil_right_iff] at hrows
      refine iff_of_true ⟨by simp [collectedRows], fun _ _ => hrows, by simp [collectedRows]⟩ ?_
      simp [hrows]
    | cons p ps =>
      rw [hparsed] at hrows
      have hread : ∀ (e : List Cell × ℕ) (parsed : ParsedRow),
          parseRow U (headerIndex U header) e.2 e.1 = .ok parsed →
          (ReadRight U (headerIndex U header) e.1 e.2 parsed ↔
          Readable U (headerIndex U header) e.1) :=
        fun e parsed h => readRight_iff h
      rw [← forall₂_iff_forall hrows hread]
      constructor
      · intro hright
        exact hright.rows _ rfl
      · intro hread
        refine ⟨by simp [collectedRows], by simp [collectedRows], fun parsed' he => ?_⟩
        obtain rfl := Except.ok.inj he
        exact hread

end Parse

/-- A row without an error has all its fields. -/
def ParsedRow.Complete (row : ParsedRow) : Prop := row.errorMessage = none →
  row.warehouseName ≠ "" ∧ row.commoditySku.any (· ≠ "") = true ∧ row.available.isSome = true ∧
  row.reserved.isSome = true

theorem complete_of_parseRow {U : ReadTable} {index : Dict String ℕ} {row : List Cell} {rowNo : ℕ}
    {parsed : ParsedRow} (h : parseRow U index rowNo row = .ok parsed) : parsed.Complete := by
  obtain ⟨available, reserved, -, -, rfl⟩ := parseRow_ok h
  generalize inventoryCellText U (cellUnder index row "仓库") = warehouse
  generalize inventoryCellText U (cellUnder index row "SKU") = sku
  intro hnone
  obtain ⟨haccepted, hkept⟩ := @parsedRow_errorMessage rowNo warehouse sku available reserved
  obtain ⟨hw, hs, ⟨m, rfl⟩, ⟨n, rfl⟩⟩ := haccepted.mp hnone
  obtain ⟨ha, hr⟩ := hkept hnone
  have hsku : nonEmpty sku = some sku := if_neg hs
  refine ⟨hw, ?_, by rw [ha]; rfl, by rw [hr]; rfl⟩
  show (nonEmpty sku).any (· ≠ "") = true
  rw [hsku, Option.any_some, decide_eq_true hs]

theorem collectedRows_ok {result : Except String (List ParsedRow)} {parsed : List ParsedRow}
    (h : collectedRows result = .ok parsed) : result = .ok parsed := by
  unfold collectedRows at h
  split at h
  · cases h
  · cases h
  · rw [Except.ok.inj h]

/-- The rows of a sheet that is accepted were read one by one. -/
theorem parseSheet_ok {U : ReadTable} {sheet : List (List Cell)} {parsed : List ParsedRow}
    (h : parseSheet U sheet = .ok parsed) :
    ∃ (index : Dict String ℕ) (rows : List (List Cell × ℕ)),
    rows.mapM (fun e => parseRow U index e.2 e.1) = .ok parsed := by
  cases sheet with
  | nil => cases h
  | cons header rows =>
    simp only [parseSheet] at h
    split_ifs at h with hmissing
    exact ⟨_, _, collectedRows_ok h⟩

/-- The parser's rows without an error are complete. -/
theorem parsed_complete {Content : Type} {U : ReadTable}
    {load : Content → Except String (List (List Cell))} {content : Option Content}
    {parsed : List ParsedRow} (h : parseThirdPartyInventoryWorkbook U load content = .ok parsed) :
    ∀ row ∈ parsed, row.Complete := by
  have hsheet : ∃ sheet, parseSheet U sheet = .ok parsed := by
    unfold parseThirdPartyInventoryWorkbook at h
    split at h
    · cases h
    · split at h
      · cases h
      · exact ⟨_, h⟩
  obtain ⟨sheet, hsheet⟩ := hsheet
  obtain ⟨index, rows, hmap⟩ := parseSheet_ok hsheet
  intro row hrow
  obtain ⟨e, -, he⟩ := Checked.exists_of_forall₂ (Checked.mapM_ok _ hmap) hrow
  exact complete_of_parseRow he

/-- **Where the sheet is parsed right**: where no quantity is infinite, no row is accepted with a
fraction, and no valid row has a text with too many digits. -/
theorem parses_right_iff {Content : Type} (U : ReadTable)
    (load : Content → Except String (List (List Cell))) (content : Content) (header : List Cell)
    (rows : List (List Cell)) (hload : load content = .ok (header :: rows))
    (hcolumns : HasColumns U header) :
    ParsesRight U header rows (parseThirdPartyInventoryWorkbook U load (some content)) ↔
      ∀ e ∈ filledRows U rows, Readable U (headerIndex U header) e.1 := by
  have hparse : parseThirdPartyInventoryWorkbook U load (some content) = parseSheet U
      (header :: rows) := by
    simp only [parseThirdPartyInventoryWorkbook, hload]
  rw [hparse, parseSheet_eq hcolumns, parsesRight_iff]

def inventoryHeader : List Cell := inventoryHeaders.map Cell.text

def halfPieces : Cell := .float (.finite (5 / 2)) "2.5"

/-- A row with two pieces and a half, and one that is blank. -/
def halfSheet : List (List Cell) :=
  [inventoryHeader, [.text "W", .text "A", halfPieces, .int 0], [.none, .text " "]]

def infiniteSheet : List (List Cell) :=
  [inventoryHeader, [.text "W", .text "A", .float .posInfinity "inf", .int 0]]

theorem inventoryHeader_hasColumns : HasColumns .ascii inventoryHeader := by
  unfold HasColumns
  decide +kernel

theorem parses_right_iff_half :
    ParsesRight .ascii inventoryHeader halfSheet.tail
        (parseThirdPartyInventoryWorkbook .ascii (fun sheet => .ok sheet) (some halfSheet)) ↔
      ∀ e ∈ filledRows .ascii halfSheet.tail,
      Readable .ascii (headerIndex .ascii inventoryHeader) e.1 :=
  parses_right_iff .ascii (fun sheet => .ok sheet)
    halfSheet inventoryHeader halfSheet.tail rfl inventoryHeader_hasColumns

theorem fraction_halfPieces : Fraction .ascii halfPieces := by
  refine ⟨by unfold Blank; decide +kernel, 5 / 2, "2.5", rfl, by norm_num, fun n hn => ?_⟩
  have htwice : (5 : ℚ) = 2 * n := by linarith
  have hint : (5 : ℤ) = 2 * n := by exact_mod_cast htwice
  omega

/-- The two and a half pieces are accepted as two. -/
theorem parse_halfSheet :
    parseThirdPartyInventoryWorkbook .ascii (fun sheet => .ok sheet)
    (some halfSheet) = .ok [⟨2, "W", some "A", some 2, some 0, none⟩] := by decide +kernel

theorem parse_infiniteSheet :
    parseThirdPartyInventoryWorkbook .ascii (fun sheet => .ok sheet)
    (some infiniteSheet) = .error
    (.raised "cannot convert float infinity to integer") := by decide +kernel

/-- A fraction is accepted, and an infinity raises. -/
theorem parses_wrong :
    ¬ ParsesRight .ascii inventoryHeader halfSheet.tail
        (parseThirdPartyInventoryWorkbook .ascii (fun sheet => .ok sheet) (some halfSheet)) ∧
      ¬ ParsesRight .ascii inventoryHeader infiniteSheet.tail
        (parseThirdPartyInventoryWorkbook .ascii (fun sheet => .ok sheet)
          (some infiniteSheet)) := by
  refine ⟨fun hright => ?_, fun hright => hright.onlyValidation _ parse_infiniteSheet⟩
  have hfilled : filledRows .ascii halfSheet.tail =
    [([.text "W", .text "A", halfPieces, .int 0], 2)] := by decide +kernel
  have hcell : cellUnder (headerIndex .ascii inventoryHeader)
      [.text "W", .text "A", halfPieces, .int 0] "可用数" = halfPieces := by
    decide +kernel
  have hrows := hright.rows _ parse_halfSheet
  rw [hfilled, List.forall₂_cons] at hrows
  obtain ⟨n, hn⟩ := (hrows.1.accepted_iff.mp rfl).available
  rw [hcell] at hn
  exact fraction_halfPieces.not_quantity n hn

end Restock
