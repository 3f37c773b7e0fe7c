/-
# Exporting and importing the SKU mapping rules (`api/config.py`)

The export writes one row for each component of a rule, and repeats the commodity, the
flag and the remark in it. The import groups the rows by commodity again; it checks every
row, that the rows of a commodity agree, and that no inventory SKU comes twice, and
collects what it finds wrong.

Whatever the endpoints stored, the import accepts what the export wrote and reads the same
rules from it (`import_export`). A row that was written is read with its own fields
(`normalizeRow_of_reads`), and what the rows read so far give for a commodity are its
components so far (`Collected`).
-/
import Restock.MappingRules
import Restock.ZipcodeMatcher
import Restock.Lib.PyParse

namespace Restock

open PyText

/-! ### Cells -/

/-- The value of a cell; of a date or the like, what `str` prints. -/
inductive Cell
  | none
  | bool (b : Bool)
  | int (n : ℤ)
  | float (value : FloatNumber) (shown : String)
  | text (s : String)
  | other (shown : String)
deriving DecidableEq, Repr

namespace Cell

/-- `bool(value)`. -/
def truthy : Cell → Bool
  | .none => false
  | .bool b => b
  | .int n => n ≠ 0
  | .float value _ => value ≠ .finite 0
  | .text s => s ≠ ""
  | .other _ => true

/-- `str(value)`. -/
def toText : Cell → String
  | .none => "None"
  | .bool b => if b then "True" else "False"
  | .int n => toString n
  | .float _ shown => shown
  | .text s => s
  | .other shown => shown

/-- `str(value or "")`. -/
def textOrEmpty (cell : Cell) : String := if cell.truthy then cell.toText else ""

/-- `int(value)`, `none` where it raises a `ValueError` or a `TypeError`; it refuses an
infinity with another error. -/
def readInt (U : ReadTable) : Cell → Except String (Option ℤ)
  | .none => .ok .none
  | .bool b => .ok (some (if b then 1 else 0))
  | .int n => .ok (some n)
  | .float .nan _ => .ok .none
  | .float value _ => value.toInt.map some
  | .text s => .ok (PyText.readInt U s)
  | .other _ => .ok .none

end Cell

/-- A row by the headers of its columns. -/
abbrev RawRow := Dict String Cell

/-! ### The export -/

/-- A component with its rule, as a row has it. -/
structure MappingRow where
  commoditySku : String
  groupNo : ℤ
  inventorySku : String
  quantity : ℤ
  enabled : Bool
  remark : Option String
deriving DecidableEq, Repr

/-- The header of the exported sheet. -/
def mappingHeaders : List String := ["商品SKU", "组合编号", "库存SKU", "组件数量", "启用", "备注"]

/-- The cells of an exported row. -/
def MappingRow.cells (row : MappingRow) : List Cell :=
  [.text row.commoditySku, .int row.groupNo, .text row.inventorySku, .int row.quantity,
    .text (if row.enabled then "是" else "否"), .text (row.remark.getD "")]

section Export

variable {U : CharTable}

/-- A row for every component of a rule. -/
def StoredRule.rows (rule : StoredRule U) : List MappingRow :=
  rule.loaded.map fun component =>
    ⟨rule.commoditySku.text, component.groupNo.val, component.inventorySku.text,
    component.quantity.val, rule.enabled, rule.remark.map FieldText.text⟩

/-- The rules ordered by commodity, as the database compares texts. -/
def orderedRules (collate : String → String → Bool) (table : MappingTable U) :
    List (StoredRule U) :=
  table.rules.values.insertionSort fun a b => collate a.commoditySku.text b.commoditySku.text = true

/-- The rows of the export, rule by rule. -/
def exportedRows (collate : String → String → Bool) (table : MappingTable U) : List MappingRow :=
  (orderedRules collate table).flatMap StoredRule.rows

/-- The sheet that `export_sku_mapping_rules` fills. -/
def exportSkuMappingRules (collate : String → String → Bool) (table : MappingTable U) :
    List (List Cell) :=
  mappingHeaders.map Cell.text :: (exportedRows collate table).map MappingRow.cells

end Export

/-! ### Reading a file -/

/-- A cell is read back as it was written; an empty text may be read as no value, and
where nothing was written there is none. -/
def CellReadsBack (written read : Cell) :
    Prop := read = written ∨ (written = .text "" ∧ read = .none)

/-- Every cell of a row reads back. -/
def RowReadsBack (written read : List Cell) :
    Prop := ∀ column, CellReadsBack (written.getD column .none) (read.getD column .none)

/-- Workbooks as openpyxl writes and reads them, and CSV files as the standard library
does. -/
structure Workbooks (Content : Type) where
  save : List (List Cell) → Content
  sheetRows : Content → Except String (List (List Cell))
  csvRows : Content → Except String (List RawRow)
  reads_back : ∀ sheet, ∃ rows, sheetRows (save sheet) = .ok rows ∧
    List.Forall₂ RowReadsBack sheet rows

variable (U : ReadTable)

/-- `str(value or "").strip()`. -/
def cellText (cell : Cell) : String := strip U.toCharTable cell.textOrEmpty

/-- A row of a sheet; of two columns with one header the last one counts. -/
def rawRow (headers : List String) (row : List Cell) : RawRow :=
  Dict.ofList (headers.zipIdx.map fun header => (header.1, row.getD header.2 .none))

/-- The rows of a sheet as dictionaries from the header. -/
def readSheet : List (List Cell) → List RawRow
  | [] => []
  | header :: rows => rows.map (rawRow (header.map (cellText U)))

/-- The rows of an uploaded file, by its extension. -/
def readMappingImportRows {Content : Type} (files : Workbooks Content) (filename : String)
    (content : Content) : Except String (List RawRow) :=
  if ".csv".toList <:+ (U.lower filename).toList then files.csvRows content
  else (files.sheetRows content).map (readSheet U)

/-! ### The import -/

/-- What an import fails with. -/
inductive ImportError
  | rows (errors : List (ℕ × String))
  | message (text : String)
deriving DecidableEq, Repr

/-- What the rows of a commodity give. -/
structure ImportEntry where
  enabled : Bool
  remark : Option String
  components : List ComponentBody
deriving DecidableEq, Repr

/-- What the loop over the rows has gathered. -/
structure ImportAcc where
  errors : List (ℕ × String)
  grouped : Dict String ImportEntry
  seenInventory : Dict String (Dict String ℕ)

/-- The columns that an imported sheet must have. -/
def requiredHeaders : List String := ["商品SKU", "库存SKU", "组件数量", "启用", "备注"]

/-- `_parse_enabled`: a blank cell means yes. -/
def parseEnabled (value : Cell) : Option Bool :=
  let text := U.lower (strip U.toCharTable (if value = .none then "" else value.toText))
  if text ∈ ["", "1", "true", "yes", "y", "是", "启用"] then some true
  else if text ∈ ["0", "false", "no", "n", "否", "停用"] then some false
  else none

/-- The number of the group; a blank or unreadable one is 1 or 0. -/
def groupNoOf (raw : RawRow) : ℤ :=
  let text := cellText U (raw.getD "组合编号" .none)
  if text = "" then 1 else (readInt U text).getD 0

/-- The quantity of a component; an absent one is 0. -/
def quantityOf (raw : RawRow) : Except String ℤ :=
  if raw.getD "组件数量" .none = .none then .ok 0
  else ((raw.getD "组件数量" .none).readInt U).map fun quantity => quantity.getD 0

namespace ImportAcc

/-- The messages of a row, with its number. -/
def addErrors (acc : ImportAcc) (idx : ℕ) (messages : List String) : ImportAcc :=
  { acc with errors := acc.errors ++ messages.map fun message => (idx, message) }

/-- The last row of an inventory SKU is remembered. -/
def markSeen (acc : ImportAcc) (idx : ℕ) (row : MappingRow) : ImportAcc :=
  let commoditySeen := acc.seenInventory.getD row.commoditySku .empty
  let repeated := (commoditySeen.get? row.inventorySku).toList.map fun previousRow =>
    s!"库存SKU与第 {previousRow} 行重复：{row.inventorySku}"
  { acc.addErrors idx repeated with
    seenInventory := acc.seenInventory.set row.commoditySku
      (commoditySeen.set row.inventorySku idx) }

/-- A row without errors joins the entry of its commodity. -/
def addComponent (acc : ImportAcc) (idx : ℕ) (row : MappingRow) : ImportAcc :=
  let entry := acc.grouped.getD row.commoditySku ⟨row.enabled, row.remark, []⟩
  let mismatches :=
    (if entry.enabled ≠ row.enabled then [s!"同一商品SKU的启用状态不一致：{row.commoditySku}"] else []) ++
      if entry.remark ≠ row.remark then [s!"同一商品SKU的备注不一致：{row.commoditySku}"] else []
  { acc.addErrors idx mismatches with
    grouped := acc.grouped.set row.commoditySku
      { entry with components := entry.components ++ [⟨row.groupNo, row.inventorySku, row.quantity⟩] } }

/-- What the loop does with the fields of a row. -/
def addRow (acc : ImportAcc) (idx : ℕ) (row : MappingRow) : ImportAcc :=
  let acc := acc.addErrors idx
    ((if row.commoditySku = "" then ["商品SKU不能为空"] else []) ++
      (if row.inventorySku = "" then ["库存SKU不能为空"] else []) ++
        (if row.groupNo ≤ 0 then ["组合编号必须为正整数"] else []) ++ if row.quantity ≤ 0 then
        ["组件数量必须为正整数"] else [])
  let acc := if row.inventorySku ≠ "" ∧ row.commoditySku ≠ "" then acc.markSeen idx row else acc
  if row.commoditySku = "" ∨ row.inventorySku = "" ∨ row.groupNo ≤ 0 ∨ row.quantity ≤ 0 then acc
  else acc.addComponent idx row

end ImportAcc

/-- The loop of `_normalize_import_rows`. -/
def normalizeRow (acc : ImportAcc) (raw : RawRow) (idx : ℕ) : Except String ImportAcc :=
  if raw.values.all fun value => cellText U value = "" then .ok acc
  else
    let missing := (requiredHeaders.filter (· ∉ raw.keys)).insertionSort (· ≤ ·)
    let missingText := ", ".intercalate missing
    if missing ≠ [] then .ok (acc.addErrors idx [s!"缺少列：{missingText}"])
    else match quantityOf U raw with
      | .error message => .error message
      | .ok quantity =>
        match parseEnabled U (raw.getD "启用" .none) with
        | none => .ok (acc.addErrors idx ["启用列必须为 是/否、true/false 或 1/0"])
        | some enabled => .ok (acc.addRow idx ⟨cellText U (raw.getD "商品SKU" .none), groupNoOf U raw,
            cellText U (raw.getD "库存SKU" .none), quantity, enabled,
              nonEmpty (cellText U (raw.getD "备注" .none))⟩)

/-- The rule of an entry, checked as the request body is. -/
def importedRule (entry : String × ImportEntry) :
    Except String (String × SkuMappingRuleIn U.toCharTable) :=
  (parseRule ⟨entry.1, entry.2.enabled, entry.2.remark, entry.2.components⟩).map fun rule =>
    (entry.1, rule)

/-- The rules of all rows, or all errors. -/
def normalizeImportRows (rawRows : List RawRow) :
    Except ImportError (Dict String (SkuMappingRuleIn U.toCharTable)) :=
  match (rawRows.zipIdx 2).foldlM (fun acc entry => normalizeRow U acc entry.1 entry.2)
      ⟨[], .empty, .empty⟩ with
  | .error message => .error (.message message)
  | .ok acc =>
    if acc.errors ≠ [] then .error (.rows acc.errors)
    else match acc.grouped.items.mapM (importedRule U) with
      | .error message => .error (.message message)
      | .ok rules => .ok (Dict.ofList rules)

variable {U} in
/-- A rule of the import replaces the one of its commodity. The rules of an import have
different commodities, so that what is found here was there before the loop. -/
def storeImported (resolver : PhysicalSkuResolver) (table : MappingTable U.toCharTable)
    (rule : SkuMappingRuleIn U.toCharTable) : Except String (MappingTable U.toCharTable) :=
  match hfind : table.ruleOf rule.commoditySku.text with
  | none =>
    (checkShared resolver [] rule.components.list).map fun _ => table.put table.nextRuleId
      (storedRule rule.commoditySku rule.enabled rule.remark table.nextComponentId rule.components)
      (table.nextRuleId + 1) (table.nextComponentId + rule.components.list.length)
      fun entry hentry hsame =>
        absurd (decide_eq_true hsame) (List.find?_eq_none.mp hfind entry hentry)
  | some found =>
    (checkShared resolver [] rule.components.list).map fun _ => table.put found.1
      (storedRule found.2.commoditySku rule.enabled rule.remark table.nextComponentId
        rule.components)
      table.nextRuleId (table.nextComponentId + rule.components.list.length)
      fun _ hentry hsame => table.unique_commodities (Dict.get?_eq_some_iff.mpr hentry)
        (MappingTable.ruleOf_eq_some_iff.mp hfind).1 hsame

/-- The endpoint; `none` is an empty request. -/
def importSkuMappingRules {Content : Type} (files : Workbooks Content)
    (resolver : PhysicalSkuResolver) (filename : String) (content : Option Content)
    (table : MappingTable U.toCharTable) :
    Except ImportError (MappingTable U.toCharTable) :=
  match content with
  | none => .error (.message "导入文件没有有效数据")
  | some content =>
    match readMappingImportRows U files filename content with
    | .error message => .error (.message message)
    | .ok rawRows =>
      match normalizeImportRows U rawRows with
      | .error error => .error error
      | .ok rules =>
        if rules.items = [] then .error (.message "导入文件没有有效数据")
        else match rules.values.foldlM (storeImported resolver) table with
          | .error message => .error (.message message)
          | .ok table' => .ok table'

/-! ### Cells that are read back -/

section ReadBack

variable {U} {row : MappingRow} {raw : RawRow}

theorem readsBack_text {s : String} {read : Cell} (h : CellReadsBack (.text s) read) (hs : s ≠ "") :
    read = .text s := by
  rcases h with h | ⟨he, -⟩
  · exact h
  · exact absurd (Cell.text.inj he) hs

theorem readsBack_int {n : ℤ} {read : Cell} (h : CellReadsBack (.int n) read) : read = .int n := by
  rcases h with h | ⟨he, -⟩
  · exact h
  · cases he

theorem readsBack_none {read : Cell} (h : CellReadsBack .none read) : read = .none := by
  rcases h with h | ⟨he, -⟩
  · exact h
  · cases he

theorem readsBack_textOrEmpty {s : String} {read : Cell} (h : CellReadsBack (.text s) read) :
    read.textOrEmpty = s := by
  by_cases hs : s = ""
  · subst hs
    rcases h with rfl | ⟨-, rfl⟩ <;> rfl
  · rw [readsBack_text h hs, Cell.textOrEmpty, Cell.truthy, if_pos (decide_eq_true hs), Cell.toText]

/-- Texts that are not empty are read back, and nothing behind them. -/
theorem rowReadsBack_texts : ∀ {texts : List String} {read : List Cell}, (∀ s ∈ texts, s ≠ "") →
    RowReadsBack (texts.map Cell.text) read → ∃ rest, read = texts.map Cell.text ++ rest ∧
    ∀ cell ∈ rest, cell = .none
  | [], read, _, h => by
    refine ⟨read, rfl, fun cell hcell => ?_⟩
    obtain ⟨column, hlt, rfl⟩ := List.getElem_of_mem hcell
    have hread := readsBack_none (h column)
    rwa [List.getD_eq_getElem _ _ hlt] at hread
  | s :: texts, [], hne, h => by
    have hread : Cell.none = .text s := readsBack_text (h 0) (hne s List.mem_cons_self)
    cases hread
  | s :: texts, cell :: read, hne, h => by
    have hcell : cell = .text s := readsBack_text (h 0) (hne s List.mem_cons_self)
    obtain ⟨rest, hread, hrest⟩ :=
      rowReadsBack_texts (fun t ht => hne t (List.mem_cons_of_mem _ ht)) fun column =>
      h (column + 1)
    exact ⟨rest, by rw [hcell, hread, List.map_cons, List.cons_append], hrest⟩

theorem cellText_text {s : String} (h : strip U.toCharTable s = s) : cellText U (.text s) = s := by
  rw [cellText, readsBack_textOrEmpty (Or.inl rfl), h]

/-- The headers as they were written, and blank ones behind them. -/
theorem headers_readBack {header : List Cell}
    (h : RowReadsBack (mappingHeaders.map Cell.text) header) :
    ∃ rest, header.map (cellText U) = mappingHeaders ++ rest ∧ ∀ text ∈ rest, text = "" := by
  have hne : ∀ s ∈ mappingHeaders, s ≠ "" := by decide
  have hplain : ∀ s ∈ mappingHeaders, s.toList.all isPlain = true := by decide
  obtain ⟨rest, rfl, hrest⟩ := rowReadsBack_texts hne h
  refine ⟨rest.map (cellText U), ?_, fun text htext => ?_⟩
  · rw [List.map_append, List.map_map]
    refine congrArg (· ++ _) ?_
    conv_rhs => rw [← List.map_id mappingHeaders]
    exact List.map_congr_left fun s hs => cellText_text (strip_of_isPlain (hplain s hs))
  · obtain ⟨cell, hcell, rfl⟩ := List.mem_map.mp htext
    rw [hrest cell hcell, cellText]
    exact strip_of_isPlain rfl

/-- A header of the export finds the cell of its column. -/
theorem get?_rawRow {rest : List String} (hrest : ∀ text ∈ rest, text = "") (column : ℕ)
    {header : String} (hcolumn : mappingHeaders[column]? = some header) (cells : List Cell) :
    (rawRow (mappingHeaders ++ rest) cells).get? header = some (cells.getD column .none) := by
  have honly : ∀ other, (mappingHeaders ++ rest)[other]? = some header → other = column := by
    intro other hother
    rw [List.getElem?_append] at hother
    split_ifs at hother with hlt
    · have hnd : mappingHeaders.Nodup := by decide
      exact (List.getElem?_inj hlt hnd).mp (hother.trans hcolumn.symm)
    · have hne : ∀ s ∈ mappingHeaders, s ≠ "" := by decide
      exact absurd (hrest header (List.mem_of_getElem? hother))
        (hne header (List.mem_of_getElem? hcolumn))
  have hmem : ∀ cell, (header, cell) ∈ (mappingHeaders ++ rest).zipIdx.map
      (fun header => (header.1, cells.getD header.2 .none)) ↔ cell = cells.getD column .none := by
    intro cell
    rw [List.mem_map]
    constructor
    · rintro ⟨⟨text, other⟩, hin, he⟩
      obtain ⟨rfl, rfl⟩ := Prod.mk.inj he
      rw [List.mk_mem_zipIdx_iff_getElem?] at hin
      rw [honly other hin]
    · rintro rfl
      refine ⟨(header, column), ?_, rfl⟩
      rw [List.mk_mem_zipIdx_iff_getElem?,
        List.getElem?_append_left (List.getElem?_eq_some_iff.mp hcolumn).1]
      exact hcolumn
  rw [rawRow, Dict.get?_ofList_iff, hmem]
  intro cell cell' hcell hcell'
  rw [(hmem cell).mp hcell, (hmem cell').mp hcell']

/-- A row of the import has what was written for a component. -/
structure ReadsRow (row : MappingRow) (raw : RawRow) : Prop where
  commoditySku : raw.get? "商品SKU" = some (.text row.commoditySku)
  groupNo : raw.get? "组合编号" = some (.int row.groupNo)
  inventorySku : raw.get? "库存SKU" = some (.text row.inventorySku)
  quantity : raw.get? "组件数量" = some (.int row.quantity)
  enabled : raw.get? "启用" = some (.text (if row.enabled then "是" else "否"))
  remark : ∃ value, raw.get? "备注" = some value ∧ value.textOrEmpty = row.remark.getD ""

/-- What the schema left in a row. -/
structure MappingRow.Valid (U : ReadTable) (row : MappingRow) : Prop where
  commoditySku : strip U.toCharTable row.commoditySku = row.commoditySku ∧ row.commoditySku ≠ ""
  inventorySku : strip U.toCharTable row.inventorySku = row.inventorySku ∧ row.inventorySku ≠ ""
  groupNo : 1 ≤ row.groupNo ∧ row.groupNo ≤ 999999
  quantity : 1 ≤ row.quantity
  remark : ∀ remark ∈ row.remark, strip U.toCharTable remark = remark ∧ remark ≠ ""

theorem readsRow_of_readsBack {rest : List String} (hrest : ∀ text ∈ rest, text = "")
    {cells : List Cell} (hv : row.Valid U) (h : RowReadsBack row.cells cells) :
    ReadsRow row (rawRow (mappingHeaders ++ rest) cells) where
  commoditySku := (get?_rawRow hrest 0 rfl cells).trans
    (congrArg some (readsBack_text (h 0) hv.commoditySku.2))
  groupNo := (get?_rawRow hrest 1 rfl cells).trans (congrArg some (readsBack_int (h 1)))
  inventorySku := (get?_rawRow hrest 2 rfl cells).trans
    (congrArg some (readsBack_text (h 2) hv.inventorySku.2))
  quantity := (get?_rawRow hrest 3 rfl cells).trans (congrArg some (readsBack_int (h 3)))
  enabled := by
    refine (get?_rawRow hrest 4 rfl cells).trans (congrArg some (readsBack_text (h 4) ?_))
    cases row.enabled <;> decide
  remark := ⟨_, get?_rawRow hrest 5 rfl cells, readsBack_textOrEmpty (h 5)⟩

theorem parseEnabled_text (b : Bool) :
    parseEnabled U (.text (if b then "是" else "否")) = some b := by
  have hread : ∀ s : String, s.toList.all isHan = true → parseEnabled U (.text s) =
      if s ∈ ["", "1", "true", "yes", "y", "是", "启用"] then some true
      else if s ∈ ["0", "false", "no", "n", "否", "停用"] then some false else none := by
    intro s hs
    have hplain : s.toList.all isPlain = true :=
      List.all_eq_true.mpr fun c hc => by rw [isPlain, List.all_eq_true.mp hs c hc, Bool.true_or]
    have hlower : U.lower (strip U.toCharTable s) = s := by
      rw [strip_of_isPlain hplain, U.lower_han s (List.all_eq_true.mp hs)]
    simp only [parseEnabled, Cell.toText, reduceCtorEq, if_false, hlower]
  cases b with
  | true => exact (hread "是" rfl).trans (by decide)
  | false => exact (hread "否" rfl).trans (by decide)

theorem groupNoOf_eq (hv : row.Valid U) (hr : ReadsRow row raw) :
    groupNoOf U raw = row.groupNo := by
  obtain ⟨n, hn⟩ : ∃ n : ℕ, row.groupNo = n := ⟨row.groupNo.toNat, by have := hv.groupNo.1; omega⟩
  have hrange := hv.groupNo
  have htruthy : (Cell.int (n : ℤ)).truthy = true := decide_eq_true (by omega)
  have htext : cellText U (.int (n : ℤ)) = n.repr := by
    rw [cellText, Cell.textOrEmpty, if_pos htruthy]
    exact strip_repr n
  have hne : n.repr ≠ "" := by
    intro h0
    have hlength := Nat.length_repr_pos (n := n)
    rw [h0] at hlength
    exact absurd hlength (by decide)
  have hsmall : n < 10 ^ maxStrDigits :=
    lt_of_lt_of_le (show n < 10 ^ 6 by omega) (Nat.pow_le_pow_right (by decide) (by decide))
  have hcell : raw.getD "组合编号" .none = .int n := by rw [Dict.getD, hr.groupNo, hn, Option.getD_some]
  unfold groupNoOf
  rw [hcell, htext, if_neg hne, readInt_repr hsmall, Option.getD_some, hn]

/-- **A row that was written is read with its own fields.** -/
theorem normalizeRow_of_reads (hv : row.Valid U) (hr : ReadsRow row raw)
    (acc : ImportAcc) (idx : ℕ) : normalizeRow U acc raw idx = .ok (acc.addRow idx row) := by
  have hcommodity : cellText U (.text row.commoditySku) = row.commoditySku :=
    cellText_text hv.commoditySku.1
  have hfilled : (raw.values.all fun value => cellText U value = "") = false := by
    have hin : Cell.text row.commoditySku ∈ raw.values :=
      List.mem_map_of_mem (Dict.get?_eq_some_iff.mp hr.commoditySku)
    refine List.all_eq_false.mpr ⟨_, hin, ?_⟩
    rw [hcommodity, decide_eq_true_eq]
    exact hv.commoditySku.2
  obtain ⟨remark, hremark, htext⟩ := hr.remark
  have hheader : ∀ header ∈ requiredHeaders, header ∈ raw.keys := by
    intro header hmem
    have hget : ∃ cell, raw.get? header = some cell := by
      simp only [requiredHeaders, List.mem_cons, List.not_mem_nil, or_false] at hmem
      rcases hmem with rfl | rfl | rfl | rfl | rfl
      · exact ⟨_, hr.commoditySku⟩
      · exact ⟨_, hr.inventorySku⟩
      · exact ⟨_, hr.quantity⟩
      · exact ⟨_, hr.enabled⟩
      · exact ⟨_, hremark⟩
    exact Dict.mem_keys_iff.mpr hget
  have hmissing : requiredHeaders.filter (· ∉ raw.keys) = [] := by
    rw [List.filter_eq_nil_iff]
    intro header hmem
    simpa using hheader header hmem
  have hquantity : quantityOf U raw = .ok row.quantity := by
    rw [quantityOf, Dict.getD, hr.quantity, Option.getD_some, if_neg (by simp)]
    rfl
  have henabled : parseEnabled U (raw.getD "启用" .none) = some row.enabled := by
    rw [Dict.getD, hr.enabled, Option.getD_some, parseEnabled_text]
  have hblank : nonEmpty (cellText U (raw.getD "备注" .none)) = row.remark := by
    rw [Dict.getD, hremark, Option.getD_some, cellText, htext]
    cases hrow : row.remark with
    | none => exact if_pos (strip_of_isPlain rfl)
    | some text =>
      obtain ⟨hstrip, hne⟩ := hv.remark text hrow
      rw [Option.getD_some, hstrip, nonEmpty, if_neg hne]
  have hcommodity' : cellText U (raw.getD "商品SKU" .none) = row.commoditySku := by
    rw [Dict.getD, hr.commoditySku, Option.getD_some, hcommodity]
  have hinventory : cellText U (raw.getD "库存SKU" .none) = row.inventorySku := by
    rw [Dict.getD, hr.inventorySku, Option.getD_some, cellText_text hv.inventorySku.1]
  unfold normalizeRow
  simp only [hfilled, hmissing, hquantity, henabled, hblank, hcommodity', hinventory,
    groupNoOf_eq hv hr, List.insertionSort_nil, ne_eq, not_true_eq_false,
    Bool.false_eq_true, if_false]

end ReadBack

/-! ### What the rows give -/

section Collect

variable {U} {row : MappingRow} {done : List MappingRow} {acc : ImportAcc} {idx : ℕ}

/-- The component that a row names. -/
def MappingRow.component (row : MappingRow) :
    ComponentBody := ⟨row.groupNo, row.inventorySku, row.quantity⟩

/-- The entry of a commodity: the flag and the remark of its first row, and the components
of all of them. -/
def collectedEntry : List MappingRow → Option ImportEntry
  | [] => none
  | row :: rows => some ⟨row.enabled, row.remark, (row :: rows).map MappingRow.component⟩

/-- Where the loop is after the rows `done`, if there was nothing wrong with them. -/
structure Collected (done : List MappingRow) (acc : ImportAcc) : Prop where
  errors : acc.errors = []
  grouped : ∀ sku, acc.grouped.get? sku = collectedEntry
    (done.filter fun row => row.commoditySku = sku)
  seen : ∀ sku inventorySku idx, (acc.seenInventory.getD sku .empty).get? inventorySku = some idx →
    ∃ row ∈ done, row.commoditySku = sku ∧ row.inventorySku = inventorySku

/-- Rows of one commodity have one flag and one remark, and different inventory SKUs. -/
def RowsAgree (a b : MappingRow) : Prop :=
  a.commoditySku = b.commoditySku → a.enabled = b.enabled ∧ a.remark = b.remark ∧
    a.inventorySku ≠ b.inventorySku

theorem collected_nil : Collected [] ⟨[], .empty, .empty⟩ where
  errors := rfl
  grouped _ := rfl
  seen _ _ _ h := by cases h

/-- The fields of a row are in order. -/
theorem addRow_of_valid (hv : row.Valid U) :
    acc.addRow idx row = (acc.markSeen idx row).addComponent idx row := by
  have hgroup := hv.groupNo.1
  have hquantity := hv.quantity
  have hgroup' : ¬row.groupNo ≤ 0 := by omega
  have hquantity' : ¬row.quantity ≤ 0 := by omega
  unfold ImportAcc.addRow
  simp only [hv.commoditySku.2, hv.inventorySku.2, hgroup', hquantity', ne_eq, not_false_eq_true,
    and_self, or_self, if_true, if_false, List.append_nil, ImportAcc.addErrors, List.map_nil]

theorem collectedEntry_append (rows : List MappingRow) (row : MappingRow) :
    collectedEntry (rows ++ [row]) = some
      { (collectedEntry rows).getD ⟨row.enabled, row.remark, []⟩ with
        components := ((collectedEntry rows).getD ⟨row.enabled, row.remark, []⟩).components ++
          [row.component] } := by
  cases rows with
  | nil => rfl
  | cons first rows => simp [collectedEntry]

theorem collectedEntry_agrees {rows : List MappingRow}
    (h : ∀ other ∈ rows, other.enabled = row.enabled ∧ other.remark = row.remark) :
    ((collectedEntry rows).getD ⟨row.enabled, row.remark, []⟩).enabled = row.enabled ∧
      ((collectedEntry rows).getD ⟨row.enabled, row.remark, []⟩).remark = row.remark := by
  cases rows with
  | nil => exact ⟨rfl, rfl⟩
  | cons first rows => exact h first List.mem_cons_self

/-- One more row that agrees with the rows before it. -/
theorem Collected.addRow (h : Collected done acc) (idx : ℕ) (hv : row.Valid U)
    (hagree : ∀ other ∈ done, RowsAgree other row) :
    Collected (done ++ [row]) (acc.addRow idx row) := by
  have hnew : (acc.seenInventory.getD row.commoditySku .empty).get? row.inventorySku = none := by
    refine Option.eq_none_iff_forall_ne_some.mpr fun previous hprevious => ?_
    obtain ⟨other, hin, hsku, hinventory⟩ := h.seen _ _ _ hprevious
    exact (hagree other hin hsku).2.2 hinventory
  have hsame : ∀ other ∈ done.filter fun other => other.commoditySku = row.commoditySku,
      other.enabled = row.enabled ∧ other.remark = row.remark := by
    intro other hin
    obtain ⟨hdone, hsku⟩ := List.mem_filter.mp hin
    have hother := hagree other hdone (of_decide_eq_true hsku)
    exact ⟨hother.1, hother.2.1⟩
  have hentry : acc.grouped.getD row.commoditySku ⟨row.enabled, row.remark, []⟩ =
      (collectedEntry (done.filter fun other => other.commoditySku = row.commoditySku)).getD
        ⟨row.enabled, row.remark, []⟩ := by
    rw [Dict.getD, h.grouped]
  obtain ⟨henabled, hremark⟩ := collectedEntry_agrees hsame
  rw [← hentry] at henabled hremark
  rw [addRow_of_valid hv]
  constructor
  · simp only [ImportAcc.addComponent, ImportAcc.markSeen, ImportAcc.addErrors, hnew, henabled,
      hremark, h.errors, Option.toList_none, List.map_nil, List.append_nil, ne_eq,
      not_true_eq_false, if_false]
  · intro sku
    have hget : ((acc.markSeen idx row).addComponent idx row).grouped.get? sku =
        if sku = row.commoditySku then
          collectedEntry ((done.filter fun other => other.commoditySku = row.commoditySku) ++ [row])
        else acc.grouped.get? sku := by
      rw [collectedEntry_append, ← hentry]
      exact Dict.get?_set _ _ _ _
    rw [hget, List.filter_append, List.filter_singleton]
    by_cases hsku : sku = row.commoditySku
    · rw [if_pos hsku, hsku, decide_eq_true rfl]
      rfl
    · rw [if_neg hsku, decide_eq_false fun he => hsku he.symm, h.grouped]
      simp
  · intro sku inventorySku previous hprevious
    have hget : ((acc.markSeen idx row).addComponent idx row).seenInventory.get? sku =
        if sku = row.commoditySku then
          some ((acc.seenInventory.getD row.commoditySku .empty).set row.inventorySku idx)
        else acc.seenInventory.get? sku := Dict.get?_set _ _ _ _
    rw [Dict.getD, hget] at hprevious
    by_cases hsku : sku = row.commoditySku
    · rw [if_pos hsku, Option.getD_some, Dict.get?_set] at hprevious
      by_cases hinventory : inventorySku = row.inventorySku
      · exact ⟨row, List.mem_append_right _ List.mem_cons_self, hsku.symm, hinventory.symm⟩
      · rw [if_neg hinventory, ← hsku] at hprevious
        obtain ⟨other, hin, hother⟩ := h.seen _ _ _ hprevious
        exact ⟨other, List.mem_append_left _ hin, hother⟩
    · rw [if_neg hsku] at hprevious
      obtain ⟨other, hin, hother⟩ := h.seen sku inventorySku previous hprevious
      exact ⟨other, List.mem_append_left _ hin, hother⟩

/-- The loop over rows that were written. -/
theorem foldlM_collected {rows : List MappingRow} {raws : List RawRow}
    (hread : List.Forall₂ ReadsRow rows raws) :
    ∀ (idx : ℕ) {done : List MappingRow} {acc : ImportAcc}, (∀ row ∈ rows, row.Valid U) →
      (done ++ rows).Pairwise RowsAgree → Collected done acc →
        ∃ acc', (raws.zipIdx idx).foldlM (fun acc entry => normalizeRow U acc entry.1 entry.2)
          acc = .ok acc' ∧ Collected (done ++ rows) acc' := by
  induction hread with
  | nil =>
    intro idx done acc _ _ h
    exact ⟨acc, rfl, by rwa [List.append_nil]⟩
  | @cons row raw rows raws hrow _ ih =>
    intro idx done acc hvalid hagree h
    have hv := hvalid row List.mem_cons_self
    have hbefore : ∀ other ∈ done, RowsAgree other row :=
      fun other hin => (List.pairwise_append.mp hagree).2.2 other hin row List.mem_cons_self
    have hassoc : done ++ row :: rows = done ++ [row] ++ rows := by
      rw [List.append_assoc, List.singleton_append]
    rw [hassoc] at hagree ⊢
    obtain ⟨acc', hacc, hcollected⟩ :=
      ih (idx + 1) (fun other hin => hvalid other (List.mem_cons_of_mem _ hin)) hagree
      (h.addRow idx hv hbefore)
    refine ⟨acc', ?_, hcollected⟩
    rw [List.zipIdx_cons, List.foldlM_cons, normalizeRow_of_reads hv hrow]
    exact hacc

end Collect

/-! ### What was exported -/

section RoundTrip

variable {U} {table : MappingTable U.toCharTable} {rule : StoredRule U.toCharTable}
    {collate : String → String → Bool}

/-- A stored rule as a request would write it. -/
def StoredRule.body {U : CharTable} (rule : StoredRule U) : RuleBody :=
  ⟨rule.commoditySku.text, rule.enabled, rule.remark.map FieldText.text,
    rule.loaded.map SkuMappingComponentIn.body⟩

/-- A stored rule would pass the schema. -/
def StoredRule.ruleIn {U : CharTable} (rule : StoredRule U) : SkuMappingRuleIn U where
  commoditySku := rule.commoditySku
  enabled := rule.enabled
  remark := rule.remark
  components :=
    { list := rule.loaded
      nonempty := by
        intro h
        rw [StoredRule.loaded, List.map_eq_nil_iff] at h
        have hperm := List.perm_insertionSort ComponentOrder rule.components
        rw [h] at hperm
        exact rule.nonempty hperm.symm.eq_nil
      unique_skus := by
        have hperm := (List.perm_insertionSort ComponentOrder rule.components).map
          (·.2.inventorySku.text)
        rw [StoredRule.loaded, List.map_map]
        exact hperm.nodup_iff.mpr rule.unique_skus }

theorem StoredRule.ruleIn_body (rule : StoredRule U.toCharTable) :
    rule.ruleIn.body = rule.body := rfl

theorem StoredRule.rows_valid {row : MappingRow} (h : row ∈ rule.rows) : row.Valid U := by
  obtain ⟨component, -, rfl⟩ := List.mem_map.mp h
  refine ⟨⟨rule.commoditySku.stripped, rule.commoditySku.nonempty⟩,
    ⟨component.inventorySku.stripped, component.inventorySku.nonempty⟩, component.groupNo.property,
    component.quantity.property.1, fun remark hremark => ?_⟩
  obtain ⟨field, -, rfl⟩ := Option.map_eq_some_iff.mp hremark
  exact ⟨field.stripped, field.nonempty⟩

theorem StoredRule.rows_agree (rule : StoredRule U.toCharTable) : rule.rows.Pairwise RowsAgree := by
  have hskus := rule.ruleIn.components.unique_skus
  rw [List.Nodup, List.pairwise_map] at hskus
  rw [StoredRule.rows, List.pairwise_map]
  exact hskus.imp fun hne _ => ⟨rfl, rfl, hne⟩

/-- The entry that the exported rows of a rule make again. -/
def StoredRule.entry {U : CharTable} (rule : StoredRule U) : ImportEntry :=
  ⟨rule.enabled, rule.remark.map FieldText.text, rule.loaded.map SkuMappingComponentIn.body⟩

theorem StoredRule.collectedEntry_rows (rule : StoredRule U.toCharTable) :
    collectedEntry rule.rows = some rule.entry := by
  have hne : rule.loaded ≠ [] := rule.ruleIn.components.nonempty
  obtain ⟨component, rest, hloaded⟩ := List.exists_cons_of_ne_nil hne
  rw [StoredRule.rows, StoredRule.entry, hloaded]
  simp only [List.map_cons, collectedEntry, List.map_map]
  rfl

/-- Two stored rules have two commodities. -/
theorem orderedRules_pairwise :
    (orderedRules collate table).Pairwise fun a b => a.commoditySku.text ≠ b.commoditySku.text := by
  have hvalues : (table.rules.values.map (·.commoditySku.text)).Nodup := by
    rw [Dict.values, List.map_map]
    refine List.Nodup.map_on ?_ table.rules.nodup.of_map
    intro entry hentry entry' hentry' hsame
    have hget := Dict.get?_eq_some_iff.mpr hentry
    have hget' := Dict.get?_eq_some_iff.mpr hentry'
    have hid : entry.1 = entry'.1 := table.unique_commodities hget hget' hsame
    rw [hid] at hget
    exact Prod.ext hid (Option.some.inj (hget.symm.trans hget'))
  have hordered : ((orderedRules collate table).map (·.commoditySku.text)).Nodup :=
    ((List.perm_insertionSort _ _).map _).nodup_iff.mpr hvalues
  rwa [List.Nodup, List.pairwise_map] at hordered

theorem mem_orderedRules :
    rule ∈ orderedRules collate table ↔ ∃ id, table.rules.get? id = some rule := by
  rw [orderedRules, List.mem_insertionSort, Dict.values, List.mem_map]
  constructor
  · rintro ⟨entry, hentry, rfl⟩
    exact ⟨entry.1, Dict.get?_eq_some_iff.mpr hentry⟩
  · rintro ⟨id, hget⟩
    exact ⟨(id, rule), Dict.get?_eq_some_iff.mp hget, rfl⟩

theorem exportedRows_valid : ∀ row ∈ exportedRows collate table, row.Valid U := by
  intro row hrow
  obtain ⟨rule, -, hin⟩ := List.mem_flatMap.mp hrow
  exact StoredRule.rows_valid hin

theorem exportedRows_agree : (exportedRows collate table).Pairwise RowsAgree := by
  rw [exportedRows, List.pairwise_flatMap]
  refine ⟨fun rule _ => rule.rows_agree, orderedRules_pairwise.imp ?_⟩
  intro a b hne x hx y hy hsame
  obtain ⟨_, -, rfl⟩ := List.mem_map.mp hx
  obtain ⟨_, -, rfl⟩ := List.mem_map.mp hy
  exact absurd hsame hne

/-- The rows of a commodity are those of its rule. -/
theorem exportedRows_filter (sku : String) :
    (exportedRows collate table).filter (fun row => row.commoditySku = sku) =
    ((table.ruleOf sku).map fun entry => entry.2.rows).getD [] := by
  have hrows : ∀ rule : StoredRule U.toCharTable,
      rule.rows.filter (fun row => row.commoditySku = sku) = if rule.commoditySku.text = sku then
      rule.rows else [] := by
    intro rule
    split_ifs with hsku
    · refine List.filter_eq_self.mpr fun row hrow => ?_
      obtain ⟨_, -, rfl⟩ := List.mem_map.mp hrow
      exact decide_eq_true hsku
    · refine List.filter_eq_nil_iff.mpr fun row hrow => ?_
      obtain ⟨_, -, rfl⟩ := List.mem_map.mp hrow
      rwa [decide_eq_true_eq]
  have hfound : ∀ rules : List (StoredRule U.toCharTable),
      rules.Pairwise (fun a b => a.commoditySku.text ≠ b.commoditySku.text) → ∀ rule ∈ rules,
        rule.commoditySku.text = sku →
            (rules.flatMap StoredRule.rows).filter (fun row => row.commoditySku = sku) =
            rule.rows := by
    intro rules hpair rule hmem hsku
    rw [List.filter_flatMap]
    induction rules with
    | nil => cases hmem
    | cons first rules ih =>
      rw [List.pairwise_cons] at hpair
      rw [List.flatMap_cons, hrows]
      rcases List.mem_cons.mp hmem with rfl | hmem
      · rw [if_pos hsku, List.flatMap_eq_nil_iff.mpr fun other hother => ?_, List.append_nil]
        rw [hrows, if_neg fun he => hpair.1 other hother (hsku.trans he.symm)]
      · rw [if_neg fun he => hpair.1 rule hmem (he.trans hsku.symm), List.nil_append,
          ih hpair.2 hmem]
  cases hrule : table.ruleOf sku with
  | none =>
    rw [Option.map_none, Option.getD_none, exportedRows, List.filter_flatMap,
      List.flatMap_eq_nil_iff]
    intro rule hmem
    obtain ⟨id, hget⟩ := mem_orderedRules.mp hmem
    have hnone := List.find?_eq_none.mp hrule (id, rule) (Dict.get?_eq_some_iff.mp hget)
    rw [hrows, if_neg (by simpa using hnone)]
  | some entry =>
    obtain ⟨hget, hsku⟩ := MappingTable.ruleOf_eq_some_iff.mp hrule
    exact hfound _ orderedRules_pairwise entry.2 (mem_orderedRules.mpr ⟨entry.1, hget⟩) hsku

/-- The import collects an entry for every rule, and nothing else. -/
theorem Collected.get?_grouped {acc : ImportAcc} (h : Collected (exportedRows collate table) acc)
    (sku : String) : acc.grouped.get? sku = (table.ruleOf sku).map fun entry => entry.2.entry := by
  rw [h.grouped, exportedRows_filter]
  cases table.ruleOf sku with
  | none => rfl
  | some entry => exact entry.2.collectedEntry_rows

/-- The entry of a rule passes the schema. -/
theorem importedRule_entry {sku : String} {entry : ℕ × StoredRule U.toCharTable}
    (h : table.ruleOf sku = some entry) :
    importedRule U (sku, entry.2.entry) = .ok (sku, entry.2.ruleIn) := by
  have hparse := parseRule_body entry.2.ruleIn
  rw [entry.2.ruleIn_body, StoredRule.body, (MappingTable.ruleOf_eq_some_iff.mp h).2] at hparse
  unfold importedRule StoredRule.entry
  rw [hparse]
  rfl

/-- What the rows of the export give. -/
theorem normalizeImportRows_export {rawRows : List RawRow}
    (hread : List.Forall₂ ReadsRow (exportedRows collate table) rawRows) :
    ∃ rules, normalizeImportRows U rawRows = .ok rules ∧
      ∀ sku, rules.get? sku = (table.ruleOf sku).map fun entry => entry.2.ruleIn := by
  obtain ⟨acc, hfold, hcollected⟩ :=
    foldlM_collected hread 2 exportedRows_valid exportedRows_agree collected_nil
  rw [List.nil_append] at hcollected
  have hrule : ∀ {sku entry}, acc.grouped.get? sku = some entry →
      ∃ stored, table.ruleOf sku = some stored ∧
          importedRule U (sku, entry) = .ok (sku, stored.2.ruleIn) := by
    intro sku entry hget
    rw [hcollected.get?_grouped, Option.map_eq_some_iff] at hget
    obtain ⟨stored, hstored, rfl⟩ := hget
    exact ⟨stored, hstored, importedRule_entry hstored⟩
  obtain ⟨rules, hmap, hmem⟩ :=
      Checked.exists_mapM_ok (f := importedRule U) (l := acc.grouped.items) fun entry hentry => by
    obtain ⟨stored, -, himported⟩ := hrule (Dict.get?_eq_some_iff.mpr hentry)
    exact ⟨_, himported⟩
  have hrules : ∀ sku rule, (sku, rule) ∈ rules ↔ ∃ stored, table.ruleOf sku = some stored ∧
      stored.2.ruleIn = rule := by
    intro sku rule
    rw [hmem]
    constructor
    · rintro ⟨⟨other, entry⟩, hentry, himported⟩
      obtain ⟨stored, hstored, hok⟩ := hrule (Dict.get?_eq_some_iff.mpr hentry)
      obtain ⟨rfl, rfl⟩ := Prod.mk.inj (Except.ok.inj (hok.symm.trans himported))
      exact ⟨stored, hstored, rfl⟩
    · rintro ⟨stored, hstored, rfl⟩
      have hget : acc.grouped.get? sku =
        some stored.2.entry := by rw [hcollected.get?_grouped, hstored, Option.map_some]
      exact ⟨_, Dict.get?_eq_some_iff.mp hget, importedRule_entry hstored⟩
  refine ⟨Dict.ofList rules, ?_, fun sku => Option.ext fun rule => ?_⟩
  · unfold normalizeImportRows
    rw [hfold]
    simp only [hcollected.errors, ne_eq, not_true_eq_false, if_false, hmap]
  · rw [Dict.get?_ofList_iff, hrules, Option.map_eq_some_iff]
    intro rule rule' h h'
    obtain ⟨stored, hstored, rfl⟩ := (hrules _ _).mp h
    obtain ⟨stored', hstored', rfl⟩ := (hrules _ _).mp h'
    rw [Option.some.inj (hstored.symm.trans hstored')]

/-- The rows of a saved export are read with what was written. -/
theorem readSheet_export {rows : List (List Cell)}
    (h : List.Forall₂ RowReadsBack (exportSkuMappingRules collate table) rows) :
    List.Forall₂ ReadsRow (exportedRows collate table) (readSheet U rows) := by
  obtain ⟨header, cells, hheader, hcells, rfl⟩ := List.forall₂_cons_left_iff.mp h
  obtain ⟨rest, hheaders, hrest⟩ := headers_readBack (U := U) hheader
  rw [List.forall₂_map_left_iff] at hcells
  rw [readSheet, List.forall₂_map_right_iff, hheaders]
  exact ((List.forall₂_and_left _ _).mpr ⟨exportedRows_valid, hcells⟩).imp fun _ _ hrow =>
    readsRow_of_readsBack hrest hrow.1 hrow.2

theorem readMappingImportRows_export {Content : Type} (files : Workbooks Content)
    (collate : String → String → Bool) (table : MappingTable U.toCharTable) {filename : String}
    (hname : ¬".csv".toList <:+ (U.lower filename).toList) :
    ∃ rawRows, readMappingImportRows U files filename
      (files.save (exportSkuMappingRules collate table)) = .ok rawRows ∧
      List.Forall₂ ReadsRow (exportedRows collate table) rawRows := by
  obtain ⟨rows, hrows, hread⟩ := files.reads_back (exportSkuMappingRules collate table)
  refine ⟨readSheet U rows, ?_, readSheet_export hread⟩
  rw [readMappingImportRows, if_neg hname, hrows]
  rfl

/-- A rule that the import reads from an export is stored with what it had. -/
theorem storeImported_keeps {resolver : PhysicalSkuResolver}
    {before after : MappingTable U.toCharTable} {sku : String}
    {entry : ℕ × StoredRule U.toCharTable} (hentry : table.ruleOf sku = some entry)
    (hsame : ∀ sku, (before.ruleOf sku).map (fun entry => entry.2.body) = (table.ruleOf sku).map
    fun entry => entry.2.body) (h : storeImported resolver before entry.2.ruleIn = .ok after)
    (other : String) :
    (after.ruleOf other).map (fun entry => entry.2.body) = (table.ruleOf other).map fun entry =>
    entry.2.body := by
  have hsku : entry.2.ruleIn.commoditySku.text = sku :=
    (MappingTable.ruleOf_eq_some_iff.mp hentry).2
  have hbefore := hsame sku
  rw [hentry, Option.map_some, Option.map_eq_some_iff] at hbefore
  obtain ⟨found, hfound, hbody⟩ := hbefore
  obtain ⟨hget, hcommodity⟩ := MappingTable.ruleOf_eq_some_iff.mp hfound
  unfold storeImported at h
  split at h
  · next hnone =>
    rw [hsku, hfound] at hnone
    cases hnone
  · next found' hfound' =>
    rw [hsku, hfound] at hfound'
    obtain rfl := Option.some.inj hfound'
    obtain ⟨-, -, rfl⟩ := Checked.map_ok h
    rw [MappingTable.ruleOf_put]
    · split_ifs with hother
      · have hloaded : (storedRule found.2.commoditySku entry.2.enabled entry.2.remark
          before.nextComponentId
            entry.2.ruleIn.components).loaded = entry.2.loaded :=
              loaded_storedRule entry.2.loaded_sorted
        have hother' : other = sku := hother.trans hcommodity
        have hnew : (storedRule found.2.commoditySku entry.2.enabled entry.2.remark
            before.nextComponentId
            entry.2.ruleIn.components).body = entry.2.body := by
          rw [StoredRule.body, hloaded, StoredRule.body,
            show entry.2.commoditySku.text = sku from hsku, ← hcommodity]
          rfl
        rw [hother', hentry, Option.map_some, Option.map_some]
        exact congrArg some hnew
      · exact hsame other
    · intro old hold
      rw [hget] at hold
      rw [← Option.some.inj hold]
      rfl

/-- Importing an export leaves the rules as they are. -/
theorem importSkuMappingRules_export {Content : Type} {files : Workbooks Content}
    {resolver : PhysicalSkuResolver} {filename : String} {after : MappingTable U.toCharTable}
    (hname : ¬".csv".toList <:+ (U.lower filename).toList)
      (h : importSkuMappingRules U files resolver filename
      (some (files.save (exportSkuMappingRules collate table))) table = .ok after) (sku : String) :
    (after.ruleOf sku).map (fun entry => entry.2.body) = (table.ruleOf sku).map fun entry =>
    entry.2.body := by
  obtain ⟨rawRows, hraw, hread⟩ := readMappingImportRows_export files collate table hname
  obtain ⟨rules, hrules, hget⟩ := normalizeImportRows_export hread
  unfold importSkuMappingRules at h
  simp only [hraw, hrules] at h
  split_ifs at h
  cases hfold : rules.values.foldlM (storeImported resolver) table with
  | error message =>
    rw [hfold] at h
    cases h
  | ok last =>
    rw [hfold] at h
    obtain rfl := Except.ok.inj h
    refine Checked.foldlM_keeps_of_mem (P := fun table' : MappingTable U.toCharTable => ∀ sku,
      (table'.ruleOf sku).map (fun entry => entry.2.body) = (table.ruleOf sku).map fun entry =>
        entry.2.body)
      rules.values ?_ (fun _ => rfl) hfold sku
    intro before after rule hin hsame hstore
    obtain ⟨⟨sku, rule'⟩, hitem, rfl⟩ := List.mem_map.mp hin
    have hrule := Dict.get?_eq_some_iff.mpr hitem
    rw [hget, Option.map_eq_some_iff] at hrule
    obtain ⟨entry, hentry, rfl⟩ := hrule
    exact storeImported_keeps hentry hsame hstore

end RoundTrip

/-- **Importing an export reads the stored rules back**: no row is refused, and every
commodity has its flag, its remark and its components again. -/
theorem import_export {Content : Type} (U : ReadTable) (files : Workbooks Content)
    (collate : String → String → Bool) (table : MappingTable U.toCharTable) {filename : String}
    (hname : ¬".csv".toList <:+ (U.lower filename).toList) :
    ∃ rawRows rules, readMappingImportRows U files filename
      (files.save (exportSkuMappingRules collate table)) = .ok rawRows ∧
        normalizeImportRows U rawRows = .ok rules ∧
        ∀ sku, (rules.get? sku).map SkuMappingRuleIn.body = (table.ruleOf sku).map fun entry =>
        entry.2.body := by
  obtain ⟨rawRows, hraw, hread⟩ := readMappingImportRows_export files collate table hname
  obtain ⟨rules, hrules, hget⟩ := normalizeImportRows_export hread
  refine ⟨rawRows, rules, hraw, hrules, fun sku => ?_⟩
  rw [hget, Option.map_map]
  rfl

def blankCell (cell : Cell) : Cell := if cell = .text "" then .none else cell

/-- A workbook that keeps its cells, and reads empty texts as no value. -/
def plainWorkbooks : Workbooks (List (List Cell)) where
  save sheet := sheet
  sheetRows sheet := .ok (sheet.map fun row => row.map blankCell)
  csvRows _ := .ok []
  reads_back sheet := by
    refine ⟨_, rfl, List.forall₂_map_right_iff.mpr (List.forall₂_same.mpr fun row _ column => ?_)⟩
    have hcell : (row.map blankCell).getD column .none = blankCell (row.getD column .none) :=
      List.getD_map row Cell.none blankCell
    rw [hcell]
    by_cases hblank : row.getD column .none = .text ""
    · exact Or.inr ⟨hblank, if_pos hblank⟩
    · exact Or.inl (if_neg hblank)

/-- A set of two `X`, or one `Y`. -/
def setOrSingle : StoredRule ReadTable.ascii.toCharTable :=
  storedRule ⟨"A", by decide, by decide, by decide⟩ true none 1
    ⟨[⟨⟨1, by decide⟩, ⟨"X", by decide, by decide, by decide⟩, ⟨2, by decide⟩⟩,
      ⟨⟨2, by decide⟩, ⟨"Y", by decide, by decide, by decide⟩, ⟨1, by decide⟩⟩], by simp, by decide⟩

def oneRule : MappingTable ReadTable.ascii.toCharTable :=
  MappingTable.empty.put 1 setOrSingle 2 3 fun _ h => by cases h

theorem import_export_example : ∃ rawRows rules,
    readMappingImportRows .ascii plainWorkbooks "rules.xlsx"
        (plainWorkbooks.save (exportSkuMappingRules (fun a b => decide (a ≤ b)) oneRule)) =
        .ok rawRows ∧
      normalizeImportRows .ascii rawRows = .ok rules ∧
        ∀ sku, (rules.get? sku).map SkuMappingRuleIn.body = (oneRule.ruleOf sku).map fun entry =>
        entry.2.body :=
  import_export .ascii plainWorkbooks (fun a b => decide (a ≤ b)) oneRule (by decide +kernel)

end Restock
