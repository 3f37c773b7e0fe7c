/-
# Matching order information (`services/order_edit.py`, `tasks/jobs/order_info_match.py`)

The rows of a spreadsheet are parsed first, against the order ids and the EU members; the
loop goes on after an error, and remembers which orders it has seen. Then all headers of
the listed orders are edited in one session, with the progress reported in between, and
the session is committed.

The loop finds an error exactly if a row is in error on its own terms, or repeats a row
before it (`gatheredFrom_foldl`). Whatever is raised before the commit, nothing is stored;
otherwise each header of the listed orders has the values of its row, and no other header
is touched (`orderInfoMatch_exact`).
-/
import Restock.OrderEdit
import Restock.Lib.Query
import Restock.Lib.Session

namespace Restock

open PyText

/-! ### The requested fields -/

section Fields

variable (U : CharTable) (lower : String → String)

/-- The name of the field. -/
def EditableField.key : EditableField → String
  | .countryCode => "country_code"
  | .postalCode => "postal_code"

/-- The field of a name. -/
def fieldByKey (key : String) : Option EditableField :=
  [EditableField.countryCode, .postalCode].find? fun field => field.key = key

/-- The field of a column. -/
def fieldByLabel (label : String) : Option EditableField :=
  [EditableField.countryCode, .postalCode].find? fun field => field.label = label

/-- `re.sub(r"(?<!^)(?=[A-Z])", "_", text)`. -/
def underscoreCapitals (text : String) : String :=
  match text.toList with
  | [] => ""
  | first :: rest =>
    String.ofList (first :: rest.flatMap fun c => if c.isUpper then ['_', c] else [c])

/-- The field that a part names; `lower` is `str.lower`. -/
def fieldOf (part : String) : Option EditableField :=
  ((fieldByKey part).or (fieldByLabel part)).or (fieldByKey (lower (underscoreCapitals part)))

/-- The loop of `parse_requested_fields` over the parts. -/
def requestedFields : List String → List EditableField → Except String (List EditableField)
  | [], fields => if fields = [] then .error "请至少选择一个匹配字段" else .ok fields
  | part :: parts, fields =>
    if part = "" then requestedFields parts fields
    else match fieldOf lower part with
      | none => .error s!"未知匹配字段：{part}"
      | some field =>
        if field ∈ fields then .error s!"重复匹配字段：{field.label}"
        else requestedFields parts (fields ++ [field])

/-- `parse_requested_fields` of a list. -/
def parseRequestedFields (rawFields : List String) : Except String (List EditableField) :=
  requestedFields lower ((rawFields.flatMap
    fun item => (item.toList.splitOn ',').map String.ofList).map (strip U)) []

variable {lower}

theorem nodup_requestedFields :
    ∀ {parts : List String} {fields result : List EditableField}, fields.Nodup →
    requestedFields lower parts fields = .ok result → result.Nodup
  | [], fields, result, hnd, h => by
    unfold requestedFields at h
    split_ifs at h
    rwa [← Except.ok.inj h]
  | part :: parts, fields, result, hnd, h => by
    unfold requestedFields at h
    split_ifs at h with hpart
    · exact nodup_requestedFields hnd h
    · split at h
      · cases h
      · split_ifs at h with hmem
        refine nodup_requestedFields ?_ h
        exact List.nodup_append'.mpr ⟨hnd, List.nodup_singleton _, by simpa using hmem⟩

/-- No field is requested twice. -/
theorem nodup_parseRequestedFields {rawFields : List String} {fields : List EditableField}
    (h : parseRequestedFields U lower rawFields = .ok fields) :
    fields.Nodup := nodup_requestedFields List.nodup_nil h

end Fields

/-! ### The rows of the sheet -/

section Rows

variable (U : CharTable) (fields : List EditableField) (ids E : List String)

/-- No cell of the chosen columns has a text. -/
def blankRow (row : List JsonValue) : Bool :=
  (List.range (fields.length + 1)).all fun column => stringCell U (cellAt row column) = ""

/-- The order id of a row. -/
def rowOrderId (row : List JsonValue) : String := stringCell U (cellAt row 0)

/-- The values of a row, normalised. -/
def rowUpdates (entry : ℕ × List JsonValue) : NormalizedUpdates :=
  normalizeUpdateValues U (rawRowUpdates fields entry.2) entry.1 (.infoMatch E)

/-- The row lists an order. -/
def Lists (id : String) (entry : ℕ × List JsonValue) :
    Prop := blankRow U fields entry.2 = false ∧ rowOrderId U entry.2 = id

instance (id : String) (entry : ℕ × List JsonValue) : Decidable (Lists U fields id entry) :=
  inferInstanceAs (Decidable (_ ∧ _))

/-- The row is in error after the rows before it: its order id is missing, a repetition or
unknown, or one of its values is not accepted. -/
def RowInError (before : List (ℕ × List JsonValue)) (entry : ℕ × List JsonValue) : Prop :=
  blankRow U fields entry.2 = false ∧ (rowOrderId U entry.2 = "" ∨
    (∃ e ∈ before, Lists U fields (rowOrderId U entry.2) e) ∨ rowOrderId U entry.2 ∉ ids ∨
    (rowUpdates U fields E entry).errors ≠ [])

/-- Some row is in error. -/
def AnyInError (rows : List (ℕ × List JsonValue)) : Prop :=
  ∃ before entry after, rows = before ++ entry :: after ∧ RowInError U fields ids E before entry

variable {U fields ids E}

theorem anyInError_append {rows : List (ℕ × List JsonValue)} {entry : ℕ × List JsonValue} :
    AnyInError U fields ids E (rows ++ [entry]) ↔
      AnyInError U fields ids E rows ∨ RowInError U fields ids E rows entry := by
  constructor
  · rintro ⟨before, e, after, hsplit, he⟩
    rcases List.eq_nil_or_concat after with rfl | ⟨after', last, rfl⟩
    · obtain ⟨rfl, hlast⟩ := List.append_inj' hsplit rfl
      rw [List.head_eq_of_cons_eq hlast]
      exact Or.inr he
    · rw [List.concat_eq_append, ← List.cons_append, ← List.append_assoc] at hsplit
      obtain ⟨rfl, -⟩ := List.append_inj' hsplit rfl
      exact Or.inl ⟨before, e, after', rfl, he⟩
  · rintro (⟨before, e, after, rfl, he⟩ | he)
    · exact ⟨before, e, after ++ [entry], by simp, he⟩
    · exact ⟨rows, entry, [], rfl, he⟩

/-- What the loop has gathered from the rows. -/
structure GatheredFrom (U : CharTable) (fields : List EditableField) (ids E : List String)
    (rows : List (ℕ × List JsonValue)) (parsed : ParsedRows) : Prop where
  seen : ∀ id, id ≠ "" →
    ((parsed.seenOrders.get? id).isSome = true ↔ ∃ e ∈ rows, Lists U fields id e)
  errors : parsed.errors = [] ↔ ¬ AnyInError U fields ids E rows
  updates : parsed.errors = [] → ∀ id, parsed.updatesByOrder.get? id =
    (rows.find? fun e => Lists U fields id e).map fun e => (rowUpdates U fields E e).normalized
  overrides : parsed.countryOverrides = []

/-- A row that is not blank, and has an order id that no row before it has. -/
theorem parseMatchRow_new {acc : ParsedRows} {entry : ℕ × List JsonValue}
    (hb : blankRow U fields entry.2 = false) (hid : rowOrderId U entry.2 ≠ "")
    (hseen : acc.seenOrders.get? (rowOrderId U entry.2) = none) :
    parseMatchRow U fields ids E acc entry =
      if rowOrderId U entry.2 ∉ ids then
        { acc with
          seenOrders := acc.seenOrders.set (rowOrderId U entry.2) entry.1
          errors := acc.errors ++ [⟨entry.1, orderNumberHeader, "订单号不存在"⟩] }
      else if (rowUpdates U fields E entry).errors = [] then
        { acc with
          seenOrders := acc.seenOrders.set (rowOrderId U entry.2) entry.1
          updatesByOrder := acc.updatesByOrder.set (rowOrderId U entry.2)
            (rowUpdates U fields E entry).normalized
          countryOverrides := acc.countryOverrides ++
            (rowUpdates U fields E entry).countryOverrides }
      else
        { acc with
          seenOrders := acc.seenOrders.set (rowOrderId U entry.2) entry.1
          errors := acc.errors ++ (rowUpdates U fields E entry).errors } := by
  unfold blankRow at hb
  unfold rowOrderId at hid hseen
  unfold parseMatchRow
  simp only [hb, Bool.false_eq_true, if_false, hid, hseen]
  rfl

/-- A row that is in error by its order id alone. -/
theorem parseMatchRow_refused (ids E : List String) {acc : ParsedRows} {entry : ℕ × List JsonValue}
    (hb : blankRow U fields entry.2 = false)
    (h : rowOrderId U entry.2 = "" ∨ (acc.seenOrders.get? (rowOrderId U entry.2)).isSome = true) :
    ∃ error, parseMatchRow U fields ids E acc entry =
    { acc with errors := acc.errors ++ [error] } := by
  unfold blankRow at hb
  unfold rowOrderId at h
  unfold parseMatchRow
  simp only [hb, Bool.false_eq_true, if_false]
  by_cases hid : stringCell U (cellAt entry.2 0) = ""
  · rw [if_pos hid]
    exact ⟨_, rfl⟩
  · rw [if_neg hid]
    obtain ⟨previous, hprevious⟩ := Option.isSome_iff_exists.mp (h.resolve_left hid)
    rw [hprevious]
    exact ⟨_, rfl⟩

theorem parseMatchRow_blank {acc : ParsedRows} {entry : ℕ × List JsonValue}
    (hb : blankRow U fields entry.2 = true) : parseMatchRow U fields ids E acc entry = acc := by
  unfold blankRow at hb
  unfold parseMatchRow
  simp only [hb, if_true]

theorem rowUpdates_overrides (entry : ℕ × List JsonValue) :
    (rowUpdates U fields E entry).countryOverrides = [] :=
  infoMatch_overrides E entry.1 (rawRowUpdates fields entry.2) ⟨.empty, [], []⟩

theorem lists_append {rows : List (ℕ × List JsonValue)} {entry : ℕ × List JsonValue} {id : String} :
    (∃ e ∈ rows ++ [entry], Lists U fields id e) ↔ (∃ e ∈ rows, Lists U fields id e) ∨
    Lists U fields id entry := by
  simp only [List.mem_append, List.mem_singleton, or_and_right, exists_or, exists_eq_left]

theorem find?_append_of_not_lists {rows : List (ℕ × List JsonValue)} {entry : ℕ × List JsonValue}
    {id : String} (hno : ¬ Lists U fields id entry) :
    (rows ++ [entry]).find? (fun e => Lists U fields id e) = rows.find? fun e =>
    Lists U fields id e := by
  rw [List.find?_append, List.find?_singleton, if_neg (by simpa using hno), Option.or_none]

section Append

variable {rows : List (ℕ × List JsonValue)} {acc acc' : ParsedRows} {entry : ℕ × List JsonValue}

/-- A blank row changes nothing. -/
theorem GatheredFrom.blank (h : GatheredFrom U fields ids E rows acc)
    (hb : blankRow U fields entry.2 = true) :
    GatheredFrom U fields ids E (rows ++ [entry]) acc := by
  have hno : ∀ id, ¬ Lists U fields id entry := fun id hl => by rw [hl.1] at hb; cases hb
  have hgood : ¬ RowInError U fields ids E rows entry := fun he => by rw [he.1] at hb; cases hb
  refine ⟨fun id hid => ?_, ?_, fun he id => ?_, h.overrides⟩
  · rw [h.seen id hid, lists_append, or_iff_left (hno id)]
  · rw [h.errors, anyInError_append, or_iff_left hgood]
  · rw [h.updates he id, find?_append_of_not_lists (hno id)]

/-- After a row in error there are errors. -/
theorem GatheredFrom.bad (hbad : RowInError U fields ids E rows entry) (herrors : acc'.errors ≠ [])
    (hseen : ∀ id, id ≠ "" →
      ((acc'.seenOrders.get? id).isSome = true ↔ ∃ e ∈ rows ++ [entry], Lists U fields id e))
      (hoverrides : acc'.countryOverrides = []) :
      GatheredFrom U fields ids E (rows ++ [entry]) acc' := by
  refine ⟨hseen, ?_, fun he => absurd he herrors, hoverrides⟩
  exact iff_of_false herrors fun hn => hn (anyInError_append.mpr (Or.inr hbad))

/-- The order of a row that is not blank counts as seen from there on. -/
theorem GatheredFrom.seen_set (h : GatheredFrom U fields ids E rows acc)
    (hb : blankRow U fields entry.2 = false) :
    ∀ id, id ≠ "" → (((acc.seenOrders.set (rowOrderId U entry.2) entry.1).get? id).isSome = true ↔
      ∃ e ∈ rows ++ [entry], Lists U fields id e) := by
  intro id hne
  rw [Dict.get?_set, lists_append]
  by_cases heq : id = rowOrderId U entry.2
  · rw [if_pos heq]
    exact iff_of_true rfl (Or.inr ⟨hb, heq.symm⟩)
  · rw [if_neg heq, h.seen id hne, or_iff_left fun hl => heq hl.2.symm]

/-- A row whose order id is missing or repeated. -/
theorem GatheredFrom.refused (h : GatheredFrom U fields ids E rows acc)
    (hb : blankRow U fields entry.2 = false)
    (hrefused : rowOrderId U entry.2 = "" ∨
    (acc.seenOrders.get? (rowOrderId U entry.2)).isSome = true) :
    GatheredFrom U fields ids E (rows ++ [entry]) (parseMatchRow U fields ids E acc entry) := by
  obtain ⟨error, hparse⟩ := parseMatchRow_refused ids E hb hrefused
  have hbefore : rowOrderId U entry.2 ≠ "" → ∃ e ∈ rows, Lists U fields (rowOrderId U entry.2) e :=
    fun hid => (h.seen _ hid).mp (hrefused.resolve_left hid)
  have hbad : RowInError U fields ids E rows entry := by
    refine ⟨hb, ?_⟩
    by_cases hid : rowOrderId U entry.2 = ""
    · exact Or.inl hid
    · exact Or.inr (Or.inl (hbefore hid))
  rw [hparse]
  refine .bad hbad (by simp) (fun id hid => ?_) h.overrides
  rw [lists_append, or_iff_left_of_imp, h.seen id hid]
  intro hl
  rw [← hl.2]
  exact hbefore (by rw [hl.2]; exact hid)

/-- A row with a new order id. -/
theorem GatheredFrom.new (h : GatheredFrom U fields ids E rows acc)
    (hb : blankRow U fields entry.2 = false) (hid : rowOrderId U entry.2 ≠ "")
    (hnone : acc.seenOrders.get? (rowOrderId U entry.2) = none) :
    GatheredFrom U fields ids E (rows ++ [entry]) (parseMatchRow U fields ids E acc entry) := by
  have hfirst : ¬ ∃ e ∈ rows, Lists U fields (rowOrderId U entry.2) e := by
    rw [← h.seen _ hid, hnone]
    simp
  rw [parseMatchRow_new hb hid hnone]
  by_cases hknown : rowOrderId U entry.2 ∈ ids
  swap
  · rw [if_pos hknown]
    exact .bad ⟨hb, Or.inr (Or.inr (Or.inl hknown))⟩ (by simp) (h.seen_set hb) h.overrides
  rw [if_neg (not_not.mpr hknown)]
  by_cases hvalues : (rowUpdates U fields E entry).errors = []
  swap
  · rw [if_neg hvalues]
    exact .bad ⟨hb, Or.inr (Or.inr (Or.inr hvalues))⟩ (by simp [hvalues])
      (h.seen_set hb) h.overrides
  have hgood : ¬ RowInError U fields ids E rows entry := by
    rintro ⟨-, he | he | he | he⟩
    · exact hid he
    · exact hfirst he
    · exact he hknown
    · exact he hvalues
  rw [if_pos hvalues]
  refine ⟨h.seen_set hb, ?_, fun he id => ?_, ?_⟩
  · rw [anyInError_append, or_iff_left hgood]
    exact h.errors
  · show (acc.updatesByOrder.set (rowOrderId U entry.2)
      (rowUpdates U fields E entry).normalized).get? id = _
    rw [Dict.get?_set]
    by_cases heq : id = rowOrderId U entry.2
    · have hnot : rows.find? (fun e => Lists U fields id e) = none := by
        rw [List.find?_eq_none]
        intro e he hl
        exact hfirst ⟨e, he, heq ▸ of_decide_eq_true hl⟩
      have hlast : Lists U fields id entry := ⟨hb, heq.symm⟩
      rw [if_pos heq, List.find?_append, hnot, List.find?_singleton, if_pos (decide_eq_true hlast)]
      rfl
    · rw [if_neg heq, find?_append_of_not_lists fun hl => heq hl.2.symm, h.updates he id]
  · show acc.countryOverrides ++ (rowUpdates U fields E entry).countryOverrides = []
    rw [h.overrides, rowUpdates_overrides]
    rfl

/-- **One more row.** -/
theorem GatheredFrom.append (h : GatheredFrom U fields ids E rows acc)
    (entry : ℕ × List JsonValue) :
    GatheredFrom U fields ids E (rows ++ [entry]) (parseMatchRow U fields ids E acc entry) := by
  by_cases hb : blankRow U fields entry.2 = true
  · rw [parseMatchRow_blank hb]
    exact h.blank hb
  have hb' : blankRow U fields entry.2 = false := Bool.eq_false_iff.mpr hb
  by_cases hrefused : rowOrderId U entry.2 = "" ∨
    (acc.seenOrders.get? (rowOrderId U entry.2)).isSome = true
  · exact h.refused hb' hrefused
  · rw [not_or] at hrefused
    exact h.new hb' hrefused.1 (by simpa using hrefused.2)

end Append

/-- **The loop over the rows**, from its start. -/
theorem gatheredFrom_foldl (rows : List (ℕ × List JsonValue)) :
    GatheredFrom U fields ids E rows
    (rows.foldl (parseMatchRow U fields ids E) ⟨.empty, .empty, [], []⟩) := by
  induction rows using List.reverseRecOn with
  | nil =>
    have hnone : ¬ AnyInError U fields ids E [] := by
      rintro ⟨before, entry, after, h, -⟩
      simp at h
    exact ⟨fun id _ => by simp, iff_of_true rfl hnone, fun _ id => by simp, rfl⟩
  | append_singleton rows entry ih =>
    rw [List.foldl_append]
    exact ih.append entry

end Rows

/-! ### The values of a row -/

section Values

variable {U : CharTable} {fields : List EditableField} {E : List String}

/-- The other fields leave the postal code alone. -/
theorem foldl_postal_absent (n : ℕ) :
    ∀ (l : List (EditableField × JsonValue)) (acc : NormalizedUpdates),
    EditableField.postalCode ∉ l.map Prod.fst →
    (l.foldl (normalizeUpdateField U (.infoMatch E) n) acc).normalized.postalCode =
    acc.normalized.postalCode
  | [], _, _ => rfl
  | (.postalCode, _) :: _, _, h => absurd List.mem_cons_self h
  | (.countryCode, v) :: l, acc, h => by
    have ih := foldl_postal_absent n l
      (normalizeUpdateField U (.infoMatch E) n acc (.countryCode, v))
      fun hm => h (List.mem_cons_of_mem _ hm)
    rw [List.foldl_cons, ih]
    unfold normalizeUpdateField
    simp only
    split_ifs with h0
    · rfl
    · cases hfield : normalizeCountryField U (.infoMatch E) (stringCell U v) acc.normalized with
      | error e => rfl
      | ok result =>
        obtain ⟨code, -, hres⟩ := normalizeCountryField_infoMatch hfield
        simp [hres]

theorem infoMatch_postal {n : ℕ} {l : List (EditableField × JsonValue)}
    (hnd : (l.map Prod.fst).Nodup) {v : JsonValue} (hv : (EditableField.postalCode, v) ∈ l) :
    (normalizeUpdateValues U l n (.infoMatch E)).normalized.postalCode =
    some (nonEmpty (stringCell U v)) := by
  obtain ⟨l₁, l₂, rfl⟩ := List.append_of_mem hv
  have hlater : EditableField.postalCode ∉ l₂.map Prod.fst := by
    rw [List.map_append, List.map_cons, List.nodup_append] at hnd
    exact (List.nodup_cons.mp hnd.2.1).1
  rw [normalizeUpdateValues, List.foldl_append, List.foldl_cons, foldl_postal_absent n l₂ _ hlater]
  rfl

/-- An import never clears a country. -/
theorem infoMatch_not_null (n : ℕ) :
    ∀ (l : List (EditableField × JsonValue)) (acc : NormalizedUpdates),
    acc.normalized.countryCode ≠ some none →
    (l.foldl (normalizeUpdateField U (.infoMatch E) n) acc).normalized.countryCode ≠ some none
  | [], _, h => h
  | (.postalCode, v) :: l, acc, h => infoMatch_not_null n l _ h
  | (.countryCode, v) :: l, acc, h => by
    rw [List.foldl_cons]
    refine infoMatch_not_null n l _ ?_
    unfold normalizeUpdateField
    simp only
    split_ifs with h0
    · exact h
    · cases hfield : normalizeCountryField U (.infoMatch E) (stringCell U v) acc.normalized with
      | error e => exact h
      | ok result =>
        obtain ⟨code, -, hres⟩ := normalizeCountryField_infoMatch hfield
        simp [hres]

theorem rowUpdates_not_null (entry : ℕ × List JsonValue) :
    (rowUpdates U fields E entry).normalized.countryCode ≠ some none :=
  infoMatch_not_null entry.1 (rawRowUpdates fields entry.2) ⟨.empty, [], []⟩ (nomatch ·)

theorem exists_mem_rawRowUpdates {field : EditableField} (hf : field ∈ fields)
    (row : List JsonValue) : ∃ v, (field, v) ∈ rawRowUpdates fields row := by
  rw [← map_fst_rawRowUpdates fields row] at hf
  obtain ⟨⟨field', v⟩, hv, rfl⟩ := List.mem_map.mp hf
  exact ⟨v, hv⟩

section Row

variable {entry : ℕ × List JsonValue}

theorem rowUpdates_country (hnd : fields.Nodup) {v : JsonValue}
    (hv : (EditableField.countryCode, v) ∈ rawRowUpdates fields entry.2)
    (he : (rowUpdates U fields E entry).errors = []) :
    ∃ code, normalizeCountryCodeValue U (stringCell U v) = .ok code ∧
      (rowUpdates U fields E entry).normalized.countryCode =
      some (some (applyImportCountryMapping U code E).1) ∧
      (rowUpdates U fields E entry).normalized.originalCountryCode =
      some (applyImportCountryMapping U code E).2 :=
  infoMatch_country (by rwa [map_fst_rawRowUpdates]) hv he

theorem rowUpdates_postal (hnd : fields.Nodup) {v : JsonValue}
    (hv : (EditableField.postalCode, v) ∈ rawRowUpdates fields entry.2) :
    (rowUpdates U fields E entry).normalized.postalCode = some (nonEmpty (stringCell U v)) :=
  infoMatch_postal (by rwa [map_fst_rawRowUpdates]) hv

/-- A column that is not requested is not set. -/
theorem rowUpdates_country_unasked (U : CharTable) (E : List String) (entry : ℕ × List JsonValue)
    (hf : EditableField.countryCode ∉ fields) :
    (rowUpdates U fields E entry).normalized.countryCode = none ∧
      (rowUpdates U fields E entry).normalized.originalCountryCode = none :=
  foldl_postal (.infoMatch E) entry.1 (rawRowUpdates fields entry.2) ⟨.empty, [], []⟩
    (by rwa [map_fst_rawRowUpdates])

theorem rowUpdates_postal_unasked (hf : EditableField.postalCode ∉ fields) :
    (rowUpdates U fields E entry).normalized.postalCode = none :=
  foldl_postal_absent entry.1 (rawRowUpdates fields entry.2) ⟨.empty, [], []⟩
    (by rwa [map_fst_rawRowUpdates])

end Row

end Values

/-! ### The database -/

/-- The key of a header: an order may be known from several sources. -/
structure HeaderKey where
  order : OrderKey
  source : String
deriving DecidableEq

/-- A header with the bookkeeping of its manual edits. -/
structure EditedHeader where
  header : OrderHeader
  manualEditedAt : Option ℤ
  manualEditedBy : Option ℤ
  manualEditFields : Option (List String)
deriving DecidableEq

/-- The tables that the match reads and writes. -/
structure MatchDb where
  headers : Dict HeaderKey EditedHeader
  countryNames : Dict String String
  euCountries : List String

/-- The headers of the packages, as the parser reads them. -/
def MatchDb.packageOrders (db : MatchDb) : Dict OrderKey OrderHeader :=
  Dict.ofList ((db.headers.items.filter fun p => p.1.source = orderSourcePackage).map
    fun p => (p.1.order, p.2.header))

/-- The tables of the country sync. -/
def MatchDb.country (db : MatchDb) : CountryDb :=
  { euCountries := db.euCountries
    warehouses := .empty
    orders := db.packageOrders
    inventory := .empty
    inTransit := .empty
    countryNames := db.countryNames }

/-- The columns of an edit that are fields of the form. -/
def ManualUpdates.editedFields (updates : ManualUpdates) : List String :=
  (updates.countryCode.map fun _ => EditableField.countryCode.key).toList ++
    (updates.postalCode.map fun _ => EditableField.postalCode.key).toList

/-- `_apply_manual_updates`. -/
def EditedHeader.applyUpdates (row : EditedHeader) (updates : ManualUpdates) (userId now : ℤ) :
    Except String EditedHeader :=
  (applyManualUpdates row.header updates).map fun header =>
    { header := header
      manualEditedAt := some now
      manualEditedBy := some userId
      manualEditFields :=
        some ((row.manualEditFields.getD [] ++ updates.editedFields).dedup.insertionSort (· ≤ ·)) }

/-- What an edit leaves that does not clear the country. -/
def EditedHeader.edited (row : EditedHeader) (updates : ManualUpdates) (userId now : ℤ) :
    EditedHeader :=
  { header :=
      { row.header with
        countryCode := (updates.countryCode.bind id).getD row.header.countryCode
        originalCountryCode := updates.originalCountryCode.getD row.header.originalCountryCode
        postalCode := updates.postalCode.getD row.header.postalCode
        manualEditLocked := true }
    manualEditedAt := some now
    manualEditedBy := some userId
    manualEditFields := some ((row.manualEditFields.getD
      [] ++ updates.editedFields).dedup.insertionSort (· ≤ ·)) }

theorem applyUpdates_eq (row : EditedHeader) {updates : ManualUpdates}
    (h : updates.countryCode ≠ some none) (userId now : ℤ) :
    row.applyUpdates updates userId now = .ok (row.edited updates userId now) := by
  obtain ⟨country, original, postal⟩ := updates
  rcases country with - | - | code
  · rfl
  · exact absurd rfl h
  · rfl

/-- The header has the values of the row of the sheet, in the requested columns, and the
bookkeeping of the edit; nothing else of it has changed. -/
structure EditedBy (U : CharTable) (fields : List EditableField) (E : List String)
    (entry : ℕ × List JsonValue) (userId now : ℤ) (row row' : EditedHeader) : Prop where
  country : ∀ v, (EditableField.countryCode, v) ∈ rawRowUpdates fields entry.2 → ∃ code,
    normalizeCountryCodeValue U (stringCell U v) = .ok code ∧
      row'.header.countryCode = (applyImportCountryMapping U code E).1 ∧
      row'.header.originalCountryCode = (applyImportCountryMapping U code E).2
  country_kept : EditableField.countryCode ∉ fields →
    row'.header.countryCode = row.header.countryCode ∧
    row'.header.originalCountryCode = row.header.originalCountryCode
  postal : ∀ v, (EditableField.postalCode, v) ∈ rawRowUpdates fields entry.2 →
    row'.header.postalCode = nonEmpty (stringCell U v)
  postal_kept : EditableField.postalCode ∉ fields → row'.header.postalCode = row.header.postalCode
  rest : row'.header = { row.header with
    countryCode := row'.header.countryCode
    originalCountryCode := row'.header.originalCountryCode
    postalCode := row'.header.postalCode
    manualEditLocked := true }
  edited : row'.manualEditedAt = some now ∧ row'.manualEditedBy = some userId
  fieldNames : ∃ names, row'.manualEditFields = some names ∧ names.Pairwise (· < ·) ∧
    ∀ name, name ∈ names ↔ name ∈ row.manualEditFields.getD [] ∨ ∃ field ∈ fields, field.key = name

section Edited

variable {U : CharTable} {fields : List EditableField} {E : List String}
    {entry : ℕ × List JsonValue}

/-- The columns of a row without errors are the requested ones. -/
theorem mem_editedFields (hnd : fields.Nodup) (he : (rowUpdates U fields E entry).errors = [])
    (name : String) :
    name ∈ (rowUpdates U fields E entry).normalized.editedFields ↔
    ∃ field ∈ fields, field.key = name := by
  have hcountry : (rowUpdates U fields E entry).normalized.countryCode.isSome = true ↔
      EditableField.countryCode ∈ fields := by
    by_cases hf : EditableField.countryCode ∈ fields
    · obtain ⟨v, hv⟩ := exists_mem_rawRowUpdates hf entry.2
      obtain ⟨code, -, hcode, -⟩ := rowUpdates_country hnd hv he
      exact iff_of_true (by rw [hcode]; rfl) hf
    · exact iff_of_false (by simp [(rowUpdates_country_unasked U E entry hf).1]) hf
  have hpostal : (rowUpdates U fields E entry).normalized.postalCode.isSome = true ↔
      EditableField.postalCode ∈ fields := by
    by_cases hf : EditableField.postalCode ∈ fields
    · obtain ⟨v, hv⟩ := exists_mem_rawRowUpdates hf entry.2
      exact iff_of_true (by rw [rowUpdates_postal hnd hv]; rfl) hf
    · exact iff_of_false (by simp [rowUpdates_postal_unasked hf]) hf
  have hname : name ∈ (rowUpdates U fields E entry).normalized.editedFields ↔
      (rowUpdates U fields E entry).normalized.countryCode.isSome = true ∧
        EditableField.countryCode.key = name ∨
        (rowUpdates U fields E entry).normalized.postalCode.isSome = true ∧
        EditableField.postalCode.key = name := by
    rw [ManualUpdates.editedFields, List.mem_append]
    cases (rowUpdates U fields E entry).normalized.countryCode <;>
      cases (rowUpdates U fields E entry).normalized.postalCode <;> simp [eq_comm]
  rw [hname, hcountry, hpostal]
  constructor
  · intro h
    cases h with
    | inl h => exact ⟨_, h⟩
    | inr h => exact ⟨_, h⟩
  · rintro ⟨field, hf, hkey⟩
    cases field with
    | countryCode => exact Or.inl ⟨hf, hkey⟩
    | postalCode => exact Or.inr ⟨hf, hkey⟩

theorem edited_editedBy (hnd : fields.Nodup) (he : (rowUpdates U fields E entry).errors = [])
    (userId now : ℤ) (row : EditedHeader) :
    EditedBy U fields E entry userId now row
    (row.edited (rowUpdates U fields E entry).normalized userId now) := by
  refine ⟨fun v hv => ?_, fun hf => ?_, fun v hv => ?_, fun hf => ?_, rfl, ⟨rfl, rfl⟩, ?_⟩
  · obtain ⟨code, hcode, hcountry, horiginal⟩ := rowUpdates_country hnd hv he
    refine ⟨code, hcode, ?_, ?_⟩
    · simp [EditedHeader.edited, hcountry]
    · simp [EditedHeader.edited, horiginal]
  · obtain ⟨hcountry, horiginal⟩ := rowUpdates_country_unasked U E entry hf
    constructor
    · simp [EditedHeader.edited, hcountry]
    · simp [EditedHeader.edited, horiginal]
  · simp [EditedHeader.edited, rowUpdates_postal hnd hv]
  · simp [EditedHeader.edited, rowUpdates_postal_unasked hf]
  · refine ⟨_, rfl, ?_, fun name => ?_⟩
    · have hsorted := List.pairwise_insertionSort (· ≤ ·) (row.manualEditFields.getD [] ++
        (rowUpdates U fields E entry).normalized.editedFields).dedup
      have hnodup := (List.perm_insertionSort (· ≤ ·) _).nodup_iff.mpr
        (List.nodup_dedup (row.manualEditFields.getD
        [] ++ (rowUpdates U fields E entry).normalized.editedFields))
      exact (hsorted.and hnodup).imp fun h => lt_of_le_of_ne h.1 h.2
    · rw [List.mem_insertionSort, List.mem_dedup, List.mem_append, mem_editedFields hnd he]

end Edited

/-- What a run is given from outside: the user, the clock, the order of the query's rows,
and what is raised at the points where something can be. -/
structure MatchRun where
  userId : ℤ
  now : HeaderKey → ℤ
  plan : Query.Plan
  parsing : Option String
  saving : Option String
  selecting : Option String
  progress : (done total : ℕ) → Option String
  committing : Option String

/-- The orders of one query. -/
def batchSize : ℕ := 500

/-- The loop of `apply_parsed_order_info_match` over the headers. -/
def applyMatchRows (run : MatchRun) (updatesByOrder : Dict String ManualUpdates) (total : ℕ) :
    List HeaderKey → ℕ → Session MatchDb → Except String ℕ × Session MatchDb
  | [], updated, s => (.ok updated, s)
  | key :: keys, updated, s =>
    match updatesByOrder.get? key.order.amazonOrderId, s.current.headers.get? key with
    | some updates, some row =>
      match row.applyUpdates updates run.userId (run.now key) with
      | .error e => (.error e, s)
      | .ok row' =>
        let s := s.write fun db => { db with headers := db.headers.set key row' }
        match if (updated + 1) % batchSize = 0 ∨
            updated + 1 = total then run.progress (updated + 1) total else none with
        | some e => (.error e, s)
        | none => applyMatchRows run updatesByOrder total keys (updated + 1) s
    | _, _ => applyMatchRows run updatesByOrder total keys updated s

/-- The headers that `apply_parsed_order_info_match` selects. -/
def MatchDb.selected (db : MatchDb) (updatesByOrder : Dict String ManualUpdates) : List HeaderKey :=
  db.headers.keys.filter fun key => key.order.amazonOrderId ∈ updatesByOrder.keys ∧
    key.source = orderSourcePackage

/-- `apply_parsed_order_info_match`. -/
def applyParsedMatch (run : MatchRun) (parsed : ParsedRows) (s : Session MatchDb) :
    Except String ℕ × Session MatchDb :=
  if parsed.errors ≠ [] then (.error (formatMatchErrors parsed.errors), s)
  else
    match run.saving with
    | some e => (.error e, s)
    | none =>
      let s := s.write fun db =>
        { db with countryNames := saveCountryOverrides parsed.countryOverrides db.countryNames }
      match run.selecting with
      | some e => (.error e, s)
      | none =>
        let rows := run.plan.order (s.current.selected parsed.updatesByOrder)
        match run.progress 0 rows.length with
        | some e => (.error e, s)
        | none =>
          match applyMatchRows run parsed.updatesByOrder rows.length rows 0 s, run.committing with
          | (.error e, s), _ => (.error e, s)
          | (.ok _, s), some e => (.error e, s)
          | (.ok updated, s), none => (.ok updated, s.commit)

section Job

variable (U : CharTable) (lower : String → String)

/-- `order_info_match_apply_job` up to the commit. The workbook is parsed in a session of
its own, which reads `read`; what the last session has not committed is lost when it is
closed. -/
def orderInfoMatch (run : MatchRun) (rawFields : List String) (sheet : List (List JsonValue))
    (read db : MatchDb) : Except String ℕ × MatchDb :=
  match parseRequestedFields U lower rawFields, run.parsing with
  | .error e, _ => (.error e, db)
  | .ok _, some e => (.error e, db)
  | .ok fields, none =>
    match parseMatchWorkbook U fields sheet read.country with
    | .error e => (.error e, db)
    | .ok parsed =>
      let (result, s) := applyParsedMatch run parsed (Session.opened db)
      (result, s.rollback.stored)

end Job

/-! ### The loop over the headers -/

section Loop

variable {run : MatchRun} {updatesByOrder : Dict String ManualUpdates} {total : ℕ}

/-- The header after the run, by the updates of its order. -/
def editAt (run : MatchRun) (updatesByOrder : Dict String ManualUpdates) (key : HeaderKey)
    (row : EditedHeader) : EditedHeader :=
  (updatesByOrder.get? key.order.amazonOrderId).elim row fun updates =>
    row.edited updates run.userId (run.now key)

/-- Nothing of the loop is stored. -/
theorem stored_applyMatchRows : ∀ (keys : List HeaderKey) (updated : ℕ) (s : Session MatchDb),
    (applyMatchRows run updatesByOrder total keys updated s).2.stored = s.stored
  | [], _, _ => rfl
  | key :: keys, updated, s => by
    unfold applyMatchRows
    split
    · split
      · rfl
      · dsimp only
        split
        · rfl
        · exact stored_applyMatchRows keys (updated + 1) _
    · exact stored_applyMatchRows keys updated s

/-- A header that is there and has updates is edited. -/
theorem applyMatchRows_cons (hnull : ∀ id updates, updatesByOrder.get? id = some updates →
    updates.countryCode ≠ some none)
    {key : HeaderKey} {keys : List HeaderKey} {updated : ℕ} {s : Session MatchDb}
    {updates : ManualUpdates} {row : EditedHeader}
    (hu : updatesByOrder.get? key.order.amazonOrderId = some updates)
    (hrow : s.current.headers.get? key = some row) :
    applyMatchRows run updatesByOrder total (key :: keys) updated s =
      match if (updated + 1) % batchSize = 0 ∨
      updated + 1 = total then run.progress (updated + 1) total else none with
      | some e =>
        (.error e, s.write fun db =>
          { db with headers := db.headers.set key (editAt run updatesByOrder key row) })
      | none => applyMatchRows run updatesByOrder total keys (updated + 1)
          (s.write fun db => { db with
              headers := db.headers.set key (editAt run updatesByOrder key row) }) := by
  have hedit : editAt run updatesByOrder key row = row.edited updates run.userId (run.now key) := by
    rw [editAt, hu, Option.elim_some]
  rw [hedit, applyMatchRows, hu, hrow]
  simp only [applyUpdates_eq row (hnull _ updates hu)]

/-- What the loop has done when it ends. -/
structure RowsApplied (run : MatchRun) (updatesByOrder : Dict String ManualUpdates)
    (keys : List HeaderKey) (before after : MatchDb) : Prop where
  names : after.countryNames = before.countryNames
  members : after.euCountries = before.euCountries
  headers : ∀ key, after.headers.get? key =
    if key ∈ keys then (before.headers.get? key).map (editAt run updatesByOrder key)
    else before.headers.get? key

theorem applyMatchRows_ok (hnull : ∀ id updates, updatesByOrder.get? id = some updates →
    updates.countryCode ≠ some none) :
    ∀ {keys : List HeaderKey} {updated n : ℕ} {s s' : Session MatchDb}, keys.Nodup →
    (∀ key ∈ keys, (updatesByOrder.get? key.order.amazonOrderId).isSome = true ∧
      (s.current.headers.get? key).isSome = true) →
      applyMatchRows run updatesByOrder total keys updated s = (.ok n, s') →
    n = updated + keys.length ∧ RowsApplied run updatesByOrder keys s.current s'.current
  | [], updated, n, s, s', _, _, h => by
    obtain ⟨hn, rfl⟩ := Prod.mk.inj h
    exact ⟨(Except.ok.inj hn).symm, rfl, rfl, fun key => (if_neg (by simp)).symm⟩
  | key :: keys, updated, n, s, s', hnd, hkeys, h => by
    obtain ⟨hkey, hnd⟩ := List.nodup_cons.mp hnd
    obtain ⟨⟨updates, hu⟩, ⟨row, hrow⟩⟩ :=
      (hkeys key List.mem_cons_self).imp Option.isSome_iff_exists.mp Option.isSome_iff_exists.mp
    rw [applyMatchRows_cons hnull hu hrow] at h
    split at h
    · cases (Prod.mk.inj h).1
    -- the headers that are left are as they were
    have hset : ∀ k, k ≠ key →
        (s.current.headers.set key (editAt run updatesByOrder key row)).get? k =
            s.current.headers.get? k :=
      fun k hk => Dict.get?_set_ne _ _ hk
    have hkeys' : ∀ k ∈ keys, (updatesByOrder.get? k.order.amazonOrderId).isSome = true ∧
        ((s.current.headers.set key (editAt run updatesByOrder key row)).get? k).isSome = true := by
      intro k hk
      rw [hset k fun he => hkey (he ▸ hk)]
      exact hkeys k (List.mem_cons_of_mem _ hk)
    obtain ⟨hn, hnames, hmembers, hheaders⟩ := applyMatchRows_ok hnull hnd hkeys' h
    refine ⟨by rw [hn, List.length_cons]; omega, hnames, hmembers, fun k => ?_⟩
    rw [hheaders k]
    show (if k ∈ keys then
        ((s.current.headers.set key (editAt run updatesByOrder key row)).get? k).map _ else
      (s.current.headers.set key (editAt run updatesByOrder key row)).get? k) = _
    by_cases hk : k = key
    · subst hk
      rw [if_neg hkey, if_pos List.mem_cons_self, Dict.get?_set_self, hrow, Option.map_some]
    · rw [hset k hk]
      simp [hk]

/-- The loop ends if no report of the progress fails. -/
theorem applyMatchRows_quiet (hnull : ∀ id updates, updatesByOrder.get? id = some updates →
    updates.countryCode ≠ some none)
    (hquiet : ∀ done total, run.progress done total = none) :
    ∀ {keys : List HeaderKey} {updated : ℕ} {s s' : Session MatchDb} {e : String},
    applyMatchRows run updatesByOrder total keys updated s ≠ (.error e, s')
  | [], _, _, _, _, h => nomatch (Prod.mk.inj h).1
  | key :: keys, updated, s, s', e, h => by
    cases hu : updatesByOrder.get? key.order.amazonOrderId with
    | none =>
      rw [applyMatchRows, hu] at h
      exact applyMatchRows_quiet hnull hquiet h
    | some updates =>
      cases hrow : s.current.headers.get? key with
      | none =>
        rw [applyMatchRows, hu, hrow] at h
        exact applyMatchRows_quiet hnull hquiet h
      | some row =>
        rw [applyMatchRows_cons hnull hu hrow] at h
        simp only [hquiet, ite_self] at h
        exact applyMatchRows_quiet hnull hquiet h

end Loop

/-! ### The job -/

/-- The order ids the parser knows. -/
def MatchDb.orderIds (db : MatchDb) : List String :=
  (db.headers.keys.filter fun key => key.source = orderSourcePackage).map fun key =>
    key.order.amazonOrderId

theorem mem_orderIds {db : MatchDb} {id : String} :
    id ∈ db.country.orders.keys.map OrderKey.amazonOrderId ↔ id ∈ db.orderIds := by
  have hkeys : ∀ order, order ∈ db.packageOrders.keys ↔
      ∃ key ∈ db.headers.keys, key.source = orderSourcePackage ∧ key.order = order := by
    intro order
    rw [MatchDb.packageOrders, Dict.mem_keys_ofList]
    simp [Dict.keys, and_assoc]
  constructor
  · intro h
    obtain ⟨order, horder, rfl⟩ := List.mem_map.mp h
    obtain ⟨key, hkey, hsource, rfl⟩ := (hkeys order).mp horder
    exact List.mem_map.mpr ⟨key, List.mem_filter.mpr ⟨hkey, decide_eq_true hsource⟩, rfl⟩
  · intro h
    obtain ⟨key, hkey, rfl⟩ := List.mem_map.mp h
    obtain ⟨hkey, hsource⟩ := List.mem_filter.mp hkey
    exact List.mem_map.mpr
      ⟨key.order, (hkeys key.order).mpr ⟨key, hkey, of_decide_eq_true hsource, rfl⟩, rfl⟩

theorem anyInError_congr {U : CharTable} {fields : List EditableField} {ids ids' E : List String}
    (h : ∀ id, id ∈ ids ↔ id ∈ ids') (rows : List (ℕ × List JsonValue)) :
    AnyInError U fields ids E rows ↔ AnyInError U fields ids' E rows := by
  unfold AnyInError RowInError
  simp only [h]

/-- The rows of the sheet below its head, with their numbers. -/
def sheetRows (sheet : List (List JsonValue)) : List (ℕ × List JsonValue) :=
  (sheet.drop 1).zipIdx.map fun p => (p.2 + 2, p.1)

/-- The head of the sheet is as expected. -/
def HeadOk (U : CharTable) (fields : List EditableField) (sheet : List (List JsonValue)) : Prop :=
  (List.range (fields.length + 1)).map
      (fun column => stringCell U (cellAt (sheet.headD []) column)) = orderNumberHeader ::
      fields.map EditableField.label ∧
    ∀ value ∈ (sheet.headD []).drop (fields.length + 1), stringCell U value = ""

/-- The headers of the listed orders. -/
def MatchDb.listed (U : CharTable) (fields : List EditableField) (rows : List (ℕ × List JsonValue))
    (db : MatchDb) : List HeaderKey :=
  db.headers.keys.filter fun key =>
    key.source = orderSourcePackage ∧ ∃ entry ∈ rows, Lists U fields key.order.amazonOrderId entry

/-- The headers of the listed orders have the values of their rows; nothing else has
changed. -/
structure MatchedExactly (U : CharTable) (fields : List EditableField) (E : List String)
    (rows : List (ℕ × List JsonValue)) (run : MatchRun) (db db' : MatchDb) : Prop where
  names : db'.countryNames = db.countryNames
  members : db'.euCountries = db.euCountries
  absent : ∀ key, db.headers.get? key = none → db'.headers.get? key = none
  edited : ∀ key row, db.headers.get? key = some row → key.source = orderSourcePackage →
    ∀ entry ∈ rows, Lists U fields key.order.amazonOrderId entry →
      ∃ row', db'.headers.get? key = some row' ∧
        EditedBy U fields E entry run.userId (run.now key) row row'
  others : ∀ key row, db.headers.get? key = some row →
    ¬ (key.source = orderSourcePackage ∧
      ∃ entry ∈ rows, Lists U fields key.order.amazonOrderId entry) →
    db'.headers.get? key = some row

section Exact

variable {U : CharTable} {fields : List EditableField} {ids E : List String}
    {rows : List (ℕ × List JsonValue)} {run : MatchRun}

/-- Without errors an order is listed by one row, which has no error of its own. -/
theorem find?_lists (h : ¬ AnyInError U fields ids E rows) {entry : ℕ × List JsonValue}
    (hentry : entry ∈ rows) {id : String} (hl : Lists U fields id entry) :
    rows.find? (fun e => Lists U fields id e) = some entry ∧
    (rowUpdates U fields E entry).errors = [] := by
  obtain ⟨before, after, rfl⟩ := List.append_of_mem hentry
  have hgood : ¬ RowInError U fields ids E before entry :=
    fun he => h ⟨before, entry, after, rfl, he⟩
  have hfirst : before.find? (fun e => Lists U fields id e) = none := by
    rw [List.find?_eq_none]
    intro e he hle
    exact hgood ⟨hl.1, Or.inr (Or.inl ⟨e, he, hl.2 ▸ of_decide_eq_true hle⟩)⟩
  refine ⟨?_, ?_⟩
  · simp [List.find?_append, hfirst, hl]
  · by_contra he
    exact hgood ⟨hl.1, Or.inr (Or.inr (Or.inr he))⟩

theorem parsed_isSome {parsed : ParsedRows} (hp : GatheredFrom U fields ids E rows parsed)
    (he : parsed.errors = []) (id : String) :
    (parsed.updatesByOrder.get? id).isSome = true ↔ ∃ entry ∈ rows, Lists U fields id entry := by
  rw [hp.updates he id, Option.isSome_map, List.find?_isSome]
  simp

theorem parsed_not_null {parsed : ParsedRows} (hp : GatheredFrom U fields ids E rows parsed)
    (he : parsed.errors = []) :
    ∀ id updates, parsed.updatesByOrder.get? id = some updates →
    updates.countryCode ≠ some none := by
  intro id updates hu
  rw [hp.updates he id] at hu
  obtain ⟨entry, -, rfl⟩ := Option.map_eq_some_iff.mp hu
  exact rowUpdates_not_null entry

theorem selected_eq_listed {parsed : ParsedRows} (hp : GatheredFrom U fields ids E rows parsed)
    (he : parsed.errors = []) (db : MatchDb) :
    db.selected parsed.updatesByOrder = db.listed U fields rows := by
  unfold MatchDb.selected MatchDb.listed
  congr 1
  funext key
  rw [decide_eq_decide, ← parsed_isSome hp he, Dict.mem_keys_iff,
    Option.isSome_iff_exists, and_comm]

/-- The updates of the parsed rows, applied to the headers of the listed orders. -/
theorem RowsApplied.matched {parsed : ParsedRows} (hp : GatheredFrom U fields ids E rows parsed)
    (he : parsed.errors = []) (hnd : fields.Nodup) {keys : List HeaderKey} {db db' : MatchDb}
    (hkeys : ∀ key, key ∈ keys ↔ key ∈ db.listed U fields rows)
    (h : RowsApplied run parsed.updatesByOrder keys db db') :
    MatchedExactly U fields E rows run db db' := by
  have hgood := hp.errors.mp he
  have hlisted : ∀ key row, db.headers.get? key = some row → (key ∈ keys ↔
      key.source = orderSourcePackage ∧
          ∃ entry ∈ rows, Lists U fields key.order.amazonOrderId entry) := by
    intro key row hrow
    rw [hkeys key, MatchDb.listed, List.mem_filter, decide_eq_true_eq,
      and_iff_right (Dict.mem_keys_iff.mpr ⟨row, hrow⟩)]
  refine ⟨h.names, h.members, fun key hnone => ?_, fun key row hrow hsource entry hentry hl => ?_, fun key row hrow hno => ?_⟩
  · rw [h.headers key, hnone, Option.map_none, ite_self]
  · obtain ⟨hfind, hvalues⟩ := find?_lists hgood hentry hl
    refine ⟨_, ?_, edited_editedBy hnd hvalues run.userId (run.now key) row⟩
    rw [h.headers key, if_pos ((hlisted key row hrow).mpr ⟨hsource, entry, hentry, hl⟩), hrow, Option.map_some, editAt,
      hp.updates he, hfind]
    rfl
  · rw [h.headers key, if_neg fun hm => hno ((hlisted key row hrow).mp hm), hrow]

/-- Whatever is raised, nothing of the session is stored. -/
theorem stored_applyParsedMatch {parsed : ParsedRows} {s s' : Session MatchDb} {e : String}
    (h : applyParsedMatch run parsed s = (.error e, s')) : s'.stored = s.stored := by
  unfold applyParsedMatch at h
  split_ifs at h
  · rw [← (Prod.mk.inj h).2]
  split at h
  · rw [← (Prod.mk.inj h).2]
  dsimp only at h
  split at h
  · rw [← (Prod.mk.inj h).2]
    rfl
  split at h
  · rw [← (Prod.mk.inj h).2]
    rfl
  split at h
  next hrows =>
    rw [← (Prod.mk.inj h).2, ← congrArg (fun r => r.2.stored) hrows]
    exact stored_applyMatchRows _ _ _
  next hrows _ =>
    rw [← (Prod.mk.inj h).2, ← congrArg (fun r => r.2.stored) hrows]
    exact stored_applyMatchRows _ _ _
  next => cases (Prod.mk.inj h).1

/-- An import that returns has matched the headers of the listed orders. -/
theorem applyParsedMatch_ok {parsed : ParsedRows} (hp : GatheredFrom U fields ids E rows parsed)
    (hnd : fields.Nodup) {db : MatchDb} {s' : Session MatchDb} {n : ℕ}
    (h : applyParsedMatch run parsed (Session.opened db) = (.ok n, s')) :
    parsed.errors = [] ∧ MatchedExactly U fields E rows run db s'.stored ∧
    n = (db.listed U fields rows).length := by
  unfold applyParsedMatch at h
  split_ifs at h with he
  · cases (Prod.mk.inj h).1
  rw [not_not] at he
  split at h
  · cases (Prod.mk.inj h).1
  dsimp only at h
  split at h
  · cases (Prod.mk.inj h).1
  split at h
  · cases (Prod.mk.inj h).1
  -- no country name is saved
  rw [hp.overrides] at h
  set s : Session MatchDb := (Session.opened db).write fun db =>
    { db with countryNames := saveCountryOverrides [] db.countryNames }
    with hs
  have hcurrent : s.current = db := rfl
  have hselected : s.current.selected parsed.updatesByOrder = db.listed U fields rows :=
    selected_eq_listed hp he db
  have hperm := run.plan.perm (s.current.selected parsed.updatesByOrder)
  have hkeys : ∀ key, key ∈ run.plan.order (s.current.selected parsed.updatesByOrder) ↔
      key ∈ db.listed U fields rows := by
    intro key
    rw [hperm.mem_iff, hselected]
  have hnodup : (run.plan.order (s.current.selected parsed.updatesByOrder)).Nodup :=
    hperm.nodup_iff.mpr (db.headers.nodup.filter _)
  have hthere : ∀ key ∈ run.plan.order (s.current.selected parsed.updatesByOrder),
      (parsed.updatesByOrder.get? key.order.amazonOrderId).isSome = true ∧
          (s.current.headers.get? key).isSome = true := by
    intro key hkey
    obtain ⟨hmem, hlists⟩ := List.mem_filter.mp ((hkeys key).mp hkey)
    exact ⟨(parsed_isSome hp he _).mpr (of_decide_eq_true hlists).2,
      Option.isSome_iff_exists.mpr (Dict.mem_keys_iff.mp hmem)⟩
  split at h
  · cases (Prod.mk.inj h).1
  · cases (Prod.mk.inj h).1
  next s₁ hrows _ =>
    obtain ⟨hn, rfl⟩ := Prod.mk.inj h
    obtain ⟨hcount, happlied⟩ := applyMatchRows_ok (parsed_not_null hp he) hnodup hthere hrows
    refine ⟨he, happlied.matched hp he hnd hkeys, ?_⟩
    rw [← Except.ok.inj hn, hcount, hperm.length_eq, hselected, zero_add]

/-- No point of the run raises anything. -/
def MatchRun.Quiet (run : MatchRun) : Prop :=
  run.parsing = none ∧ run.saving = none ∧ run.selecting = none ∧
    (∀ done total, run.progress done total = none) ∧ run.committing = none

theorem applyParsedMatch_quiet {parsed : ParsedRows} (hp : GatheredFrom U fields ids E rows parsed)
    (he : parsed.errors = []) (hquiet : run.Quiet) (s : Session MatchDb) :
    ∃ n, (applyParsedMatch run parsed s).1 = .ok n := by
  obtain ⟨-, hsaving, hselecting, hprogress, hcommitting⟩ := hquiet
  unfold applyParsedMatch
  rw [if_neg (not_not.mpr he), hsaving, hselecting, hcommitting]
  simp only [hprogress]
  split
  next hrows => exact absurd hrows (applyMatchRows_quiet (parsed_not_null hp he) hprogress)
  next hsome => cases hsome
  next n _ _ _ => exact ⟨n, rfl⟩

/-- What the parser gathers. -/
theorem parseMatchWorkbook_ok {sheet : List (List JsonValue)} {read : MatchDb} {parsed : ParsedRows}
    (h : parseMatchWorkbook U fields sheet read.country = .ok parsed) : ∃ E,
      loadEuCountries U (read.euCountries.map .str) = .ok E ∧
      GatheredFrom U fields (read.country.orders.keys.map OrderKey.amazonOrderId) E
      (sheetRows sheet) parsed := by
  unfold parseMatchWorkbook at h
  simp only at h
  split_ifs at h
  obtain ⟨E, hE, rfl⟩ := Checked.map_ok h
  exact ⟨E, hE, gatheredFrom_foldl (sheetRows sheet)⟩

theorem parseMatchWorkbook_of_headOk {sheet : List (List JsonValue)} {read : MatchDb}
    (hhead : HeadOk U fields sheet) (hE : loadEuCountries U (read.euCountries.map .str) = .ok E) :
    ∃ parsed, parseMatchWorkbook U fields sheet read.country = .ok parsed := by
  obtain ⟨hlabels, hrest⟩ := hhead
  unfold parseMatchWorkbook
  simp only
  rw [if_neg]
  · exact ⟨_, congrArg (Except.map _) hE⟩
  · rw [not_or, not_not]
    constructor
    · simpa using hlabels
    · simpa using hrest

end Exact

/-- A run ends before its last session, or with it. -/
theorem orderInfoMatch_cases (U : CharTable) (lower : String → String) (run : MatchRun)
    (rawFields : List String) (sheet : List (List JsonValue)) (read db : MatchDb) :
    (∃ e, orderInfoMatch U lower run rawFields sheet read db = (.error e, db)) ∨
    ∃ fields parsed, parseRequestedFields U lower rawFields = .ok fields ∧
      parseMatchWorkbook U fields sheet read.country = .ok parsed ∧
      orderInfoMatch U lower run rawFields sheet read db =
        ((applyParsedMatch run parsed (Session.opened db)).1,
          (applyParsedMatch run parsed (Session.opened db)).2.stored) := by
  unfold orderInfoMatch
  cases hfields : parseRequestedFields U lower rawFields with
  | error e => exact Or.inl ⟨e, rfl⟩
  | ok fields =>
    cases hparsing : run.parsing with
    | some e => exact Or.inl ⟨e, rfl⟩
    | none =>
      cases hparsed : parseMatchWorkbook U fields sheet read.country with
      | error e => exact Or.inl ⟨e, by simp only [hparsed]⟩
      | ok parsed => exact Or.inr ⟨fields, parsed, rfl, hparsed, by simp only [hparsed]; rfl⟩

/-- **Matching order information is all or nothing, and exact.** If something is raised
nothing is stored, and a row in error raises. Otherwise the headers of the listed orders
have the values of their rows, nothing else has changed, and the count is that of these
headers; so it is if the sheet is right and no point of the run fails. -/
theorem orderInfoMatch_exact (U : CharTable) (lower : String → String) (run : MatchRun)
    (rawFields : List String) (sheet : List (List JsonValue)) (read db : MatchDb) :
    (∀ e, (orderInfoMatch U lower run rawFields sheet read db).1 = .error e →
      (orderInfoMatch U lower run rawFields sheet read db).2 = db) ∧
    (∀ fields E, parseRequestedFields U lower rawFields = .ok fields →
      loadEuCountries U (read.euCountries.map .str) = .ok E →
      AnyInError U fields read.orderIds E (sheetRows sheet) →
      ∃ e, (orderInfoMatch U lower run rawFields sheet read db).1 = .error e) ∧
    (∀ n, (orderInfoMatch U lower run rawFields sheet read db).1 = .ok n → ∃ fields E,
      parseRequestedFields U lower rawFields = .ok fields ∧
      loadEuCountries U (read.euCountries.map .str) = .ok E ∧
      ¬ AnyInError U fields read.orderIds E (sheetRows sheet) ∧
      MatchedExactly U fields E (sheetRows sheet) run db
      (orderInfoMatch U lower run rawFields sheet read db).2 ∧
      n = (db.listed U fields (sheetRows sheet)).length) ∧
    (∀ fields E, parseRequestedFields U lower rawFields = .ok fields →
      loadEuCountries U (read.euCountries.map .str) = .ok E → HeadOk U fields sheet →
      ¬ AnyInError U fields read.orderIds E (sheetRows sheet) → run.Quiet →
      ∃ n, (orderInfoMatch U lower run rawFields sheet read db).1 = .ok n) := by
  -- what a run that returns has done
  have hreturned : ∀ n, (orderInfoMatch U lower run rawFields sheet read db).1 = .ok n → ∃ fields E,
      parseRequestedFields U lower rawFields = .ok fields ∧
        loadEuCountries U (read.euCountries.map .str) = .ok E ∧
      ¬ AnyInError U fields read.orderIds E (sheetRows sheet) ∧
      MatchedExactly U fields E (sheetRows sheet) run db
        (orderInfoMatch U lower run rawFields sheet read db).2 ∧
      n = (db.listed U fields (sheetRows sheet)).length := by
    intro n hn
    obtain ⟨e, hrun⟩ | ⟨fields, parsed, hfields, hparsed, hrun⟩ :=
      orderInfoMatch_cases U lower run rawFields sheet read db
    · rw [hrun] at hn
      cases hn
    rw [hrun] at hn ⊢
    obtain ⟨E, hE, hp⟩ := parseMatchWorkbook_ok hparsed
    obtain ⟨he, hmatched, hcount⟩ :=
      applyParsedMatch_ok hp (nodup_parseRequestedFields U hfields) (Prod.ext hn rfl)
    refine ⟨fields, E, hfields, hE, ?_, hmatched, hcount⟩
    rw [← anyInError_congr fun id => mem_orderIds]
    exact hp.errors.mp he
  refine ⟨fun e he => ?_, fun fields E hfields hE hbad => ?_, hreturned,
    fun fields E hfields hE hhead hgood hquiet => ?_⟩
  · obtain ⟨e', hrun⟩ | ⟨fields, parsed, -, -, hrun⟩ :=
      orderInfoMatch_cases U lower run rawFields sheet read db
    · rw [hrun]
    · rw [hrun] at he ⊢
      exact stored_applyParsedMatch (Prod.ext he rfl)
  · cases hresult : (orderInfoMatch U lower run rawFields sheet read db).1 with
    | error e => exact ⟨e, rfl⟩
    | ok n =>
      obtain ⟨fields', E', hfields', hE', hgood, -⟩ := hreturned n hresult
      rw [hfields] at hfields'
      rw [hE] at hE'
      cases hfields'
      cases hE'
      exact absurd hbad hgood
  · obtain ⟨parsed, hparsed⟩ := parseMatchWorkbook_of_headOk hhead hE
    obtain ⟨E', hE', hp⟩ := parseMatchWorkbook_ok hparsed
    rw [hE] at hE'
    cases hE'
    have he : parsed.errors = [] := by
      rw [hp.errors, anyInError_congr fun id => mem_orderIds]
      exact hgood
    unfold orderInfoMatch
    rw [hfields, hquiet.1]
    simp only [hparsed]
    exact applyParsedMatch_quiet hp he hquiet (Session.opened db)

/-- One order of two packages, and the same order of another source. -/
def matchDb : MatchDb :=
  { headers := Dict.ofList
      [(⟨⟨"S", "A-1", "P1"⟩, orderSourcePackage⟩,
        ⟨⟨1, "FR", none, "M", none, 0, 0, false⟩, none, none, none⟩),
        (⟨⟨"S", "A-1", "P2"⟩, orderSourcePackage⟩,
        ⟨⟨2, "FR", none, "M", none, 0, 0, false⟩, none, none, some ["postal_code"]⟩),
        (⟨⟨"S", "A-1", ""⟩, "亚马逊"⟩, ⟨⟨3, "FR", none, "M", none, 0, 0, false⟩, none, none, none⟩)]
    countryNames := .empty
    euCountries := ["DE"] }

def matchSheet : List (List JsonValue) :=
  [[.str "订单号", .str "国家", .str "邮编"], [.str " A-1 ", .str "de", .null], [.null, .str " ", .null]]

def matchRun : MatchRun := ⟨7, fun _ => 100, .identity, none, none, none, fun _ _ => none, none⟩

theorem orderInfoMatch_two_packages :
    let result := orderInfoMatch .ascii (fun text => String.ofList (text.toList.map Char.toLower)) matchRun
      ["countryCode,邮编"] matchSheet matchDb matchDb
    result.1 = .ok 2 ∧ MatchedExactly .ascii [.countryCode, .postalCode] ["DE"] (sheetRows matchSheet) matchRun matchDb result.2 := by
  have hfields : parseRequestedFields .ascii
      (fun text => String.ofList (text.toList.map Char.toLower))
      ["countryCode,邮编"] = .ok [.countryCode, .postalCode] := by decide +kernel
  have hE : loadEuCountries .ascii (matchDb.euCountries.map .str) = .ok ["DE"] := by decide +kernel
  have hgood : ¬ AnyInError .ascii [.countryCode, .postalCode] matchDb.orderIds ["DE"]
      (sheetRows matchSheet) :=
    (gatheredFrom_foldl (sheetRows matchSheet)).errors.mp (by decide +kernel)
  have h := orderInfoMatch_exact .ascii (fun text => String.ofList (text.toList.map Char.toLower))
    matchRun ["countryCode,邮编"]
    matchSheet matchDb matchDb
  obtain ⟨n, hn⟩ := h.2.2.2 _ _ hfields hE ⟨by decide +kernel, by decide +kernel⟩ hgood
    ⟨rfl, rfl, rfl, fun _ _ => rfl, rfl⟩
  obtain ⟨fields, E, hfields', hE', -, hmatched, hcount⟩ := h.2.2.1 n hn
  rw [hfields] at hfields'
  rw [hE] at hE'
  cases hfields'
  cases hE'
  have hlength : (matchDb.listed .ascii [.countryCode, .postalCode] (sheetRows matchSheet)).length =
    2 := by decide +kernel
  exact ⟨by rw [hn, hcount, hlength], hmatched⟩

end Restock
