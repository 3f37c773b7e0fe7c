/-
# The EU mapping (`core/country_mapping.py`)

Orders, inventory and in-transit rows keep a country and, when the country was
merged into `EU`, the original. A source country has one representation under a
member set (`represent`): `EU` with the original kept, or the country itself
with no original. The mapping exists twice in the program, in Python
(`applyEuMapping`) and as an SQL expression in the backfill (`backfillCols`).
On a normalised source both are the representation (`applyEuMapping_canonical`,
`backfillCols_represent`), and the backfill recovers the source from whatever
member set was in force before.
-/
import Restock.Countries

namespace Restock

open PyText

/-- The country of a row and the country before the EU merge. -/
structure CountryCols where
  country : Option String
  original : Option String
deriving DecidableEq, Repr

/-! ### What a row should hold -/

/-- The columns of a source country under the members `E`. -/
def represent (E : List String) (c : String) : CountryCols :=
  if c ∈ E then ⟨some "EU", some c⟩ else ⟨some c, none⟩

/-- `coalesce(original, country)`. -/
def CountryCols.source (cols : CountryCols) : Option String := cols.original.or cols.country

@[simp] theorem source_represent (E : List String) (c : String) :
    (represent E c).source = some c := by
  unfold represent
  split_ifs <;> rfl

/-! ### The mapping in Python -/

section Python

variable (U : CharTable)

def applyEuMapping (country : Option String) (euCountries : List String) : Option String :=
  match country with
  | none => none
  | some country =>
    if country = "EU" then some "EU"
    else
      let normalizedCountry := (normalizeObservedCountryCode U (.str country)).getD country
      if normalizedCountry ∈ euCountries then some "EU" else some normalizedCountry

/-- `load_eu_countries`, on the list kept in the configuration. -/
def loadEuCountries (values : List JsonValue) : Except String (List String) :=
  normalizeCountryListForEuMembers U (some values)

variable {U}

theorem EuMembers.EU_not_mem {E : List String} (hE : EuMembers U E) : "EU" ∉ E :=
  fun h => hE.not_special "EU" h (by decide)

/-- A text that the mapping in Python compares as it stands. -/
def PyCanonical (U : CharTable) (c : String) :
    Prop := (normalizeObservedCountryCode U (.str c)).getD c = c

theorem IsNormalized.pyCanonical {c : String} (h : IsNormalized U c) : PyCanonical U c := by
  have hn : normalizeObservedCountryCode U (.str c) = some c := h
  rw [PyCanonical, hn, Option.getD_some]

/-- The country column of the representation. -/
theorem applyEuMapping_canonical {E : List String} (hE : EuMembers U E) {c : String}
    (hc : PyCanonical U c) : applyEuMapping U (some c) E = (represent E c).country := by
  unfold applyEuMapping represent
  by_cases hEU : c = "EU"
  · subst hEU
    simp [hE.EU_not_mem]
  · rw [PyCanonical] at hc
    simp only [hEU, if_false, hc]
    split_ifs <;> rfl

/-- A writer that keeps the source as the original whenever the mapping changed
it writes the representation. -/
theorem original_canonical {E : List String} (hE : EuMembers U E) {c : String}
    (hc : PyCanonical U c) :
    (if applyEuMapping U (some c) E ≠ some c then some c else none) = (represent E c).original := by
  rw [applyEuMapping_canonical hE hc]
  unfold represent
  split_ifs with h1 h2 h2
  · rfl
  · exact absurd (Option.some.inj (not_not.mp h2) ▸ h1) hE.EU_not_mem
  · exact absurd rfl h2
  · rfl

end Python

/-! ### The mapping in SQL -/

/-- The database's `upper`, character by character. A character that Python's
`upper` leaves alone is one the database leaves alone. -/
structure Collation (U : CharTable) where
  upper : Char → Char
  upper_fixed : ∀ c, U.upper c = [c] → upper c = c

/-- Upper-casing of ASCII only. -/
def Collation.ascii : Collation CharTable.ascii where
  upper c := c.toUpper
  upper_fixed _ h := List.singleton_inj.mp h

variable {U : CharTable} (C : Collation U)

/-- `upper(trim(s))`: SQL trims spaces and no other white space. -/
def sqlUpperTrim (s : String) : String :=
  String.ofList (((s.toList.dropWhile (· == ' ')).rdropWhile (· == ' ')).map C.upper)

def normalizedCountryExpr (source : String) : String := applyAlias (sqlUpperTrim C source)

/-- A row's columns after the update of `_backfill_eu_mapping_for_columns` for
an accepted member set; `extra` is the order table's `marketplace_id`. -/
def backfillCols (members : List String) (cols : CountryCols) (extra : Option String) :
    CountryCols × Option String :=
  match cols.source with
  | none => (cols, extra)
  | some source =>
    let normalizedSourceCountry := normalizedCountryExpr C source
    let isEuCountry := normalizedSourceCountry ∈ members
    let mappedCountry := if isEuCountry then "EU" else normalizedSourceCountry
    let mappedOriginalCountry := if isEuCountry then some normalizedSourceCountry else none
    let mappedExtra := extra.map fun _ => mappedCountry
    -- the where clauses: a source that is not the empty text, and some column that would change
    if source ≠ "" ∧
        (cols.country ≠ some mappedCountry ∨ cols.original ≠ mappedOriginalCountry ∨
            extra ≠ mappedExtra) then
      (⟨some mappedCountry, mappedOriginalCountry⟩, mappedExtra)
    else (cols, extra)

/-- The where clause only skips updates that would change nothing. -/
theorem backfillCols_eq (members : List String) {cols : CountryCols} {source : String}
    (extra : Option String) (hs : cols.source = some source) (hne : source ≠ "") :
    backfillCols C members cols extra = (represent members (normalizedCountryExpr C source),
      extra.map fun _ => if normalizedCountryExpr C source ∈ members then "EU"
        else normalizedCountryExpr C source) := by
  simp only [backfillCols, hs, represent, ne_eq, hne, not_false_eq_true, true_and]
  by_cases hm : normalizedCountryExpr C source ∈ members <;> simp only [hm, if_true, if_false] <;>
    split_ifs with h1
  · rfl
  · simp only [not_or, not_not] at h1
    rw [← h1.1, ← h1.2.1, ← h1.2.2]
  · rfl
  · simp only [not_or, not_not] at h1
    rw [← h1.1, ← h1.2.1, ← h1.2.2]

theorem backfillCols_none (members : List String) {cols : CountryCols} (extra : Option String)
    (hs : cols.source = none) : backfillCols C members cols extra = (cols, extra) := by
  simp only [backfillCols, hs]

/-! ### Both mappings are the representation -/

theorem isSpace_space : U.isSpace ' ' = true := by
  rw [U.isSpace_ascii ' ' (by decide)]
  decide

/-- The characters of a normalised code are their own upper case and no spaces. -/
theorem IsNormalized.chars {c : String} (h : IsNormalized U c) :
    ∀ ch ∈ c.toList, U.upper ch = [ch] ∧ ch ≠ ' ' := by
  obtain ⟨hup, -, halpha, -⟩ := h.facts
  intro ch hch
  refine ⟨upper_of_mem_upper (s := strip U c) (by rw [hup]; exact hch), ?_⟩
  rintro rfl
  simp only [isAlpha, Bool.and_eq_true, List.all_eq_true] at halpha
  exact absurd (U.alpha_not_space ' ' (halpha.2 ' ' hch)) (by rw [isSpace_space]; decide)

theorem sqlUpperTrim_normalized {c : String} (h : IsNormalized U c) : sqlUpperTrim C c = c := by
  have h1 : c.toList.dropWhile (· == ' ') = c.toList := by
    cases hl : c.toList with
    | nil => rfl
    | cons d l =>
      have hd := (h.chars d (by simp [hl])).2
      simp [hd]
  have h2 : c.toList.rdropWhile (· == ' ') = c.toList :=
    List.rdropWhile_eq_self_iff.mpr fun hl => by simpa using (h.chars _ (List.getLast_mem hl)).2
  have h3 : c.toList.map C.upper = c.toList := by
    conv_rhs => rw [← List.map_id c.toList]
    exact List.map_congr_left fun ch hch => C.upper_fixed ch (h.chars ch hch).1
  rw [sqlUpperTrim, h1, h2, h3, String.ofList_toList]

/-- The SQL expression leaves a normalised code as it is. -/
theorem normalizedCountryExpr_normalized {c : String} (h : IsNormalized U c) :
    normalizedCountryExpr C c = c := by
  rw [normalizedCountryExpr, sqlUpperTrim_normalized C h, h.facts.2.2.2]

theorem IsNormalized.ne_empty {c : String} (h : IsNormalized U c) : c ≠ "" := by
  rintro rfl
  exact absurd h.facts.2.1 (by decide)

/-- **The backfill forgets the earlier member set**: it turns the representation
of a source country under one member set into the one under another. -/
theorem backfillCols_represent {c : String} (hne : c ≠ "") (hc : normalizedCountryExpr C c = c)
    (E E' : List String) (extra : Option String) : backfillCols C E' (represent E c) extra =
      (represent E' c, extra.map fun _ => if c ∈ E' then "EU" else c) := by
  have := backfillCols_eq C E' extra (source_represent E c) hne
  rwa [hc] at this

end Restock
