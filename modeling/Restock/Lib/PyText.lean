/-
# Text and JSON values as Python reads them

`str.strip`, `str.upper` and `str.isalpha` read the Unicode tables. The tables
are a parameter, a `CharTable`, with the facts about them that are documented:
their values on ASCII, that upper-casing is idempotent and never empty, that
it makes no white space, and that a letter is no white space. `CharTable.ascii`
is the smallest such table.

A stripped text has no white space at its ends, and upper-casing keeps it so
(`strip_upper_strip`).
-/
import Mathlib

namespace PyText

/-- The ASCII white space of `str.strip`. -/
def asciiSpaces : List Char :=
  [' ', '\t', '\n', '\x0b', '\x0c', '\r', '\x1c', '\x1d', '\x1e', '\x1f']

/-- The Unicode tables behind `str.upper`, `str.isalpha`, `str.strip` and `\d`. -/
structure CharTable where
  upper : Char → List Char
  isAlpha : Char → Bool
  isSpace : Char → Bool
  isDecimal : Char → Bool
  upper_upper : ∀ c, ∀ d ∈ upper c, upper d = [d]
  upper_ne_nil : ∀ c, upper c ≠ []
  upper_not_space : ∀ c, isSpace c = false → ∀ d ∈ upper c, isSpace d = false
  alpha_not_space : ∀ c, isAlpha c = true → isSpace c = false
  upper_ascii : ∀ c, c.toNat < 128 → upper c = [c.toUpper]
  isAlpha_ascii : ∀ c, c.toNat < 128 → isAlpha c = c.isAlpha
  isSpace_ascii : ∀ c, c.toNat < 128 → isSpace c = decide (c ∈ asciiSpaces)
  isDecimal_ascii : ∀ c, c.toNat < 128 → isDecimal c = c.isDigit

/-! ### ASCII -/

theorem toNat_toUpper (c : Char) :
    c.toUpper.toNat = if 97 ≤ c.toNat ∧ c.toNat ≤ 122 then c.toNat - 32 else c.toNat := by
  have h97 : 'a'.val.toNat = 97 := by decide
  have h122 : 'z'.val.toNat = 122 := by decide
  have hc : c.toNat = c.val.toNat := rfl
  unfold Char.toUpper
  by_cases h : 'a'.val ≤ c.val ∧ c.val ≤ 'z'.val
  · rw [dif_pos h]
    simp only [UInt32.le_iff_toNat_le] at h
    rw [if_pos (by omega)]
    show (c.val + ('A'.val - 'a'.val)).toNat = _
    rw [UInt32.toNat_add]
    have : ('A'.val - 'a'.val).toNat = 2 ^ 32 - 32 := by decide
    omega
  · rw [dif_neg h, if_neg]
    simp only [UInt32.le_iff_toNat_le] at h
    omega

theorem toUpper_toUpper (c : Char) : c.toUpper.toUpper = c.toUpper := by
  rw [← Char.toNat_inj, toNat_toUpper c.toUpper, if_neg]
  rw [toNat_toUpper]
  split_ifs <;> omega

theorem not_alpha_of_mem_asciiSpaces {c : Char} (h : c ∈ asciiSpaces) : c.isAlpha = false := by
  have hall : (asciiSpaces.all fun c => !c.isAlpha) = true := by decide
  simpa using List.all_eq_true.mp hall c h

/-- Upper-casing makes no white space: white space has no lower-case letter
32 above it. -/
theorem toUpper_mem_asciiSpaces {c : Char} (h : c.toUpper ∈ asciiSpaces) : c ∈ asciiSpaces := by
  have hall : (asciiSpaces.all fun d => decide (d.toNat ≤ 32)) = true := by decide
  have h1 : c.toUpper.toNat ≤ 32 := by simpa using List.all_eq_true.mp hall _ h
  rw [toNat_toUpper] at h1
  have h2 : c.toUpper = c := by
    rw [← Char.toNat_inj, toNat_toUpper, if_neg]
    split_ifs at h1 <;> omega
  rwa [h2] at h

/-- The tables cut down to ASCII: other characters are neither letters nor
white space and stay as they are. -/
def CharTable.ascii : CharTable where
  upper c := [c.toUpper]
  isAlpha c := c.isAlpha
  isSpace c := decide (c ∈ asciiSpaces)
  isDecimal c := c.isDigit
  upper_upper c d hd := by rw [List.mem_singleton.mp hd, toUpper_toUpper]
  upper_ne_nil c := by simp
  upper_not_space c h d hd := by
    rw [decide_eq_false_iff_not] at h ⊢
    rw [List.mem_singleton.mp hd]
    exact fun hm => h (toUpper_mem_asciiSpaces hm)
  alpha_not_space c h := by
    rw [decide_eq_false_iff_not]
    intro hm
    rw [not_alpha_of_mem_asciiSpaces hm] at h
    exact absurd h (by decide)
  upper_ascii _ _ := rfl
  isAlpha_ascii _ _ := rfl
  isSpace_ascii _ _ := rfl
  isDecimal_ascii _ _ := rfl

/-! ### `strip`, `upper`, `isalpha` -/

variable (U : CharTable)

/-- `s.strip()`. -/
def strip (s : String) :
    String := String.ofList ((s.toList.dropWhile U.isSpace).rdropWhile U.isSpace)

/-- `s.upper()`. -/
def upper (s : String) : String := String.ofList (s.toList.flatMap U.upper)

/-- `s.isalpha()`. -/
def isAlpha (s : String) : Bool := !s.toList.isEmpty && s.toList.all U.isAlpha

/-- No white space at either end. -/
def Trimmed (l : List Char) : Prop :=
  (∀ h : l ≠ [], U.isSpace (l.head h) = false) ∧ ∀ h : l ≠ [], U.isSpace (l.getLast h) = false

variable {U}

theorem strip_eq_self {s : String} (h : Trimmed U s.toList) : strip U s = s := by
  have h1 : s.toList.dropWhile U.isSpace = s.toList := by
    cases hl : s.toList with
    | nil => rfl
    | cons c l =>
      have := h.1 (by simp [hl])
      simp only [hl, List.head_cons] at this
      rw [List.dropWhile_cons, this]
      rfl
  have h2 : s.toList.rdropWhile U.isSpace = s.toList :=
    List.rdropWhile_eq_self_iff.mpr fun hl => by rw [h.2 hl]; decide
  rw [strip, h1, h2, String.ofList_toList]

/-- Letters have no white space at their ends. -/
theorem trimmed_of_isAlpha {s : String} (h : isAlpha U s = true) : Trimmed U s.toList := by
  simp only [isAlpha, Bool.and_eq_true, List.all_eq_true] at h
  exact ⟨fun hl => U.alpha_not_space _ (h.2 _ (List.head_mem hl)),
    fun hl => U.alpha_not_space _ (h.2 _ (List.getLast_mem hl))⟩

theorem head_eq_of_start {l r : List Char} (h : r <+: l) (hr : r ≠ []) (hl : l ≠ []) :
    r.head hr = l.head hl := by
  obtain ⟨t, rfl⟩ := h
  exact (List.head_append_of_ne_nil hr).symm

theorem trimmed_strip (s : String) : Trimmed U (strip U s).toList := by
  rw [strip, String.toList_ofList]
  have hpre := List.rdropWhile_prefix U.isSpace (s.toList.dropWhile U.isSpace)
  refine ⟨fun hne => ?_, fun hne => ?_⟩
  · have hne' : s.toList.dropWhile U.isSpace ≠ [] := fun h0 => hne (by rw [h0]; rfl)
    rw [head_eq_of_start hpre hne hne']
    simpa using List.head_dropWhile_not U.isSpace (l := s.toList) hne'
  · simpa using List.rdropWhile_last_not U.isSpace _ hne

/-- Stripping twice is stripping once. -/
theorem strip_strip (s : String) :
    strip U (strip U s) = strip U s := strip_eq_self (trimmed_strip s)

theorem length_strip_le (s : String) : (strip U s).length ≤ s.length := by
  have hright := (List.rdropWhile_prefix U.isSpace (s.toList.dropWhile U.isSpace)).length_le
  have hleft := (List.dropWhile_suffix U.isSpace (l := s.toList)).length_le
  have hlength : (strip U s).length =
      ((s.toList.dropWhile U.isSpace).rdropWhile U.isSpace).length := by
    rw [← String.length_toList, strip, String.toList_ofList]
  rw [hlength, ← String.length_toList]
  omega

theorem trimmed_flatMap_upper {l : List Char} (h : Trimmed U l) :
    Trimmed U (l.flatMap U.upper) := by
  rcases List.eq_nil_or_concat l with rfl | ⟨l', c, hc⟩
  · exact ⟨fun hl => absurd rfl hl, fun hl => absurd rfl hl⟩
  · have hne : l ≠ [] := by rw [hc]; simp
    obtain ⟨d, t, hd⟩ := List.exists_cons_of_ne_nil hne
    refine ⟨fun hl => ?_, fun hl => ?_⟩
    · have h1 := h.1 hne
      simp only [hd, List.head_cons] at h1
      have : (l.flatMap U.upper).head hl = (U.upper d).head (U.upper_ne_nil d) := by
        simp only [hd, List.flatMap_cons, List.head_append_of_ne_nil (U.upper_ne_nil d)]
      rw [this]
      exact U.upper_not_space d h1 _ (List.head_mem _)
    · have h1 := h.2 hne
      simp only [hc, List.concat_eq_append, List.getLast_append_singleton] at h1
      have : (l.flatMap U.upper).getLast hl = (U.upper c).getLast (U.upper_ne_nil c) := by
        simp only [hc, List.concat_eq_append, List.flatMap_append, List.flatMap_singleton,
          List.getLast_append_of_ne_nil _ (U.upper_ne_nil c)]
      rw [this]
      exact U.upper_not_space c h1 _ (List.getLast_mem _)

/-- Stripping again after upper-casing a stripped text changes nothing. -/
theorem strip_upper_strip (s : String) : strip U (upper U (strip U s)) = upper U (strip U s) := by
  refine strip_eq_self ?_
  rw [upper, String.toList_ofList]
  exact trimmed_flatMap_upper (trimmed_strip s)

/-- A text of upper-case characters is its own `upper`. -/
theorem upper_eq_self {s : String} (h : ∀ c ∈ s.toList, U.upper c = [c]) : upper U s = s := by
  have hf : ∀ l : List Char, (∀ c ∈ l, U.upper c = [c]) → l.flatMap U.upper = l := by
    intro l hl
    induction l with
    | nil => rfl
    | cons c l ih =>
      rw [List.flatMap_cons, hl c List.mem_cons_self,
        ih fun d hd => hl d (List.mem_cons_of_mem _ hd)]
      rfl
  rw [upper, hf _ h, String.ofList_toList]

theorem upper_of_mem_upper {s : String} {c : Char} (h : c ∈ (upper U s).toList) :
    U.upper c = [c] := by
  rw [upper, String.toList_ofList, List.mem_flatMap] at h
  obtain ⟨d, -, hd⟩ := h
  exact U.upper_upper d c hd

/-- Upper-casing twice is upper-casing once. -/
theorem upper_upper (s : String) : upper U (upper U s) = upper U s :=
  upper_eq_self fun _ hc => upper_of_mem_upper hc

/-- An ASCII capital, as the tables see it. -/
theorem capital_spec {c : Char} (h : c.isUpper = true) : U.upper c = [c] ∧ U.isAlpha c = true := by
  have hr : 65 ≤ c.toNat ∧ c.toNat ≤ 90 := by
    simp only [Char.isUpper, decide_eq_true_eq, UInt32.le_iff_toNat_le] at h
    exact h
  constructor
  · rw [U.upper_ascii c (by omega)]
    congr 1
    rw [← Char.toNat_inj, toNat_toUpper, if_neg (by omega)]
  · rw [U.isAlpha_ascii c (by omega)]
    simp [Char.isAlpha, h]

/-! ### Decoded JSON -/

/-- A decoded JSON value. Numbers, lists and objects are kept by what Python's
`str` prints and by whether they are falsy. -/
inductive JsonValue where
  | null
  | bool (b : Bool)
  | num (isZero : Bool) (text : String)
  | str (s : String)
  | compound (isEmpty : Bool) (text : String)
deriving DecidableEq, Repr

/-- `bool(value)`. -/
def JsonValue.truthy : JsonValue → Bool
  | .null => false
  | .bool b => b
  | .num isZero _ => !isZero
  | .str s => s != ""
  | .compound isEmpty _ => !isEmpty

/-- `str(value)`. -/
def JsonValue.toText : JsonValue → String
  | .null => "None"
  | .bool b => if b then "True" else "False"
  | .num _ text => text
  | .str s => s
  | .compound _ text => text

/-- `value or other`. -/
def JsonValue.or (value other : JsonValue) : JsonValue := if value.truthy then value else other

/-- `str(value or "")`. -/
def JsonValue.textOrEmpty (v : JsonValue) : String := if v.truthy then v.toText else ""

/-- `int(x)` of a finite number. -/
def truncate (value : ℚ) : ℤ := if 0 ≤ value then ⌊value⌋ else ⌈value⌉

/-- `text or None`. -/
def nonEmpty (text : String) : Option String := if text = "" then none else some text

@[simp] theorem JsonValue.textOrEmpty_str (s : String) : (JsonValue.str s).textOrEmpty = s := by
  by_cases h : s = "" <;> simp [textOrEmpty, truthy, toText, h]

end PyText
