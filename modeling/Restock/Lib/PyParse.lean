/-
# What Python reads in a text

`str.lower` and `int(text)` read two more Unicode tables, the lower-case letters and the
values of the decimal digits (`ReadTable`). `int` takes a sign and decimal digits, with
single underscores between them; it refuses everything else, and more digits than the
interpreter's limit. What `str` writes for a natural number `int` reads back
(`readInt_repr`).
-/
import Restock.Lib.PyText

namespace PyText

/-- A Chinese character of the basic block. -/
def isHan (c : Char) : Bool := 0x4E00 ≤ c.toNat && c.toNat ≤ 0x9FFF

/-- The tables behind `str.lower` and `int`: lower-casing is that of ASCII on ASCII, and
Chinese characters have no case; they are no white space either. -/
structure ReadTable extends CharTable where
  lower : String → String
  digit : Char → ℕ
  lower_ascii : ∀ s, (∀ c ∈ s.toList, c.toNat < 128) →
    lower s = String.ofList (s.toList.map Char.toLower)
  lower_han : ∀ s, (∀ c ∈ s.toList, isHan c = true) → lower s = s
  digit_ascii : ∀ c, c.isDigit = true → digit c = c.toNat - 48
  isSpace_han : ∀ c, isHan c = true → isSpace c = false

theorem toNat_of_isHan {c : Char} (h : isHan c = true) : 0x4E00 ≤ c.toNat := by
  rw [isHan, Bool.and_eq_true] at h
  exact of_decide_eq_true h.1

theorem toNat_of_mem_asciiSpaces {c : Char} (h : c ∈ asciiSpaces) : c.toNat ≤ 32 := by
  have hall : (asciiSpaces.all fun d => decide (d.toNat ≤ 32)) = true := by decide
  simpa using List.all_eq_true.mp hall _ h

theorem toLower_of_not_ascii {c : Char} (h : 128 ≤ c.toNat) : c.toLower = c := by
  have hZ : 'Z'.val.toNat = 90 := by decide
  have hc : c.toNat = c.val.toNat := rfl
  unfold Char.toLower
  rw [dif_neg]
  rintro ⟨-, hle⟩
  rw [UInt32.le_iff_toNat_le] at hle
  omega

/-- The tables cut down to ASCII. -/
def ReadTable.ascii : ReadTable where
  toCharTable := .ascii
  lower s := String.ofList (s.toList.map Char.toLower)
  digit c := c.toNat - 48
  lower_ascii _ _ := rfl
  lower_han s h := by
    have hmap : s.toList.map Char.toLower = s.toList := by
      conv_rhs => rw [← List.map_id s.toList]
      refine List.map_congr_left fun c hc => toLower_of_not_ascii ?_
      have hhan := toNat_of_isHan (h c hc)
      omega
    rw [hmap, String.ofList_toList]
  digit_ascii _ _ := rfl
  isSpace_han c h := by
    have hhan := toNat_of_isHan h
    refine decide_eq_false fun hm => ?_
    have hspace := toNat_of_mem_asciiSpaces hm
    omega

variable (U : ReadTable)

/-- The limit on the digits of an `int` in a text. -/
def maxStrDigits : ℕ := 4300

/-- Decimal digits, with single underscores between them. -/
def readDigitGroups (l : List Char) : Option ℕ :=
  if ((l.splitOn '_').all fun group => !group.isEmpty && group.all U.isDecimal) ∧
      (l.filter (· ≠ '_')).length ≤ maxStrDigits then
    some ((l.filter (· ≠ '_')).foldl (fun n c => 10 * n + U.digit c) 0)
  else none

/-- `int(text)`, `none` where it refuses the text. -/
def readInt (text : String) : Option ℤ :=
  match (strip U.toCharTable text).toList with
  | '-' :: l => (readDigitGroups U l).map fun n => -(n : ℤ)
  | '+' :: l => (readDigitGroups U l).map fun n => (n : ℤ)
  | l => (readDigitGroups U l).map fun n => (n : ℤ)

/-- The number that digits denote, with no limit. -/
def denotedDigits (l : List Char) : Option ℕ :=
  if (l.splitOn '_').all fun group => !group.isEmpty && group.all U.isDecimal then
    some ((l.filter (· ≠ '_')).foldl (fun n c => 10 * n + U.digit c) 0)
  else none

/-- The integer that a text denotes, with no limit on its digits. -/
def denotedInt (text : String) : Option ℤ :=
  match (strip U.toCharTable text).toList with
  | '-' :: l => (denotedDigits U l).map fun n => -(n : ℤ)
  | '+' :: l => (denotedDigits U l).map fun n => (n : ℤ)
  | l => (denotedDigits U l).map fun n => (n : ℤ)

/-- The digits of a text after its sign. -/
def unsignedDigits (text : String) : List Char :=
  match (strip U.toCharTable text).toList with
  | '-' :: l => l.filter (· ≠ '_')
  | '+' :: l => l.filter (· ≠ '_')
  | l => l.filter (· ≠ '_')

/-- A text with more digits than `int` reads. -/
def Overlong (text : String) : Prop := maxStrDigits < (unsignedDigits U text).length

variable {U}

theorem readDigitGroups_eq (l : List Char) : readDigitGroups U l =
    if (l.filter (· ≠ '_')).length ≤ maxStrDigits then denotedDigits U l else none := by
  unfold readDigitGroups denotedDigits
  by_cases hlength : (l.filter (· ≠ '_')).length ≤ maxStrDigits
  · simp only [hlength, and_true, if_true]
  · simp only [hlength, and_false, if_false]

/-- `int` reads what a text denotes unless the text is too long. -/
theorem readInt_eq_some_iff {text : String} {n : ℤ} :
    readInt U text = some n ↔ denotedInt U text = some n ∧ ¬ Overlong U text := by
  have hread : (Overlong U text → readInt U text = none) ∧
      (¬ Overlong U text → readInt U text = denotedInt U text) := by
    unfold readInt denotedInt Overlong unsignedDigits
    split
    all_goals
      rw [readDigitGroups_eq]
      refine ⟨fun h => ?_, fun h => ?_⟩
      · rw [if_neg (by omega)]
        rfl
      · rw [if_pos (by omega)]
  by_cases h : Overlong U text
  · simp [hread.1 h, h]
  · simp [hread.2 h, h]

/-! ### Plain texts -/

/-- Chinese characters and ASCII that is not white space. -/
def isPlain (c : Char) : Bool := isHan c || (decide (c.toNat < 128) && decide (c ∉ asciiSpaces))

theorem isSpace_of_isPlain {c : Char} (h : isPlain c = true) : U.isSpace c = false := by
  rw [isPlain, Bool.or_eq_true, Bool.and_eq_true, decide_eq_true_eq, decide_eq_true_eq] at h
  rcases h with hhan | ⟨hascii, hout⟩
  · exact U.isSpace_han c hhan
  · rw [U.isSpace_ascii c hascii, decide_eq_false hout]

theorem strip_of_isPlain {s : String} (h : s.toList.all isPlain = true) :
    strip U.toCharTable s = s := by
  have hall : ∀ c ∈ s.toList, U.isSpace c = false :=
    fun c hc => isSpace_of_isPlain (List.all_eq_true.mp h c hc)
  exact strip_eq_self ⟨fun hl => hall _ (List.head_mem hl), fun hl => hall _ (List.getLast_mem hl)⟩

/-! ### Decimal numbers -/

theorem toNat_of_isDigit {c : Char} (h : c.isDigit = true) : 48 ≤ c.toNat ∧ c.toNat ≤ 57 := by
  have h0 : '0'.val.toNat = 48 := by decide
  have h9 : '9'.val.toNat = 57 := by decide
  have hc : c.toNat = c.val.toNat := rfl
  rw [Char.isDigit, Bool.and_eq_true, decide_eq_true_eq, decide_eq_true_eq, ge_iff_le,
    UInt32.le_iff_toNat_le, UInt32.le_iff_toNat_le] at h
  omega

theorem isPlain_of_isDigit {c : Char} (h : c.isDigit = true) : isPlain c = true := by
  have hrange := toNat_of_isDigit h
  have hout : c ∉ asciiSpaces := by
    intro hm
    have hspace := toNat_of_mem_asciiSpaces hm
    omega
  have hascii : c.toNat < 128 := by omega
  rw [isPlain, decide_eq_true hascii, decide_eq_true hout, Bool.and_self, Bool.or_true]

theorem isDigit_of_mem_repr {n : ℕ} {c : Char} (h : c ∈ n.repr.toList) : c.isDigit = true := by
  rw [Nat.toList_repr] at h
  exact Nat.isDigit_of_mem_toDigits (by decide) (by decide) h

theorem strip_repr (n : ℕ) : strip U.toCharTable n.repr = n.repr :=
  strip_of_isPlain (List.all_eq_true.mpr fun _ hc => isPlain_of_isDigit (isDigit_of_mem_repr hc))

theorem readDigitGroups_repr {n : ℕ} (h : n < 10 ^ maxStrDigits) :
    readDigitGroups U n.repr.toList = some n := by
  have hdigit : ∀ c ∈ n.repr.toList, c.isDigit = true := fun c hc => isDigit_of_mem_repr hc
  have hscore : ∀ c ∈ n.repr.toList, c ≠ '_' := by
    intro c hc he
    subst he
    exact absurd (hdigit _ hc) (by decide)
  have hsplit : n.repr.toList.splitOn '_' = [n.repr.toList] :=
    List.splitOnP_eq_singleton fun c hc => by simpa using hscore c hc
  have hfilter : n.repr.toList.filter (· ≠ '_') = n.repr.toList :=
    List.filter_eq_self.mpr fun c hc => decide_eq_true (hscore c hc)
  have hne : n.repr.toList.isEmpty = false := by
    rw [Nat.toList_repr, List.isEmpty_eq_false_iff]
    exact Nat.toDigits_ne_nil
  have hdecimal : n.repr.toList.all U.isDecimal = true := by
    refine List.all_eq_true.mpr fun c hc => ?_
    have hrange := toNat_of_isDigit (hdigit c hc)
    rw [U.isDecimal_ascii c (by omega), hdigit c hc]
  have hlength : n.repr.toList.length ≤ maxStrDigits := by
    rw [String.length_toList]
    exact (Nat.length_repr_le_iff (by decide)).mpr h
  have hvalue : n.repr.toList.foldl (fun n c => 10 * n + U.digit c) 0 = n := by
    rw [List.foldl_ext _ (fun n c => 10 * n + (c.toNat - '0'.toNat)) 0 fun m c hc => by
      rw [U.digit_ascii c (hdigit c hc)]; rfl]
    rw [← Nat.ofDigitChars_eq_foldl, Nat.toList_repr, Nat.ofDigitChars_ten_toDigits]
  unfold readDigitGroups
  rw [hsplit, hfilter, if_pos, hvalue]
  refine ⟨?_, hlength⟩
  rw [List.all_cons, hne, hdecimal]
  rfl

/-- **`int(str(n))` is `n`.** -/
theorem readInt_repr {n : ℕ} (h : n < 10 ^ maxStrDigits) : readInt U n.repr = some (n : ℤ) := by
  have hgroups := readDigitGroups_repr (U := U) h
  unfold readInt
  rw [strip_repr]
  split
  · next l hl => exact absurd (isDigit_of_mem_repr (hl ▸ List.mem_cons_self)) (by decide)
  · next l hl => exact absurd (isDigit_of_mem_repr (hl ▸ List.mem_cons_self)) (by decide)
  · rw [hgroups]
    rfl

end PyText
