/-
# The intervals of a `between` rule, read twice

A `between` rule is checked by `_parse_between_segments` (a digit test, then `int`, with an
error for what is not an interval) when it is stored, and read again by `_compare` (`int`
alone, with an early no) when a code is matched. On every value that the first reading
takes the two agree: a prefix matches exactly if `int` reads it and one of the intervals
has it (`compareBetween_iff`), so only the integers they cover count, not the order in
which the intervals are listed or that they overlap (`between_agrees`).

The stored value is the submitted one without the blanks around it, and both have the
same pieces between their commas (`splitCompareValues_strip`).
-/
import Restock.ZipcodeRuleIn

namespace Restock

open PyText

variable {U : CharTable} {N : NumberReader} {isdigit : String → Bool}

/-- One of the closed intervals has `n`. -/
def Covered (segments : List (ℤ × ℤ)) (n : ℤ) :
    Prop := ∃ segment ∈ segments, segment.1 ≤ n ∧ n ≤ segment.2

theorem covered_cons {segment : ℤ × ℤ} {segments : List (ℤ × ℤ)} {n : ℤ} :
    Covered (segment :: segments) n ↔ (segment.1 ≤ n ∧ n ≤ segment.2) ∨ Covered segments n := by
  simp [Covered]

/-! ### The two readings -/

/-- What the first reading takes of a list that starts with a piece. -/
theorem parseBetweenSegments_cons {chunk : String} {chunks : List String} {segments : List (ℤ × ℤ)}
    (hpiece : strip U chunk ≠ "")
    (h : parseBetweenSegments U N isdigit (chunk :: chunks) = .ok segments) :
    ∃ low high lo hi rest, splitDash (strip U chunk) = some (low, high) ∧
      N.int (strip U low) = some lo ∧ N.int (strip U high) = some hi ∧ lo ≤ hi ∧
      parseBetweenSegments U N isdigit chunks = .ok rest ∧ segments = (lo, hi) :: rest := by
  unfold parseBetweenSegments at h
  simp only [hpiece, if_false] at h
  split at h
  · cases h
  · rename_i low high hdash
    split at h
    · cases h
    · split at h
      · rename_i lo hi hlo hhi
        split_ifs at h with horder
        obtain ⟨rest, hrest, hcons⟩ := Checked.map_ok h
        exact ⟨low, high, lo, hi, rest, hdash, hlo, hhi, by omega, hrest, hcons.symm⟩
      · cases h
      · cases h

/-- **Validator and matcher agree**: where the first reading takes the chunks, the second
finds exactly the integers of the intervals. -/
theorem compareBetween_iff {n : ℤ} : ∀ {chunks : List String} {segments : List (ℤ × ℤ)},
    parseBetweenSegments U N isdigit chunks = .ok segments →
    (compareBetween U N n chunks = true ↔ Covered segments n)
  | [], segments, h => by
    obtain rfl : segments = [] := (Except.ok.inj h).symm
    simp [compareBetween, Covered]
  | chunk :: chunks, segments, h => by
    by_cases hpiece : strip U chunk = ""
    · have hrest : parseBetweenSegments U N isdigit chunks = .ok segments := by
        simpa [parseBetweenSegments, hpiece] using h
      have ih := compareBetween_iff (n := n) hrest
      unfold compareBetween
      rw [if_pos hpiece]
      exact ih
    · obtain ⟨low, high, lo, hi, rest, hdash, hlo, hhi, horder, hrest, rfl⟩ :=
        parseBetweenSegments_cons hpiece h
      have ih := compareBetween_iff (n := n) hrest
      unfold compareBetween
      simp only [hpiece, if_false, hdash, hlo, hhi, not_lt.mpr horder]
      rw [covered_cons]
      by_cases hin : lo ≤ n ∧ n ≤ hi
      · simp [hin]
      · simp [hin, ih]

/-! ### Blanks around the value -/

/-- Chunks without anything in them are passed over. -/
theorem parseBetweenSegments_pieces :
    ∀ chunks : List String, parseBetweenSegments U N isdigit chunks =
    parseBetweenSegments U N isdigit ((chunks.map (strip U)).filter (· ≠ ""))
  | [] => rfl
  | chunk :: chunks => by
    have ih := parseBetweenSegments_pieces chunks
    by_cases hpiece : strip U chunk = ""
    · simp only [List.map_cons, List.filter_cons, hpiece, ne_eq, not_true_eq_false, decide_false,
        Bool.false_eq_true, if_false]
      rw [← ih]
      simp [parseBetweenSegments, hpiece]
    · simp only [List.map_cons, List.filter_cons, hpiece, ne_eq, not_false_eq_true,
        decide_true, if_true]
      unfold parseBetweenSegments
      simp only [strip_strip, ih]

section Strip

variable (U)

/-- The pieces of a text, as its characters. -/
def piecesOf (l : List Char) : List String :=
  ((l.splitOn ',').map fun chunk => strip U (String.ofList chunk)).filter (· ≠ "")

theorem splitCompareValues_eq (text : String) :
    splitCompareValues U text = piecesOf U text.toList := by
  rw [splitCompareValues, splitCommas, List.map_map]
  rfl

variable {U}

theorem piecesOf_append_comma (l l' : List Char) :
    piecesOf U (l ++ ',' :: l') = piecesOf U l ++ piecesOf U l' := by
  simp only [piecesOf, List.splitOn_append_cons_self, List.map_append, List.filter_append]

theorem piecesOf_of_no_comma {l : List Char} (h : ',' ∉ l) :
    piecesOf U l = [strip U (String.ofList l)].filter (· ≠ "") := by
  rw [piecesOf, List.splitOn_eq_singleton h]
  rfl

theorem piecesOf_nil : piecesOf U [] = [] := by
  rw [piecesOf_of_no_comma List.not_mem_nil]
  simp [strip]

theorem piecesOf_space_cons {c : Char} (hc : U.isSpace c = true) (l : List Char) :
    piecesOf U (c :: l) = piecesOf U l := by
  by_cases hcomma : c = ','
  · have h := piecesOf_append_comma (U := U) [] l
    rw [piecesOf_nil, List.nil_append, List.nil_append] at h
    rw [hcomma, h]
  · have hstrip : ∀ l : List Char, strip U (String.ofList (c :: l)) = strip U
      (String.ofList l) := by
      intro l
      simp [strip, hc]
    have hfirst : ∀ l : List Char, ',' ∉ l → piecesOf U (c :: l) = piecesOf U l := by
      intro l hl
      rw [piecesOf_of_no_comma (by simp [hl, Ne.symm hcomma]), piecesOf_of_no_comma hl, hstrip]
    by_cases hl : ',' ∈ l
    · obtain ⟨l₁, l₂, rfl, hl₁⟩ := List.eq_append_cons_of_mem hl
      rw [← List.cons_append, piecesOf_append_comma, piecesOf_append_comma, hfirst l₁ hl₁]
    · exact hfirst l hl

theorem piecesOf_concat_space {c : Char} (hc : U.isSpace c = true) :
    ∀ (n : ℕ) (l : List Char), l.length ≤ n → piecesOf U (l ++ [c]) = piecesOf U l
  | 0, l, hn => by
    obtain rfl : l = [] := List.length_eq_zero_iff.mp (by omega)
    exact piecesOf_space_cons hc []
  | n + 1, l, hn => by
    by_cases hl : ',' ∈ l
    · -- the text behind its first comma is shorter
      obtain ⟨l₁, l₂, rfl, hl₁⟩ := List.eq_append_cons_of_mem hl
      have hlen : l₂.length ≤ n := by
        rw [List.length_append, List.length_cons] at hn
        omega
      have ih := piecesOf_concat_space hc n l₂ hlen
      rw [List.append_assoc, List.cons_append, piecesOf_append_comma, piecesOf_append_comma, ih]
    · by_cases hcomma : c = ','
      · have h := piecesOf_append_comma (U := U) l []
        rw [hcomma, h, piecesOf_nil, List.append_nil]
      · rw [piecesOf_of_no_comma (by simp [hl, Ne.symm hcomma]), piecesOf_of_no_comma hl]
        have hstrip : strip U (String.ofList (l ++ [c])) = strip U (String.ofList l) := by
          simp only [strip, String.toList_ofList]
          by_cases hall : ∀ x ∈ l, U.isSpace x = true
          · rw [List.dropWhile_eq_nil_iff.mpr hall,
              List.dropWhile_eq_nil_iff.mpr (by simpa [hc, or_imp, forall_and] using hall)]
          · rw [List.dropWhile_append, if_neg (by simpa [List.dropWhile_eq_nil_iff] using hall),
              List.rdropWhile_concat_pos _ _ _ hc]
        rw [hstrip]

theorem piecesOf_dropWhile : ∀ l : List Char, piecesOf U (l.dropWhile U.isSpace) = piecesOf U l
  | [] => rfl
  | c :: l => by
    rw [List.dropWhile_cons]
    split_ifs with hc
    · rw [piecesOf_dropWhile l, piecesOf_space_cons hc]
    · rfl

theorem piecesOf_rdropWhile (l : List Char) :
    piecesOf U (l.rdropWhile U.isSpace) = piecesOf U l := by
  induction l using List.reverseRecOn with
  | nil => rfl
  | append_singleton l c ih =>
    by_cases hc : U.isSpace c = true
    · rw [List.rdropWhile_concat_pos _ _ _ hc, ih, piecesOf_concat_space hc l.length l le_rfl]
    · rw [List.rdropWhile_concat_neg _ _ _ hc]

/-- Blanks around a text do not change its pieces. -/
theorem splitCompareValues_strip (text : String) :
    splitCompareValues U (strip U text) = splitCompareValues U text := by
  rw [splitCompareValues_eq, splitCompareValues_eq, strip, String.toList_ofList,
    piecesOf_rdropWhile, piecesOf_dropWhile]

end Strip

theorem parseBetweenSegments_strip (text : String) :
    parseBetweenSegments U N isdigit (splitCommas (strip U text)) = parseBetweenSegments U N isdigit
    (splitCommas text) := by
  have h := splitCompareValues_strip (U := U) text
  unfold splitCompareValues at h
  rw [parseBetweenSegments_pieces, h, ← parseBetweenSegments_pieces]

/-! ### Accepted values -/

/-- What is accepted for `between` is the submitted text without the blanks around it, and
its intervals can be read. -/
theorem ZipcodeRuleIn.validate_between {body body' : ZipcodeRuleIn}
    (h : body.validate U N isdigit = .ok body') (hop : body.operator = .between) :
    body'.compareValue = strip U body.compareValue ∧
    ∃ segments, parseBetweenSegments U N isdigit (splitCommas body.compareValue) =
    .ok segments := by
  unfold validate at h
  split at h
  · cases h
  · obtain ⟨compareValue, hc, hrest⟩ := Checked.bind_ok h
    obtain ⟨-, -, hbody⟩ := Checked.bind_ok hrest
    rw [← Except.ok.inj hbody]
    unfold validateCompareValue at hc
    simp only [hop, if_true] at hc
    split_ifs at hc
    obtain ⟨segments, hparse, hcheck⟩ := Checked.bind_ok hc
    obtain ⟨-, -, hvalue⟩ := Checked.bind_ok hcheck
    rw [parseBetweenSegments_strip] at hparse
    exact ⟨(Except.ok.inj hvalue).symm, segments, hparse⟩

theorem zipcodeCompare_between {codePrefix text : String} {segments : List (ℤ × ℤ)}
    (h : parseBetweenSegments U N isdigit (splitCommas text) = .ok segments) :
    zipcodeCompare U N codePrefix .between text .number = .ok true ↔
      ∃ n, N.int codePrefix = some n ∧ Covered segments n := by
  simp only [zipcodeCompare, Except.ok.injEq]
  cases hint : N.int codePrefix with
  | none => simp
  | some n => simp [compareBetween_iff h]

/-- **Validator and matcher agree on ranges.** A prefix matches an accepted value, as it
was submitted and as it is stored, exactly if it is an integer of one of its intervals;
any other text whose intervals cover the same integers compares in the same way. -/
theorem between_agrees (U : CharTable) (N : NumberReader) (isdigit : String → Bool)
    (body body' : ZipcodeRuleIn) (hvalid : body.validate U N isdigit = .ok body')
    (hop : body.operator = .between) :
    ∃ segments, ∀ text ∈ [body.compareValue, body'.compareValue],
      parseBetweenSegments U N isdigit (splitCommas text) = .ok segments ∧
      (∀ codePrefix, zipcodeCompare U N codePrefix .between text .number = .ok true ↔
        ∃ n, N.int codePrefix = some n ∧ Covered segments n) ∧
      ∀ text' segments', parseBetweenSegments U N isdigit (splitCommas text') = .ok segments' →
        (∀ n, Covered segments' n ↔ Covered segments n) → ∀ codePrefix,
        zipcodeCompare U N codePrefix .between text' .number =
        zipcodeCompare U N codePrefix .between text .number := by
  obtain ⟨hstored, segments, hparse⟩ := ZipcodeRuleIn.validate_between hvalid hop
  refine ⟨segments, fun text htext => ?_⟩
  have htextparse : parseBetweenSegments U N isdigit (splitCommas text) = .ok segments := by
    rcases List.mem_pair.mp htext with rfl | rfl
    · exact hparse
    · rw [hstored, parseBetweenSegments_strip, hparse]
  refine ⟨htextparse, fun codePrefix => zipcodeCompare_between htextparse, ?_⟩
  intro text' segments' hparse' hcover codePrefix
  simp only [zipcodeCompare]
  cases N.int codePrefix with
  | none => rfl
  | some n =>
    have h1 := compareBetween_iff (n := n) hparse'
    have h2 := compareBetween_iff (n := n) htextparse
    rw [Option.elim_some, Option.elim_some,
      Bool.eq_iff_iff.mpr (h1.trans ((hcover n).trans h2.symm))]

/-- Two intervals that overlap, out of order, with blanks and an empty piece. -/
def overlappingRuleIn :
    ZipcodeRuleIn := ⟨"de", 3, .number, .between, " 500-700,, 000 - 550 ", "W1", 100⟩

theorem between_agrees_overlapping :
    overlappingRuleIn.validate .ascii .decimal isDecimalText =
      .ok { overlappingRuleIn with compareValue := "500-700,, 000 - 550" } ∧
    ∃ segments, ∀ codePrefix,
      zipcodeCompare .ascii .decimal codePrefix .between "500-700,, 000 - 550" .number = .ok true ↔
      ∃ n, NumberReader.decimal.int codePrefix = some n ∧ Covered segments n := by
  have hvalid : overlappingRuleIn.validate .ascii .decimal isDecimalText =
      .ok { overlappingRuleIn with compareValue := "500-700,, 000 - 550" } := by decide +kernel
  obtain ⟨segments, h⟩ :=
    between_agrees .ascii .decimal isDecimalText overlappingRuleIn _ hvalid rfl
  exact ⟨hvalid, segments, (h _ (List.mem_cons_of_mem _ List.mem_cons_self)).2.1⟩

end Restock
