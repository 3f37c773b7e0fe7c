/-
# LIKE patterns

In a pattern `%` stands for any text and `_` for any character; a backslash takes the
character after it as it is, and a pattern that ends with one is refused. A keyword that is
escaped and set between two `%` matches the texts that contain the keyword
(`like_contains`), and so it does for ILIKE, which folds case on both sides, if folding
leaves the special characters alone (`ilike_contains`).
-/
import Mathlib

namespace Like

inductive Token
  | anything
  | anyChar
  | char (c : Char)
deriving DecidableEq, Repr

/-- The characters that are escaped. -/
def specials : List Char := ['\\', '%', '_']

def tokens : List Char → Option (List Token)
  | [] => some []
  | c :: rest =>
    if c = '\\' then
      match rest with
      | [] => none
      | d :: rest => (tokens rest).map (.char d :: ·)
    else (tokens rest).map
      ((if c = '%' then .anything else if c = '_' then .anyChar else .char c) :: ·)

/-- Whether the whole text matches. -/
def matchesTokens : List Token → List Char → Bool
  | [], s => s.isEmpty
  | .anything :: ts, s => s.tails.any fun s' => matchesTokens ts s'
  | .anyChar :: _, [] => false
  | .anyChar :: ts, _ :: s => matchesTokens ts s
  | .char _ :: _, [] => false
  | .char c :: ts, d :: s => decide (c = d) && matchesTokens ts s

/-- `s LIKE pattern ESCAPE '\'`; none is an error. -/
def like (s pattern : List Char) : Option Bool := (tokens pattern).map fun ts => matchesTokens ts s

def escapeChar (c : Char) : List Char := if c ∈ specials then ['\\', c] else [c]

/-! ### Literal text -/

theorem tokens_cons {c : Char} (h : c ≠ '\\') (rest : List Char) : tokens (c :: rest) =
    (tokens rest).map ((if c = '%' then .anything else if c = '_' then .anyChar
      else .char c) :: ·) := by
  cases rest <;> simp [tokens, h]

theorem tokens_escapeChar (c : Char) (rest : List Char) :
    tokens (escapeChar c ++ rest) = (tokens rest).map (.char c :: ·) := by
  unfold escapeChar
  split_ifs with h
  · simp [tokens]
  · have hne : c ≠ '\\' ∧ c ≠ '%' ∧ c ≠ '_' := by simpa [specials] using h
    rw [List.singleton_append, tokens_cons hne.1, if_neg hne.2.1, if_neg hne.2.2]

theorem tokens_escape (k rest : List Char) :
    tokens (k.flatMap escapeChar ++ rest) = (tokens rest).map (k.map .char ++ ·) := by
  induction k with
  | nil => simp
  | cons c k ih =>
    rw [List.flatMap_cons, List.append_assoc, tokens_escapeChar, ih, Option.map_map]
    rfl

theorem tokens_contains (k : List Char) :
    tokens ('%' :: k.flatMap escapeChar ++ ['%']) =
    some (.anything :: (k.map .char ++ [.anything])) := by
  have hpercent : ∀ rest, tokens ('%' :: rest) = (tokens rest).map (.anything :: ·) := by
    intro rest
    rw [tokens_cons (by decide), if_pos rfl]
  rw [List.cons_append, hpercent, tokens_escape, hpercent]
  rfl

theorem matchesTokens_anything (ts : List Token) (s : List Char) :
    matchesTokens (.anything :: ts) s = true ↔ ∃ s' , s' <:+ s ∧ matchesTokens ts s' = true := by
  rw [matchesTokens, List.any_eq_true]
  simp only [List.mem_tails]

theorem matchesTokens_chars (k : List Char) (ts : List Token) (s : List Char) :
    matchesTokens (k.map .char ++ ts) s = true ↔ ∃ s', s = k ++ s' ∧
    matchesTokens ts s' = true := by
  induction k generalizing s with
  | nil => simp
  | cons c k ih =>
    cases s with
    | nil => simp [matchesTokens]
    | cons d s =>
      rw [List.map_cons, List.cons_append, matchesTokens, Bool.and_eq_true, decide_eq_true_eq, ih]
      constructor
      · intro h
        obtain ⟨rfl, s', rfl, hs'⟩ := h
        exact ⟨s', rfl, hs'⟩
      · intro h
        obtain ⟨s', heq, hs'⟩ := h
        obtain ⟨rfl, hs⟩ := List.cons.inj heq
        exact ⟨rfl, s', hs, hs'⟩

theorem matchesTokens_rest (s : List Char) : matchesTokens [.anything] s = true :=
  (matchesTokens_anything [] s).mpr ⟨[], List.nil_suffix, rfl⟩

/-- **An escaped keyword between two `%`** matches the texts that contain the keyword. -/
theorem like_contains (s k : List Char) :
    like s ('%' :: k.flatMap escapeChar ++ ['%']) = some (decide (k <:+: s)) := by
  unfold like
  rw [tokens_contains, Option.map_some, Option.some.injEq, Bool.eq_iff_iff, decide_eq_true_eq,
    matchesTokens_anything]
  constructor
  · intro h
    obtain ⟨s', ⟨front, rfl⟩, hmatch⟩ := h
    obtain ⟨back, rfl, -⟩ := (matchesTokens_chars k _ _).mp hmatch
    exact ⟨front, back, List.append_assoc ..⟩
  · intro h
    obtain ⟨front, back, rfl⟩ := h
    refine ⟨k ++ back, ⟨front, (List.append_assoc ..).symm⟩,
      (matchesTokens_chars k _ _).mpr ⟨back, rfl, matchesTokens_rest back⟩⟩

/-! ### ILIKE -/

/-- Case folding, character by character. -/
structure CaseFold where
  fold : Char → Char
  fold_special : ∀ c, ∀ d ∈ specials, fold c = d ↔ c = d

def ilike (F : CaseFold) (s pattern : List Char) :
    Option Bool := like (s.map F.fold) (pattern.map F.fold)

variable (F : CaseFold)

theorem CaseFold.fold_eq {d : Char} (h : d ∈ specials) :
    F.fold d = d := (F.fold_special d d h).mpr rfl

theorem CaseFold.fold_mem_specials {c : Char} : F.fold c ∈ specials ↔ c ∈ specials := by
  constructor
  · intro h
    rw [(F.fold_special c _ h).mp rfl]
    exact h
  · intro h
    rw [F.fold_eq h]
    exact h

theorem map_escapeChar (c : Char) : (escapeChar c).map F.fold = escapeChar (F.fold c) := by
  unfold escapeChar
  simp only [F.fold_mem_specials]
  split_ifs
  · rw [List.map_cons, F.fold_eq (by decide)]
    rfl
  · rfl

theorem map_escape (k : List Char) :
    (k.flatMap escapeChar).map F.fold = (k.map F.fold).flatMap escapeChar := by
  rw [List.map_flatMap, List.flatMap_map]
  exact congrArg (k.flatMap ·) (funext fun c => map_escapeChar F c)

/-- **ILIKE with an escaped keyword** ignores case and nothing else. -/
theorem ilike_contains (s k : List Char) :
    ilike F s ('%' :: k.flatMap escapeChar ++ ['%']) =
    some (decide (k.map F.fold <:+: s.map F.fold)) := by
  unfold ilike
  rw [List.map_append, List.map_cons, map_escape, List.map_singleton, F.fold_eq (by decide)]
  exact like_contains _ _

end Like
