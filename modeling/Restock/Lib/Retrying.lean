/-
# Attempts up to a limit

`retrying stop retryable attempt` makes the attempts number 1, 2, … one after the other:
an error that is to be retried leads to the next attempt, unless the attempt was number
`stop` or later; everything else, and the last error, is the result. What each attempt
keeps, given its number, the whole keeps (`retrying_rule`).
-/
import Restock.Lib.Transaction

namespace Transaction

variable {σ ε α : Type}

/-- The attempts from number `n` on, at most `left` after it. -/
def retryFrom (retryable : ε → Bool) (attempt : ℕ → Transaction σ ε α) :
    (left n : ℕ) → Transaction σ ε α
  | 0, n => attempt n
  | left + 1, n => fun s =>
    match attempt n s with
    | (.ok a, s') => (.ok a, s')
    | (.error e, s') =>
      if retryable e then retryFrom retryable attempt left (n + 1) s' else (.error e, s')

/-- Whether to stop is asked after an attempt, so there is one in any case. -/
def retrying (stop : ℕ) (retryable : ε → Bool) (attempt : ℕ → Transaction σ ε α) :
    Transaction σ ε α :=
  retryFrom retryable attempt (stop - 1) 1

/-- `try: x except: handler`, for the errors that `caught` picks. -/
def catching (caught : ε → Bool) (handler : ε → Transaction σ ε α) (x : Transaction σ ε α) :
    Transaction σ ε α := fun s =>
  match x s with
  | (.ok a, s') => (.ok a, s')
  | (.error e, s') => if caught e then handler e s' else (.error e, s')

section Rule

variable {stop : ℕ} {retryable : ε → Bool} {attempt : ℕ → Transaction σ ε α} {P : ℕ → σ → Prop}
    {Q : Except ε α → σ → Prop}

/-- `P n` holds before attempt `n`, `Q` at the end. -/
structure Attempts (stop : ℕ) (retryable : ε → Bool) (attempt : ℕ → Transaction σ ε α)
    (P : ℕ → σ → Prop) (Q : Except ε α → σ → Prop) : Prop where
  done : ∀ {n s a s'}, P n s → attempt n s = (.ok a, s') → Q (.ok a) s'
  fails : ∀ {n s e s'}, P n s → attempt n s = (.error e, s') → retryable e = false ∨ stop ≤ n →
    Q (.error e) s'
  again : ∀ {n s e s'}, P n s → attempt n s = (.error e, s') → retryable e = true → n < stop →
    P (n + 1) s'

theorem Attempts.retryFrom (h : Attempts stop retryable attempt P Q) :
    ∀ {left n : ℕ} {s : σ}, stop ≤ n + left → (left ≠ 0 → n + left = stop) → P n s →
    Q (retryFrom retryable attempt left n s).1 (retryFrom retryable attempt left n s).2
  | 0, n, s, hstop, _, hP => by
    show Q (attempt n s).1 (attempt n s).2
    cases hr : attempt n s with
    | mk r s' =>
      cases r with
      | ok a => exact h.done hP hr
      | error e => exact h.fails hP hr (Or.inr (by omega))
  | left + 1, n, s, hstop, heq, hP => by
    have hlt : n < stop := by
      have := heq (Nat.succ_ne_zero left)
      omega
    unfold Transaction.retryFrom
    cases hr : attempt n s with
    | mk r s' =>
      cases r with
      | ok a => exact h.done hP hr
      | error e =>
        simp only
        split_ifs with he
        · exact h.retryFrom (by omega) (fun _ => by have := heq (Nat.succ_ne_zero left); omega)
            (h.again hP hr he hlt)
        · exact h.fails hP hr (Or.inl (by simpa using he))

/-- **What each attempt keeps, the attempts keep.** -/
theorem retrying_rule (h : Attempts stop retryable attempt P Q) {s : σ} (hP : P 1 s) :
    Q (retrying stop retryable attempt s).1 (retrying stop retryable attempt s).2 :=
  h.retryFrom (by omega) (by omega) hP

theorem catching_rule {caught : ε → Bool} {handler : ε → Transaction σ ε α}
    {x : Transaction σ ε α} {s : σ}
    (hx : ∀ r s', x s = (r, s') → (∀ e, r = .error e → caught e = false) → Q r s')
    (hhandler : ∀ e s', x s = (.error e, s') → caught e = true →
    Q (handler e s').1 (handler e s').2) :
    Q (catching caught handler x s).1 (catching caught handler x s).2 := by
  unfold catching
  cases hr : x s with
  | mk r s' =>
    cases r with
    | ok a => exact hx _ _ hr fun e he => by cases he
    | error e =>
      simp only
      split_ifs with he
      · exact hhandler e s' hr he
      · exact hx _ _ hr fun e' he' => by
          obtain rfl := Except.error.inj he'
          simpa using he

end Rule

end Transaction
