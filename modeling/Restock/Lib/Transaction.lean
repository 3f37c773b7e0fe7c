/-
# Requests that end with a commit or a rollback

A transaction reads and changes a state until it returns or fails. Served as a request, it
leaves what it has changed if it returns, and what a rollback restores if it fails; sequences,
say, are not set back.

What every step keeps the transaction keeps (`Keeps.bind`), and a transaction that has
returned is taken apart step by step (`bind_eq_ok`).
-/
import Mathlib

/-- A computation on a state that returns or fails, and leaves a state either way. -/
def Transaction (σ ε α : Type) : Type := σ → Except ε α × σ

namespace Transaction

variable {σ ε α β : Type}

protected def pure (a : α) : Transaction σ ε α := fun s => (.ok a, s)

protected def bind (x : Transaction σ ε α) (f : α → Transaction σ ε β) :
    Transaction σ ε β := fun s =>
  match x s with
  | (.ok a, s') => f a s'
  | (.error e, s') => (.error e, s')

instance : Monad (Transaction σ ε) where
  pure := Transaction.pure
  bind := Transaction.bind

/-- Nothing but the error. -/
def fail (e : ε) : Transaction σ ε α := fun s => (.error e, s)

/-- The state. -/
def read : Transaction σ ε σ := fun s => (.ok s, s)

/-- A change that is never refused. -/
def change (f : σ → σ) : Transaction σ ε Unit := fun s => (.ok (), f s)

/-- An error where a condition fails. -/
def require (p : Prop) [Decidable p] (e : ε) :
    Transaction σ ε Unit := if p then Transaction.pure () else fail e

/-- A value that must be there. -/
def ofOption (o : Option α) (e : ε) : Transaction σ ε α := o.elim (fail e) Transaction.pure

/-- A result that does not read the state. -/
def ofExcept (o : Except ε α) : Transaction σ ε α := fun s => (o, s)

/-- An error that occurs, or none. -/
def raise (fault : Option ε) : Transaction σ ε Unit := fault.elim (Transaction.pure ()) fail

/-- A change that may be refused. -/
def attempt (f : σ → Option σ) (e : ε) :
    Transaction σ ε Unit := fun s => (f s).elim (.error e, s) fun s' => (.ok (), s')

/-- `except`, with another error in its place. -/
def mapError (g : ε → ε) (x : Transaction σ ε α) : Transaction σ ε α := fun s =>
  match x s with
  | (.ok a, s') => (.ok a, s')
  | (.error e, s') => (.error (g e), s')

/-- The end of a request. -/
def request (restore : σ → σ → σ) (x : Transaction σ ε α) : Transaction σ ε α := fun s =>
  match x s with
  | (.ok a, s') => (.ok a, s')
  | (.error e, s') => (.error e, restore s s')

variable {x : Transaction σ ε α} {f : α → Transaction σ ε β} {s s' s'' : σ} {a : α} {b : β}
    {e : ε} {u : Unit}

theorem bind_of_ok (h : x s = (.ok a, s')) : (x >>= f) s = f a s' := by
  show Transaction.bind x f s = _
  unfold Transaction.bind
  rw [h]

theorem bind_of_error (h : x s = (.error e, s')) : (x >>= f) s = (.error e, s') := by
  show Transaction.bind x f s = _
  unfold Transaction.bind
  rw [h]

/-! ### Transactions that have returned -/

@[simp] theorem bind_eq_ok :
    (x >>= f) s = (.ok b, s'') ↔ ∃ a s', x s = (.ok a, s') ∧ f a s' = (.ok b, s'') := by
  show Transaction.bind x f s = _ ↔ _
  unfold Transaction.bind
  cases h : x s with
  | mk result s' => cases result <;> simp

@[simp] theorem pure_eq_ok {a' : α} :
    (pure a : Transaction σ ε α) s = (.ok a', s') ↔ a = a' ∧ s = s' := by
  show ((.ok a, s) : Except ε α × σ) = _ ↔ _
  simp

@[simp] theorem fail_eq_ok : (fail e : Transaction σ ε α) s = (.ok a, s') ↔ False := by simp [fail]

@[simp] theorem read_eq_ok :
    (read : Transaction σ ε σ) s = (.ok s'', s') ↔ s = s'' ∧ s = s' := by simp [read]

@[simp] theorem change_eq_ok {g : σ → σ} :
    (change g : Transaction σ ε Unit) s = (.ok u, s') ↔ g s = s' := by simp [change]

@[simp] theorem require_eq_ok {p : Prop} [Decidable p] :
    (require p e : Transaction σ ε Unit) s = (.ok u, s') ↔ p ∧ s = s' := by
  unfold require
  split_ifs with h <;> simp [h, Transaction.pure]

@[simp] theorem ofOption_eq_ok {o : Option α} :
    (ofOption o e : Transaction σ ε α) s = (.ok a, s') ↔ o = some a ∧ s = s' := by
  cases o <;> simp [ofOption, Transaction.pure]

@[simp] theorem ofExcept_eq_ok {o : Except ε α} :
    (ofExcept o : Transaction σ ε α) s = (.ok a, s') ↔ o = .ok a ∧ s = s' := by
  simp [ofExcept]

@[simp] theorem raise_eq_ok {fault : Option ε} :
    (raise fault : Transaction σ ε Unit) s = (.ok u, s') ↔ fault = none ∧ s = s' := by
  cases fault <;> simp [raise, fail, Transaction.pure]

@[simp] theorem attempt_eq_ok {g : σ → Option σ} : attempt g e s = (.ok u, s') ↔ g s = some s' := by
  unfold attempt
  cases g s <;> simp

theorem snd_bind_pure (g : α → β) : ((x >>= fun a => pure (g a)) s).2 = (x s).2 := by
  show (Transaction.bind x _ s).2 = _
  unfold Transaction.bind
  cases h : x s with
  | mk result s' => cases result <;> rfl

/-! ### What a transaction keeps -/

/-- Whether it returns or fails. -/
def Keeps (P : σ → Prop) (x : Transaction σ ε α) : Prop := ∀ s, P s → P (x s).2

variable {P : σ → Prop}

/-- The rest runs in the state that the first step has left. -/
theorem Keeps.bind_of (hx : Keeps P x) (hf : ∀ s a s', P s → x s = (.ok a, s') → P (f a s').2) :
    Keeps P (x >>= f) := by
  intro s hs
  have hx' := hx s hs
  show P (Transaction.bind x f s).2
  unfold Transaction.bind
  cases h : x s with
  | mk result s' =>
    rw [h] at hx'
    cases result with
    | ok a => exact hf s a s' hs h
    | error e => exact hx'

theorem Keeps.bind (hx : Keeps P x) (hf : ∀ a, Keeps P (f a)) : Keeps P (x >>= f) :=
  hx.bind_of fun s a s' hs h => hf a s' (by simpa [h] using hx s hs)

theorem keeps_pure : Keeps P (pure a : Transaction σ ε α) := fun _ hs => hs

theorem keeps_fail : Keeps P (fail e : Transaction σ ε α) := fun _ hs => hs

theorem keeps_read : Keeps P (read : Transaction σ ε σ) := fun _ hs => hs

theorem keeps_change {g : σ → σ} (h : ∀ s, P s → P (g s)) :
    Keeps P (change g : Transaction σ ε Unit) := h

theorem keeps_require {p : Prop} [Decidable p] : Keeps P (require p e : Transaction σ ε Unit) := by
  intro s hs
  unfold require
  split_ifs <;> exact hs

theorem keeps_ofOption {o : Option α} : Keeps P (ofOption o e : Transaction σ ε α) := by
  intro s hs
  cases o <;> exact hs

theorem keeps_ofExcept {o : Except ε α} : Keeps P (ofExcept o : Transaction σ ε α) := fun _ hs => hs

theorem keeps_attempt {g : σ → Option σ} (h : ∀ s s', P s → g s = some s' → P s') :
    Keeps P (attempt g e) := by
  intro s hs
  unfold attempt
  cases hg : g s with
  | none => exact hs
  | some s' => exact h s s' hs hg

theorem Keeps.mapError {g : ε → ε} (hx : Keeps P x) : Keeps P (x.mapError g) := by
  intro s hs
  have hx' := hx s hs
  unfold Transaction.mapError
  cases h : x s with
  | mk result s' =>
    rw [h] at hx'
    cases result <;> exact hx'

/-- What a loop's every round keeps. -/
theorem keeps_foldlM {γ : Type} {step : γ → β → Transaction σ ε γ} (h : ∀ c b, Keeps P (step c b)) :
    ∀ (l : List β) (c : γ), Keeps P (l.foldlM step c)
  | [], _ => keeps_pure
  | b :: l, c => (h c b).bind fun c' => keeps_foldlM h l c'

/-- A request keeps what its transaction keeps if a rollback does. -/
theorem Keeps.request {restore : σ → σ → σ} (hx : Keeps P x)
    (hrestore : ∀ s s', P s → P (restore s s')) : Keeps P (x.request restore) := by
  intro s hs
  have hx' := hx s hs
  unfold Transaction.request
  cases h : x s with
  | mk result s' =>
    rw [h] at hx'
    cases result with
    | ok a => exact hx'
    | error e => exact hrestore s s' hs

@[simp] theorem request_eq_ok {restore : σ → σ → σ} :
    x.request restore s = (.ok a, s') ↔ x s = (.ok a, s') := by
  unfold request
  cases h : x s with
  | mk result s'' => cases result <;> simp

theorem request_of_error {restore : σ → σ → σ} (h : (x.request restore s).1 = .error e) :
    (x.request restore s).2 = restore s (x s).2 := by
  unfold request at h ⊢
  cases hx : x s with
  | mk result s' =>
    rw [hx] at h
    cases result with
    | ok a => cases h
    | error e' => rfl

end Transaction
