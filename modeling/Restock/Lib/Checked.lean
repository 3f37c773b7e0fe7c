/-
# Computations that stop at the first error

What a chain of steps in `Except` has done when it returns a value: every step
before returned one too, what each round of a loop keeps the loop keeps, and a
loop of checks passes if all of them do.
-/
import Mathlib

namespace Checked

variable {α β ε : Type}

theorem bind_ok {x : Except ε α} {f : α → Except ε β} {b : β} (h : x.bind f = .ok b) :
    ∃ a, x = .ok a ∧ f a = .ok b := by
  cases x with
  | error e => cases h
  | ok a => exact ⟨a, rfl, h⟩

theorem map_ok {x : Except ε α} {f : α → β} {b : β} (h : x.map f = .ok b) :
    ∃ a, x = .ok a ∧ f a = b := by
  cases x with
  | error e => cases h
  | ok a => exact ⟨a, rfl, Except.ok.inj h⟩

theorem map_ok_iff {x : Except ε α} {f : α → β} {b : β} :
    x.map f = .ok b ↔ ∃ a, x = .ok a ∧ f a = b := by
  constructor
  · exact map_ok
  · intro h
    obtain ⟨a, rfl, rfl⟩ := h
    rfl

/-- What returns the same values has the same value. -/
theorem toOption_eq_of_ok_iff {x y : Except ε α} (h : ∀ a, x = .ok a ↔ y = .ok a) :
    x.toOption = y.toOption := by
  cases x with
  | ok a => rw [(h a).mp rfl]
  | error e =>
    cases y with
    | ok b => exact absurd ((h b).mpr rfl) (by simp)
    | error e' => rfl

/-- A loop that stops at the first error keeps what each round over its items keeps. -/
theorem foldlM_keeps_of_mem {σ : Type} {P : σ → Prop} {step : σ → α → Except ε σ} (items : List α)
    (hstep : ∀ {s s' a}, a ∈ items → P s → step s a = .ok s' → P s') {s s' : σ} (h : P s)
    (hs : items.foldlM step s = .ok s') : P s' := by
  induction items generalizing s with
  | nil => exact Except.ok.inj hs ▸ h
  | cons a items ih =>
    rw [List.foldlM_cons] at hs
    obtain ⟨m, h1, h2⟩ := bind_ok hs
    exact ih (fun ha => hstep (List.mem_cons_of_mem _ ha)) (hstep List.mem_cons_self h h1) h2

theorem foldlM_keeps {σ : Type} {P : σ → Prop} {step : σ → α → Except ε σ}
    (hstep : ∀ {s s' a}, P s → step s a = .ok s' → P s') (items : List α) {s s' : σ} (h : P s)
    (hs : items.foldlM step s = .ok s') : P s' := foldlM_keeps_of_mem items (fun _ => hstep) h hs

/-- A comprehension whose every element returns a value returns these values. -/
theorem exists_mapM_ok {f : α → Except ε β} : ∀ {l : List α}, (∀ a ∈ l, ∃ b, f a = .ok b) →
    ∃ bs, l.mapM f = .ok bs ∧ ∀ b, b ∈ bs ↔ ∃ a ∈ l, f a = .ok b
  | [], _ => ⟨[], rfl, by simp⟩
  | a :: l, h => by
    obtain ⟨b, hb⟩ := h a List.mem_cons_self
    obtain ⟨bs, hbs, hmem⟩ := exists_mapM_ok fun a' ha' => h a' (List.mem_cons_of_mem _ ha')
    refine ⟨b :: bs, ?_, fun b' => ?_⟩
    · rw [List.mapM_cons, hb, hbs]
      rfl
    · rw [List.mem_cons, hmem, List.exists_mem_cons_iff, hb, Except.ok.injEq, eq_comm]

/-- What a comprehension returns, element by element. -/
theorem mapM_ok {f : α → Except ε β} (l : List α) {bs : List β} (h : l.mapM f = .ok bs) :
    List.Forall₂ (fun a b => f a = .ok b) l bs := by
  induction l generalizing bs with
  | nil =>
    obtain rfl := Except.ok.inj h
    exact .nil
  | cons a l ih =>
    rw [List.mapM_cons] at h
    obtain ⟨b, hb, h⟩ := bind_ok h
    obtain ⟨bs, hbs, h⟩ := bind_ok h
    obtain rfl := Except.ok.inj h
    exact .cons hb (ih hbs)

/-- A comprehension returns exactly if every element does. -/
theorem exists_mapM_ok_iff {f : α → Except ε β} {l : List α} :
    (∃ bs, l.mapM f = .ok bs) ↔ ∀ a ∈ l, ∃ b, f a = .ok b := by
  constructor
  · rintro ⟨bs, h⟩ a ha
    obtain ⟨i, hi, rfl⟩ := List.getElem_of_mem ha
    have hall := mapM_ok l h
    exact ⟨bs.get ⟨i, hall.length_eq ▸ hi⟩, hall.get hi (hall.length_eq ▸ hi)⟩
  · intro h
    obtain ⟨bs, hbs, -⟩ := exists_mapM_ok h
    exact ⟨bs, hbs⟩

theorem exists_of_forall₂ {R : α → β → Prop} {l : List α} {bs : List β} (h : List.Forall₂ R l bs)
    {b : β} (hb : b ∈ bs) : ∃ a ∈ l, R a b := by
  induction h with
  | nil => cases hb
  | @cons a b' l bs hab _ ih =>
    rcases List.mem_cons.mp hb with rfl | hb
    · exact ⟨a, List.mem_cons_self, hab⟩
    · obtain ⟨a', ha', hr⟩ := ih hb
      exact ⟨a', List.mem_cons_of_mem _ ha', hr⟩

/-- A comprehension fails with the error of one of its elements. -/
theorem exists_of_mapM_error {f : α → Except ε β} (l : List α) {e : ε} (h : l.mapM f = .error e) :
    ∃ a ∈ l, f a = .error e := by
  induction l with
  | nil => cases h
  | cons a l ih =>
    rw [List.mapM_cons] at h
    cases ha : f a with
    | error e' =>
      rw [ha] at h
      have he : e' = e := Except.error.inj h
      exact ⟨a, List.mem_cons_self, he ▸ ha⟩
    | ok b =>
      cases hl : l.mapM f with
      | error e' =>
        rw [ha, hl] at h
        have he : e' = e := Except.error.inj h
        obtain ⟨a', ha', hfail⟩ := ih (he ▸ hl)
        exact ⟨a', List.mem_cons_of_mem _ ha', hfail⟩
      | ok bs =>
        rw [ha, hl] at h
        cases h

/-- A loop of checks passes exactly if every check does. -/
theorem forM_ok_iff {check : α → Except ε Unit} :
    ∀ {l : List α}, l.forM check = .ok () ↔ ∀ a ∈ l, check a = .ok ()
  | [] => by simp [pure, Except.pure]
  | a :: l => by
    rw [List.forall_mem_cons, ← forM_ok_iff]
    show (check a).bind (fun _ => l.forM check) = .ok () ↔ _
    constructor
    · intro h
      obtain ⟨u, hu, hl⟩ := bind_ok h
      exact ⟨hu, hl⟩
    · rintro ⟨hu, hl⟩
      rw [hu]
      exact hl

end Checked
