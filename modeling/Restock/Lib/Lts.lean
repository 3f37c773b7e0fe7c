/-
# Transition systems and what their runs keep

A system has start states and labelled steps. `ReachIf ok` are the states a run
reaches when every step it takes meets the condition `ok` in the state it is
taken in; `Reach` puts no condition. An invariant is proved once for a step and
holds in every state reached (`ReachIf.invariant`).
-/
import Mathlib

/-- A labelled transition system. -/
structure Lts (S A : Type*) where
  start : S → Prop
  step : S → A → S → Prop

namespace Lts

variable {S A : Type*} (M : Lts S A)

/-- The states reached by steps that all meet `ok`. -/
inductive ReachIf (ok : A → S → Prop) : S → Prop
  | start {s} : M.start s → ReachIf ok s
  | step {s a s'} : ReachIf ok s → ok a s → M.step s a s' → ReachIf ok s'

/-- The reachable states. -/
def Reach : S → Prop := M.ReachIf fun _ _ => True

variable {M} {ok : A → S → Prop}

/-- What holds at the start and is kept by every step that meets the condition
holds in every state reached. -/
theorem ReachIf.invariant {I : S → Prop} (h0 : ∀ {s}, M.start s → I s)
    (hs : ∀ {s a s'}, I s → ok a s → M.step s a s' → I s') {s : S} (h : M.ReachIf ok s) : I s := by
  induction h with
  | start h => exact h0 h
  | step _ hok hst ih => exact hs ih hok hst

theorem Reach.invariant {I : S → Prop} (h0 : ∀ {s}, M.start s → I s)
    (hs : ∀ {s a s'}, I s → M.step s a s' → I s') {s : S} (h : M.Reach s) : I s :=
  ReachIf.invariant h0 (fun hI _ hst => hs hI hst) h

/-- What holds in every state reached may be used at every step. -/
theorem ReachIf.and_invariant {J : S → Prop} (hJ : ∀ {s}, M.ReachIf ok s → J s) {s : S}
    (h : M.ReachIf ok s) : M.ReachIf (fun a s => ok a s ∧ J s) s := by
  induction h with
  | start h => exact .start h
  | step hr hok hst ih => exact .step ih ⟨hok, hJ hr⟩ hst

theorem ReachIf.mono {ok' : A → S → Prop} (hok : ∀ {a s}, ok a s → ok' a s) {s : S}
    (h : M.ReachIf ok s) : M.ReachIf ok' s := by
  induction h with
  | start h => exact .start h
  | step _ ha hst ih => exact .step ih (hok ha) hst

theorem ReachIf.reach {s : S} (h : M.ReachIf ok s) : M.Reach s := h.mono fun _ => trivial

end Lts
