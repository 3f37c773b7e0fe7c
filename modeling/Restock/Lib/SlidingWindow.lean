/-
# Sliding-window limits

A log of times is kept under a limit if each entry was added while fewer than `limit`
entries lay in the window that ends at it (`Admissible`). Then no window of that length
has more than `limit` entries, wherever it lies and whichever of its ends it leaves out
(`Admissible.window_le`, `Admissible.closed_open_le`, `Admissible.open_closed_le`): of the
entries of a window the last was added while all the others counted.
-/
import Mathlib

namespace SlidingWindow

variable {T : Type*} [AddCommGroup T] [LinearOrder T]

/-- The entries that still count at `now`. -/
def recent (width now : T) (log : List T) : List T := log.filter fun t => now - width < t

theorem recent_sublist (width now : T) (log : List T) : (recent width now log).Sublist log :=
  List.filter_sublist

theorem recent_mono (width now : T) {log log' : List T} (h : log.Sublist log') :
    (recent width now log).Sublist (recent width now log') := h.filter _

/-- What counts later counts now. -/
theorem recent_recent [IsOrderedAddMonoid T] {width now now' : T} (h : now ≤ now') (log : List T) :
    recent width now' (recent width now log) = recent width now' log := by
  unfold recent
  rw [List.filter_filter]
  apply List.filter_congr
  intro t _
  have hle : now - width ≤ now' - width := sub_le_sub_right h width
  by_cases ht : now' - width < t
  · simp [ht, hle.trans_lt ht]
  · simp [ht]

/-- Each entry was added while fewer than `limit` counted. -/
inductive Admissible (width : T) (limit : ℕ) : List T → Prop
  | nil : Admissible width limit []
  | snoc {log : List T} {t : T} (h : Admissible width limit log)
      (hroom : (recent width t log).length < limit) :
      Admissible width limit (log ++ [t])

namespace Admissible

variable {width : T} {limit : ℕ} {log : List T}

/-- Of times that are less than a window apart there are at most `limit`. -/
theorem window_le {p : T → Bool} (hp : ∀ x y, p x = true → p y = true → y - width < x)
    (h : Admissible width limit log) : (log.filter p).length ≤ limit := by
  induction h with
  | nil => simp
  | @snoc log t _ hroom ih =>
    rw [List.filter_append, List.length_append]
    by_cases ht : p t = true
    · -- all the others counted when `t` was added
      have hcount : (log.filter p).length ≤ (recent width t log).length := by
        apply List.Sublist.length_le
        apply List.monotone_filter_right
        intro x hx
        simpa using hp x t hx ht
      have hone : ([t].filter p).length = 1 := by simp [ht]
      omega
    · have hnone : ([t].filter p).length = 0 := by simp [ht]
      omega

theorem closed_open_le [IsOrderedAddMonoid T] (h : Admissible width limit log) (a : T) :
    (log.filter fun t => a ≤ t ∧ t < a + width).length ≤ limit := by
  apply window_le _ h
  intro x y hx hy
  simp only [decide_eq_true_eq] at hx hy
  exact (sub_lt_iff_lt_add.mpr hy.2).trans_le hx.1

theorem open_closed_le [IsOrderedAddMonoid T] (h : Admissible width limit log) (a : T) :
    (log.filter fun t => a < t ∧ t ≤ a + width).length ≤ limit := by
  apply window_le _ h
  intro x y hx hy
  simp only [decide_eq_true_eq] at hx hy
  exact (sub_le_iff_le_add.mpr hy.2).trans_lt hx.1

end Admissible

end SlidingWindow
