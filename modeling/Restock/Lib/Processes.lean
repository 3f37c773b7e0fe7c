/-
# Processes over a shared state

Any number of processes, each at a point of its own program, act on a shared state
one statement at a time. `next` is one statement of one process; a run interleaves
them in any order (`Procs.runs`).

A proof about all runs says what holds of the shared state and, for every process,
what holds at the point where it stands. One statement has to keep the first and the
second for the process that moved, and must not disturb the second for the others
(`Procs.invariant`).

What a process takes from a counter, as the number of a row it inserts, is its own
(`Procs.owned_of_reach`).
-/
import Restock.Lib.Lts

/-- The shared state and the point each process is at. -/
structure Procs (P L G : Type) where
  shared : G
  proc : P → L

namespace Procs

variable {P L G A : Type} [DecidableEq P]

/-- The state after a statement of `p`. -/
def move (s : Procs P L G) (p : P) (r : G × L) : Procs P L G := ⟨r.1, Function.update s.proc p r.2⟩

@[simp] theorem move_proc_self (s : Procs P L G) (p : P) (r : G × L) :
    (s.move p r).proc p = r.2 := by
  simp [move]

theorem move_proc_ne (s : Procs P L G) {p q : P} (r : G × L) (h : q ≠ p) :
    (s.move p r).proc q = s.proc q := by
  simp [move, h]

/-- The interleavings of statements. A statement that cannot run yet is `none`. -/
def runs (start : Procs P L G → Prop) (next : G → P → L → A → Option (G × L)) :
    Lts (Procs P L G) (P × A) where
  start := start
  step s a s' := (next s.shared a.1 (s.proc a.1) a.2).map (s.move a.1) = some s'

variable {start : Procs P L G → Prop} {next : G → P → L → A → Option (G × L)}

theorem step_iff {s s' : Procs P L G} {p : P} {a : A} :
    (runs start next).step s (p, a) s' ↔ ∃ r, next s.shared p (s.proc p) a = some r ∧
    s' = s.move p r := by
  show Option.map _ _ = _ ↔ _
  rw [Option.map_eq_some_iff]
  constructor
  · rintro ⟨r, hr, rfl⟩
    exact ⟨r, hr, rfl⟩
  · rintro ⟨r, hr, rfl⟩
    exact ⟨r, hr, rfl⟩

/-- **What all runs keep**: something of the shared state, and for every process
something at the point it is at. -/
theorem invariant {ok : P × A → Procs P L G → Prop} {I : G → Prop} {Q : P → L → G → Prop}
    (h0 : ∀ {s}, start s → I s.shared ∧ ∀ p, Q p (s.proc p) s.shared)
    (hown : ∀ {s p a r}, I s.shared → (∀ q, Q q (s.proc q) s.shared) → ok (p, a) s →
      next s.shared p (s.proc p) a = some r → I r.1 ∧ Q p r.2 r.1)
    (hother : ∀ {s p a r q}, I s.shared → (∀ q, Q q (s.proc q) s.shared) → ok (p, a) s →
      next s.shared p (s.proc p) a = some r → q ≠ p → Q q (s.proc q) r.1)
    {s : Procs P L G} (h : (runs start next).ReachIf ok s) :
    I s.shared ∧ ∀ p, Q p (s.proc p) s.shared := by
  refine Lts.ReachIf.invariant (I := fun s => I s.shared ∧ ∀ p, Q p (s.proc p) s.shared) h0 ?_ h
  rintro s ⟨p, a⟩ s' ⟨hI, hAt⟩ hok hst
  obtain ⟨r, hr, rfl⟩ := step_iff.mp hst
  obtain ⟨hI', hp⟩ := hown hI hAt hok hr
  refine ⟨hI', fun q => ?_⟩
  by_cases hq : q = p
  · subst hq
    rw [move_proc_self]
    exact hp
  · rw [move_proc_ne _ _ hq]
    exact hother hI hAt hok hr hq

/-! ### What a process has taken from a counter -/

/-- No number is owned twice, and the owned ones are below the counter. -/
structure Owned (owns : L → ℕ → Prop) (fresh : G → ℕ) (s : Procs P L G) : Prop where
  unique : ∀ p q n, owns (s.proc p) n → owns (s.proc q) n → p = q
  below : ∀ p n, owns (s.proc p) n → n < fresh s.shared

/-- **Owned are unique** if a process comes to own only the next number of the counter, which moves
on with it. -/
theorem owned_of_reach {owns : L → ℕ → Prop} {fresh : G → ℕ} {ok : P × A → Procs P L G → Prop}
    (h0 : ∀ {s}, start s → ∀ p n, ¬ owns (s.proc p) n)
    (hstep : ∀ {g p l a r}, next g p l a = some r → fresh g ≤ fresh r.1 ∧
      ∀ n, owns r.2 n → owns l n ∨ n = fresh g ∧ fresh g < fresh r.1)
    {s : Procs P L G} (h : (runs start next).ReachIf ok s) : Owned owns fresh s := by
  refine Lts.ReachIf.invariant (I := Owned owns fresh) ?_ ?_ h
  · intro s hs
    exact ⟨fun p q n hp _ => absurd hp (h0 hs p n), fun p n hp => absurd hp (h0 hs p n)⟩
  rintro s ⟨p, a⟩ s' ho - hst
  obtain ⟨r, hr, rfl⟩ := step_iff.mp hst
  obtain ⟨hle, hnew⟩ := hstep hr
  -- what the mover owns it owned before, or it is the next number
  have hmove : ∀ q n, owns ((s.move p r).proc q) n →
      owns (s.proc q) n ∨ q = p ∧ n = fresh s.shared ∧ fresh s.shared < fresh r.1 := by
    intro q n hq
    by_cases hqp : q = p
    · subst hqp
      rw [move_proc_self] at hq
      exact (hnew n hq).imp_right fun h => ⟨rfl, h⟩
    · rw [move_proc_ne _ _ hqp] at hq
      exact Or.inl hq
  refine ⟨fun q q' n hq hq' => ?_, fun q n hq => ?_⟩
  · rcases hmove q n hq with hold | ⟨rfl, hn, -⟩
    · rcases hmove q' n hq' with hold' | ⟨-, hn', -⟩
      · exact ho.unique q q' n hold hold'
      · exact absurd (ho.below q n hold) (by omega)
    · rcases hmove q' n hq' with hold' | ⟨h', -, -⟩
      · exact absurd (ho.below q' n hold') (by omega)
      · exact h'.symm
  · show n < fresh r.1
    rcases hmove q n hq with hold | ⟨-, hn, hlt⟩
    · exact (ho.below q n hold).trans_le hle
    · omega

/-! ### Runs that are computed -/

/-- The state after a list of statements, if each can run and meets the check. -/
def execIf (next : G → P → L → A → Option (G × L)) (check : P × A → Procs P L G → Bool) :
    Procs P L G → List (P × A) → Option (Procs P L G)
  | s, [] => some s
  | s, (p, a) :: rest =>
    if check (p, a) s then (next s.shared p (s.proc p) a).bind fun r =>
      execIf next check (s.move p r) rest else none

def exec (next : G → P → L → A → Option (G × L)) :
    Procs P L G → List (P × A) → Option (Procs P L G) :=
  execIf next fun _ _ => true

theorem exec_cons {s s' : Procs P L G} {p : P} {a : A} {r : G × L} {rest : List (P × A)}
    (hr : next s.shared p (s.proc p) a = some r) (h : exec next (s.move p r) rest = some s') :
    exec next s ((p, a) :: rest) = some s' := by
  show (next s.shared p (s.proc p) a).bind _ = _
  rw [hr]
  exact h

/-- What a list of statements reaches is reachable, if the check gives the condition. -/
theorem reach_execIf {ok : P × A → Procs P L G → Prop} {check : P × A → Procs P L G → Bool} :
    ∀ {l : List (P × A)} {s s' : Procs P L G}, (runs start next).ReachIf ok s →
    execIf next check s l = some s' → (∀ a ∈ l, ∀ s, check a s = true → ok a s) →
    (runs start next).ReachIf ok s'
  | [], s, s', h, he, _ => Option.some.inj he ▸ h
  | (p, a) :: rest, s, s', h, he, hok => by
    unfold execIf at he
    split_ifs at he with hc
    obtain ⟨r, hr, he'⟩ := Option.bind_eq_some_iff.mp he
    exact reach_execIf (.step h (hok _ List.mem_cons_self s hc) (step_iff.mpr ⟨r, hr, rfl⟩)) he'
      fun b hb => hok b (List.mem_cons_of_mem _ hb)

theorem reach_exec {ok : P × A → Procs P L G → Prop} {l : List (P × A)} {s s' : Procs P L G}
    (h : (runs start next).ReachIf ok s) (he : exec next s l = some s')
    (hok : ∀ a ∈ l, ∀ s, ok a s) :
    (runs start next).ReachIf ok s' :=
  reach_execIf h he fun a ha s _ => hok a ha s

end Procs
