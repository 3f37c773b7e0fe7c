/-
# Tables under READ COMMITTED

A table holds its committed rows and the rows that open transactions have locked,
each with the version the owner will leave (`none` for a row it deletes). A statement
of a transaction sees the committed rows and its own versions (`view`); it takes a
locked row only when the owner is done, and then looks at the row again (`update`).
Committing puts the versions of the owner in place, rolling back drops them.

Committed rows stand in the order in which they were first committed. What a
transaction can do to a table is `Moves`; it leaves the locks of the others
(`Moves.held_other`) and changes only rows it had locked (`Moves.committed_cases`).
-/
import Restock.Lib.Dict

namespace Dict

variable {K V : Type*} [DecidableEq K]

/-- The row at a key becomes `v`, or goes. -/
def put (d : Dict K V) (k : K) : Option V → Dict K V
  | some v => d.set k v
  | none => d.filter fun k' _ => k' ≠ k

theorem get?_put (d : Dict K V) (k k' : K) (v : Option V) :
    (d.put k v).get? k' = if k' = k then v else d.get? k' := by
  cases v with
  | some v => exact get?_set d k k' v
  | none =>
    show (d.filter _).get? k' = _
    rw [get?_filter]
    split_ifs with h
    · subst h
      cases d.get? k' <;> simp [Option.filter]
    · cases d.get? k' <;> simp [Option.filter, h]

def putAll (d : Dict K V) (l : List (K × Option V)) :
    Dict K V := l.foldl (fun d e => d.put e.1 e.2) d

theorem get?_putAll : ∀ (l : List (K × Option V)), (l.map Prod.fst).Nodup →
    ∀ (d : Dict K V) (k : K), (d.putAll l).get? k = (l.lookup k).getD (d.get? k)
  | [], _, _, _ => rfl
  | e :: l, hn, d, k => by
    rw [List.map_cons, List.nodup_cons] at hn
    show ((d.put e.1 e.2).putAll l).get? k = _
    rw [get?_putAll l hn.2, get?_put, lookup_cons_ite]
    by_cases hk : k = e.1
    · subst hk
      have hnone : l.lookup e.1 = none := by
        rw [List.lookup_eq_none_iff]
        intro x hx
        have hne : e.1 ≠ x.1 := fun h => hn.1 (h ▸ List.mem_map_of_mem hx)
        simpa using hne
      simp [hnone]
    · rw [if_neg hk, if_neg hk]

end Dict

namespace ReadCommitted

structure Table (P K V : Type) where
  committed : Dict K V
  locks : Dict K (P × Option V)

namespace Table

variable {P K V : Type} [DecidableEq P] [DecidableEq K] (t : Table P K V) (p : P)

/-- The row that a statement of `p` sees. -/
def view (k : K) : Option V :=
  match t.locks.get? k with
  | some (q, v) => if q = p then v else t.committed.get? k
  | none => t.committed.get? k

/-- No other transaction has the row. -/
def free (k : K) : Bool := (t.locks.get? k).all fun lock => lock.1 = p

/-- The keys of the rows that a statement of `p` finds. -/
def select (cond : V → Bool) : List K :=
  (t.committed.keys ++ t.locks.keys.filter (· ∉ t.committed.keys)).filter fun k =>
    (t.view p k).any cond

/-- `p` has the row, and will leave it as `v`. -/
def write (k : K) (v : Option V) : Table P K V := { t with locks := t.locks.set k (p, v) }

/-- A row of an `UPDATE`, a `DELETE` or a `SELECT … FOR UPDATE`: wait for it, look at
it again, and change it if it still meets the condition. -/
def update (k : K) (cond : V → Bool) (f : V → Option V) : Option (Table P K V) :=
  if t.free p k then
    some (match t.view p k with
      | some v => if cond v then t.write p k (f v) else t
      | none => t)
  else none

/-- The rows that `p` will change. -/
def pending : List (K × Option V) :=
  t.locks.items.filterMap fun e => if e.2.1 = p then some (e.1, e.2.2) else none

def commit : Table P K V :=
  ⟨t.committed.putAll (t.pending p), t.locks.filter fun _ lock => lock.1 ≠ p⟩

def abort : Table P K V := { t with locks := t.locks.filter fun _ lock => lock.1 ≠ p }

/-- `p` has no row of the table. -/
def Unlocked : Prop := ∀ k v, t.locks.get? k ≠ some (p, v)

variable {t p}

theorem view_of_held {k : K} {v : Option V} (h : t.locks.get? k = some (p, v)) :
    t.view p k = v := by
  simp [view, h]

theorem view_of_not_held {k : K} (h : ∀ v, t.locks.get? k ≠ some (p, v)) :
    t.view p k = t.committed.get? k := by
  unfold view
  cases hl : t.locks.get? k with
  | none => rfl
  | some lock =>
    obtain ⟨q, v⟩ := lock
    have hq : q ≠ p := fun e => h v (e ▸ hl)
    simp [hq]

theorem view_cases (t : Table P K V) (p : P) (k : K) : t.locks.get? k = some (p, t.view p k) ∨
    (∀ v, t.locks.get? k ≠ some (p, v)) ∧ t.view p k = t.committed.get? k := by
  by_cases h : ∃ v, t.locks.get? k = some (p, v)
  · obtain ⟨v, hv⟩ := h
    exact Or.inl (by rw [view_of_held hv]; exact hv)
  · push Not at h
    exact Or.inr ⟨h, view_of_not_held h⟩

theorem free_iff {k : K} : t.free p k = true ↔ ∀ q v, t.locks.get? k = some (q, v) → q = p := by
  unfold free
  cases t.locks.get? k with
  | none => simp
  | some lock =>
    obtain ⟨q, v⟩ := lock
    simp

theorem mem_select {k : K} {cond : V → Bool} :
    k ∈ t.select p cond ↔ ∃ v, t.view p k = some v ∧ cond v = true := by
  unfold select
  rw [List.mem_filter, Option.any_eq_true]
  constructor
  · rintro ⟨-, v, hv, hc⟩
    exact ⟨v, hv, hc⟩
  · rintro ⟨v, hv, hc⟩
    refine ⟨?_, v, hv, hc⟩
    rw [List.mem_append, List.mem_filter, decide_eq_true_eq]
    by_cases hk : k ∈ t.committed.keys
    · exact Or.inl hk
    · refine Or.inr ⟨?_, hk⟩
      rcases view_cases t p k with h | ⟨-, h⟩
      · exact Dict.mem_keys_iff.mpr ⟨_, h⟩
      · rw [hv] at h
        exact absurd (Dict.mem_keys_iff.mpr ⟨v, h.symm⟩) hk

/-! ### Committing -/

omit [DecidableEq K] in
theorem nodup_pending (t : Table P K V) (p : P) : ((t.pending p).map Prod.fst).Nodup := by
  have hsub : List.Sublist ((t.pending p).map Prod.fst) (t.locks.items.map Prod.fst) := by
    unfold pending
    induction t.locks.items with
    | nil => exact List.Sublist.refl _
    | cons e l ih =>
      rw [List.filterMap_cons]
      split_ifs
      · exact ih.cons_cons _
      · exact ih.cons _
  exact t.locks.nodup.sublist hsub

theorem lookup_pending {k : K} {v : Option V} :
    (t.pending p).lookup k = some v ↔ t.locks.get? k = some (p, v) := by
  rw [Dict.lookup_eq_some_iff (nodup_pending t p), Dict.get?_eq_some_iff, pending,
    List.mem_filterMap]
  constructor
  · rintro ⟨⟨k', q, v'⟩, he, hv⟩
    split_ifs at hv with hq
    obtain ⟨rfl, rfl⟩ := Prod.mk.inj (Option.some.inj hv)
    exact hq ▸ he
  · intro he
    exact ⟨(k, p, v), he, if_pos rfl⟩

/-- Committing leaves what the owner saw. -/
theorem get?_commit (t : Table P K V) (p : P) (k : K) :
    (t.commit p).committed.get? k = t.view p k := by
  show (t.committed.putAll (t.pending p)).get? k = _
  rw [Dict.get?_putAll _ (nodup_pending t p)]
  rcases view_cases t p k with h | ⟨hno, h⟩
  · rw [lookup_pending.mpr h]
    rfl
  · have hnone : (t.pending p).lookup k = none := by
      cases hl : (t.pending p).lookup k with
      | none => rfl
      | some v => exact absurd (lookup_pending.mp hl) (hno v)
    rw [hnone, h]
    rfl

theorem pending_of_unlocked (h : t.Unlocked p) : t.pending p = [] := by
  rw [List.eq_nil_iff_forall_not_mem]
  rintro ⟨k, v⟩ hm
  exact h k v (lookup_pending.mp ((Dict.lookup_eq_some_iff (nodup_pending t p)).mpr hm))

/-- A transaction that has a single row. -/
theorem pending_of_held {k : K} {v : Option V} (h : t.locks.get? k = some (p, v))
    (hk : ∀ k' v', t.locks.get? k' = some (p, v') → k' = k) : t.pending p = [(k, v)] := by
  refine Dict.items_eq_singleton (d := ⟨t.pending p, nodup_pending t p⟩) (lookup_pending.mpr h)
    fun k' hne => ?_
  rw [Option.eq_none_iff_forall_not_mem]
  intro v' hv'
  exact hne (hk k' v' (lookup_pending.mp hv'))

theorem commit_of_unlocked (h : t.Unlocked p) : (t.commit p).committed = t.committed := by
  show t.committed.putAll (t.pending p) = t.committed
  rw [pending_of_unlocked h]
  rfl

/-- A transaction without rows ends without a trace. -/
theorem abort_eq_self (h : t.Unlocked p) : t.abort p = t := by
  have hlocks : (t.locks.filter fun _ lock => lock.1 ≠ p) = t.locks := by
    refine Dict.filter_eq_self fun k lock hk => decide_eq_true fun he => ?_
    exact h k lock.2 (he ▸ hk)
  cases t
  exact congrArg _ hlocks

theorem commit_eq_self (h : t.Unlocked p) : t.commit p = t :=
  calc t.commit p = ⟨(t.commit p).committed, (t.abort p).locks⟩ := rfl
    _ = ⟨t.committed, t.locks⟩ := by rw [commit_of_unlocked h, abort_eq_self h]

theorem commit_of_held {k : K} {v : V} (h : t.locks.get? k = some (p, some v))
    (hk : ∀ k' v', t.locks.get? k' = some (p, v') → k' = k) :
    (t.commit p).committed = t.committed.set k v := by
  show t.committed.putAll (t.pending p) = _
  rw [pending_of_held h hk]
  rfl

theorem get?_locks_drop (t : Table P K V) (p : P) (k : K) {q : P} {v : Option V} :
    (t.locks.filter fun _ lock => lock.1 ≠ p).get? k = some (q, v) ↔ q ≠ p ∧
    t.locks.get? k = some (q, v) := by
  rw [Dict.get?_filter, Option.filter_eq_some_iff]
  simp [and_comm]

theorem unlocked_commit (t : Table P K V) (p : P) : (t.commit p).Unlocked p :=
  fun k _ h => ((get?_locks_drop t p k).mp h).1 rfl

theorem unlocked_abort (t : Table P K V) (p : P) : (t.abort p).Unlocked p :=
  fun k _ h => ((get?_locks_drop t p k).mp h).1 rfl

theorem Unlocked.view (h : t.Unlocked p) (k : K) :
    t.view p k = t.committed.get? k := view_of_not_held (h k)

omit [DecidableEq P] in
theorem get?_locks_write (t : Table P K V) (p : P) (k k' : K) (v : Option V) :
    (t.write p k v).locks.get? k' = if k' = k then some (p, v) else t.locks.get? k' :=
  Dict.get?_set t.locks k k' (p, v)

/-- What the owner sees of a row it has written, and of the others. -/
theorem view_write (t : Table P K V) (p : P) (k k' : K) (v : Option V) :
    (t.write p k v).view p k' = if k' = k then v else t.view p k' := by
  unfold view
  rw [get?_locks_write]
  by_cases hk : k' = k
  · simp [hk]
  · rw [if_neg hk, if_neg hk]
    rfl

/-! ### What a transaction can do -/

/-- What one statement of `p` does to a table. -/
inductive Moves (p : P) : Table P K V → Table P K V → Prop
  | same {t : Table P K V} : Moves p t t
  | write {t : Table P K V} {k : K} {v : Option V} : t.free p k = true → Moves p t (t.write p k v)
  | commit {t : Table P K V} : Moves p t (t.commit p)
  | abort {t : Table P K V} : Moves p t (t.abort p)

variable {t' : Table P K V}

/-- A row of a statement: it is changed, or it is left because it is gone or no
longer meets the condition. -/
theorem update_cases {k : K} {cond : V → Bool} {f : V → Option V}
    (h : t.update p k cond f = some t') :
    t.free p k = true ∧ ((∃ v, t.view p k = some v ∧ cond v = true ∧ t' = t.write p k (f v)) ∨
      (∀ v, t.view p k = some v → cond v = false) ∧ t' = t) := by
  unfold update at h
  split_ifs at h with hfree
  refine ⟨hfree, ?_⟩
  rw [← Option.some.inj h]
  cases hv : t.view p k with
  | none => exact Or.inr ⟨fun v he => absurd he (by simp), rfl⟩
  | some v =>
    cases hc : cond v with
    | true => exact Or.inl ⟨v, rfl, hc, by simp [hc]⟩
    | false =>
      refine Or.inr ⟨fun v' he => ?_, by simp [hc]⟩
      rw [← Option.some.inj he]
      exact hc

/-- A statement changes no committed row. -/
theorem update_committed {k : K} {cond : V → Bool} {f : V → Option V}
    (h : t.update p k cond f = some t') : t'.committed = t.committed := by
  obtain ⟨-, ⟨v, -, -, rfl⟩ | ⟨-, rfl⟩⟩ := update_cases h
  · rfl
  · rfl

/-- The locks of `p` after a statement: the one it took and those it had. -/
theorem update_held {k k' : K} {cond : V → Bool} {f : V → Option V} {w : Option V}
    (h : t.update p k cond f = some t') (hw : t'.locks.get? k' = some (p, w)) :
    t.locks.get? k' = some (p, w) ∨
    (k' = k ∧ ∃ v, t.view p k = some v ∧ cond v = true ∧ w = f v) := by
  obtain ⟨-, ⟨v, hv, hc, rfl⟩ | ⟨-, rfl⟩⟩ := update_cases h
  · rw [get?_locks_write] at hw
    split_ifs at hw with hk
    · exact Or.inr ⟨hk, v, hv, hc, (Prod.mk.inj (Option.some.inj hw)).2.symm⟩
    · exact Or.inl hw
  · exact Or.inl hw

theorem moves_update {k : K} {cond : V → Bool} {f : V → Option V}
    (h : t.update p k cond f = some t') : Moves p t t' := by
  obtain ⟨hfree, ⟨v, -, -, rfl⟩ | ⟨-, rfl⟩⟩ := update_cases h
  · exact .write hfree
  · exact .same

/-- The locks of the others stay. -/
theorem Moves.held_other (h : Moves p t t') {q : P} (hq : q ≠ p) {k : K} {v : Option V} :
    t'.locks.get? k = some (q, v) ↔ t.locks.get? k = some (q, v) := by
  cases h with
  | same => rfl
  | write hfree =>
    rename_i k₀ v₀
    rw [get?_locks_write]
    split_ifs with hk
    · subst hk
      constructor
      · intro he
        exact absurd (Prod.mk.inj (Option.some.inj he)).1.symm hq
      · intro he
        exact absurd (free_iff.mp hfree q v he) hq
    · rfl
  | commit => exact (get?_locks_drop t p k).trans (and_iff_right hq)
  | abort => exact (get?_locks_drop t p k).trans (and_iff_right hq)

/-- A committed row changes only if the transaction had it. -/
theorem Moves.committed_cases (h : Moves p t t') (k : K) :
    t'.committed.get? k = t.committed.get? k ∨ t.locks.get? k = some (p, t'.committed.get? k) := by
  cases h with
  | same => exact Or.inl rfl
  | write hfree => exact Or.inl rfl
  | abort => exact Or.inl rfl
  | commit =>
    rw [get?_commit]
    rcases view_cases t p k with h | ⟨-, h⟩
    · exact Or.inr h
    · exact Or.inl h

/-- A row that another transaction has stays as it is committed. -/
theorem Moves.committed_of_held (h : Moves p t t') {q : P} (hq : q ≠ p) {k : K} {v : Option V}
    (hk : t.locks.get? k = some (q, v)) : t'.committed.get? k = t.committed.get? k := by
  rcases h.committed_cases k with h | h
  · exact h
  · rw [hk] at h
    exact absurd (Prod.mk.inj (Option.some.inj h)).1 hq

theorem Moves.unlocked_other (h : Moves p t t') {q : P} (hq : q ≠ p) (hu : t.Unlocked q) :
    t'.Unlocked q :=
  fun k v hk => hu k v ((h.held_other hq).mp hk)

/-! ### Keys from a sequence -/

/-- The keys from `n` on were never used. -/
def Fresh (t : Table P ℕ V) (n : ℕ) :
    Prop := ∀ k, n ≤ k → t.committed.get? k = none ∧ t.locks.get? k = none

section Fresh

variable {t t' : Table P ℕ V} {p : P} {n : ℕ}

omit [DecidableEq P] in
theorem Fresh.insert (h : t.Fresh n) (v : Option V) : (t.write p n v).Fresh (n + 1) := by
  intro k hk
  obtain ⟨hc, hl⟩ := h k (by omega)
  refine ⟨hc, ?_⟩
  rw [get?_locks_write, if_neg (by omega)]
  exact hl

theorem Fresh.free (h : t.Fresh n) : t.free p n = true :=
  free_iff.mpr fun q v hl => absurd hl (by rw [(h n le_rfl).2]; simp)

theorem Fresh.view (h : t.Fresh n) {k : ℕ} (hk : n ≤ k) : t.view p k = none := by
  obtain ⟨hc, hl⟩ := h k hk
  rw [view_of_not_held (fun v hv => by rw [hl] at hv; simp at hv), hc]

theorem Fresh.update (h : t.Fresh n) {k : ℕ} {cond : V → Bool} {f : V → Option V}
    (hu : t.update p k cond f = some t') : t'.Fresh n := by
  obtain ⟨-, ⟨v, hv, -, rfl⟩ | ⟨-, rfl⟩⟩ := update_cases hu
  · intro k' hk'
    refine ⟨(h k' hk').1, ?_⟩
    have hne : k' ≠ k := by
      intro he
      rw [he] at hk'
      rw [h.view hk'] at hv
      simp at hv
    rw [get?_locks_write, if_neg hne]
    exact (h k' hk').2
  · exact h

theorem Fresh.abort (h : t.Fresh n) (p : P) : (t.abort p).Fresh n := by
  intro k hk
  obtain ⟨hc, hl⟩ := h k hk
  refine ⟨hc, ?_⟩
  show (t.locks.filter _).get? k = none
  rw [Dict.get?_filter, hl]
  rfl

theorem Fresh.commit (h : t.Fresh n) (p : P) : (t.commit p).Fresh n := by
  intro k hk
  exact ⟨by rw [get?_commit, h.view hk], (h.abort p k hk).2⟩

end Fresh

end Table

end ReadCommitted
