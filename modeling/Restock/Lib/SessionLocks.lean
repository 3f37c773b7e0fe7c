/-
# Locks of sessions

A lock belongs to a session. The session may take it again, and has to give it up as
often as it took it (`tryLock`, `unlock`); a session that ends gives up all it has
(`drop`). Nothing here waits: a lock that another session has is refused.

`Own c ks` says that a session has the given locks, each once, and no other. It is kept
by what the other sessions do (`Own.other`).
-/
import Restock.Lib.Dict

structure SessionLocks (C K : Type) where
  /-- The session that has a lock, and how often it took it. -/
  owner : Dict K (C × ℕ)

namespace SessionLocks

variable {C K : Type} [DecidableEq C] [DecidableEq K]

def empty : SessionLocks C K := ⟨.empty⟩

/-- The lock is taken, or it is refused because another session has it. -/
def tryLock (l : SessionLocks C K) (c : C) (k : K) : Option (SessionLocks C K) :=
  match l.owner.get? k with
  | none => some ⟨l.owner.set k (c, 1)⟩
  | some (c', n) => if c' = c then some ⟨l.owner.set k (c, n + 1)⟩ else none

/-- The lock is given up once. -/
def unlock (l : SessionLocks C K) (c : C) (k : K) : SessionLocks C K :=
  match l.owner.get? k with
  | none => l
  | some (c', n) =>
    if c' = c then
      if n ≤ 1 then ⟨l.owner.filter fun k' _ => k' ≠ k⟩ else ⟨l.owner.set k (c, n - 1)⟩
    else l

/-- The session ends. -/
def drop (l : SessionLocks C K) (c : C) : SessionLocks C K := ⟨l.owner.filter fun _ o => o.1 ≠ c⟩

/-- The session has these locks, each once, and no other. -/
def Own (l : SessionLocks C K) (c : C) (ks : List K) :
    Prop := ∀ k n, l.owner.get? k = some (c, n) ↔ n = 1 ∧ k ∈ ks

/-- The other sessions have what they had. -/
def Keeps (c : C) (l l' : SessionLocks C K) : Prop :=
  ∀ c', c' ≠ c → ∀ k n, l'.owner.get? k = some (c', n) ↔ l.owner.get? k = some (c', n)

variable {l l' : SessionLocks C K} {c c' : C} {k : K} {ks : List K}

omit [DecidableEq C] in
theorem Own.other (h : l.Own c' ks) (hl : Keeps c l l') (hne : c' ≠ c) : l'.Own c' ks :=
  fun k n => (hl c' hne k n).trans (h k n)

omit [DecidableEq C] in
theorem Own.congr {ks' : List K} (h : l.Own c ks) (hks : ∀ k, k ∈ ks' ↔ k ∈ ks) : l.Own c ks' :=
  fun k n => (h k n).trans (and_congr_right fun _ => (hks k).symm)

omit [DecidableEq C] in
theorem own_nil (h : ∀ k n, l.owner.get? k ≠ some (c, n)) : l.Own c [] :=
  fun k n => ⟨fun hk => absurd hk (h k n), fun hk => absurd hk.2 List.not_mem_nil⟩

omit [DecidableEq C] in
/-- A lock changes hands only between free and the session. -/
theorem keeps_of_owner {o : Option (C × ℕ)} (hk : ∀ c' n, c' ≠ c → l.owner.get? k ≠ some (c', n))
    (ho : ∀ c' n, c' ≠ c → o ≠ some (c', n))
    (hget : ∀ k', l'.owner.get? k' = if k' = k then o else l.owner.get? k') : Keeps c l l' := by
  intro c' hne k' n
  rw [hget k']
  split_ifs with he
  · subst he
    exact ⟨fun h => absurd h (ho c' n hne), fun h => absurd h (hk c' n hne)⟩
  · rfl

/-- A lock that is taken was free, or the session had it. -/
theorem tryLock_cases (h : l.tryLock c k = some l') :
    l.owner.get? k = none ∧ l' = ⟨l.owner.set k (c, 1)⟩ ∨
      ∃ n, l.owner.get? k = some (c, n) ∧ l' = ⟨l.owner.set k (c, n + 1)⟩ := by
  unfold tryLock at h
  split at h
  · rename_i hk
    exact Or.inl ⟨hk, (Option.some.inj h).symm⟩
  · rename_i c' n hk
    split_ifs at h with hc
    exact Or.inr ⟨n, hc ▸ hk, (Option.some.inj h).symm⟩

theorem keeps_tryLock (h : l.tryLock c k = some l') : Keeps c l l' := by
  rcases tryLock_cases h with ⟨hk, rfl⟩ | ⟨n, hk, rfl⟩
  · refine keeps_of_owner (k := k) (o := some (c, 1)) (fun c' m _ hm => ?_) (fun c' m hne hm => ?_)
      fun k' => Dict.get?_set _ _ _ _
    · rw [hk] at hm
      cases hm
    · exact hne (Prod.mk.inj (Option.some.inj hm)).1.symm
  · refine keeps_of_owner (k := k) (o := some (c, n + 1)) (fun c' m hne hm => ?_)
      (fun c' m hne hm => ?_)
      fun k' => Dict.get?_set _ _ _ _
    · rw [hk] at hm
      exact hne (Prod.mk.inj (Option.some.inj hm)).1.symm
    · exact hne (Prod.mk.inj (Option.some.inj hm)).1.symm

theorem Own.tryLock (h : l.Own c ks) (hk : k ∉ ks) (hl : l.tryLock c k = some l') :
    l'.Own c (ks ++ [k]) := by
  rcases tryLock_cases hl with ⟨-, rfl⟩ | ⟨n, hn, -⟩
  · intro k' n
    show (l.owner.set k (c, 1)).get? k' = _ ↔ _
    rw [Dict.get?_set, List.mem_append, List.mem_singleton]
    split_ifs with he
    · subst he
      simp [eq_comm]
    · rw [h k' n, or_iff_left he]
  · exact absurd ((h k n).mp hn).2 hk

omit [DecidableEq C] in
theorem get?_remove (l : SessionLocks C K) (k k' : K) :
    (l.owner.filter fun k₀ _ => k₀ ≠ k).get? k' = if k' = k then none else l.owner.get? k' := by
  rw [Dict.get?_filter]
  split_ifs with he
  · subst he
    cases l.owner.get? k' <;> simp [Option.filter]
  · cases l.owner.get? k' <;> simp [Option.filter, he]

theorem keeps_unlock (l : SessionLocks C K) (c : C) (k : K) : Keeps c l (l.unlock c k) := by
  unfold unlock
  split
  · exact fun _ _ _ _ => Iff.rfl
  · rename_i c' n hk
    split_ifs with hc hn
    · refine keeps_of_owner (k := k) (o := none) (fun c₁ m hne hm => ?_) nofun (l.get?_remove k)
      rw [hk] at hm
      exact hne ((Prod.mk.inj (Option.some.inj hm)).1.symm.trans hc)
    · refine keeps_of_owner (k := k) (o := some (c, n - 1)) (fun c₁ m hne hm => ?_)
        (fun c₁ m hne hm => ?_)
        fun k' => Dict.get?_set _ _ _ _
      · rw [hk] at hm
        exact hne ((Prod.mk.inj (Option.some.inj hm)).1.symm.trans hc)
      · exact hne (Prod.mk.inj (Option.some.inj hm)).1.symm
    · exact fun _ _ _ _ => Iff.rfl

theorem Own.unlock (h : l.Own c (k :: ks)) (hk : k ∉ ks) : (l.unlock c k).Own c ks := by
  have hown : l.owner.get? k = some (c, 1) := (h k 1).mpr ⟨rfl, List.mem_cons_self⟩
  have heq : l.unlock c k = ⟨l.owner.filter fun k' _ => k' ≠ k⟩ := by
    unfold SessionLocks.unlock
    rw [hown]
    simp
  rw [heq]
  intro k' n
  show (l.owner.filter _).get? k' = _ ↔ _
  rw [get?_remove]
  split_ifs with he
  · subst he
    simp [hk]
  · rw [h k' n, List.mem_cons, or_iff_right he]

theorem get?_drop (l : SessionLocks C K) (c : C) (k : K) {o : C × ℕ} :
    (l.drop c).owner.get? k = some o ↔ l.owner.get? k = some o ∧ o.1 ≠ c := by
  show (l.owner.filter _).get? k = _ ↔ _
  rw [Dict.get?_filter, Option.filter_eq_some_iff, decide_eq_true_eq]

theorem keeps_drop (l : SessionLocks C K) (c : C) : Keeps c l (l.drop c) :=
  fun _ hne k _ => (l.get?_drop c k).trans (and_iff_left hne)

end SessionLocks
