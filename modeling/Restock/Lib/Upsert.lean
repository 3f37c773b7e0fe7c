/-
# Upserts of several rows

A statement inserts a list of rows with different keys; where a key is there already its
row is replaced (`Dict.upsertAll`). In a table whose keys are pairs of a parent and a child,
upserting the rows of one parent and deleting its other rows leaves exactly the list under
that parent and touches no other (`Dict.get?_replaceUnder`, `Dict.under_perm`).
-/
import Restock.Lib.Dict

namespace Dict

section Rows

variable {K V : Type*} [DecidableEq K]

/-- `INSERT … ON CONFLICT DO UPDATE` of several rows. -/
def upsertAll (d : Dict K V) (l : List (K × V)) : Dict K V := l.foldl (fun d p => d.set p.1 p.2) d

theorem get?_upsertAll {l : List (K × V)} (hnd : (l.map Prod.fst).Nodup) (d : Dict K V) (k : K) :
    (d.upsertAll l).get? k = (l.lookup k).or (d.get? k) := get?_foldl_set_of_nodup l d hnd k

/-- One row, or none. -/
def upsert (d : Dict K V) (entry : Option (K × V)) : Dict K V := entry.elim d fun e => d.set e.1 e.2

theorem get?_upsert_of_ne {d : Dict K V} {entry : Option (K × V)} {k : K}
    (h : ∀ v, entry ≠ some (k, v)) : (d.upsert entry).get? k = d.get? k := by
  cases entry with
  | none => rfl
  | some e =>
    have hk : k ≠ e.1 := fun he => h e.2 (by rw [he])
    exact get?_set_ne d e.2 hk

/-- After upserts one by one a key has what its last row says, or what it had if no row is
about it. -/
theorem get?_foldl_upsert {R : Type*} (entry : R → Option (K × V)) (rows : List R) (d : Dict K V)
    {k : K} {v : V} :
    (rows.foldl (fun d r => d.upsert (entry r)) d).get? k = some v ↔
      (∃ earlier last later, rows = earlier ++ last :: later ∧ entry last = some (k, v) ∧
        ∀ r ∈ later, ∀ v', entry r ≠ some (k, v')) ∨
      d.get? k = some v ∧ ∀ r ∈ rows, ∀ v', entry r ≠ some (k, v') := by
  induction rows generalizing d with
  | nil => simp
  | cons row rows ih =>
    rw [List.foldl_cons, ih]
    constructor
    · intro h
      rcases h with ⟨earlier, last, later, rfl, hlast, hlater⟩ | ⟨hget, hrows⟩
      · exact Or.inl ⟨row :: earlier, last, later, rfl, hlast, hlater⟩
      · by_cases hrow : ∃ v', entry row = some (k, v')
        · obtain ⟨v', hv'⟩ := hrow
          rw [hv'] at hget
          have hv : v' = v := Option.some.inj ((get?_set_self d k v').symm.trans hget)
          exact Or.inl ⟨[], row, rows, rfl, hv ▸ hv', hrows⟩
        · push Not at hrow
          rw [get?_upsert_of_ne hrow] at hget
          exact Or.inr ⟨hget, List.forall_mem_cons.mpr ⟨hrow, hrows⟩⟩
    · intro h
      rcases h with ⟨earlier, last, later, hsplit, hlast, hlater⟩ | ⟨hget, hrows⟩
      · cases earlier with
        | nil =>
          obtain ⟨rfl, rfl⟩ := List.cons.inj hsplit
          refine Or.inr ⟨?_, hlater⟩
          rw [hlast]
          exact get?_set_self d k v
        | cons first earlier =>
          obtain ⟨-, rfl⟩ := List.cons.inj hsplit
          exact Or.inl ⟨earlier, last, later, rfl, hlast, hlater⟩
      · obtain ⟨hrow, hrest⟩ := List.forall_mem_cons.mp hrows
        exact Or.inr ⟨(get?_upsert_of_ne hrow).trans hget, hrest⟩

/-- The keys of a list, renamed. -/
theorem lookup_map_key {C : Type*} [DecidableEq C] {f : C → K} (hf : Function.Injective f) (c : C) :
    ∀ l : List (C × V), (l.map fun q => (f q.1, q.2)).lookup (f c) = l.lookup c
  | [] => rfl
  | q :: l => by
    rw [List.map_cons, lookup_cons_ite, lookup_cons_ite, lookup_map_key hf c l]
    simp [hf.eq_iff]

theorem lookup_map_key_none {C : Type*} {f : C → K} {k : K} (h : ∀ c, k ≠ f c) : ∀ l : List (C × V),
    (l.map fun q => (f q.1, q.2)).lookup k = none
  | [] => rfl
  | q :: l => by
    rw [List.map_cons, lookup_cons_ite, lookup_map_key_none h l]
    simp [h]

end Rows

section Under

variable {P C V : Type*} [DecidableEq P] [DecidableEq C]

/-- The rows of a parent. -/
def under (d : Dict (P × C) V) (p : P) :
    List (C × V) := d.items.filterMap fun q => if q.1.1 = p then some (q.1.2, q.2) else none

theorem mem_under {d : Dict (P × C) V} {p : P} {c : C} {v : V} :
    (c, v) ∈ d.under p ↔ d.get? (p, c) = some v := by
  rw [get?_eq_some_iff, under, List.mem_filterMap]
  constructor
  · rintro ⟨⟨⟨p', c'⟩, v'⟩, hq, hv⟩
    by_cases hp : p' = p
    · simp only [hp, if_true, Option.some.injEq, Prod.mk.injEq] at hv
      rw [← hv.1, ← hv.2, ← hp]
      exact hq
    · simp [hp] at hv
  · intro hq
    exact ⟨((p, c), v), hq, by simp⟩

omit [DecidableEq C] in
theorem nodup_under (d : Dict (P × C) V) (p : P) : (d.under p).Nodup := by
  have hitems : d.items.Nodup := List.Nodup.of_map _ d.nodup
  refine hitems.filterMap ?_
  rintro ⟨⟨p₁, c₁⟩, v₁⟩ ⟨⟨p₂, c₂⟩, v₂⟩ ⟨c, v⟩ h₁ h₂
  by_cases hp₁ : p₁ = p
  · by_cases hp₂ : p₂ = p
    · simp_all
    · simp [hp₂] at h₂
  · simp [hp₁] at h₁

/-- The rows of a parent, as a list that has each child once. -/
theorem under_perm {d : Dict (P × C) V} {p : P} {l : List (C × V)} (hnd : (l.map Prod.fst).Nodup)
    (h : ∀ c, d.get? (p, c) = l.lookup c) : (d.under p).Perm l := by
  refine (List.perm_ext_iff_of_nodup (nodup_under d p) (List.Nodup.of_map _ hnd)).mpr ?_
  rintro ⟨c, v⟩
  rw [mem_under, h c, lookup_eq_some_iff hnd]

/-- The rows of a parent are upserted, and its other rows deleted. -/
def replaceUnder (d : Dict (P × C) V) (p : P) (l : List (C × V)) : Dict (P × C) V :=
  (d.upsertAll (l.map fun q => ((p, q.1), q.2))).filter fun k _ => k.1 ≠ p || k.2 ∈ l.map Prod.fst

/-- **Exactly the given rows are left under the parent**, and the others are untouched. -/
theorem get?_replaceUnder {l : List (C × V)} (hnd : (l.map Prod.fst).Nodup) (d : Dict (P × C) V)
    (p p' : P) (c : C) :
    (d.replaceUnder p l).get? (p', c) = if p' = p then l.lookup c else d.get? (p', c) := by
  have hpairs : ((l.map fun q => ((p, q.1), q.2)).map Prod.fst).Nodup := by
    rw [List.map_map]
    have hcomp : (Prod.fst ∘ fun q : C × V => ((p, q.1), q.2)) = (fun c => (p, c)) ∘ Prod.fst := rfl
    rw [hcomp, ← List.map_map]
    exact hnd.map fun a b hab => (Prod.mk.inj hab).2
  rw [replaceUnder, get?_filter, get?_upsertAll hpairs]
  by_cases hp : p' = p
  · subst hp
    have hlookup := lookup_map_key (Prod.mk_right_injective p') c l
    rw [if_pos rfl, hlookup]
    by_cases hc : c ∈ l.map Prod.fst
    · obtain ⟨⟨c', v⟩, hq, rfl⟩ := List.mem_map.mp hc
      rw [(lookup_eq_some_iff hnd).mpr hq, Option.some_or, Option.filter_some]
      simp [hc]
    · have hno : l.lookup c = none := by
        rw [Option.eq_none_iff_forall_ne_some]
        intro v hv
        exact hc (List.mem_map.mpr ⟨_, (lookup_eq_some_iff hnd).mp hv, rfl⟩)
      rw [hno, Option.none_or, Option.filter_eq_none_iff]
      intro v _
      simp [hc]
  · have hlookup := lookup_map_key_none (f := Prod.mk p) (k := (p', c))
      (fun c' hc => hp (Prod.mk.inj hc).1) l
    rw [if_neg hp, hlookup, Option.none_or]
    cases d.get? (p', c) <;> simp [hp]

end Under

end Dict
