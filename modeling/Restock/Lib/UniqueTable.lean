/-
# Tables with a unique key

The rows of a table by their ids, no two of them with the same key. A row is inserted
unless its id or its key is there already, and it is changed unless another row has its new
key.
-/
import Restock.Lib.Dict

structure UniqueTable {R K : Type} (key : R → K) where
  rows : Dict ℕ R
  unique : ∀ {id id' : ℕ} {row row' : R}, rows.get? id = some row → rows.get? id' = some row' →
    key row = key row' → id = id'

namespace UniqueTable

variable {R K : Type} [DecidableEq K] {key : R → K}

section Read

variable (t : UniqueTable key)

def get? (id : ℕ) : Option R := t.rows.get? id

/-- The row with the key. -/
def idOf (k : K) : Option ℕ := (t.rows.items.find? fun e => key e.2 = k).map Prod.fst

/-- `{row.key: row.id for row in rows}` of the rows with these keys. -/
def idsAmong (keys : List K) : Dict K ℕ :=
  Dict.ofList ((t.rows.items.filter fun e => key e.2 ∈ keys).map fun e => (key e.2, e.1))

end Read

variable {t t' : UniqueTable key} {id : ℕ} {row : R} {k : K}

omit [DecidableEq K] in
theorem mem_items_iff : (id, row) ∈ t.rows.items ↔ t.get? id = some row :=
  Dict.get?_eq_some_iff.symm

theorem idOf_eq_some_iff : t.idOf k = some id ↔ ∃ row, t.get? id = some row ∧ key row = k := by
  unfold idOf
  constructor
  · intro h
    obtain ⟨e, he, rfl⟩ := Option.map_eq_some_iff.mp h
    exact ⟨e.2, mem_items_iff.mp (List.mem_of_find?_eq_some he), by simpa using List.find?_some he⟩
  · intro h
    obtain ⟨row, hrow, hk⟩ := h
    have hfound : (t.rows.items.find? fun e => key e.2 = k).isSome = true :=
      List.find?_isSome.mpr ⟨(id, row), mem_items_iff.mpr hrow, by simpa using hk⟩
    obtain ⟨e, he⟩ := Option.isSome_iff_exists.mp hfound
    have hek : key e.2 = k := by simpa using List.find?_some he
    have hid : e.1 = id :=
      t.unique (mem_items_iff.mp (List.mem_of_find?_eq_some he)) hrow (hek.trans hk.symm)
    rw [he, Option.map_some, hid]

omit [DecidableEq K] in
theorem nodup_keys (t : UniqueTable key) : (t.rows.items.map fun e => key e.2).Nodup := by
  refine List.Nodup.map_on (fun e he e' he' hk => ?_) (List.Nodup.of_map _ t.rows.nodup)
  have hid : e.1 = e'.1 := t.unique (mem_items_iff.mp he) (mem_items_iff.mp he') hk
  have hrow : t.get? e'.1 = some e.2 := hid ▸ mem_items_iff.mp he
  exact Prod.ext hid (Option.some.inj (hrow.symm.trans (mem_items_iff.mp he')))

theorem get?_idsAmong {keys : List K} :
    (t.idsAmong keys).get? k = some id ↔ k ∈ keys ∧ t.idOf k = some id := by
  have hnodup : (((t.rows.items.filter fun e => key e.2 ∈ keys).map fun e => (key e.2, e.1)).map
      Prod.fst).Nodup := by
    rw [List.map_map]
    exact t.nodup_keys.sublist (List.Sublist.map _ List.filter_sublist)
  unfold idsAmong Dict.ofList
  rw [Dict.get?_foldl_set_of_nodup _ _ hnodup, Dict.get?_empty, Option.or_none,
    Dict.lookup_eq_some_iff hnodup, List.mem_map, idOf_eq_some_iff]
  constructor
  · intro h
    obtain ⟨e, he, heq⟩ := h
    obtain ⟨rfl, rfl⟩ := Prod.mk.inj heq
    obtain ⟨hmem, hkey⟩ := List.mem_filter.mp he
    exact ⟨of_decide_eq_true hkey, e.2, mem_items_iff.mp hmem, rfl⟩
  · intro h
    obtain ⟨hkey, row, hrow, rfl⟩ := h
    exact ⟨(id, row), List.mem_filter.mpr ⟨mem_items_iff.mpr hrow, decide_eq_true hkey⟩, rfl⟩

/-! ### Statements -/

omit [DecidableEq K] in
/-- A row that is set has a key of its own. -/
theorem unique_set (t : UniqueTable key) {id : ℕ} {row : R}
    (h : ∀ id' row', t.get? id' = some row' → key row' = key row → id' = id) {id₁ id₂ : ℕ}
    {row₁ row₂ : R} (h₁ : (t.rows.set id row).get? id₁ = some row₁)
    (h₂ : (t.rows.set id row).get? id₂ = some row₂) (hk : key row₁ = key row₂) : id₁ = id₂ := by
  rw [Dict.get?_set] at h₁ h₂
  split_ifs at h₁ h₂ with hid₁ hid₂ hid₂
  · exact hid₁.trans hid₂.symm
  · obtain rfl := Option.some.inj h₁
    exact hid₁.trans (h id₂ row₂ h₂ hk.symm).symm
  · obtain rfl := Option.some.inj h₂
    exact (h id₁ row₁ h₁ hk).trans hid₂.symm
  · exact t.unique h₁ h₂ hk

/-- No other row has the key. -/
def Free (t : UniqueTable key) (id : ℕ) (k : K) : Prop := (t.idOf k).all (· = id) = true

instance (t : UniqueTable key) (id : ℕ) (k : K) :
    Decidable (t.Free id k) := inferInstanceAs (Decidable (_ = true))

theorem Free.eq (h : t.Free id k) (id' : ℕ) (row' : R) (hrow : t.get? id' = some row')
    (hk : key row' = k) : id' = id := by
  have hid : t.idOf k = some id' := idOf_eq_some_iff.mpr ⟨row', hrow, hk⟩
  unfold Free at h
  rw [hid] at h
  exact of_decide_eq_true h

/-- The row in its place, or a row under a new id. -/
def put (t : UniqueTable key) (id : ℕ) (row : R) (h : t.Free id (key row)) :
    UniqueTable key := ⟨t.rows.set id row, t.unique_set h.eq⟩

def insert? (t : UniqueTable key) (id : ℕ) (row : R) : Option (UniqueTable key) :=
  if (t.get? id).isSome then none else if h :
    t.Free id (key row) then some (t.put id row h) else none

def update? (t : UniqueTable key) (id : ℕ) (row : R) : Option (UniqueTable key) :=
  if h : t.Free id (key row) then some (t.put id row h) else none

/-- `INSERT` of several rows, with ids from `next` on. -/
def insertAll? (t : UniqueTable key) (next : ℕ) : List R → Option (UniqueTable key)
  | [] => some t
  | row :: rows => (t.insert? next row).bind fun t' => t'.insertAll? (next + 1) rows

omit [DecidableEq K] in
theorem unique_empty {id id' : ℕ} {row row' : R} (h : (Dict.empty : Dict ℕ R).get? id = some row)
    (_ : (Dict.empty : Dict ℕ R).get? id' = some row') (_ : key row = key row') : id = id' := by
  cases h

def clear : UniqueTable key := ⟨.empty, unique_empty⟩

omit [DecidableEq K] in
theorem unique_delete (t : UniqueTable key) (id : ℕ) {id₁ id₂ : ℕ} {row₁ row₂ : R}
    (h₁ : (t.rows.filter fun id' _ => id' ≠ id).get? id₁ = some row₁)
    (h₂ : (t.rows.filter fun id' _ => id' ≠ id).get? id₂ = some row₂) (hk : key row₁ = key row₂) :
    id₁ = id₂ := by
  rw [Dict.get?_filter, Option.filter_eq_some_iff] at h₁ h₂
  exact t.unique h₁.1 h₂.1 hk

def delete (t : UniqueTable key) (id : ℕ) :
    UniqueTable key := ⟨t.rows.filter fun id' _ => id' ≠ id, t.unique_delete id⟩

theorem get?_put (h : t.Free id (key row)) (id' : ℕ) :
    (t.put id row h).get? id' = if id' = id then some row else t.get? id' :=
  Dict.get?_set _ _ _ _

theorem insert?_eq_some (h : t.insert? id row = some t') :
    t.get? id = none ∧ ∀ id', t'.get? id' = if id' = id then some row else t.get? id' := by
  unfold insert? at h
  by_cases hid : (t.get? id).isSome = true
  · rw [if_pos hid] at h
    cases h
  · rw [if_neg hid] at h
    split_ifs at h with hfree
    obtain rfl := Option.some.inj h
    exact ⟨by simpa using hid, get?_put hfree⟩

/-- The rows after an insertion. -/
theorem exists_insert? (h : t.insert? id row = some t') (row' : R) :
    (∃ id', t'.get? id' = some row') ↔ row' = row ∨ ∃ id', t.get? id' = some row' := by
  obtain ⟨hnew, hget⟩ := insert?_eq_some h
  constructor
  · intro h
    obtain ⟨id', hrow⟩ := h
    rw [hget] at hrow
    split_ifs at hrow with hid
    · exact Or.inl (Option.some.inj hrow).symm
    · exact Or.inr ⟨id', hrow⟩
  · intro h
    rcases h with rfl | ⟨id', hrow⟩
    · exact ⟨id, by rw [hget, if_pos rfl]⟩
    · refine ⟨id', ?_⟩
      rw [hget, if_neg, hrow]
      intro hid
      rw [hid, hnew] at hrow
      cases hrow

theorem exists_insertAll? :
    ∀ {rows : List R} {t : UniqueTable key} {next : ℕ}, t.insertAll? next rows = some t' →
    ∀ row', (∃ id, t'.get? id = some row') ↔ row' ∈ rows ∨ ∃ id, t.get? id = some row'
  | [], _, _, h, row' => by
    obtain rfl := Option.some.inj h
    simp
  | row :: rows, t, next, h, row' => by
    obtain ⟨t₁, h₁, h⟩ := Option.bind_eq_some_iff.mp h
    rw [exists_insertAll? h, exists_insert? h₁, List.mem_cons]
    tauto

end UniqueTable
