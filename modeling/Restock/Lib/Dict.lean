/-
# Insertion-ordered dictionaries

A dictionary is the list of its items in insertion order, with no key twice
(the field `nodup`). Setting a key that is there keeps its place, setting a
new key appends it, as Python's `dict` does.

The loops that fill a dictionary come in two kinds, each with one lemma that
says what a key holds at the end: a loop that overwrites (`ofList`,
`get?_ofList_iff`) and a loop that combines the new value with the one there
(`mergeAll`, `get?_mergeAll`); the second covers sums (`sumBy`,
`getD_sumBy`) and sets of values (`collect`, `mem_collect`).
-/
import Mathlib

/-- A dictionary: its items in insertion order, no key twice. -/
@[ext] structure Dict (K V : Type*) where
  items : List (K × V)
  nodup : (items.map Prod.fst).Nodup
deriving DecidableEq

namespace Dict

variable {K V W : Type*} [DecidableEq K]

/-- The empty dictionary. -/
def empty : Dict K V := ⟨[], by simp⟩

/-- `d.get(k)`. -/
def get? (d : Dict K V) (k : K) : Option V := d.items.lookup k

/-- `d.get(k, v)`. -/
def getD (d : Dict K V) (k : K) (v : V) : V := (d.get? k).getD v

/-- The keys in insertion order. -/
def keys (d : Dict K V) : List K := d.items.map Prod.fst

/-- The values in insertion order. -/
def values (d : Dict K V) : List V := d.items.map Prod.snd

/-- The items after `d[k] = v`. -/
def setItems : List (K × V) → K → V → List (K × V)
  | [], k, v => [(k, v)]
  | p :: ps, k, v => if p.1 = k then (k, v) :: ps else p :: setItems ps k v

theorem keys_setItems : ∀ (l : List (K × V)) (k : K) (v : V), (setItems l k v).map Prod.fst =
    if k ∈ l.map Prod.fst then l.map Prod.fst else l.map Prod.fst ++ [k]
  | [], _, _ => by simp [setItems]
  | p :: ps, k, v => by
    unfold setItems
    by_cases h : p.1 = k
    · simp [h]
    · have hk : k ≠ p.1 := fun e => h e.symm
      rw [if_neg h, List.map_cons, keys_setItems ps k v]
      by_cases hm : k ∈ ps.map Prod.fst
      · rw [if_pos hm, if_pos (by rw [List.map_cons]; exact List.mem_cons_of_mem _ hm),
          List.map_cons]
      · rw [if_neg hm, if_neg (by rw [List.map_cons, List.mem_cons]; tauto), List.map_cons,
          List.cons_append]

/-- `d[k] = v`. -/
def set (d : Dict K V) (k : K) (v : V) : Dict K V :=
  ⟨setItems d.items k v, by
    rw [keys_setItems]
    split_ifs with h
    · exact d.nodup
    · exact List.nodup_append'.mpr ⟨d.nodup, List.nodup_singleton k, by simpa using h⟩⟩

theorem lookup_cons_ite (p : K × V) (l : List (K × V)) (k : K) :
    (p :: l).lookup k = if k = p.1 then some p.2 else l.lookup k := by
  rw [List.lookup_cons]
  by_cases h : k = p.1
  · rw [if_pos h, beq_iff_eq.mpr h]
  · rw [if_neg h, beq_eq_false_iff_ne.mpr h]

theorem lookup_setItems : ∀ (l : List (K × V)) (k : K) (v : V) (k' : K),
    (setItems l k v).lookup k' = if k' = k then some v else l.lookup k'
  | [], k, v, k' => by rw [setItems, lookup_cons_ite]
  | p :: ps, k, v, k' => by
    unfold setItems
    by_cases h : p.1 = k
    · rw [if_pos h, lookup_cons_ite, lookup_cons_ite, h]
      split_ifs <;> rfl
    · rw [if_neg h, lookup_cons_ite, lookup_cons_ite, lookup_setItems ps k v k']
      by_cases h' : k' = p.1
      · rw [if_pos h', if_neg (h' ▸ h), if_pos h']
      · rw [if_neg h', if_neg h']

@[simp] theorem get?_empty (k : K) : (empty : Dict K V).get? k = none := rfl

theorem get?_set (d : Dict K V) (k k' : K) (v : V) :
    (d.set k v).get? k' = if k' = k then some v else d.get? k' :=
  lookup_setItems d.items k v k'

@[simp] theorem get?_set_self (d : Dict K V) (k : K) (v : V) : (d.set k v).get? k = some v := by
  rw [get?_set, if_pos rfl]

theorem get?_set_ne (d : Dict K V) {k k' : K} (v : V) (h : k' ≠ k) :
    (d.set k v).get? k' = d.get? k' := by
  rw [get?_set, if_neg h]

theorem lookup_eq_some_iff : ∀ {l : List (K × V)}, (l.map Prod.fst).Nodup → ∀ {k : K} {v : V},
    l.lookup k = some v ↔ (k, v) ∈ l
  | [], _, _, _ => by simp
  | p :: ps, hn, k, v => by
    obtain ⟨a, b⟩ := p
    simp only [List.map_cons, List.nodup_cons] at hn
    rw [lookup_cons_ite]
    by_cases h : k = a
    · subst h
      have : (k, v) ∉ ps := fun hm => hn.1 (List.mem_map.mpr ⟨_, hm, rfl⟩)
      simp [this, eq_comm]
    · simp [h, lookup_eq_some_iff hn.2]

/-- A key holds a value exactly if the pair is an item. -/
theorem get?_eq_some_iff {d : Dict K V} {k : K} {v : V} : d.get? k = some v ↔ (k, v) ∈ d.items :=
  lookup_eq_some_iff d.nodup

theorem mem_keys_iff {d : Dict K V} {k : K} : k ∈ d.keys ↔ ∃ v, d.get? k = some v := by
  simp [keys, get?_eq_some_iff]

theorem get?_eq_none_iff {d : Dict K V} {k : K} : d.get? k = none ↔ k ∉ d.keys := by
  rw [mem_keys_iff, Option.eq_none_iff_forall_ne_some]; push Not; rfl

/-- The items whose key and value satisfy `p`. -/
def filter (p : K → V → Bool) (d : Dict K V) : Dict K V :=
  ⟨d.items.filter fun q => p q.1 q.2, d.nodup.sublist (List.filter_sublist.map _)⟩

theorem get?_filter (p : K → V → Bool) (d : Dict K V) (k : K) :
    (d.filter p).get? k = (d.get? k).filter (p k) := by
  apply Option.ext
  intro v
  rw [get?_eq_some_iff, Option.filter_eq_some_iff, get?_eq_some_iff]
  simp [filter]

theorem filter_eq_self {p : K → V → Bool} {d : Dict K V}
    (h : ∀ k v, d.get? k = some v → p k v = true) : d.filter p = d := by
  have hitems : d.items.filter (fun e => p e.1 e.2) = d.items :=
    List.filter_eq_self.mpr fun e he => h e.1 e.2 (get?_eq_some_iff.mpr he)
  cases d
  simp only [filter, hitems]

/-- `d.pop(k, None)`. -/
def pop (d : Dict K V) (k : K) : Dict K V := d.filter fun k' _ => k' ≠ k

theorem get?_pop (d : Dict K V) (k k' : K) :
    (d.pop k).get? k' = if k' = k then none else d.get? k' := by
  rw [pop, get?_filter]
  by_cases h : k' = k
  · cases d.get? k' <;> simp [h]
  · cases d.get? k' <;> simp [h, Option.filter]

/-- The same keys with new values. -/
def mapVal (f : K → V → W) (d : Dict K V) : Dict K W :=
  ⟨d.items.map fun q => (q.1, f q.1 q.2), by
    simpa [List.map_map, Function.comp_def] using d.nodup⟩

theorem get?_mapVal (f : K → V → W) (d : Dict K V) (k : K) :
    (d.mapVal f).get? k = (d.get? k).map (f k) := by
  apply Option.ext
  intro w
  rw [get?_eq_some_iff, Option.map_eq_some_iff]
  simp only [mapVal, List.mem_map, Prod.mk.injEq, get?_eq_some_iff]
  constructor
  · rintro ⟨⟨a, b⟩, hm, rfl, rfl⟩
    exact ⟨b, hm, rfl⟩
  · rintro ⟨v, hv, rfl⟩
    exact ⟨(k, v), hv, rfl, rfl⟩

theorem setItems_map (f : V → W) (k : K) (v : V) : ∀ l : List (K × V),
    (setItems l k v).map (fun q => (q.1, f q.2)) = setItems (l.map fun q => (q.1, f q.2)) k (f v)
  | [] => rfl
  | q :: l => by
    by_cases h : q.1 = k
    · simp only [setItems, List.map_cons, if_pos h]
    · simp only [setItems, List.map_cons, if_neg h, setItems_map f k v l]

/-- Setting a value and then reading it is setting what is read. -/
theorem mapVal_set (f : V → W) (d : Dict K V) (k : K) (v : V) :
    (d.set k v).mapVal (fun _ => f) = (d.mapVal fun _ => f).set k (f v) :=
  Dict.ext (setItems_map f k v d.items)

/-- Leaving out inner dictionaries that are empty changes no lookup. -/
theorem getD_filter_nonEmpty {K' A : Type*} (f : K → A → Dict K' V) (d : Dict K A) (k : K) :
    ((d.mapVal f).filter fun _ inner => !inner.items.isEmpty).getD k empty =
    (d.get? k).elim empty (f k) := by
  rw [getD, get?_filter, get?_mapVal]
  cases d.get? k with
  | none => rfl
  | some a =>
    rw [Option.map_some, Option.elim_some]
    by_cases he : (f k a).items = []
    · simp only [Option.filter, he, List.isEmpty_nil, Bool.not_true, Bool.false_eq_true, if_false,
        Option.getD_none]
      exact Dict.ext he.symm
    · simp [Option.filter, he]

/-- What holds of every entry holds after an entry that has it is set. -/
theorem forall_set {P : K → V → Prop} {d : Dict K V} (h : ∀ k v, d.get? k = some v → P k v)
    {k₀ : K} {v₀ : V} (h₀ : P k₀ v₀) : ∀ k v, (d.set k₀ v₀).get? k = some v → P k v := by
  intro k v hk
  rw [get?_set] at hk
  split_ifs at hk with he
  · rw [he, ← Option.some.inj hk]
    exact h₀
  · exact h k v hk

theorem forall_mapVal {P : K → W → Prop} {f : K → V → W} {d : Dict K V}
    (h : ∀ k v, d.get? k = some v → P k (f k v)) : ∀ k w, (d.mapVal f).get? k = some w → P k w := by
  intro k w hk
  rw [get?_mapVal] at hk
  obtain ⟨v, hv, rfl⟩ := Option.map_eq_some_iff.mp hk
  exact h k v hv

/-- Replacing a value by one that reads alike keeps what the values read. -/
theorem map_values_set {g : V → W} {d : Dict K V} {k : K} {v v' : V} (hk : d.get? k = some v)
    (hg : g v = g v') : (d.set k v').values.map g = d.values.map g := by
  have h : ∀ l : List (K × V), l.lookup k = some v →
      ((setItems l k v').map Prod.snd).map g = (l.map Prod.snd).map g := by
    intro l hl
    induction l with
    | nil => simp at hl
    | cons q l ih =>
      rw [lookup_cons_ite] at hl
      unfold setItems
      by_cases hq : k = q.1
      · rw [if_pos hq] at hl
        rw [if_pos hq.symm, List.map_cons, List.map_cons, List.map_cons, List.map_cons, ← hg,
          Option.some.inj hl]
      · rw [if_neg hq] at hl
        rw [if_neg fun he => hq he.symm, List.map_cons, List.map_cons, List.map_cons,
          List.map_cons, ih hl]
  exact h d.items hk

theorem countP_values_set {p : V → Bool} {d : Dict K V} {k : K} {v v' : V} (hk : d.get? k = some v)
    (hp : p v = p v') : (d.set k v').values.countP p = d.values.countP p := by
  have h := congrArg (List.countP id) (map_values_set (g := p) hk hp)
  rwa [List.countP_map, List.countP_map] at h

theorem setItems_of_new {l : List (K × V)} {k : K} (h : k ∉ l.map Prod.fst) (v : V) :
    setItems l k v = l ++ [(k, v)] := by
  induction l with
  | nil => rfl
  | cons p l ih =>
    rw [List.map_cons, List.mem_cons, not_or] at h
    rw [setItems, if_neg fun he => h.1 he.symm, ih h.2, List.cons_append]

theorem items_set_of_new {d : Dict K V} {k : K} (h : d.get? k = none) (v : V) :
    (d.set k v).items = d.items ++ [(k, v)] :=
  setItems_of_new (get?_eq_none_iff.mp h) v

/-! ### Loops that overwrite -/

/-- `for k, v in l: d[k] = v`, from the empty dictionary. -/
def ofList (l : List (K × V)) : Dict K V := l.foldl (fun d p => d.set p.1 p.2) empty

theorem get?_foldl_set : ∀ (l : List (K × V)) (d : Dict K V) {k : K} {v : V},
    (l.foldl (fun d p => d.set p.1 p.2) d).get? k = some v → (k, v) ∈ l ∨ d.get? k = some v
  | [], _, _, _, h => Or.inr h
  | p :: ps, d, k, v, h => by
    rcases get?_foldl_set ps _ h with h | h
    · exact Or.inl (List.mem_cons_of_mem _ h)
    · rw [get?_set] at h
      split_ifs at h with hk
      · left
        obtain rfl : p.2 = v := by simpa using h
        rw [hk]
        exact List.mem_cons_self
      · exact Or.inr h

theorem isSome_foldl_set : ∀ (l : List (K × V)) (d : Dict K V) {k : K},
    (∃ v, (k, v) ∈ l) ∨ (d.get? k).isSome → ((l.foldl (fun d p => d.set p.1 p.2) d).get? k).isSome
  | [], _, _, h => by simpa using h
  | p :: ps, d, k, h => by
    refine isSome_foldl_set ps _ ?_
    rw [get?_set]
    split_ifs with hk
    · exact Or.inr rfl
    · rcases h with ⟨v, hv⟩ | h
      · rcases List.mem_cons.mp hv with rfl | hv
        · exact absurd rfl hk
        · exact Or.inl ⟨v, hv⟩
      · exact Or.inr h

/-- A loop that gives each key one value: the key holds it. -/
theorem get?_ofList_iff {l : List (K × V)} {k : K}
    (h : ∀ v v', (k, v) ∈ l → (k, v') ∈ l → v = v') {v : V} :
    (ofList l).get? k = some v ↔ (k, v) ∈ l := by
  constructor
  · intro hg
    rcases get?_foldl_set l empty hg with hm | hm
    · exact hm
    · simp at hm
  · intro hm
    obtain ⟨v', hv'⟩ := Option.isSome_iff_exists.mp
      (isSome_foldl_set l (empty : Dict K V) (Or.inl ⟨v, hm⟩))
    rcases get?_foldl_set l empty hv' with hm' | hm'
    · exact (h v v' hm hm') ▸ hv'
    · simp at hm'

/-- A loop over different keys overwrites what is there. -/
theorem get?_foldl_set_of_nodup : ∀ (l : List (K × V)) (d : Dict K V), (l.map Prod.fst).Nodup → ∀ k,
    (l.foldl (fun d p => d.set p.1 p.2) d).get? k = (l.lookup k).or (d.get? k)
  | [], _, _, _ => rfl
  | p :: l, d, hnd, k => by
    rw [List.map_cons, List.nodup_cons] at hnd
    rw [List.foldl_cons, get?_foldl_set_of_nodup l _ hnd.2, get?_set, lookup_cons_ite]
    by_cases hk : k = p.1
    · have hno : l.lookup k = none := by
        rw [Option.eq_none_iff_forall_ne_some]
        intro v hv
        exact hnd.1 (hk ▸ List.mem_map.mpr ⟨_, (lookup_eq_some_iff hnd.2).mp hv, rfl⟩)
      rw [if_pos hk, if_pos hk, hno, Option.none_or, Option.some_or]
    · rw [if_neg hk, if_neg hk]

theorem get?_foldl_set_of_mem {l : List (K × V)} (d : Dict K V) (hnd : (l.map Prod.fst).Nodup)
    {k : K} {v : V} (h : (k, v) ∈ l) : (l.foldl (fun d p => d.set p.1 p.2) d).get? k = some v := by
  rw [get?_foldl_set_of_nodup l d hnd, (lookup_eq_some_iff hnd).mpr h, Option.some_or]

/-- A key that a loop does not set keeps its value. -/
theorem get?_foldl_set_of_not_mem :
    ∀ (l : List (K × V)) (d : Dict K V) {k : K}, k ∉ l.map Prod.fst →
    (l.foldl (fun d p => d.set p.1 p.2) d).get? k = d.get? k
  | [], _, _, _ => rfl
  | p :: l, d, k, h => by
    rw [List.map_cons, List.mem_cons, not_or] at h
    rw [List.foldl_cons, get?_foldl_set_of_not_mem l _ h.2, get?_set_ne d p.2 h.1]

/-- The keys of an overwriting loop are those it sets. -/
theorem mem_keys_ofList {l : List (K × V)} {k : K} : k ∈ (ofList l).keys ↔ k ∈ l.map Prod.fst := by
  rw [mem_keys_iff, List.mem_map]
  constructor
  · rintro ⟨v, hv⟩
    rcases get?_foldl_set l empty hv with hm | hm
    · exact ⟨(k, v), hm, rfl⟩
    · simp at hm
  · rintro ⟨p, hp, rfl⟩
    exact Option.isSome_iff_exists.mp (isSome_foldl_set l (empty : Dict K V) (Or.inl ⟨p.2, hp⟩))

/-- `list(dict.fromkeys(l))`: the members of a list at their first places. -/
def fromKeys (l : List K) : List K := (ofList (l.map fun k => (k, ()))).keys

theorem mem_fromKeys {l : List K} {k : K} : k ∈ fromKeys l ↔ k ∈ l := by
  rw [fromKeys, mem_keys_iff]
  constructor
  · rintro ⟨v, hv⟩
    rw [get?_ofList_iff fun _ _ _ _ => rfl] at hv
    simpa using hv
  · intro hk
    exact ⟨(), (get?_ofList_iff fun _ _ _ _ => rfl).mpr (by simpa using hk)⟩

/-- A loop over different keys that are all new appends its list. -/
theorem items_foldl_set : ∀ (l : List (K × V)) (d : Dict K V), ((d.items ++ l).map Prod.fst).Nodup →
    (l.foldl (fun d p => d.set p.1 p.2) d).items = d.items ++ l
  | [], d, _ => (List.append_nil _).symm
  | p :: l, d, hnd => by
    have hnew : d.get? p.1 = none := by
      rw [List.map_append, List.nodup_append] at hnd
      exact get?_eq_none_iff.mpr fun hm => hnd.2.2 _ hm p.1 (by simp) rfl
    have hset : (d.set p.1 p.2).items = d.items ++ [p] := items_set_of_new hnew p.2
    rw [List.foldl_cons, items_foldl_set l, hset, List.append_assoc, List.singleton_append]
    rw [hset, List.append_assoc, List.singleton_append]
    exact hnd

/-- A list of different members stays as it is. -/
theorem fromKeys_eq_self {l : List K} (h : l.Nodup) : fromKeys l = l := by
  have hitems := items_foldl_set (l.map fun k => (k, ())) (empty : Dict K Unit)
    (by simpa [empty, List.map_map, Function.comp_def] using h)
  rw [fromKeys, keys, ofList, hitems]
  simp [empty, List.map_map, Function.comp_def]

/-! ### Loops that combine -/

/-- `d[k] = v` if `k` is new, else `d[k] = f(d[k], v)`. -/
def merge (f : V → V → V) (d : Dict K V) (k : K) (v : V) : Dict K V :=
  d.set k (match d.get? k with | none => v | some w => f w v)

/-- The loop `for k, v in l: merge k v`, from `d`. -/
def mergeAll (f : V → V → V) (d : Dict K V) (l : List (K × V)) : Dict K V :=
  l.foldl (fun d p => d.merge f p.1 p.2) d

/-- The values a loop gives the key `k`. -/
def valuesAt (l : List (K × V)) (k : K) : List V := (l.filter fun p => p.1 = k).map Prod.snd

theorem valuesAt_cons_self (p : K × V) (l : List (K × V)) :
    valuesAt (p :: l) p.1 = p.2 :: valuesAt l p.1 := by
  simp [valuesAt]

theorem valuesAt_cons_ne {p : K × V} {k : K} (h : p.1 ≠ k) (l : List (K × V)) :
    valuesAt (p :: l) k = valuesAt l k := by
  simp [valuesAt, h]

theorem valuesAt_append (l l' : List (K × V)) (k : K) :
    valuesAt (l ++ l') k = valuesAt l k ++ valuesAt l' k := by
  simp [valuesAt]

theorem valuesAt_flatMap {A : Type*} (f : A → List (K × V)) (k : K) : ∀ l : List A,
    valuesAt (l.flatMap f) k = l.flatMap fun a => valuesAt (f a) k
  | [] => rfl
  | a :: l => by rw [List.flatMap_cons, valuesAt_append, valuesAt_flatMap f k l, List.flatMap_cons]

theorem mem_valuesAt {l : List (K × V)} {k : K} {v : V} : v ∈ valuesAt l k ↔ (k, v) ∈ l := by
  simp [valuesAt]

theorem valuesAt_map (g : V → W) (l : List (K × V)) (k : K) :
    valuesAt (l.map fun p => (p.1, g p.2)) k = (valuesAt l k).map g := by
  simp [valuesAt, List.filter_map, List.map_map, Function.comp_def]

/-- Entries of one key are all of that key's values. -/
theorem valuesAt_filterMap_const {A : Type*} (f : A → Option V) (k₀ k : K) : ∀ l : List A,
    valuesAt (l.filterMap fun a => (f a).map fun v => (k₀, v)) k = if k₀ = k then
    l.filterMap f else []
  | [] => by simp [valuesAt]
  | a :: l => by
    have ih := valuesAt_filterMap_const f k₀ k l
    rw [List.filterMap_cons, List.filterMap_cons]
    cases f a with
    | none => exact ih
    | some v =>
      rw [Option.map_some]
      by_cases hk : k₀ = k
      · subst hk
        rw [if_pos rfl] at ih ⊢
        rw [valuesAt_cons_self (k₀, v), ih]
      · rw [if_neg hk] at ih ⊢
        rw [valuesAt_cons_ne hk, ih]

/-- Only the members that give the key count. -/
theorem valuesAt_filterMap {A : Type*} (f : A → Option (K × V)) (k : K) : ∀ l : List A,
    valuesAt (l.filterMap f) k =
    ((l.filter fun a => (f a).any fun q => q.1 = k).filterMap f).map Prod.snd
  | [] => rfl
  | a :: l => by
    have ih := valuesAt_filterMap f k l
    rw [List.filterMap_cons, List.filter_cons]
    cases hf : f a with
    | none => simpa using ih
    | some q =>
      by_cases hk : q.1 = k
      · subst hk
        rw [valuesAt_cons_self, ih, Option.any_some, if_pos (decide_eq_true rfl),
          List.filterMap_cons, hf, List.map_cons]
      · rw [valuesAt_cons_ne hk, ih, Option.any_some, if_neg (by simpa using hk)]

/-- A list of different keys gives a key the one value it lists for it. -/
theorem valuesAt_of_nodup :
    ∀ {l : List (K × V)}, (l.map Prod.fst).Nodup → ∀ k, valuesAt l k = (l.lookup k).toList
  | [], _, _ => rfl
  | p :: l, hnd, k => by
    rw [List.map_cons, List.nodup_cons] at hnd
    rw [lookup_cons_ite]
    by_cases hk : k = p.1
    · subst hk
      have hno : valuesAt l p.1 = [] := by
        rw [List.eq_nil_iff_forall_not_mem]
        exact fun v hv => hnd.1 (List.mem_map.mpr ⟨_, mem_valuesAt.mp hv, rfl⟩)
      rw [valuesAt_cons_self, hno, if_pos rfl]
      rfl
    · rw [valuesAt_cons_ne (fun he => hk he.symm), if_neg hk, valuesAt_of_nodup hnd.2]

/-- Dictionaries that agree on the entries of a kind have the same items of it, up to
their order. -/
theorem items_filter_perm {d d' : Dict K V} {p : K × V → Bool}
    (h : ∀ k v, p (k, v) = true → (d.get? k = some v ↔ d'.get? k = some v)) :
    (d.items.filter p).Perm (d'.items.filter p) := by
  refine (List.perm_ext_iff_of_nodup (d.nodup.of_map.filter _) (d'.nodup.of_map.filter _)).mpr
    fun e => ?_
  rw [List.mem_filter, List.mem_filter, ← get?_eq_some_iff, ← get?_eq_some_iff]
  exact and_congr_left fun hp => h e.1 e.2 hp

/-- Dictionaries that hold the same have the same items, up to their order. -/
theorem items_perm {d d' : Dict K V} (h : ∀ k, d.get? k = d'.get? k) : d.items.Perm d'.items := by
  simpa using items_filter_perm (p := fun _ => true) fun k v _ => by rw [h k]

/-- The items of a dictionary give a key the one value it holds. -/
theorem valuesAt_items (d : Dict K V) (k : K) : valuesAt d.items k = (d.get? k).toList :=
  valuesAt_of_nodup d.nodup k

/-- A dictionary with one key. -/
theorem items_eq_singleton {d : Dict K V} {k : K} {v : V} (hk : d.get? k = some v)
    (hother : ∀ k', k' ≠ k → d.get? k' = none) : d.items = [(k, v)] := by
  have hmem : ∀ p ∈ d.items, p = (k, v) := by
    rintro ⟨k', v'⟩ hp
    have hp' := get?_eq_some_iff.mpr hp
    by_cases hkk : k' = k
    · subst hkk
      rw [Option.some.inj (hp'.symm.trans hk)]
    · rw [hother k' hkk] at hp'
      exact absurd hp' (by simp)
  have hnd : d.items.Nodup := List.Nodup.of_map _ d.nodup
  have hin := get?_eq_some_iff.mp hk
  rcases hl : d.items with - | ⟨p, - | ⟨q, l⟩⟩
  · rw [hl] at hin
    simp at hin
  · rw [hmem p (hl ▸ List.mem_cons_self)]
  · rw [hl] at hmem hnd
    have hpq : p = q := (hmem p (by simp)).trans (hmem q (by simp)).symm
    simp [hpq] at hnd

/-- Combine the values of a list into what is there already. -/
def combine (f : V → V → V) : Option V → List V → Option V
  | o, [] => o
  | none, v :: vs => combine f (some v) vs
  | some w, v :: vs => combine f (some (f w v)) vs

/-- What a key holds after a combining loop. -/
theorem get?_mergeAll (f : V → V → V) : ∀ (l : List (K × V)) (d : Dict K V) (k : K),
    (mergeAll f d l).get? k = combine f (d.get? k) (valuesAt l k)
  | [], d, k => by cases h : d.get? k <;> simp [mergeAll, valuesAt, combine, h]
  | p :: ps, d, k => by
    have ih := get?_mergeAll f ps (d.merge f p.1 p.2) k
    simp only [mergeAll, List.foldl_cons] at ih ⊢
    rw [ih]
    by_cases h : p.1 = k
    · subst h
      rw [valuesAt_cons_self, merge, get?_set_self]
      cases d.get? p.1 <;> rfl
    · rw [valuesAt_cons_ne h, merge, get?_set_ne _ _ fun e => h e.symm]

theorem keys_set_of_old {d : Dict K V} {k : K} {v : V} (h : d.get? k = some v) (v' : V) :
    (d.set k v').keys = d.keys :=
  (keys_setItems d.items k v').trans (if_pos (mem_keys_iff.mpr ⟨v, h⟩))

/-- A loop over different keys that are all new appends its list. -/
theorem items_mergeAll (f : V → V → V) : ∀ (l : List (K × V)) (d : Dict K V),
    ((d.items ++ l).map Prod.fst).Nodup → (mergeAll f d l).items = d.items ++ l
  | [], d, _ => by simp [mergeAll]
  | p :: l, d, hnd => by
    have hnew : p.1 ∉ d.items.map Prod.fst := by
      rw [List.map_append, List.nodup_append] at hnd
      exact fun hm => hnd.2.2 _ hm p.1 (by simp) rfl
    have hset : (d.merge f p.1 p.2).items = d.items ++ [p] := by
      have hnone : d.get? p.1 = none := get?_eq_none_iff.mpr hnew
      rw [merge, hnone]
      exact setItems_of_new hnew p.2
    rw [mergeAll, List.foldl_cons, ← mergeAll, items_mergeAll f l, hset, List.append_assoc,
      List.singleton_append]
    rw [hset, List.append_assoc, List.singleton_append]
    exact hnd

theorem mergeAll_items (f : V → V → V) (d : Dict K V) : mergeAll f empty d.items = d := by
  have hitems : (mergeAll f empty d.items).items = d.items := items_mergeAll f d.items empty d.nodup
  cases h : mergeAll f empty d.items
  cases d
  rw [h] at hitems
  simp only at hitems
  simp only [hitems]

/-- A map that respects the combining passes through it. -/
theorem map_combine {f : V → V → V} {g : V → W} {f' : W → W → W}
    (hg : ∀ a b, g (f a b) = f' (g a) (g b)) :
    ∀ (vs : List V) (o : Option V), (combine f o vs).map g = combine f' (o.map g) (vs.map g)
  | [], o => by cases o <;> rfl
  | v :: vs, none => map_combine hg vs (some v)
  | v :: vs, some w => by
    have ih := map_combine hg vs (some (f w v))
    rw [Option.map_some, hg] at ih
    exact ih

theorem keys_prefix_set (d : Dict K V) (k : K) (v : V) : d.keys <+: (d.set k v).keys := by
  have h : (d.set k v).keys = if k ∈ d.keys then d.keys else d.keys ++ [k] :=
    keys_setItems d.items k v
  rw [h]
  split_ifs
  · exact List.prefix_refl _
  · exact List.prefix_append _ _

/-- A combining loop adds its keys behind those that are there. -/
theorem keys_prefix_mergeAll (f : V → V → V) :
    ∀ (l : List (K × V)) (d : Dict K V), d.keys <+: (mergeAll f d l).keys
  | [], _ => List.prefix_refl _
  | p :: l, d => (keys_prefix_set d p.1 _).trans (keys_prefix_mergeAll f l (d.merge f p.1 p.2))

theorem isSome_combine (f : V → V → V) : ∀ (vs : List V) (o : Option V),
    (combine f o vs).isSome = (o.isSome || !vs.isEmpty)
  | [], o => by cases o <;> rfl
  | v :: vs, none => by simp [combine, isSome_combine f vs]
  | v :: vs, some w => by simp [combine, isSome_combine f vs]

/-! ### Sums -/

section Sum

variable {M : Type*} [AddCommMonoid M]

/-- `for k, n in l: d[k] += n`, from the empty dictionary of a default of 0. -/
def sumBy (l : List (K × M)) : Dict K M := mergeAll (· + ·) empty l

theorem combine_add : ∀ (vs : List M) (o : Option M),
    (combine (· + ·) o vs).getD 0 = o.getD 0 + vs.sum
  | [], o => by cases o <;> simp [combine]
  | v :: vs, none => by simp [combine, combine_add vs]
  | v :: vs, some w => by simp [combine, combine_add vs, add_assoc]

/-- A key of a summing loop holds the sum of what the loop gives it. -/
theorem getD_sumBy (l : List (K × M)) (k : K) : (sumBy l).getD k 0 = (valuesAt l k).sum := by
  rw [getD, sumBy, get?_mergeAll, combine_add]
  simp

/-- The keys of a summing loop are those it adds to. -/
theorem isSome_get?_sumBy (l : List (K × M)) (k : K) :
    ((sumBy l).get? k).isSome = !(valuesAt l k).isEmpty := by
  rw [sumBy, get?_mergeAll, isSome_combine]
  simp

theorem combine_add_none :
    ∀ vs : List M, combine (· + ·) none vs = if vs = [] then none else some vs.sum
  | [] => rfl
  | v :: vs => by
    have hsome := isSome_combine (· + ·) vs (some v)
    have hval := combine_add vs (some v)
    rw [if_neg (List.cons_ne_nil v vs)]
    show combine (· + ·) (some v) vs = _
    cases h : combine (· + ·) (some v) vs with
    | none =>
      rw [h] at hsome
      exact absurd hsome (by simp)
    | some n =>
      rw [h, Option.getD_some, Option.getD_some] at hval
      rw [hval, List.sum_cons]

theorem get?_sumBy (l : List (K × M)) (k : K) :
    (sumBy l).get? k = if valuesAt l k = [] then none else some (valuesAt l k).sum := by
  rw [sumBy, get?_mergeAll, ← combine_add_none]
  rfl

/-- The order in which a summing loop meets its values does not matter. -/
theorem get?_sumBy_of_perm {l l' : List (K × M)} {k : K} (h : (valuesAt l k).Perm (valuesAt l' k)) :
    (sumBy l).get? k = (sumBy l').get? k := by
  have hnil : valuesAt l k = [] ↔ valuesAt l' k = [] := by
    rw [← List.length_eq_zero_iff, ← List.length_eq_zero_iff, h.length_eq]
  rw [get?_sumBy, get?_sumBy, h.sum_eq]
  simp only [hnil]

end Sum

theorem sum_lookup : ∀ (l : List (K × V)), (l.map Prod.fst).Nodup → ∀ (f : K × V → ℤ) (k : K),
    (∀ p ∈ l, p.1 ≠ k → f p = 0) → (l.map f).sum = (l.lookup k).elim 0 fun v => f (k, v)
  | [], _, _, _, _ => rfl
  | p :: l, hnd, f, k, h => by
    rw [List.map_cons, List.nodup_cons] at hnd
    rw [List.map_cons, List.sum_cons, lookup_cons_ite,
      sum_lookup l hnd.2 f k fun q hq => h q (List.mem_cons_of_mem _ hq)]
    by_cases hk : k = p.1
    · have hno : l.lookup k = none := by
        rw [Option.eq_none_iff_forall_ne_some]
        intro v hv
        exact hnd.1 (hk ▸ List.mem_map.mpr ⟨_, (lookup_eq_some_iff hnd.2).mp hv, rfl⟩)
      rw [hno, if_pos hk, hk]
      simp
    · rw [if_neg hk, h p List.mem_cons_self fun he => hk he.symm, zero_add]

/-- A sum over the items that only the items of one key add to. -/
theorem sum_items (d : Dict K V) (f : K × V → ℤ) (k : K) (h : ∀ p ∈ d.items, p.1 ≠ k → f p = 0) :
    (d.items.map f).sum = (d.get? k).elim 0 fun v => f (k, v) := sum_lookup d.items d.nodup f k h

/-! ### Sets of values -/

section Collect

variable {A : Type*} [DecidableEq A]

/-- `for k, a in l: d[k].add(a)`, from the empty dictionary of empty sets; a
set is the list of its members, none twice. -/
def collect (l : List (K × A)) :
    Dict K (List A) := mergeAll (· ∪ ·) empty (l.map fun p => (p.1, [p.2]))

theorem combine_union : ∀ (vs : List (List A)) (s : List A), (∀ v ∈ vs, v.Nodup) → s.Nodup →
    ∃ t, combine (· ∪ ·) (some s) vs = some t ∧ t.Nodup ∧ ∀ a, a ∈ t ↔ a ∈ s ∨ ∃ v ∈ vs, a ∈ v
  | [], s, _, hs => ⟨s, rfl, hs, by simp⟩
  | v :: vs, s, hv, hs => by
    obtain ⟨t, ht, hn, hm⟩ :=
      combine_union vs (s ∪ v) (fun w hw => hv w (List.mem_cons_of_mem _ hw))
      (List.Nodup.union _ (hv v List.mem_cons_self))
    refine ⟨t, ht, hn, fun a => ?_⟩
    rw [hm a]
    simp [List.mem_union_iff, or_assoc]

omit [DecidableEq A] in
theorem valuesAt_singletons (l : List (K × A)) (k : K) :
    valuesAt (l.map fun p => (p.1, [p.2])) k = (valuesAt l k).map fun a => [a] := by
  simp [valuesAt, List.filter_map, List.map_map, Function.comp_def]

/-- A key of a collecting loop holds the set of what the loop adds to it. -/
theorem mem_collect {l : List (K × A)} {k : K} {s : List A} (h : (collect l).get? k = some s) :
    s.Nodup ∧ ∀ a, a ∈ s ↔ (k, a) ∈ l := by
  rw [collect, get?_mergeAll, valuesAt_singletons, get?_empty] at h
  cases hv : valuesAt l k with
  | nil => simp [hv, combine] at h
  | cons a as =>
    rw [hv, List.map_cons] at h
    obtain ⟨t, ht, hn, hm⟩ := combine_union (as.map fun a => [a]) [a] (by simp) (by simp)
    obtain rfl : t = s := by
      have : some t = some s := ht.symm.trans h
      simpa using this
    refine ⟨hn, fun b => ?_⟩
    rw [hm b, ← mem_valuesAt, hv]
    simp

/-- The keys of a collecting loop are those it adds to. -/
theorem isSome_get?_collect (l : List (K × A)) (k : K) :
    ((collect l).get? k).isSome = !(valuesAt l k).isEmpty := by
  rw [collect, get?_mergeAll, isSome_combine, valuesAt_singletons]
  simp

end Collect

end Dict
