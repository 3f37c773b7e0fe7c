/-
# Largest-remainder apportionment

A whole number `total` is split along exact shares that add up to it: every
share is rounded down, and the units that are left (fewer than there are
shares) go one each to the first places of an order of the places. The parts
add up to `total` (`sum_apportion`) and each is its share rounded down or one
more (`floor_le_apportion`, `apportion_le_floor_add_one`), so none is further than
a unit from its share (`abs_apportion_sub_le`), whatever the order.

Where the places have names and the order is by falling fraction of the share,
then by name, who gets a unit more depends on the shares and the names alone
(`winners_eq_of_perm`, `apportion_eq_map`), and no whole share is among them
(`fract_pos_of_mem_winners`).
-/
import Mathlib

namespace Apportion

/-- `for i in idxs: xs[i] += 1`. -/
def bump (idxs : List ℕ) (xs : List ℤ) : List ℤ := idxs.foldl (fun xs i => xs.modify i (· + 1)) xs

@[simp] theorem length_bump : ∀ (idxs : List ℕ) (xs : List ℤ), (bump idxs xs).length = xs.length
  | [], _ => rfl
  | i :: idxs, xs => by
    rw [bump, List.foldl_cons]
    exact (length_bump idxs _).trans (List.length_modify ..)

theorem getElem?_bump : ∀ (idxs : List ℕ) (xs : List ℤ) (i : ℕ),
    (bump idxs xs)[i]? = xs[i]?.map (· + (idxs.count i : ℤ))
  | [], xs, i => by simp [bump]
  | j :: idxs, xs, i => by
    have ih := getElem?_bump idxs (xs.modify j (· + 1)) i
    rw [bump, List.foldl_cons, ← bump, ih, List.getElem?_modify]
    by_cases h : j = i
    · simp only [h, ↓reduceIte, List.count_cons_self]
      cases xs[i]? with
      | none => rfl
      | some x =>
        simp only [Option.map_some, Option.map_eq_map, Nat.cast_add, Nat.cast_one,
          Option.some.injEq]
        ring
    · simp only [h, ↓reduceIte, List.count_cons_of_ne h]
      cases xs[i]? <;> rfl

theorem sum_modify : ∀ (xs : List ℤ) {i : ℕ}, i < xs.length → (xs.modify i (· + 1)).sum = xs.sum + 1
  | [], i, h => by simp at h
  | x :: xs, 0, _ => by simp; ring
  | x :: xs, i + 1, h => by
    have := sum_modify xs (i := i) (by simpa using h)
    simp only [List.modify_succ_cons, List.sum_cons, this]
    ring

theorem sum_bump : ∀ (idxs : List ℕ) (xs : List ℤ), (∀ i ∈ idxs, i < xs.length) →
    (bump idxs xs).sum = xs.sum + idxs.length
  | [], _, _ => by simp [bump]
  | i :: idxs, xs, h => by
    rw [bump, List.foldl_cons, ← bump, sum_bump idxs]
    · rw [sum_modify xs (h i List.mem_cons_self)]
      push_cast [List.length_cons]
      ring
    · intro j hj
      rw [List.length_modify]
      exact h j (List.mem_cons_of_mem _ hj)

theorem sum_floor_le : ∀ shares : List ℚ, ((shares.map Int.floor).sum : ℚ) ≤ shares.sum
  | [] => by simp
  | x :: xs => by
    simp only [List.map_cons, List.sum_cons, Int.cast_add]
    have := sum_floor_le xs
    have := Int.floor_le x
    linarith

theorem sum_le_sum_floor :
    ∀ shares : List ℚ, shares.sum ≤ (shares.map Int.floor).sum + shares.length
  | [] => by simp
  | x :: xs => by
    simp only [List.map_cons, List.sum_cons, Int.cast_add, List.length_cons, Nat.cast_add,
      Nat.cast_one]
    have := sum_le_sum_floor xs
    have := (Int.lt_floor_add_one x).le
    linarith

/-- The units left after rounding every share down. -/
def remainder (total : ℤ) (shares : List ℚ) : ℤ := total - (shares.map Int.floor).sum

theorem remainder_nonneg {total : ℤ} {shares : List ℚ} (h : shares.sum = total) :
    0 ≤ remainder total shares := by
  have := sum_floor_le shares
  rw [h] at this
  have : (shares.map Int.floor).sum ≤ total := by exact_mod_cast this
  unfold remainder
  omega

theorem remainder_le_length {total : ℤ} {shares : List ℚ} (h : shares.sum = total) :
    remainder total shares ≤ shares.length := by
  have := sum_le_sum_floor shares
  rw [h] at this
  have : total ≤ (shares.map Int.floor).sum + shares.length := by exact_mod_cast this
  unfold remainder
  omega

/-- Every share rounded down, and one unit more for the first places of
`order`, until nothing is left. -/
def apportion (total : ℤ) (shares : List ℚ) (order : List ℕ) : List ℤ :=
  bump (order.take (remainder total shares).toNat) (shares.map Int.floor)

@[simp] theorem length_apportion (total : ℤ) (shares : List ℚ) (order : List ℕ) :
    (apportion total shares order).length = shares.length := by
  simp [apportion]

/-- **The parts add up to the total.** -/
theorem sum_apportion {total : ℤ} {shares : List ℚ} {order : List ℕ} (h : shares.sum = total)
    (ho : order.Perm (List.range shares.length)) : (apportion total shares order).sum = total := by
  have hlen : order.length = shares.length := by simpa using ho.length_eq
  have h0 := remainder_nonneg h
  have h1 := remainder_le_length h
  rw [apportion, sum_bump]
  · rw [List.length_take, hlen, Nat.min_eq_left (by omega)]
    unfold remainder at *
    omega
  · intro i hi
    have : i ∈ List.range shares.length := ho.mem_iff.mp (List.mem_of_mem_take hi)
    simpa using this

/-- No part is below its share rounded down. -/
theorem floor_le_apportion {total : ℤ} {shares : List ℚ} {order : List ℕ} {i : ℕ} {x : ℚ} {n : ℤ}
    (hx : shares[i]? = some x) (hn : (apportion total shares order)[i]? = some n) : ⌊x⌋ ≤ n := by
  rw [apportion, getElem?_bump, List.getElem?_map, hx] at hn
  simp only [Option.map_some, Option.some.injEq] at hn
  omega

/-- No part is more than one above its share rounded down. -/
theorem apportion_le_floor_add_one {total : ℤ} {shares : List ℚ} {order : List ℕ} {i : ℕ}
    {x : ℚ} {n : ℤ} (ho : order.Nodup) (hx : shares[i]? = some x)
    (hn : (apportion total shares order)[i]? = some n) :
    n ≤ ⌊x⌋ + 1 := by
  rw [apportion, getElem?_bump, List.getElem?_map, hx] at hn
  simp only [Option.map_some, Option.some.injEq] at hn
  have : (order.take (remainder total shares).toNat).count i ≤ 1 :=
    List.nodup_iff_count.mp (ho.sublist (List.take_sublist ..)) i
  omega

/-- No part is further than a unit from its share. -/
theorem abs_apportion_sub_le {total : ℤ} {shares : List ℚ} {order : List ℕ} {i : ℕ} {x : ℚ} {n : ℤ}
    (ho : order.Nodup) (hx : shares[i]? = some x)
    (hn : (apportion total shares order)[i]? = some n) :
    |(n : ℚ) - x| ≤ 1 := by
  have h1 : (⌊x⌋ : ℚ) ≤ n := by exact_mod_cast floor_le_apportion hx hn
  have h2 : (n : ℚ) ≤ ⌊x⌋ + 1 := by exact_mod_cast apportion_le_floor_add_one ho hx hn
  have h3 := Int.floor_le x
  have h4 := Int.lt_floor_add_one x
  rw [abs_le]
  constructor <;> linarith

/-! ### Which places get one more -/

theorem getElem?_apportion {total : ℤ} {shares : List ℚ} {order : List ℕ}
    (ho : order.Nodup) (i : ℕ) :
    (apportion total shares order)[i]? =
      shares[i]?.map fun x => ⌊x⌋ + if i ∈ order.take (remainder total shares).toNat then 1
      else 0 := by
  have hnd : (order.take (remainder total shares).toNat).Nodup := ho.sublist (List.take_sublist ..)
  rw [apportion, getElem?_bump, List.getElem?_map, Option.map_map]
  congr 1
  funext x
  rw [Function.comp_apply, hnd.count]
  split_ifs <;> rfl

theorem sum_lt_length : ∀ {l : List ℚ}, l ≠ [] → (∀ x ∈ l, x < 1) → l.sum < l.length
  | [], h, _ => absurd rfl h
  | [x], _, h1 => by simpa using h1 x
  | x :: y :: l, _, h1 => by
    have hx := h1 x List.mem_cons_self
    have ih := sum_lt_length (List.cons_ne_nil y l) fun z hz => h1 z (List.mem_cons_of_mem _ hz)
    rw [List.sum_cons, List.length_cons]
    push_cast
    linarith

/-- Of fractions in falling order that add up to `n`, the first `n` are positive. -/
theorem pos_of_mem_take {l : List ℚ} {n : ℕ} (hl : l.Pairwise (· ≥ ·)) (h0 : ∀ x ∈ l, 0 ≤ x)
    (h1 : ∀ x ∈ l, x < 1) (hsum : l.sum = n) {x : ℚ} (hx : x ∈ l.take n) : 0 < x := by
  by_contra hneg
  have hx0 : x ≤ 0 := not_lt.mp hneg
  -- nothing is left for the places behind one without a fraction
  have hdrop : ∀ y ∈ l.drop n, y = 0 := by
    intro y hy
    rw [← List.take_append_drop n l, List.pairwise_append] at hl
    have hyx : y ≤ x := hl.2.2 x hx y hy
    exact le_antisymm (hyx.trans hx0) (h0 y (List.mem_of_mem_drop hy))
  have hlt : (l.take n).sum < (l.take n).length :=
    sum_lt_length (List.ne_nil_of_mem hx) fun y hy => h1 y (List.mem_of_mem_take hy)
  have hlen : ((l.take n).length : ℚ) ≤ n := by exact_mod_cast List.length_take_le n l
  have hsplit : l.sum = (l.take n).sum + (l.drop n).sum := by
    rw [← List.sum_append, List.take_append_drop]
  rw [List.sum_eq_zero hdrop, add_zero] at hsplit
  linarith

theorem sum_fract (shares : List ℚ) :
    (shares.map Int.fract).sum = shares.sum - (shares.map Int.floor).sum := by
  induction shares with
  | nil => simp
  | cons x xs ih =>
    simp only [List.map_cons, List.sum_cons, Int.cast_add, ih, Int.fract]
    ring

theorem ceil_eq_of_fract_pos {x : ℚ} (h : 0 < Int.fract x) : ⌈x⌉ = ⌊x⌋ + 1 := by
  have hx : (⌊x⌋ : ℚ) + Int.fract x = x := Int.floor_add_fract x
  have hlt := Int.fract_lt_one x
  rw [Int.ceil_eq_iff]
  push_cast
  constructor <;> linarith

section ByName

variable {κ : Type*} [LinearOrder κ] (share : κ → ℚ)

/-- A larger fraction goes first, and of equal ones the smaller name. -/
def Before (a b : κ) : Prop :=
  Int.fract (share b) < Int.fract (share a) ∨ Int.fract (share b) = Int.fract (share a) ∧ a ≤ b

instance : DecidableRel (Before share) := fun a b =>
  inferInstanceAs (Decidable (Int.fract (share b) < Int.fract (share a) ∨
    Int.fract (share b) = Int.fract (share a) ∧ a ≤ b))

instance : Std.Total (Before share) := ⟨fun a b => by
  unfold Before
  rcases lt_trichotomy (Int.fract (share a)) (Int.fract (share b)) with h | h | h
  · exact .inr (.inl h)
  · rcases le_total a b with hab | hba
    · exact .inl (.inr ⟨h.symm, hab⟩)
    · exact .inr (.inr ⟨h, hba⟩)
  · exact .inl (.inl h)⟩

instance : IsTrans κ (Before share) := ⟨fun a b c hab hbc => by
  unfold Before at *
  rcases hab with h | ⟨h, hle⟩ <;> rcases hbc with h' | ⟨h', hle'⟩
  · exact .inl (h'.trans h)
  · exact .inl (h'.trans_lt h)
  · exact .inl (h'.trans_le h.le)
  · exact .inr ⟨h'.trans h, hle.trans hle'⟩⟩

theorem before_antisymm {a b : κ} (hab : Before share a b) (hba : Before share b a) : a = b := by
  unfold Before at hab hba
  rcases hab with h | ⟨h, hle⟩ <;> rcases hba with h' | ⟨h', hle'⟩
  · exact absurd h' h.asymm
  · exact absurd h'.symm h.ne
  · exact absurd h.symm h'.ne
  · exact le_antisymm hle hle'

/-- The names that get a unit more than their share rounded down. -/
def winners (total : ℤ) (names : List κ) : List κ :=
  (names.insertionSort (Before share)).take (remainder total (names.map share)).toNat

variable {share} {total : ℤ} {names : List κ}

/-- The order in which the names are listed does not matter. -/
theorem winners_eq_of_perm {names' : List κ} (h : names.Perm names') :
    winners share total names = winners share total names' := by
  have hsort : names.insertionSort (Before share) = names'.insertionSort (Before share) := by
    apply List.Perm.eq_of_pairwise
    · exact fun a b _ _ => before_antisymm share
    · exact List.pairwise_insertionSort _ _
    · exact List.pairwise_insertionSort _ _
    · exact (List.perm_insertionSort _ _).trans (h.trans (List.perm_insertionSort _ _).symm)
  have hrest : remainder total (names.map share) = remainder total (names'.map share) := by
    unfold remainder
    rw [((h.map share).map Int.floor).sum_eq]
  rw [winners, winners, hsort, hrest]

/-- A name whose share is whole gets no unit more. -/
theorem fract_pos_of_mem_winners (hsum : (names.map share).sum = total) {name : κ}
    (h : name ∈ winners share total names) : 0 < Int.fract (share name) := by
  have hperm : (names.insertionSort (Before share)).Perm names := List.perm_insertionSort _ _
  have h0 := remainder_nonneg hsum
  apply pos_of_mem_take (l :=
    (names.insertionSort (Before share)).map fun name => Int.fract (share name))
    (n := (remainder total (names.map share)).toNat)
  · rw [List.pairwise_map]
    refine (List.pairwise_insertionSort (Before share) names).imp fun {a b} hab => ?_
    rcases hab with hlt | ⟨heq, -⟩
    · exact hlt.le
    · exact heq.le
  · intro x hx
    obtain ⟨k, -, rfl⟩ := List.mem_map.mp hx
    exact Int.fract_nonneg _
  · intro x hx
    obtain ⟨k, -, rfl⟩ := List.mem_map.mp hx
    exact Int.fract_lt_one _
  · have hsumf := sum_fract (names.map share)
    have hnat : (((remainder total (names.map share)).toNat : ℤ) : ℚ) =
        (remainder total (names.map share) : ℤ) := by
      rw [Int.toNat_of_nonneg h0]
    rw [(hperm.map _).sum_eq]
    rw [List.map_map] at hsumf
    calc (names.map fun name => Int.fract (share name)).sum
        = (names.map share).sum - ((names.map share).map Int.floor).sum := hsumf
      _ = ((remainder total (names.map share) : ℤ) : ℚ) := by rw [hsum, remainder]; push_cast; ring
      _ = ((remainder total (names.map share)).toNat : ℚ) := by rw [← hnat]; norm_cast
  · rw [← List.map_take]
    exact List.mem_map_of_mem h

/-- **What each name gets**, when the places are taken in the order of their names. -/
theorem apportion_eq_map {order : List ℕ} {d : κ} (hnames : names.Nodup)
    (hperm : order.Perm (List.range names.length))
    (hsorted : order.map (names.getD · d) = names.insertionSort (Before share)) :
    apportion total (names.map share) order =
      names.map fun name => ⌊share name⌋ + if name ∈ winners share total names then 1 else 0 := by
  have ho : order.Nodup := hperm.nodup_iff.mpr List.nodup_range
  apply List.ext_getElem?
  intro i
  rw [getElem?_apportion ho, List.getElem?_map, List.getElem?_map, Option.map_map]
  by_cases hi : i < names.length
  · rw [List.getElem?_eq_getElem hi, Option.map_some, Option.map_some, Function.comp_apply]
    have hiff : i ∈ order.take (remainder total (names.map share)).toNat ↔
        names[i] ∈ winners share total names := by
      rw [winners, ← hsorted, ← List.map_take, List.mem_map]
      constructor
      · exact fun h => ⟨i, h, List.getD_eq_getElem names d hi⟩
      · rintro ⟨j, hj, hji⟩
        have hjn : j < names.length := by simpa using hperm.mem_iff.mp (List.mem_of_mem_take hj)
        rw [List.getD_eq_getElem names d hjn] at hji
        exact (hnames.getElem_inj_iff.mp hji) ▸ hj
    simp only [hiff]
  · rw [List.getElem?_eq_none (by omega)]
    rfl

end ByName

end Apportion
