/-
# The first rank of a sorted list that has a match

A loop over a list sorted by rank tests every entry and stops at the first entry beyond
the rank of its first match; a test can fail, and a failure ends the loop. The loop gives
the matches of the least rank that has one, and it fails exactly if some test fails that
no match of smaller rank keeps it from (`firstMatches_ok_iff`).

`addNew` collects keys once each. Over a sorted list they come in the order of their first
entries (`pairwise_foldl_addNew`).
-/
import Restock.Lib.Checked

namespace Ranked

section Loop

variable {A E K : Type} [LinearOrder K] (rank : A → K) (test : A → Except E Bool)

/-- The loop, with the rank of its first match. -/
def firstMatches : Option K → List A → Except E (List A)
  | _, [] => .ok []
  | best, a :: l =>
    if best.any fun rank' => rank' < rank a then .ok []
    else match test a with
      | .error e => .error e
      | .ok true => (firstMatches (best.or (some (rank a))) l).map (a :: ·)
      | .ok false => firstMatches best l

/-- A match of smaller rank is known, or in the list. -/
def Beaten (best : Option K) (l : List A) (a : A) : Prop :=
  (∃ rank' ∈ best, rank' < rank a) ∨ ∃ b ∈ l, test b = .ok true ∧ rank b < rank a

open scoped Classical in
/-- The matches that are not beaten. -/
noncomputable def unbeaten (best : Option K) (l : List A) : List A :=
  l.filter fun a => test a = .ok true ∧ ¬ Beaten rank test best l a

variable {rank test}

theorem mem_unbeaten {best : Option K} {l : List A} {a : A} :
    a ∈ unbeaten rank test best l ↔ a ∈ l ∧ test a = .ok true ∧ ¬ Beaten rank test best l a := by
  simp only [unbeaten, List.mem_filter, decide_eq_true_eq]

theorem unbeaten_sublist (best : Option K) (l : List A) : (unbeaten rank test best l).Sublist l :=
  List.filter_sublist

theorem beaten_cons_of_no_match {best : Option K} {l : List A} {a b : A} (h : test a ≠ .ok true) :
    Beaten rank test best (a :: l) b ↔ Beaten rank test best l b := by
  unfold Beaten
  simp [h]

theorem beaten_cons_of_match {best : Option K} {l : List A} {a b : A} (h : test a = .ok true)
    (hbest : ∀ rank' ∈ best, rank' = rank a) :
    Beaten rank test best (a :: l) b ↔ Beaten rank test (some (rank a)) l b := by
  constructor
  · rintro (⟨rank', hm, hlt⟩ | ⟨c, hc, ht, hlt⟩)
    · exact Or.inl ⟨rank a, rfl, hbest rank' hm ▸ hlt⟩
    · rcases List.mem_cons.mp hc with rfl | hc
      · exact Or.inl ⟨rank c, rfl, hlt⟩
      · exact Or.inr ⟨c, hc, ht, hlt⟩
  · rintro (⟨rank', hm, hlt⟩ | ⟨c, hc, ht, hlt⟩)
    · obtain rfl : rank a = rank' := Option.some.inj hm
      exact Or.inr ⟨a, List.mem_cons_self, h, hlt⟩
    · exact Or.inr ⟨c, List.mem_cons_of_mem a hc, ht, hlt⟩

theorem unbeaten_cons_of_no_match {best : Option K} {l : List A} {a : A} (h : test a ≠ .ok true) :
    unbeaten rank test best (a :: l) = unbeaten rank test best l := by
  unfold unbeaten
  rw [List.filter_cons_of_neg (by simp [h])]
  refine List.filter_congr fun b _ => decide_eq_decide.mpr ?_
  rw [beaten_cons_of_no_match h]

theorem unbeaten_cons_of_match {best : Option K} {l : List A} {a : A} (h : test a = .ok true)
    (hbest : ∀ rank' ∈ best, rank' = rank a) (hself : ¬ Beaten rank test best (a :: l) a) :
    unbeaten rank test best (a :: l) = a :: unbeaten rank test (some (rank a)) l := by
  unfold unbeaten
  rw [List.filter_cons_of_pos (by simp [h, hself])]
  refine congrArg (a :: ·) (List.filter_congr fun b _ => decide_eq_decide.mpr ?_)
  rw [beaten_cons_of_match h hbest]

/-- **What the loop gives**: the matches that are not beaten, unless a test that is not
beaten fails. -/
theorem firstMatches_ok_iff :
    ∀ {l : List A} {best : Option K}, l.Pairwise (fun a b => rank a ≤ rank b) →
    (∀ rank' ∈ best, ∀ a ∈ l, rank' ≤ rank a) →
      ∀ {winners : List A}, firstMatches rank test best l = .ok winners ↔
      (∀ a ∈ l, (∃ e, test a = .error e) → Beaten rank test best l a) ∧
      winners = unbeaten rank test best l
  | [], best, _, _, winners => by simp [firstMatches, unbeaten, eq_comm]
  | a :: l, best, hs, hbest, winners => by
    obtain ⟨ha, hs'⟩ := List.pairwise_cons.mp hs
    unfold firstMatches
    by_cases hb : (best.any fun rank' => decide (rank' < rank a)) = true
    · -- every entry from here on is beaten
      obtain ⟨rank', hm, hlt⟩ :
        ∃ rank' ∈ best, rank' < rank a := by simpa [Option.any_eq_true] using hb
      have hall : ∀ b ∈ a :: l, Beaten rank test best (a :: l) b := by
        intro b hmem
        rcases List.mem_cons.mp hmem with rfl | hmem
        · exact Or.inl ⟨rank', hm, hlt⟩
        · exact Or.inl ⟨rank', hm, hlt.trans_le (ha b hmem)⟩
      have hnone : unbeaten rank test best (a :: l) = [] := by
        rw [List.eq_nil_iff_forall_not_mem]
        intro b hmem
        exact (mem_unbeaten.mp hmem).2.2 (hall b (mem_unbeaten.mp hmem).1)
      rw [if_pos hb, hnone]
      exact ⟨fun h => ⟨fun b hmem _ => hall b hmem, (Except.ok.inj h).symm⟩, fun h => by rw [h.2]⟩
    · have hrank : ∀ rank' ∈ best, rank' = rank a := by
        intro rank' hm
        refine le_antisymm (hbest rank' hm a List.mem_cons_self) (not_lt.mp fun hlt => hb ?_)
        simpa [Option.any_eq_true] using ⟨rank', hm, hlt⟩
      have hself : ¬ Beaten rank test best (a :: l) a := by
        rintro (⟨rank', hm, hlt⟩ | ⟨b, hmem, -, hlt⟩)
        · exact absurd (hrank rank' hm) hlt.ne
        · rcases List.mem_cons.mp hmem with rfl | hmem
          · exact lt_irrefl _ hlt
          · exact absurd (ha b hmem) (not_le.mpr hlt)
      rw [if_neg hb]
      cases ht : test a with
      | error e =>
        refine iff_of_false (fun h => by cases h) fun h => ?_
        exact hself (h.1 a List.mem_cons_self ⟨e, ht⟩)
      | ok matched =>
        have hpasses : ¬ ∃ e, test a = .error e := by simp [ht]
        cases matched with
        | false =>
          have hno : test a ≠ .ok true := by simp [ht]
          have ih := @firstMatches_ok_iff l best hs'
            (fun rank' hm b hmem => hbest rank' hm b (List.mem_cons_of_mem a hmem)) winners
          rw [unbeaten_cons_of_no_match hno]
          simp only [beaten_cons_of_no_match hno, List.forall_mem_cons]
          exact ih.trans (and_congr_left' (and_iff_right fun he => absurd he hpasses).symm)
        | true =>
          have hor : best.or (some (rank a)) = some (rank a) := by
            cases best with
            | none => rfl
            | some rank' => rw [Option.or_some, Option.getD_some, hrank rank' rfl]
          have ih := fun winners => @firstMatches_ok_iff l (some (rank a)) hs'
            (fun rank' hm b hmem => Option.some.inj hm ▸ ha b hmem) winners
          rw [unbeaten_cons_of_match ht hrank hself, hor]
          simp only [beaten_cons_of_match ht hrank, List.forall_mem_cons]
          rw [and_iff_right fun he => absurd he hpasses, Checked.map_ok_iff]
          constructor
          · intro h
            obtain ⟨rest, hrun, rfl⟩ := h
            obtain ⟨hfail, rfl⟩ := (ih rest).mp hrun
            exact ⟨hfail, rfl⟩
          · intro h
            exact ⟨_, (ih _).mpr ⟨h.1, rfl⟩, h.2.symm⟩

end Loop

/-! ### Keys in the order of their first entries -/

section Keys

variable {A B : Type*} [DecidableEq B]

/-- `if key not in seen: keys.append(key)`. -/
def addNew (keys : List B) (key : B) : List B := if key ∈ keys then keys else keys ++ [key]

theorem addNew_of_mem {keys : List B} {key : B} (h : key ∈ keys) :
    addNew keys key = keys := if_pos h

theorem addNew_of_not_mem {keys : List B} {key : B} (h : key ∉ keys) :
    addNew keys key = keys ++ [key] := if_neg h

theorem mem_addNew {keys : List B} {key key' : B} :
    key' ∈ addNew keys key ↔ key' ∈ keys ∨ key' = key := by
  by_cases h : key ∈ keys
  · rw [addNew_of_mem h]
    exact ⟨Or.inl, fun hm => hm.elim id fun he => he ▸ h⟩
  · rw [addNew_of_not_mem h, List.mem_append, List.mem_singleton]

theorem nodup_addNew {keys : List B} (h : keys.Nodup) (key : B) : (addNew keys key).Nodup := by
  by_cases hm : key ∈ keys
  · rwa [addNew_of_mem hm]
  · rw [addNew_of_not_mem hm]
    exact List.nodup_append'.mpr ⟨h, List.nodup_singleton key, by simpa using hm⟩

variable (key : A → B)

theorem mem_foldl_addNew (l : List A) {b : B} :
    b ∈ (l.map key).foldl addNew [] ↔ ∃ a ∈ l, key a = b := by
  induction l using List.reverseRecOn with
  | nil => simp
  | append_singleton l a ih =>
    rw [List.map_append, List.foldl_append, List.map_singleton, List.foldl_cons, List.foldl_nil,
      mem_addNew, ih]
    simp [or_and_right, exists_or, eq_comm]

theorem nodup_foldl_addNew (l : List A) : ((l.map key).foldl addNew []).Nodup := by
  induction l using List.reverseRecOn with
  | nil => exact List.nodup_nil
  | append_singleton l a ih =>
    rw [List.map_append, List.foldl_append]
    exact nodup_addNew ih (key a)

/-- Of two keys, the first entry of the earlier one comes before all entries of the other. -/
theorem pairwise_foldl_addNew {R : A → A → Prop} {l : List A} (hl : l.Pairwise R) :
    ((l.map key).foldl addNew []).Pairwise fun b b' => ∃ a ∈ l, key a = b ∧ ∀ a' ∈ l, key a' = b' →
    R a a' := by
  induction l using List.reverseRecOn with
  | nil => exact List.Pairwise.nil
  | append_singleton l a ih =>
    obtain ⟨hl', -, hlast⟩ := List.pairwise_append.mp hl
    have hold : ((l.map key).foldl addNew []).Pairwise fun b b' =>
        ∃ a₀ ∈ l ++ [a], key a₀ = b ∧ ∀ a' ∈ l ++ [a], key a' = b' → R a₀ a' := by
      refine (ih hl').imp fun {b b'} h => ?_
      obtain ⟨a₀, hm, hk, hR⟩ := h
      refine ⟨a₀, List.mem_append_left _ hm, hk, fun a' hm' hk' => ?_⟩
      rcases List.mem_append.mp hm' with hm' | hm'
      · exact hR a' hm' hk'
      · exact hlast a₀ hm a' hm'
    rw [List.map_append, List.foldl_append]
    show (addNew ((l.map key).foldl addNew []) (key a)).Pairwise _
    by_cases hm : key a ∈ (l.map key).foldl addNew []
    · rwa [addNew_of_mem hm]
    · rw [addNew_of_not_mem hm]
      refine List.pairwise_append.mpr ⟨hold, List.pairwise_singleton _ _, fun b hb b' hb' => ?_⟩
      obtain rfl := List.mem_singleton.mp hb'
      obtain ⟨a₀, hm₀, hk₀⟩ := (mem_foldl_addNew key l).mp hb
      refine ⟨a₀, List.mem_append_left _ hm₀, hk₀, fun a' hm' hk' => ?_⟩
      rcases List.mem_append.mp hm' with hm' | hm'
      · exact absurd ((mem_foldl_addNew key l).mpr ⟨a', hm', hk'⟩) hm
      · exact hlast a₀ hm₀ a' hm'

end Keys

end Ranked
