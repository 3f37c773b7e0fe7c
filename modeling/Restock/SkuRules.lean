/-
# SKU mapping rules (`engine/sku_mapping.py`, the loader)

A rule says how a commodity is assembled: one or more alternative groups of
components, each an inventory SKU with a quantity. Inventory SKUs of one physical
item share a group key; the loader replaces each SKU by its key, merges the
components of a group that have one key, and drops a group whose formula was
already there.

The formula of a group, the largest quantity listed for each physical item, is
`maxQuantity`; the loaded groups of a rule are the sorted graphs of these
formulas (`mem_keptGroups`), each formula once, at its smallest group number.
-/
import Restock.Lib.Dict

namespace Restock

structure MappingComponent where
  inventorySku : String
  quantity : ℕ
deriving DecidableEq, Repr

/-- A list of components; the loader's signature of a group is the list itself. -/
abbrev MappingGroup := List MappingComponent

abbrev MappingRules := Dict String (List MappingGroup)

/-! ### The tables -/

structure SkuMappingComponent where
  groupNo : ℕ
  inventorySku : String
  quantity : ℕ
  group_pos : 0 < groupNo
  quantity_pos : 0 < quantity

/-- A rule with its components; an inventory SKU occurs once in a rule. -/
structure SkuMappingRule where
  commoditySku : String
  enabled : Bool
  components : List SkuMappingComponent
  unique_skus : (components.map (·.inventorySku)).Nodup

/-- The rules, one for each commodity. -/
structure RuleTable where
  rows : List SkuMappingRule
  unique_commodities : (rows.map (·.commoditySku)).Nodup

/-! ### The loader -/

/-- `sku_groups.get(sku, sku)`. -/
def resolveSku (skuGroups : Dict String String) (sku : String) : String := skuGroups.getD sku sku

/-- A component joins a group: with one of the same key the larger quantity stays. -/
def mergeComponent : MappingGroup → MappingComponent → MappingGroup
  | [], component => [component]
  | existing :: group, component =>
    if existing.inventorySku = component.inventorySku then
      ⟨existing.inventorySku, max existing.quantity component.quantity⟩ :: group
    else existing :: mergeComponent group component

/-- One round of the loop over the components of a rule. -/
def addComponent (skuGroups : Dict String String) (groups : Dict ℕ MappingGroup)
    (component : SkuMappingComponent) : Dict ℕ MappingGroup :=
  groups.set component.groupNo (mergeComponent (groups.getD component.groupNo [])
    ⟨resolveSku skuGroups component.inventorySku, component.quantity⟩)

def groupsOf (skuGroups : Dict String String) (components : List SkuMappingComponent) :
    Dict ℕ MappingGroup :=
  components.foldl (addComponent skuGroups) .empty

def sortGroup (group : MappingGroup) :
    MappingGroup := group.insertionSort fun a b => a.inventorySku ≤ b.inventorySku

/-- The groups of a rule by number, each sorted by inventory SKU. -/
def sortedGroups (groups : Dict ℕ MappingGroup) : List (ℕ × MappingGroup) :=
  (groups.keys.insertionSort (· ≤ ·)).map fun groupNo =>
    (groupNo, sortGroup (groups.getD groupNo []))

/-- The groups whose signature is new. -/
def keepGroups : List MappingGroup → List (ℕ × MappingGroup) → List (ℕ × MappingGroup)
  | _, [] => []
  | existing, (groupNo, group) :: rest =>
    if group ∈ existing then keepGroups existing rest
    else (groupNo, group) :: keepGroups (group :: existing) rest

def loadRule (skuGroups : Dict String String) (rules : MappingRules) (row : SkuMappingRule) :
    MappingRules :=
  let existing := rules.getD row.commoditySku []
  let kept := keepGroups existing (sortedGroups (groupsOf skuGroups row.components))
  if kept = [] then rules else rules.set row.commoditySku (existing ++ kept.map Prod.snd)

/-- The enabled rules of the given commodities (all of them for `none`), by commodity. -/
def activeRows (table : RuleTable) (commoditySkus : Option (List String)) : List SkuMappingRule :=
  (table.rows.filter fun row => row.enabled && commoditySkus.all fun skus => row.commoditySku ∈
    skus).insertionSort
    fun a b => a.commoditySku ≤ b.commoditySku

def loadActiveMappingRules (table : RuleTable) (commoditySkus : Option (List String))
    (skuGroups : Dict String String) : MappingRules :=
  (activeRows table commoditySkus).foldl (loadRule skuGroups) .empty

/-! ### The formula of a group -/

section Formula

/-- The quantities that the components list for the physical item `key` in a group. -/
def listedQuantities (skuGroups : Dict String String) (components : List SkuMappingComponent)
    (groupNo : ℕ) (key : String) : List ℕ :=
  (components.filter fun c => c.groupNo = groupNo ∧ resolveSku skuGroups c.inventorySku = key).map
    (·.quantity)

/-- The quantity of a physical item in the merged group. -/
def maxQuantity (skuGroups : Dict String String) (components : List SkuMappingComponent)
    (groupNo : ℕ) (key : String) :
    ℕ := (listedQuantities skuGroups components groupNo key).foldr max 0

/-- The quantity that the group as written asks of a physical item. -/
def rawQuantity (skuGroups : Dict String String) (components : List SkuMappingComponent)
    (groupNo : ℕ) (key : String) : ℕ := (listedQuantities skuGroups components groupNo key).sum

/-- A group is the graph of the positive part of `f`. -/
structure Formula (group : MappingGroup) (f : String → ℕ) : Prop where
  nodup : (group.map (·.inventorySku)).Nodup
  mem : ∀ c : MappingComponent, c ∈ group ↔ f c.inventorySku = c.quantity ∧ 0 < c.quantity

theorem formula_nil : Formula [] fun _ => 0 :=
  ⟨List.nodup_nil, fun c => by simp only [List.not_mem_nil, false_iff]; omega⟩

theorem skus_mergeComponent : ∀ (group : MappingGroup) (c : MappingComponent),
    (mergeComponent group c).map (·.inventorySku) =
      if c.inventorySku ∈ group.map (·.inventorySku) then group.map (·.inventorySku)
      else group.map (·.inventorySku) ++ [c.inventorySku]
  | [], _ => by simp [mergeComponent]
  | e :: group, c => by
    unfold mergeComponent
    by_cases h : e.inventorySku = c.inventorySku
    · simp [h]
    · have h' : c.inventorySku ≠ e.inventorySku := fun he => h he.symm
      rw [if_neg h, List.map_cons, skus_mergeComponent group c]
      by_cases hm : c.inventorySku ∈ group.map (·.inventorySku)
      · rw [if_pos hm, if_pos (by simpa using Or.inr hm), List.map_cons]
      · rw [if_neg hm, if_neg (by simpa [h'] using hm), List.map_cons, List.cons_append]

theorem mem_mergeComponent : ∀ {group : MappingGroup}, (group.map (·.inventorySku)).Nodup →
    ∀ (c d : MappingComponent), d ∈ mergeComponent group c ↔
      (d ∈ group ∧ d.inventorySku ≠ c.inventorySku) ∨
      (d.inventorySku = c.inventorySku ∧
        ((∃ e ∈ group, e.inventorySku = c.inventorySku ∧ d.quantity = max e.quantity c.quantity) ∨
          (c.inventorySku ∉ group.map (·.inventorySku) ∧ d.quantity = c.quantity)))
  | [], _, c, d => by
    simp only [mergeComponent, List.mem_singleton, List.not_mem_nil, false_and, exists_false,
      List.map_nil, not_false_eq_true, true_and, false_or]
    constructor
    · rintro rfl
      exact ⟨rfl, rfl⟩
    · rintro ⟨h1, h2⟩
      cases d
      cases c
      simp_all
  | e :: group, hnd, c, d => by
    rw [List.map_cons, List.nodup_cons] at hnd
    unfold mergeComponent
    by_cases h : e.inventorySku = c.inventorySku
    · -- the component is here, so it is nowhere in the rest
      have hrest : ∀ x ∈ group, x.inventorySku ≠ c.inventorySku := fun x hx he =>
        hnd.1 (h ▸ he ▸ List.mem_map_of_mem hx)
      rw [if_pos h, List.mem_cons]
      constructor
      · rintro (rfl | hd)
        · exact Or.inr ⟨h, Or.inl ⟨e, List.mem_cons_self, h, rfl⟩⟩
        · exact Or.inl ⟨List.mem_cons_of_mem _ hd, hrest d hd⟩
      · rintro (⟨hd, hne⟩ | ⟨hd, ⟨x, hx, hxs, hq⟩ | ⟨hno, -⟩⟩)
        · rcases List.mem_cons.mp hd with rfl | hd
          · exact absurd h hne
          · exact Or.inr hd
        · rcases List.mem_cons.mp hx with rfl | hx
          · left
            cases d
            simp_all
          · exact absurd hxs (hrest x hx)
        · exact absurd (by simp [h]) hno
    · have h' : c.inventorySku ≠ e.inventorySku := fun he => h he.symm
      rw [if_neg h, List.mem_cons, mem_mergeComponent hnd.2]
      simp only [List.mem_cons, List.map_cons, exists_eq_or_imp, h, h', false_and, false_or]
      constructor
      · rintro (rfl | ⟨hd, hne⟩ | hd)
        · exact Or.inl ⟨Or.inl rfl, h⟩
        · exact Or.inl ⟨Or.inr hd, hne⟩
        · exact Or.inr hd
      · rintro (⟨rfl | hd, hne⟩ | hd)
        · exact Or.inl rfl
        · exact Or.inr (Or.inl ⟨hd, hne⟩)
        · exact Or.inr (Or.inr hd)

/-- Merging a component raises the formula at its key. -/
theorem Formula.merge {group : MappingGroup} {f : String → ℕ} (h : Formula group f)
    {c : MappingComponent} (hc : 0 < c.quantity) : Formula (mergeComponent group c)
      fun key => if key = c.inventorySku then max (f key) c.quantity else f key := by
  constructor
  · rw [skus_mergeComponent]
    split_ifs with hm
    · exact h.nodup
    · refine List.nodup_append.mpr ⟨h.nodup, List.nodup_singleton _, fun a ha b hb => ?_⟩
      rw [List.mem_singleton.mp hb]
      exact fun he => hm (he ▸ ha)
  · intro d
    rw [mem_mergeComponent h.nodup]
    by_cases hk : d.inventorySku = c.inventorySku
    · simp only [hk, ne_eq, not_true_eq_false, and_false, false_or, true_and, if_true]
      constructor
      · rintro (⟨e, he, hes, hq⟩ | ⟨hno, hq⟩)
        · have := (h.mem e).mp he
          rw [hes] at this
          omega
        · have h0 : f c.inventorySku = 0 := by
            by_contra hne
            exact hno (List.mem_map.mpr
              ⟨⟨c.inventorySku, f c.inventorySku⟩,
              (h.mem _).mpr ⟨rfl, Nat.pos_of_ne_zero hne⟩, rfl⟩)
          omega
      · rintro ⟨hq, hpos⟩
        by_cases h0 : f c.inventorySku = 0
        · refine Or.inr ⟨fun hm => ?_, by omega⟩
          obtain ⟨e, he, hes⟩ := List.mem_map.mp hm
          have := (h.mem e).mp he
          rw [hes] at this
          omega
        · exact Or.inl ⟨⟨c.inventorySku, f c.inventorySku⟩,
            (h.mem _).mpr ⟨rfl, Nat.pos_of_ne_zero h0⟩, rfl, hq.symm⟩
    · simp only [hk, ne_eq, not_false_eq_true, and_true, false_and, or_false, if_false]
      exact h.mem d

/-! ### The groups of a rule -/

variable (skuGroups : Dict String String)

theorem listedQuantities_append (l l' : List SkuMappingComponent) (groupNo : ℕ) (key : String) :
    listedQuantities skuGroups (l ++ l') groupNo key =
      listedQuantities skuGroups l groupNo key ++ listedQuantities skuGroups l' groupNo key := by
  simp [listedQuantities]

theorem foldr_max_append (l : List ℕ) (q : ℕ) : (l ++ [q]).foldr max 0 = max (l.foldr max 0) q := by
  induction l with
  | nil => simp
  | cons a l ih =>
    simp only [List.cons_append, List.foldr_cons, ih]
    omega

theorem maxQuantity_append (l : List SkuMappingComponent) (c : SkuMappingComponent) (groupNo : ℕ)
    (key : String) :
    maxQuantity skuGroups (l ++ [c]) groupNo key =
      if c.groupNo = groupNo ∧ resolveSku skuGroups c.inventorySku = key then
        max (maxQuantity skuGroups l groupNo key) c.quantity
      else maxQuantity skuGroups l groupNo key := by
  unfold maxQuantity
  rw [listedQuantities_append]
  by_cases h : c.groupNo = groupNo ∧ resolveSku skuGroups c.inventorySku = key
  · have hl : listedQuantities skuGroups [c] groupNo key =
      [c.quantity] := by simp [listedQuantities, h]
    rw [hl, foldr_max_append, if_pos h]
  · have hl : listedQuantities skuGroups [c] groupNo key = [] := by simp [listedQuantities, h]
    rw [hl, List.append_nil, if_neg h]

/-- A group that is there is the graph of its formula; one that is not has no
component. -/
structure GroupsAre (components : List SkuMappingComponent) (groups : Dict ℕ MappingGroup) :
    Prop where
  formula : ∀ groupNo, Formula (groups.getD groupNo []) (maxQuantity skuGroups components groupNo)
  keys : ∀ groupNo, groupNo ∈ groups.keys ↔ ∃ c ∈ components, c.groupNo = groupNo

theorem groupsAre_add {components : List SkuMappingComponent} {groups : Dict ℕ MappingGroup}
    (h : GroupsAre skuGroups components groups) (c : SkuMappingComponent) :
    GroupsAre skuGroups (components ++ [c]) (addComponent skuGroups groups c) := by
  constructor
  · intro groupNo
    by_cases hg : groupNo = c.groupNo
    · subst hg
      have hm := (h.formula c.groupNo).merge
        (c := ⟨resolveSku skuGroups c.inventorySku, c.quantity⟩) c.quantity_pos
      have hget : (addComponent skuGroups groups c).getD c.groupNo [] =
          mergeComponent (groups.getD c.groupNo [])
              ⟨resolveSku skuGroups c.inventorySku, c.quantity⟩ := by
        simp [addComponent, Dict.getD, Dict.get?_set_self]
      rw [hget]
      have hf : maxQuantity skuGroups (components ++ [c]) c.groupNo = fun key =>
          if key = resolveSku skuGroups c.inventorySku then
            max (maxQuantity skuGroups components c.groupNo key) c.quantity
          else maxQuantity skuGroups components c.groupNo key := by
        funext key
        rw [maxQuantity_append]
        simp only [true_and, eq_comm]
      rw [hf]
      exact hm
    · have hget : (addComponent skuGroups groups c).getD groupNo [] = groups.getD groupNo [] := by
        simp only [addComponent, Dict.getD, Dict.get?_set_ne _ _ hg]
      have hf : maxQuantity skuGroups (components ++ [c]) groupNo =
          maxQuantity skuGroups components groupNo := by
        funext key
        rw [maxQuantity_append, if_neg]
        exact fun hc => hg hc.1.symm
      rw [hget, hf]
      exact h.formula groupNo
  · intro groupNo
    rw [Dict.mem_keys_iff]
    simp only [addComponent, Dict.get?_set, List.mem_append, List.mem_singleton]
    by_cases hg : groupNo = c.groupNo
    · simp only [hg, if_true, Option.some.injEq, exists_eq', true_iff]
      exact ⟨c, Or.inr rfl, rfl⟩
    · simp only [hg, if_false]
      rw [← Dict.mem_keys_iff, h.keys]
      constructor
      · rintro ⟨d, hd, he⟩
        exact ⟨d, Or.inl hd, he⟩
      · rintro ⟨d, hd | rfl, he⟩
        · exact ⟨d, hd, he⟩
        · exact absurd he.symm hg

/-- **The groups of a rule are the graphs of their formulas.** -/
theorem groupsAre_groupsOf (components : List SkuMappingComponent) :
    GroupsAre skuGroups components (groupsOf skuGroups components) := by
  induction components using List.reverseRecOn with
  | nil => exact ⟨fun _ => formula_nil, by simp [groupsOf, Dict.keys, Dict.empty]⟩
  | append_singleton l c ih =>
    rw [groupsOf, List.foldl_append]
    exact groupsAre_add skuGroups ih c

/-! ### Sorting and dropping -/

theorem sortGroup_perm (group : MappingGroup) :
    (sortGroup group).Perm group := List.perm_insertionSort _ _

theorem sortGroup_sorted (group : MappingGroup) :
    (sortGroup group).Pairwise fun a b => a.inventorySku ≤ b.inventorySku := by
  have : Std.Total fun a b : MappingComponent => a.inventorySku ≤ b.inventorySku :=
    ⟨fun a b => le_total a.inventorySku b.inventorySku⟩
  have : IsTrans MappingComponent fun a b => a.inventorySku ≤ b.inventorySku :=
    ⟨fun _ _ _ h h' => h.trans h'⟩
  exact List.pairwise_insertionSort _ _

theorem Formula.sort {group : MappingGroup} {f : String → ℕ} (h : Formula group f) :
    Formula (sortGroup group) f :=
  ⟨((sortGroup_perm group).map _).nodup_iff.mpr h.nodup,
    fun c => (sortGroup_perm group).mem_iff.trans (h.mem c)⟩

/-- Sorted groups are equal exactly when their formulas are. -/
theorem sortGroup_eq_iff {group group' : MappingGroup} {f f' : String → ℕ} (h : Formula group f)
    (h' : Formula group' f') : sortGroup group = sortGroup group' ↔ f = f' := by
  constructor
  · intro he
    funext key
    have hmem : ∀ q, 0 < q → (f key = q ↔ f' key = q) := by
      intro q hq
      have h1 := h.sort.mem ⟨key, q⟩
      have h2 := h'.sort.mem ⟨key, q⟩
      rw [he] at h1
      have h3 := h1.symm.trans h2
      simp only [hq, and_true] at h3
      exact h3
    rcases Nat.eq_zero_or_pos (f key) with h0 | hpos
    · rcases Nat.eq_zero_or_pos (f' key) with h0' | hpos'
      · rw [h0, h0']
      · exact (hmem _ hpos').mpr rfl
    · exact ((hmem _ hpos).mp rfl).symm
  · rintro rfl
    have hnodup : ∀ {g : MappingGroup}, (g.map (·.inventorySku)).Nodup → g.Nodup :=
      fun hg => List.Nodup.of_map _ hg
    have hperm : (sortGroup group).Perm (sortGroup group') := by
      refine (List.perm_ext_iff_of_nodup (hnodup h.sort.nodup) (hnodup h'.sort.nodup)).mpr fun c =>
        ?_
      rw [h.sort.mem, h'.sort.mem]
    refine hperm.eq_of_pairwise ?_ (sortGroup_sorted group) (sortGroup_sorted group')
    intro a b ha hb hab hba
    have hs := le_antisymm hab hba
    have h1 := ((h.sort.mem a).mp ha).1
    have h2 := ((h'.sort.mem b).mp hb).1
    rw [hs, h2] at h1
    cases a
    cases b
    simp_all

/-- Of groups in the order of their numbers, those are kept whose signature is
not there before. -/
theorem mem_keepGroups : ∀ {l : List (ℕ × MappingGroup)}, (l.Pairwise fun a b => a.1 < b.1) →
    ∀ (existing : List MappingGroup) (no : ℕ) (group : MappingGroup),
    (no, group) ∈ keepGroups existing l ↔
      (no, group) ∈ l ∧ group ∉ existing ∧ ∀ no' < no, (no', group) ∉ l
  | [], _, _, _, _ => by simp [keepGroups]
  | (n, g) :: l, hp, existing, no, group => by
    obtain ⟨hlt, hp⟩ := List.pairwise_cons.mp hp
    unfold keepGroups
    by_cases hg : g ∈ existing
    · rw [if_pos hg, mem_keepGroups hp]
      constructor
      · rintro ⟨hm, hne, hall⟩
        refine ⟨List.mem_cons_of_mem _ hm, hne, fun no' hno' hm' => ?_⟩
        rcases List.mem_cons.mp hm' with he | hm'
        · exact hne ((Prod.mk.inj he).2 ▸ hg)
        · exact hall no' hno' hm'
      · rintro ⟨hm, hne, hall⟩
        refine ⟨?_, hne, fun no' hno' hm' => hall no' hno' (List.mem_cons_of_mem _ hm')⟩
        rcases List.mem_cons.mp hm with he | hm
        · exact absurd ((Prod.mk.inj he).2 ▸ hg) hne
        · exact hm
    · rw [if_neg hg, List.mem_cons, mem_keepGroups hp]
      constructor
      · rintro (he | ⟨hm, hne, hall⟩)
        · obtain ⟨rfl, rfl⟩ := Prod.mk.inj he
          refine ⟨List.mem_cons_self, hg, fun no' hno' hm' => ?_⟩
          rcases List.mem_cons.mp hm' with he' | hm'
          · exact absurd (Prod.mk.inj he').1 (by omega)
          · have : no < no' := hlt _ hm'
            omega
        · refine ⟨List.mem_cons_of_mem _ hm, fun hx => hne (List.mem_cons_of_mem _ hx),
            fun no' hno' hm' => ?_⟩
          rcases List.mem_cons.mp hm' with he' | hm'
          · exact hne ((Prod.mk.inj he').2 ▸ List.mem_cons_self)
          · exact hall no' hno' hm'
      · rintro ⟨hm, hne, hall⟩
        rcases List.mem_cons.mp hm with he | htail
        · exact Or.inl he
        · refine Or.inr ⟨htail, fun hx => ?_,
            fun no' hno' hm' => hall no' hno' (List.mem_cons_of_mem _ hm')⟩
          have hlt' : n < no := hlt (no, group) htail
          rcases List.mem_cons.mp hx with rfl | hx
          · exact hall n hlt' List.mem_cons_self
          · exact hne hx

theorem keepGroups_sublist : ∀ (l : List (ℕ × MappingGroup)) (existing : List MappingGroup),
    (keepGroups existing l).Sublist l
  | [], _ => List.Sublist.slnil
  | (n, g) :: l, existing => by
    unfold keepGroups
    split_ifs
    · exact (keepGroups_sublist l existing).cons _
    · exact (keepGroups_sublist l _).cons_cons _

/-- The loaded groups of a rule, with their numbers. -/
def keptGroups (components : List SkuMappingComponent) : List (ℕ × MappingGroup) :=
  keepGroups [] (sortedGroups (groupsOf skuGroups components))

/-- The rule has a group of this number. -/
def HasGroup (components : List SkuMappingComponent) (groupNo : ℕ) :
    Prop := ∃ c ∈ components, c.groupNo = groupNo

theorem sortedGroups_pairwise (groups : Dict ℕ MappingGroup) :
    (sortedGroups groups).Pairwise fun a b => a.1 < b.1 := by
  have hs : (groups.keys.insertionSort (· ≤ ·)).Pairwise (· ≤ ·) := List.pairwise_insertionSort _ _
  have hn : (groups.keys.insertionSort (· ≤ ·)).Nodup :=
    (List.perm_insertionSort _ _).nodup_iff.mpr groups.nodup
  rw [sortedGroups, List.pairwise_map]
  exact (hs.and hn).imp fun h => lt_of_le_of_ne h.1 h.2

theorem keptGroups_nodup (components : List SkuMappingComponent) :
    (keptGroups skuGroups components).Nodup :=
  ((sortedGroups_pairwise _).imp fun h he => absurd (he ▸ h) (lt_irrefl _)).sublist
    (keepGroups_sublist _ _)

/-- **The loaded groups**: each formula of the rule once, at its smallest number. -/
theorem mem_keptGroups {components : List SkuMappingComponent} {no : ℕ} {group : MappingGroup} :
    (no, group) ∈ keptGroups skuGroups components ↔
      HasGroup components no ∧ group = sortGroup ((groupsOf skuGroups components).getD no []) ∧
        ∀ no' < no, HasGroup components no' →
          maxQuantity skuGroups components no' ≠ maxQuantity skuGroups components no := by
  have h := groupsAre_groupsOf skuGroups components
  have hmem : ∀ n g, (n, g) ∈ sortedGroups (groupsOf skuGroups components) ↔
      HasGroup components n ∧ g = sortGroup ((groupsOf skuGroups components).getD n []) := by
    intro n g
    rw [sortedGroups, List.mem_map, HasGroup, ← h.keys]
    constructor
    · rintro ⟨m, hm, he⟩
      obtain ⟨rfl, rfl⟩ := Prod.mk.inj he
      exact ⟨(List.mem_insertionSort _).mp hm, rfl⟩
    · rintro ⟨hm, rfl⟩
      exact ⟨n, (List.mem_insertionSort _).mpr hm, rfl⟩
  rw [keptGroups, mem_keepGroups (sortedGroups_pairwise _), hmem]
  constructor
  · rintro ⟨⟨hn, hg⟩, -, hall⟩
    refine ⟨hn, hg, fun no' hno' hn' he => hall no' hno' ((hmem _ _).mpr ⟨hn', ?_⟩)⟩
    rw [hg, sortGroup_eq_iff (h.formula no) (h.formula no'), he]
  · rintro ⟨hn, hg, hall⟩
    refine ⟨⟨hn, hg⟩, by simp, fun no' hno' hm => ?_⟩
    obtain ⟨hn', hg'⟩ := (hmem _ _).mp hm
    rw [hg, sortGroup_eq_iff (h.formula no) (h.formula no')] at hg'
    exact hall no' hno' hn' hg'.symm

theorem formula_keptGroup {components : List SkuMappingComponent} {no : ℕ} {group : MappingGroup}
    (h : (no, group) ∈ keptGroups skuGroups components) :
    Formula group (maxQuantity skuGroups components no) := by
  obtain ⟨-, rfl, -⟩ := (mem_keptGroups skuGroups).mp h
  exact ((groupsAre_groupsOf skuGroups components).formula no).sort

/-- The smallest group with the formula of a group is kept. -/
theorem exists_keptGroup {components : List SkuMappingComponent} {no : ℕ}
    (hn : HasGroup components no) :
    ∃ no' group, (no', group) ∈ keptGroups skuGroups components ∧
      maxQuantity skuGroups components no' = maxQuantity skuGroups components no := by
  induction no using Nat.strong_induction_on with
  | _ no ih =>
    by_cases h : ∃ no' < no, HasGroup components no' ∧
        maxQuantity skuGroups components no' = maxQuantity skuGroups components no
    · obtain ⟨no', hlt, hn', he⟩ := h
      obtain ⟨no'', group, hk, he'⟩ := ih no' hlt hn'
      exact ⟨no'', group, hk, he'.trans he⟩
    · push Not at h
      exact ⟨no, _, (mem_keptGroups skuGroups).mpr ⟨hn, rfl, h⟩, rfl⟩

/-! ### The loaded rules -/

theorem loadRule_get? (rules : MappingRules) (row : SkuMappingRule)
    (hnew : rules.get? row.commoditySku = none) (sku : String) :
    (loadRule skuGroups rules row).get? sku = if sku = row.commoditySku ∧
    keptGroups skuGroups row.components ≠ [] then
        some ((keptGroups skuGroups row.components).map Prod.snd)
      else rules.get? sku := by
  have hex : rules.getD row.commoditySku [] = [] := by rw [Dict.getD, hnew]; rfl
  unfold loadRule
  simp only [hex, List.nil_append]
  show (if keptGroups skuGroups row.components = [] then rules
    else rules.set row.commoditySku ((keptGroups skuGroups row.components).map Prod.snd)).get? sku =
      _
  by_cases hk : keptGroups skuGroups row.components = []
  · rw [if_pos hk, if_neg (by simp [hk])]
  · rw [if_neg hk, Dict.get?_set]
    simp only [hk, ne_eq, not_false_eq_true, and_true]

theorem loadRules_get? : ∀ (rows : List SkuMappingRule) (rules : MappingRules),
    (rows.map (·.commoditySku)).Nodup → (∀ row ∈ rows, rules.get? row.commoditySku = none) →
    ∀ (sku : String) (groups : List MappingGroup),
      (rows.foldl (loadRule skuGroups) rules).get? sku = some groups ↔
        rules.get? sku = some groups ∨ ∃ row ∈ rows, row.commoditySku = sku ∧
        keptGroups skuGroups row.components ≠ [] ∧
        groups = (keptGroups skuGroups row.components).map Prod.snd
  | [], _, _, _, _, _ => by simp
  | row :: rows, rules, hnd, hnew, sku, groups => by
    rw [List.map_cons, List.nodup_cons] at hnd
    have hne : ∀ r ∈ rows, r.commoditySku ≠ row.commoditySku := fun r hr he =>
      hnd.1 (he ▸ List.mem_map_of_mem hr)
    have hrow := hnew row List.mem_cons_self
    have hnew' : ∀ r ∈ rows, (loadRule skuGroups rules row).get? r.commoditySku = none := by
      intro r hr
      rw [loadRule_get? skuGroups rules row hrow, if_neg (fun h => hne r hr h.1)]
      exact hnew r (List.mem_cons_of_mem _ hr)
    rw [List.foldl_cons, loadRules_get? rows _ hnd.2 hnew', loadRule_get? skuGroups rules row hrow]
    constructor
    · rintro (h | ⟨r, hr, h⟩)
      · split_ifs at h with hc
        · exact Or.inr ⟨row, List.mem_cons_self, hc.1.symm, hc.2, (Option.some.inj h).symm⟩
        · exact Or.inl h
      · exact Or.inr ⟨r, List.mem_cons_of_mem _ hr, h⟩
    · rintro (h | ⟨r, hr, hs, hk, hg⟩)
      · have hc : ¬ (sku = row.commoditySku ∧ keptGroups skuGroups row.components ≠ []) := by
          rintro ⟨rfl, -⟩
          rw [hrow] at h
          exact absurd h (by simp)
        exact Or.inl (by rw [if_neg hc]; exact h)
      · rcases List.mem_cons.mp hr with rfl | hr
        · exact Or.inl (by rw [if_pos ⟨hs.symm, hk⟩, hg])
        · exact Or.inr ⟨r, hr, hs, hk, hg⟩

theorem activeRows_nodup (table : RuleTable) (skus : Option (List String)) :
    ((activeRows table skus).map (·.commoditySku)).Nodup := by
  have hp := (List.perm_insertionSort (fun a b : SkuMappingRule => a.commoditySku ≤ b.commoditySku)
    (table.rows.filter fun row => row.enabled && skus.all fun skus => row.commoditySku ∈ skus)).map
      (·.commoditySku)
  exact hp.nodup_iff.mpr (table.unique_commodities.sublist (List.filter_sublist.map _))

/-- **The loaded rules**: the kept groups of every active rule that has any. -/
theorem loadActiveMappingRules_get? (table : RuleTable) (skus : Option (List String)) (sku : String)
    (groups : List MappingGroup) :
    (loadActiveMappingRules table skus skuGroups).get? sku = some groups ↔
        ∃ row ∈ activeRows table skus, row.commoditySku = sku ∧
        keptGroups skuGroups row.components ≠ [] ∧
        groups = (keptGroups skuGroups row.components).map Prod.snd := by
  rw [loadActiveMappingRules, loadRules_get? skuGroups _ _ (activeRows_nodup table skus) (by simp)]
  simp

end Formula

end Restock
