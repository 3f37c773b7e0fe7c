/-
# Physical items (`services/physical_item.py`)

SKUs of one physical item are the aliases of a group. The resolver of the enabled
groups goes both ways: from an alias to the key of its group, and from a key to
its aliases. A component goes by `resolveSku`; its stock is found under the SKUs
of `sourceSkus`, which are the ones that resolve to it (`mem_sourceSkus`).
-/
import Restock.SkuRules

namespace Restock

structure PhysicalItemSkuAlias where
  sku : String
  groupId : ℕ
deriving DecidableEq, Repr

/-- The aliases, none twice, and the enabled groups. -/
structure PhysicalItemTable where
  aliases : List PhysicalItemSkuAlias
  enabledGroups : List ℕ
  unique_skus : (aliases.map (·.sku)).Nodup

structure PhysicalSkuResolver where
  skuToGroupKey : Dict String String
  membersByGroupKey : Dict String (List String)

def groupKey (groupId : ℕ) : String := s!"physical-group:{groupId}"

/-- The aliases of enabled groups, by group and SKU. -/
def enabledAliases (table : PhysicalItemTable) : List PhysicalItemSkuAlias :=
  (table.aliases.filter fun row => row.groupId ∈ table.enabledGroups).insertionSort fun a b =>
    a.groupId < b.groupId ∨ a.groupId = b.groupId ∧ a.sku ≤ b.sku

def loadPhysicalSkuResolver (table : PhysicalItemTable) : PhysicalSkuResolver where
  skuToGroupKey := Dict.ofList
    ((enabledAliases table).map fun row => (row.sku, groupKey row.groupId))
  membersByGroupKey := (Dict.collect
    ((enabledAliases table).map fun row => (groupKey row.groupId, row.sku))).mapVal
    fun _ members => members.insertionSort (· ≤ ·)

/-- The SKUs under which the stock of a component is kept. -/
def PhysicalSkuResolver.sourceSkus (resolver : PhysicalSkuResolver) (key : String) : List String :=
  resolver.membersByGroupKey.getD key [key]

variable (table : PhysicalItemTable)

theorem get?_skuToGroupKey {sku key : String} :
    (loadPhysicalSkuResolver table).skuToGroupKey.get? sku = some key ↔
      ∃ row ∈ enabledAliases table, row.sku = sku ∧ groupKey row.groupId = key := by
  have hnd : ((enabledAliases table).map (·.sku)).Nodup :=
    ((List.perm_insertionSort _ _).map _).nodup_iff.mpr
      (table.unique_skus.sublist (List.filter_sublist.map _))
  rw [loadPhysicalSkuResolver, Dict.get?_ofList_iff]
  · simp
  · intro v v' hv hv'
    obtain ⟨r, hr, he⟩ := List.mem_map.mp hv
    obtain ⟨r', hr', he'⟩ := List.mem_map.mp hv'
    have hrr : r = r' := List.inj_on_of_nodup_map hnd hr hr'
      ((Prod.mk.inj he).1.trans (Prod.mk.inj he').1.symm)
    rw [← (Prod.mk.inj he).2, ← (Prod.mk.inj he').2, hrr]

/-- The members of a key are the aliases that go by it. -/
theorem mem_membersByGroupKey {key : String} {members : List String}
    (h : (loadPhysicalSkuResolver table).membersByGroupKey.get? key = some members) (sku : String) :
    sku ∈ members ↔ (loadPhysicalSkuResolver table).skuToGroupKey.get? sku = some key := by
  rw [loadPhysicalSkuResolver, Dict.get?_mapVal, Option.map_eq_some_iff] at h
  obtain ⟨s, hs, rfl⟩ := h
  rw [List.mem_insertionSort, (Dict.mem_collect hs).2, get?_skuToGroupKey, List.mem_map]
  constructor
  · rintro ⟨row, hrow, he⟩
    exact ⟨row, hrow, (Prod.mk.inj he).2, (Prod.mk.inj he).1⟩
  · rintro ⟨row, hrow, rfl, rfl⟩
    exact ⟨row, hrow, rfl⟩

theorem isSome_membersByGroupKey (key : String) :
    ((loadPhysicalSkuResolver table).membersByGroupKey.get? key).isSome ↔
      ∃ sku, (loadPhysicalSkuResolver table).skuToGroupKey.get? sku = some key := by
  simp only [get?_skuToGroupKey]
  rw [loadPhysicalSkuResolver, Dict.get?_mapVal, Option.isSome_map, Dict.isSome_get?_collect]
  simp only [Bool.not_eq_true', List.isEmpty_eq_false_iff_exists_mem, Dict.mem_valuesAt,
    List.mem_map, Prod.mk.injEq]
  constructor
  · rintro ⟨sku, row, hrow, hk, hs⟩
    exact ⟨sku, row, hrow, hs, hk⟩
  · rintro ⟨sku, row, hrow, hs, hk⟩
    exact ⟨sku, row, hrow, hk, hs⟩

/-- **The source SKUs of a component are those that resolve to it.** -/
theorem mem_sourceSkus {key : String}
    (hkey : ∃ y, resolveSku (loadPhysicalSkuResolver table).skuToGroupKey y = key) {sku : String}
    (h : sku ∈ (loadPhysicalSkuResolver table).sourceSkus key) :
    resolveSku (loadPhysicalSkuResolver table).skuToGroupKey sku = key := by
  rw [PhysicalSkuResolver.sourceSkus, Dict.getD] at h
  cases hm : (loadPhysicalSkuResolver table).membersByGroupKey.get? key with
  | some members =>
    rw [hm, Option.getD_some] at h
    rw [resolveSku, Dict.getD, (mem_membersByGroupKey table hm sku).mp h, Option.getD_some]
  | none =>
    rw [hm, Option.getD_none, List.mem_singleton] at h
    subst h
    -- nothing is grouped under this key, so the SKU that resolves to it is the key itself
    obtain ⟨y, hy⟩ := hkey
    cases hg : (loadPhysicalSkuResolver table).skuToGroupKey.get? y with
    | some k =>
      rw [resolveSku, Dict.getD, hg, Option.getD_some] at hy
      have hsome := (isSome_membersByGroupKey table sku).mpr ⟨y, hy ▸ hg⟩
      rw [hm] at hsome
      exact absurd hsome (by simp)
    | none =>
      have hys : y = sku := by rwa [resolveSku, Dict.getD, hg, Option.getD_none] at hy
      rw [← hys, resolveSku, Dict.getD, hg, Option.getD_none]

theorem exists_mem_sourceSkus (key : String) :
    ∃ sku, sku ∈ (loadPhysicalSkuResolver table).sourceSkus key := by
  rw [PhysicalSkuResolver.sourceSkus, Dict.getD]
  cases hm : (loadPhysicalSkuResolver table).membersByGroupKey.get? key with
  | none => exact ⟨key, by simp⟩
  | some members =>
    obtain ⟨sku, hs⟩ := (isSome_membersByGroupKey table key).mp (by rw [hm]; rfl)
    exact ⟨sku, (mem_membersByGroupKey table hm sku).mpr hs⟩

end Restock
