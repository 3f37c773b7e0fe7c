/-
# Totals and counts under edits (`api/suggestion.py`, `api/config.py`)

The engine stores an item with a total that is the sum of its countries, and a
suggestion with the numbers of its items to buy and to send. A patch may set the
total alone, and may move a quantity to or from zero without touching the counts,
which `_compute_can_enable` reads to ask for an export. So the equations hold in the
runs whose patches do neither (`total_eq_sum_of_reach`, `countsMatch_of_reach`).
-/
import Restock.SuggestionEdit

namespace Restock

open PyText

/-- A condition on the patches of a run, each in the state it is made in. -/
def OnPatch (cond : SuggestionItemPatch → SuggestionItem → Prop) :
    SuggestionOp → SuggestionDb → Prop
  | .patchItem _ suggestionId itemId patch, db => ∀ parent item, db.suggestions.get? suggestionId = some parent →
      parent.items.get? itemId = some item → cond patch item
  | _, _ => True

section Patched

variable {U : CharTable} {leadTimeDays : ℤ} {demandDate : Option String} {item : SuggestionItem}
  {patch : SuggestionItemPatch}

/-! ### What a patch sets -/

@[simp] theorem patchedItem_countryBreakdown :
    (patchedItem U leadTimeDays demandDate item patch).countryBreakdown =
    patch.countryBreakdown.getD item.countryBreakdown := by
  unfold patchedItem
  cases patch.countryBreakdown with
  | none => rfl
  | some m => rfl

@[simp] theorem patchedItem_warehouseBreakdown :
    (patchedItem U leadTimeDays demandDate item patch).warehouseBreakdown =
    patch.warehouseBreakdown.getD item.warehouseBreakdown := by
  unfold patchedItem
  cases patch.countryBreakdown with
  | none => rfl
  | some m => rfl

@[simp] theorem patchedItem_purchaseQty :
    (patchedItem U leadTimeDays demandDate item patch).purchaseQty =
    patch.purchaseQty.getD item.purchaseQty := by
  unfold patchedItem
  cases patch.countryBreakdown with
  | none => rfl
  | some m => rfl

/-- The sum of a new country breakdown goes before a total. -/
theorem patchedItem_totalQty : (patchedItem U leadTimeDays demandDate item patch).totalQty =
    patch.countryBreakdown.elim (patch.totalQty.getD item.totalQty) fun m => m.values.sum := by
  unfold patchedItem
  cases patch.countryBreakdown with
  | none => rfl
  | some m => rfl

end Patched

/-! ### Totals -/

/-- A patch with a total also enters the countries, or enters the sum that is there. -/
def KeepsTotal (patch : SuggestionItemPatch) (item : SuggestionItem) : Prop :=
  ∀ total ∈ patch.totalQty, patch.countryBreakdown.isSome ∨ total = item.countryBreakdown.values.sum

section Totals

variable {U : CharTable}

theorem total_eq_sum_patched {leadTimeDays : ℤ} {demandDate : Option String} {item : SuggestionItem}
    {patch : SuggestionItemPatch} (hkeeps : KeepsTotal patch item)
    (h : item.totalQty = item.countryBreakdown.values.sum) :
    (patchedItem U leadTimeDays demandDate item patch).totalQty =
      (patchedItem U leadTimeDays demandDate item patch).countryBreakdown.values.sum := by
  rw [patchedItem_totalQty, patchedItem_countryBreakdown]
  cases hc : patch.countryBreakdown with
  | some m => rfl
  | none =>
    cases ht : patch.totalQty with
    | none => exact h
    | some total =>
      have hor := hkeeps total ht
      rw [hc] at hor
      exact hor.resolve_left (by simp)

/-- **A total is the sum of its parts** in every state reached by patches that keep
totals. -/
theorem total_eq_sum_of_reach {db : SuggestionDb}
    (h : (suggestionRuns U).ReachIf (OnPatch KeepsTotal) db) :
    ∀ suggestionId s, db.suggestions.get? suggestionId = some s →
      ∀ itemId item, s.items.get? itemId = some item →
      item.totalQty = item.countryBreakdown.values.sum := by
  refine forall_item_of_reach (fun item hi => hi.total) ?_ h
  intro op db sid parent iid item item' hok hparent hitem hst hP
  cases hst with
  | patch hmatch => exact total_eq_sum_patched (hok parent item hparent hitem) hP
  | recalculate => exact hP

end Totals

/-- A patch of the two quantities. -/
def qtyPatch (totalQty purchaseQty : Option ℕ) : SuggestionItemPatch where
  totalQty := totalQty.map Nat.cast
  purchaseQty := purchaseQty.map Nat.cast
  countryBreakdown := none
  warehouseBreakdown := none
  total_nonneg := by
    intro n hn
    obtain ⟨k, -, rfl⟩ := Option.map_eq_some_iff.mp hn
    exact Int.natCast_nonneg k
  purchase_nonneg := by
    intro n hn
    obtain ⟨k, -, rfl⟩ := Option.map_eq_some_iff.mp hn
    exact Int.natCast_nonneg k
  country_nonneg := noCountries_nonneg
  warehouse_nonneg := noWarehouses_nonneg

/-- The edited suggestion has the edited item. -/
theorem get?_firstPatchedDb (patch : SuggestionItemPatch) :
    (firstPatchedDb patch).suggestions.get? 1 =
    some { firstSuggestion with items := firstSuggestion.items.set 1 (firstPatched patch) } :=
  rfl

theorem total_eq_sum_usPatch : (firstPatched usPatch).totalQty = 5 ∧
    (firstPatched usPatch).totalQty = (firstPatched usPatch).countryBreakdown.values.sum := by
  have hreach : (suggestionRuns CharTable.ascii).ReachIf (OnPatch KeepsTotal)
      (firstPatchedDb usPatch) :=
    reach_firstPatch trivial (fun _ _ _ _ total ht => absurd ht (by simp [usPatch, countryPatch]))
      (by decide +kernel)
  exact ⟨by decide +kernel, total_eq_sum_of_reach hreach 1 _ (get?_firstPatchedDb usPatch) 1 _ rfl⟩

/-- A patch of the total alone leaves no countries to sum up to it. -/
theorem total_ne_sum :
    (suggestionRuns CharTable.ascii).Reach (firstPatchedDb (qtyPatch (some 7) none)) ∧
      ((firstPatchedDb (qtyPatch (some 7) none)).suggestions.get? 1).bind (·.items.get? 1) =
      some (firstPatched (qtyPatch (some 7) none)) ∧
    (firstPatched (qtyPatch (some 7) none)).totalQty ≠
      (firstPatched (qtyPatch (some 7) none)).countryBreakdown.values.sum :=
  ⟨reach_firstPatch trivial trivial (by decide +kernel), rfl, by decide +kernel⟩

/-! ### Counts -/

inductive SnapshotType
  | procurement | restock
deriving DecidableEq, Repr

/-- The count of a suggestion that a type of export is about. -/
def Suggestion.itemCount (s : Suggestion) : SnapshotType → ℕ
  | .procurement => s.procurementItemCount
  | .restock => s.restockItemCount

/-- The quantity that a type of export is about. -/
def SuggestionItem.qty (item : SuggestionItem) : SnapshotType → ℤ
  | .procurement => item.purchaseQty
  | .restock => item.countryBreakdown.values.sum

/-- The stored counts are those of the items. -/
def CountsMatch (s : Suggestion) : Prop :=
  ∀ type, s.itemCount type = s.items.values.countP fun item => 0 < item.qty type

/-- The draft of `_compute_can_enable`: the one inserted last. -/
def latestDraft (db : SuggestionDb) : Option (ℕ × Suggestion) :=
  (db.suggestions.items.filter fun entry => entry.2.status = .draft).getLast?

def missingSnapshotReason : SnapshotType → String
  | .procurement => "采购建议尚未导出任何快照"
  | .restock => "补货建议尚未导出任何快照"

/-- The first type that has items and no snapshot. -/
def missingSnapshot (snapshotCount : ℕ → SnapshotType → ℕ) (draft : ℕ × Suggestion) :
    Option SnapshotType :=
  [SnapshotType.procurement, .restock].find? fun type => 0 < draft.2.itemCount type ∧
    snapshotCount draft.1 type = 0

def computeCanEnable (snapshotCount : ℕ → SnapshotType → ℕ) (db : SuggestionDb) :
    Bool × Option String :=
  match (latestDraft db).bind (missingSnapshot snapshotCount) with
  | none => (true, none)
  | some type => (false, some (missingSnapshotReason type))

/-- The check that `_create_snapshot` makes on the items of an export. -/
def validateSnapshotItems (U : CharTable) (items : List (ℕ × SuggestionItem)) :
    SnapshotType → Except String Unit
  | .procurement =>
    let invalidItems := (items.filter fun entry => entry.2.purchaseQty ≤ 0).map Prod.fst
    if invalidItems.isEmpty then .ok ()
    else .error s!"采购快照仅允许 purchase_qty > 0 的条目：{invalidItems}"
  | .restock => validateRestockSnapshotItems U items

/-- A patch that moves no quantity to or from zero. -/
def KeepsSigns (patch : SuggestionItemPatch) (item : SuggestionItem) : Prop :=
  (∀ n ∈ patch.purchaseQty, 0 < n ↔ 0 < item.purchaseQty) ∧
  ∀ m ∈ patch.countryBreakdown, 0 < m.values.sum ↔ 0 < item.countryBreakdown.values.sum

/-- A patch that leaves something to send leaves it in a form that can be exported. -/
def KeepsExportable (U : CharTable) (patch : SuggestionItemPatch) (item : SuggestionItem) : Prop :=
  0 < (patch.countryBreakdown.getD item.countryBreakdown).values.sum →
    Exportable U { item with
      countryBreakdown := patch.countryBreakdown.getD item.countryBreakdown
      warehouseBreakdown := patch.warehouseBreakdown.getD item.warehouseBreakdown }

section Counts

variable {U : CharTable}

theorem qty_pos_patched {leadTimeDays : ℤ} {demandDate : Option String} {item : SuggestionItem}
    {patch : SuggestionItemPatch} (hkeeps : KeepsSigns patch item) (type : SnapshotType) :
    0 < (patchedItem U leadTimeDays demandDate item patch).qty type ↔ 0 < item.qty type := by
  cases type with
  | procurement =>
    show 0 < (patchedItem U leadTimeDays demandDate item patch).purchaseQty ↔ 0 < item.purchaseQty
    rw [patchedItem_purchaseQty]
    cases hp : patch.purchaseQty with
    | none => rfl
    | some n => exact hkeeps.1 n hp
  | restock =>
    show 0 < (patchedItem U leadTimeDays demandDate item patch).countryBreakdown.values.sum ↔
      0 < item.countryBreakdown.values.sum
    rw [patchedItem_countryBreakdown]
    cases hc : patch.countryBreakdown with
    | none => rfl
    | some m => exact hkeeps.2 m hc

theorem countsMatch_new {env : EngineEnv} {firstId : ℕ} {items : List SuggestionItem}
    (h : ∀ item ∈ items, EngineItem U item) : CountsMatch (newSuggestion env firstId items) := by
  have hvalues : (numberItems firstId items).values = items := by
    show ((items.zipIdx firstId).map Prod.swap).map Prod.snd = items
    rw [List.map_map]
    exact List.zipIdx_map_fst firstId items
  intro type
  show _ = (numberItems firstId items).values.countP _
  rw [hvalues]
  cases type with
  | procurement => rfl
  | restock =>
    show items.countP (fun item => 0 < item.totalQty) = items.countP fun item =>
      0 < item.countryBreakdown.values.sum
    exact List.countP_congr fun item hi => by rw [(h item hi).total]

/-- Exchanging an item for one with the same signs keeps the counts. -/
theorem countsMatch_set {s : Suggestion} {itemId : ℕ} {item item' : SuggestionItem}
    (hitem : s.items.get? itemId = some item)
    (hsigns : ∀ type, 0 < item'.qty type ↔ 0 < item.qty type) (h : CountsMatch s) :
    CountsMatch { s with items := s.items.set itemId item' } := by
  intro type
  have hcount : (s.items.set itemId item').values.countP (fun item => decide (0 < item.qty type)) =
      s.items.values.countP fun item => decide (0 < item.qty type) :=
    Dict.countP_values_set hitem (decide_eq_decide.mpr (hsigns type).symm)
  calc s.itemCount type = s.items.values.countP fun item => decide (0 < item.qty type) := h type
    _ = (s.items.set itemId item').values.countP fun item =>
      decide (0 < item.qty type) := hcount.symm

theorem countsMatch_of_reachIf {db : SuggestionDb}
    (h : (suggestionRuns U).ReachIf (OnPatch KeepsSigns) db) :
    ∀ suggestionId s, db.suggestions.get? suggestionId = some s → CountsMatch s := by
  refine forall_suggestion_of_reach (fun s status hs => hs)
    (fun env firstId items hi => countsMatch_new hi) ?_ h
  intro op db sid parent iid item item' hok hparent hitem hst hQ
  cases hst with
  | patch hmatch => exact countsMatch_set hitem (qty_pos_patched (hok parent item hparent hitem)) hQ
  | recalculate => exact countsMatch_set hitem (fun type => by cases type <;> rfl) hQ

theorem exportable_of_reachIf {db : SuggestionDb}
    (h : (suggestionRuns U).ReachIf (OnPatch (KeepsExportable U)) db) :
    ∀ suggestionId s, db.suggestions.get? suggestionId = some s →
      ∀ itemId item, s.items.get? itemId = some item → 0 < item.countryBreakdown.values.sum →
      Exportable U item := by
  refine forall_item_of_reach (fun item hi hpos => ⟨hpos, hi.countries, hi.warehouses⟩) ?_ h
  intro op db sid parent iid item item' hok hparent hitem hst hP
  cases hst with
  | patch hmatch =>
    intro hpos
    rw [patchedItem_countryBreakdown] at hpos
    obtain ⟨h1, h2, h3⟩ := hok parent item hparent hitem hpos
    refine ⟨?_, ?_, ?_⟩
    · rw [patchedItem_countryBreakdown]
      exact h1
    · rw [patchedItem_countryBreakdown]
      exact h2
    · rw [patchedItem_countryBreakdown, patchedItem_warehouseBreakdown]
      exact h3
  | recalculate =>
    intro hpos
    obtain ⟨h1, h2, h3⟩ := hP hpos
    exact ⟨h1, h2, h3⟩

/-- What an export of a single item asks, in a state whose splits add up. -/
theorem validateSnapshotItems_ok {itemId : ℕ} {item : SuggestionItem} {type : SnapshotType}
    (hsplits : SplitsAddUp item.countryBreakdown item.warehouseBreakdown) (hqty : 0 < item.qty type)
    (hexport : 0 < item.countryBreakdown.values.sum → Exportable U item) :
    validateSnapshotItems U [(itemId, item)] type = .ok () := by
  cases type with
  | procurement =>
    have hp : 0 < item.purchaseQty := hqty
    unfold validateSnapshotItems
    rw [List.filter_cons_of_neg (by simpa using hp)]
    rfl
  | restock => exact validate_singleton_iff.mpr ((itemErrors_eq_nil_iff hsplits).mpr (hexport hqty))

/-- A count that matches and is positive counts an item. -/
theorem CountsMatch.exists_item {s : Suggestion} (h : CountsMatch s) {type : SnapshotType}
    (hpos : 0 < s.itemCount type) :
    ∃ itemId item, s.items.get? itemId = some item ∧ 0 < item.qty type := by
  rw [h type, List.countP_pos_iff] at hpos
  obtain ⟨item, hi, hq⟩ := hpos
  obtain ⟨⟨itemId, x⟩, he, rfl⟩ := List.mem_map.mp hi
  exact ⟨itemId, x, Dict.get?_eq_some_iff.mpr he, by simpa using hq⟩

theorem missingSnapshotReason_injective : Function.Injective missingSnapshotReason := by
  intro a b h
  cases a <;> cases b <;> first | rfl | exact absurd h (by decide)

/-- What `_compute_can_enable` asks for is a type of which the latest draft counts
items. -/
theorem computeCanEnable_demands {snapshotCount : ℕ → SnapshotType → ℕ} {db : SuggestionDb}
    {type : SnapshotType} (h : computeCanEnable snapshotCount db =
    (false, some (missingSnapshotReason type))) :
    ∃ suggestionId draft, latestDraft db = some (suggestionId, draft) ∧
      db.suggestions.get? suggestionId = some draft ∧ 0 < draft.itemCount type := by
  unfold computeCanEnable at h
  split at h
  · simp at h
  · rename_i type' hmissing
    obtain rfl := missingSnapshotReason_injective (Option.some.inj (Prod.mk.inj h).2)
    obtain ⟨⟨suggestionId, draft⟩, hdraft, hfind⟩ := Option.bind_eq_some_iff.mp hmissing
    have hmem := (List.mem_filter.mp (List.mem_of_getLast? hdraft)).1
    have hcond := List.find?_some hfind
    rw [decide_eq_true_eq] at hcond
    exact ⟨suggestionId, draft, hdraft, Dict.get?_eq_some_iff.mpr hmem, hcond.1⟩

/-- **Counts match**, and an export that `_compute_can_enable` asks for has an item
with a quantity, as long as patches keep signs; as long as they also keep items
exportable, the export accepts that item. -/
theorem countsMatch_of_reach {db : SuggestionDb}
    (h : (suggestionRuns U).ReachIf (OnPatch KeepsSigns) db) :
    (∀ suggestionId s, db.suggestions.get? suggestionId = some s → CountsMatch s) ∧
    ∀ snapshotCount type, computeCanEnable snapshotCount db =
      (false, some (missingSnapshotReason type)) →
        ∃ suggestionId draft, latestDraft db = some (suggestionId, draft) ∧
          ∃ itemId item, draft.items.get? itemId = some item ∧ 0 < item.qty type ∧
            ((suggestionRuns U).ReachIf (OnPatch (KeepsExportable U)) db →
            validateSnapshotItems U [(itemId, item)] type = .ok ()) := by
  refine ⟨countsMatch_of_reachIf h, fun snapshotCount type hdemand => ?_⟩
  obtain ⟨suggestionId, draft, hlatest, hdraft, hcount⟩ := computeCanEnable_demands hdemand
  obtain ⟨itemId, item, hitem, hqty⟩ :=
    (countsMatch_of_reachIf h suggestionId draft hdraft).exists_item hcount
  refine ⟨suggestionId, draft, hlatest, itemId, item, hitem, hqty, fun hexport => ?_⟩
  exact validateSnapshotItems_ok
    (splitsAddUp_of_reach h.reach suggestionId draft hdraft itemId item hitem) hqty
    (exportable_of_reachIf hexport suggestionId draft hdraft itemId item hitem)

end Counts

theorem get?_firstPatched {patch : SuggestionItemPatch} {itemId : ℕ} {item : SuggestionItem}
    (h : (firstSuggestion.items.set 1 (firstPatched patch)).get? itemId = some item) :
    item = firstPatched patch := by
  rw [Dict.get?_set] at h
  split_ifs at h with he
  · exact (Option.some.inj h).symm
  · have hitems : firstSuggestion.items.items = [(1, firstItem)] := rfl
    rw [Dict.get?_eq_some_iff, hitems, List.mem_singleton] at h
    exact absurd (congrArg Prod.fst h) he

/-- Buying more keeps the counts. -/
theorem countsMatch_more : (suggestionRuns CharTable.ascii).ReachIf (OnPatch KeepsSigns)
      (firstPatchedDb (qtyPatch none (some 20))) ∧
    computeCanEnable (fun _ _ => 0) (firstPatchedDb (qtyPatch none (some 20))) =
      (false, some (missingSnapshotReason .procurement)) ∧
    ∃ suggestionId draft, latestDraft (firstPatchedDb (qtyPatch none (some 20))) =
      some (suggestionId, draft) ∧ CountsMatch draft ∧
      ∃ itemId item, draft.items.get? itemId = some item ∧ 0 < item.qty .procurement := by
  have hitem : ∀ parent item, firstDb.suggestions.get? 1 = some parent →
      parent.items.get? 1 = some item → item = firstItem := by
    rintro parent item ⟨⟩ ⟨⟩
    rfl
  have hreach : (suggestionRuns CharTable.ascii).ReachIf (OnPatch KeepsSigns)
      (firstPatchedDb (qtyPatch none (some 20))) := by
    refine reach_firstPatch trivial ?_ (by decide +kernel)
    intro parent item hparent hi
    rw [hitem parent item hparent hi]
    refine ⟨?_, by simp [qtyPatch]⟩
    rintro n ⟨⟩
    decide
  have hdemand : computeCanEnable (fun _ _ => 0) (firstPatchedDb (qtyPatch none (some 20))) =
      (false, some (missingSnapshotReason .procurement)) := by decide +kernel
  obtain ⟨hmatch, hitems⟩ := countsMatch_of_reach hreach
  obtain ⟨suggestionId, draft, hdraft, itemId, item, hi, hq, -⟩ := hitems _ _ hdemand
  refine ⟨hreach, hdemand, suggestionId, draft, hdraft, ?_, itemId, item, hi, hq⟩
  have hget := (List.mem_filter.mp (List.mem_of_getLast? hdraft)).1
  exact hmatch suggestionId draft (Dict.get?_eq_some_iff.mpr hget)

/-- An item that is no longer bought is still counted, and an export that accepts no
item is asked for. -/
theorem not_countsMatch :
    (suggestionRuns CharTable.ascii).Reach (firstPatchedDb (qtyPatch none (some 0))) ∧
      ∃ draft, (firstPatchedDb (qtyPatch none (some 0))).suggestions.get? 1 = some draft ∧
        ¬ CountsMatch draft ∧ computeCanEnable (fun _ _ => 0)
        (firstPatchedDb (qtyPatch none (some 0))) =
        (false, some (missingSnapshotReason .procurement)) ∧
      ∀ itemId item, draft.items.get? itemId = some item →
        validateSnapshotItems CharTable.ascii [(itemId, item)] .procurement ≠ .ok () := by
  refine ⟨reach_firstPatch trivial trivial (by decide +kernel), _, get?_firstPatchedDb _,
    fun h => ?_, by decide +kernel, fun itemId item hi => ?_⟩
  · exact absurd (h .procurement) (by decide +kernel)
  · rw [get?_firstPatched hi]
    have hzero : (firstPatched (qtyPatch none (some 0))).purchaseQty ≤ 0 := by decide +kernel
    unfold validateSnapshotItems
    rw [List.filter_cons_of_pos (by simpa using hzero)]
    simp

end Restock
