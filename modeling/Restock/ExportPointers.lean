/-
# The exported pointer of an item under concurrent exports (`api/snapshot.py`)

An export hands out its version under the row lock of the suggestion, but marks the
snapshot and the items in a second transaction, after the workbook was written. If a
snapshot is marked ready only when the ready ones that share an item with it have
smaller versions, an item always points to the ready snapshot of the highest version
that contains it (`pointers_of_reach`). Two exports that finish in the other order
leave the pointer at the older snapshot (`pointer_to_older`).
-/
import Restock.SnapshotStore

namespace Restock

open ReadCommitted

/-! ### Ready snapshots -/

/-- A ready snapshot of the type that contains the item. -/
structure ReadyWith (snapshots : Dict ℕ SnapshotRow) (itemId : ℕ) (type : SnapshotType) (sid : ℕ)
    (row : SnapshotRow) : Prop where
  committed : snapshots.get? sid = some row
  ready : row.generationStatus = .ready
  type : row.snapshotType = type
  item : itemId ∈ row.itemIds

/-- The ready snapshot of the highest version that contains the item. -/
def NewestReady (snapshots : Dict ℕ SnapshotRow) (itemId : ℕ) (type : SnapshotType) (sid : ℕ) :
    Prop :=
  ∃ row, ReadyWith snapshots itemId type sid row ∧
    ∀ sid' row', ReadyWith snapshots itemId type sid' row' → sid' ≠ sid → row'.version < row.version

/-- The item is marked with the newest ready snapshot, or is in none and not marked. -/
def PointerOk (snapshots : Dict ℕ SnapshotRow) (itemId : ℕ) (item : ItemRow) (type : SnapshotType) :
    Prop :=
  (∃ sid, NewestReady snapshots itemId type sid ∧ item.exportedSnapshotId type = some sid ∧
    item.exportStatus type = .exported) ∨
  (∀ sid row, ¬ ReadyWith snapshots itemId type sid row) ∧ item.exportedSnapshotId type = none ∧
    item.exportStatus type = .pending

def StoreDb.PointersOk {P : Type} (db : StoreDb P) : Prop :=
  ∀ itemId item, db.items.committed.get? itemId = some item →
    ∀ type, PointerOk db.snapshots.committed itemId item type

section Ready

variable {snapshots snapshots' : Dict ℕ SnapshotRow} {itemId sid sid' : ℕ} {row row' : SnapshotRow}
    {type : SnapshotType}
  {item item' : ItemRow}

/-- Where the same snapshots are ready, the same pointers are right. -/
theorem PointerOk.congr (hready : ∀ sid row, ReadyWith snapshots' itemId type sid row ↔
    ReadyWith snapshots itemId type sid row)
    (hid : item'.exportedSnapshotId type = item.exportedSnapshotId type)
    (hst : item'.exportStatus type = item.exportStatus type)
    (h : PointerOk snapshots itemId item type) :
    PointerOk snapshots' itemId item' type := by
  unfold PointerOk NewestReady at h ⊢
  simp only [hready, hid, hst]
  exact h

/-- A row that is not ready, in the place of none or of one that was not. -/
theorem readyWith_set_of_not_ready (hnew : row.generationStatus ≠ .ready)
    (hold : ∀ r, snapshots.get? sid = some r → r.generationStatus ≠ .ready) :
    ReadyWith (snapshots.set sid row) itemId type sid' row' ↔
    ReadyWith snapshots itemId type sid' row' := by
  constructor
  · rintro ⟨hc, hr, ht, hi⟩
    rw [Dict.get?_set] at hc
    split_ifs at hc with hk
    · rw [Option.some.inj hc] at hnew
      exact absurd hr hnew
    · exact ⟨hc, hr, ht, hi⟩
  · rintro ⟨hc, hr, ht, hi⟩
    refine ⟨?_, hr, ht, hi⟩
    rw [Dict.get?_set, if_neg]
    · exact hc
    · rintro rfl
      exact hold row' hc hr

/-- A row that becomes ready. -/
theorem readyWith_set (hnew : row.generationStatus = .ready)
    (hold : ∀ r, snapshots.get? sid = some r → r.generationStatus ≠ .ready) :
    ReadyWith (snapshots.set sid row) itemId type sid' row' ↔
      sid' = sid ∧ row' = row ∧ row.snapshotType = type ∧ itemId ∈ row.itemIds ∨
      ReadyWith snapshots itemId type sid' row' := by
  constructor
  · rintro ⟨hc, hr, ht, hi⟩
    rw [Dict.get?_set] at hc
    split_ifs at hc with hk
    · obtain rfl := Option.some.inj hc
      exact Or.inl ⟨hk, rfl, ht, hi⟩
    · exact Or.inr ⟨hc, hr, ht, hi⟩
  · rintro (⟨rfl, rfl, ht, hi⟩ | ⟨hc, hr, ht, hi⟩)
    · exact ⟨Dict.get?_set_self _ _ _, hnew, ht, hi⟩
    · refine ⟨?_, hr, ht, hi⟩
      rw [Dict.get?_set, if_neg]
      · exact hc
      · rintro rfl
        exact hold row' hc hr

@[simp] theorem exportedIn_snapshotId (item : ItemRow) (sid : ℕ) (type : SnapshotType) :
    (item.exportedIn sid type).exportedSnapshotId type = some sid := by
  cases type <;> rfl

@[simp] theorem exportedIn_status (item : ItemRow) (sid : ℕ) (type : SnapshotType) :
    (item.exportedIn sid type).exportStatus type = .exported := by
  cases type <;> rfl

/-- The other type is not touched. -/
theorem exportedIn_other (item : ItemRow) (sid : ℕ) {type type' : SnapshotType} (h : type' ≠ type) :
    (item.exportedIn sid type).exportedSnapshotId type' = item.exportedSnapshotId type' ∧
      (item.exportedIn sid type).exportStatus type' = item.exportStatus type' := by
  cases type <;> cases type'
  · exact absurd rfl h
  · exact ⟨rfl, rfl⟩
  · exact ⟨rfl, rfl⟩
  · exact absurd rfl h

theorem exportedIn_exportedIn (item : ItemRow) (sid : ℕ) (type : SnapshotType) :
    (item.exportedIn sid type).exportedIn sid type = item.exportedIn sid type := by
  cases type <;> rfl

end Ready

/-! ### The items of an export -/

section Items

variable {P : Type}

/-- Only exports are requested. -/
def ExportsOnly (a : P × StoreAction) : Prop :=
  ∀ request, a.2 = .request request → ∃ type id itemIds, request = .createSnapshot type id itemIds

/-- Idle or inside an export. -/
def StorePoint.exporter : StorePoint → Prop
  | .idle | .createSnapshot _ => True
  | _ => False

/-- After the workbook was written. -/
def StorePoint.marks : StorePoint → Prop
  | .createSnapshot (.marked _ _ _ _) => True
  | _ => False

/-- Where an export has no item. -/
def StorePoint.noItem : StorePoint → Prop
  | .idle | .createSnapshot (.opened _ _ _) | .createSnapshot (.writing _ _) => True
  | _ => False

/-- What holds of the items for a process at a point, in runs of exports. -/
structure ItemAt (p : P) (point : StorePoint) (db : StoreDb P) : Prop where
  exporter : point.exporter
  unlocked : point.noItem → db.items.Unlocked p
  held : ∀ k v, db.items.locks.get? k = some (p, v) →
    ∃ item, db.items.committed.get? k = some item ∧
      (¬ point.marks ∧ v = some item ∨
      ∃ sid row todo, point = .createSnapshot (.marked sid row true todo) ∧ k ∈ row.itemIds ∧
      v = some (item.exportedIn sid row.snapshotType))
  todo : ∀ sid row saved todo, point = .createSnapshot (.marked sid row saved todo) →
    (∀ k ∈ todo, k ∈ row.itemIds) ∧ (saved = false → todo = [])
  marked : ∀ sid row todo, point = .createSnapshot (.marked sid row true todo) → ∀ k ∈ row.itemIds,
    k ∈ todo ∨ db.items.committed.get? k = none ∨ ∃ v, db.items.locks.get? k = some (p, v)

/-- A process that has no item and does not mark any. -/
theorem ItemAt.of_unlocked {p : P} {point : StorePoint} {db : StoreDb P} (he : point.exporter)
    (hm : ¬ point.marks) (h : db.items.Unlocked p) : ItemAt p point db := by
  refine ⟨he, fun _ => h, fun k v hl => absurd hl (h k v), ?_, ?_⟩
  · rintro sid row saved todo rfl
    exact absurd trivial hm
  · rintro sid row todo rfl
    exact absurd trivial hm

variable [DecidableEq P] {db db' : StoreDb P} {p q : P} {point point' : StorePoint}
    {action : StoreAction}

theorem ItemAt.other (hp : ItemAt p point db) (hq : ItemAt q point' db) (he : StoreEffect p db db')
    (hne : q ≠ p) : ItemAt q point' db' := by
  refine ⟨hq.exporter, fun hn => he.items.unlocked_other hne (hq.unlocked hn), fun k v hl => ?_,
    hq.todo, ?_⟩
  · have hl' := (he.items.held_other hne).mp hl
    rw [he.items.committed_of_held hne hl']
    exact hq.held k v hl'
  · rintro sid row todo rfl k hk
    rcases hq.marked sid row todo rfl k hk with h | h | ⟨v, h⟩
    · exact Or.inl h
    · refine Or.inr (Or.inl ?_)
      rcases he.items.committed_cases k with hc | hc
      · rw [hc]
        exact h
      · obtain ⟨item, hitem, -⟩ := hp.held k _ hc
        rw [h] at hitem
        cases hitem
    · exact Or.inr (Or.inr ⟨v, (he.items.held_other hne).mpr h⟩)

omit [DecidableEq P] in
/-- Inside the first transaction, where the items are as they were. -/
theorem ItemAt.of_early {e : ExportPoint} (hm : ¬ (StorePoint.createSnapshot e).marks)
    (hn : ¬ (StorePoint.createSnapshot e).noItem)
    (h : ∀ k v, db.items.locks.get? k = some (p, v) →
      ∃ item, db.items.committed.get? k = some item ∧ v = some item) :
    ItemAt p (.createSnapshot e) db := by
  refine ⟨trivial, fun h => absurd h hn, fun k v hl => ?_, ?_, ?_⟩
  · obtain ⟨item, hitem, hv⟩ := h k v hl
    exact ⟨item, hitem, Or.inl ⟨hm, hv⟩⟩
  · intro sid row saved todo he
    rw [he] at hm
    exact absurd trivial hm
  · intro sid row todo he
    rw [he] at hm
    exact absurd trivial hm

omit [DecidableEq P] in
theorem ItemAt.early (h : ItemAt p point db) (hm : ¬ point.marks) :
    ∀ k v, db.items.locks.get? k = some (p, v) → ∃ item, db.items.committed.get? k = some item ∧
    v = some item := by
  intro k v hl
  obtain ⟨item, hitem, ⟨-, hv⟩ | ⟨sid, row, todo, rfl, -, -⟩⟩ := h.held k v hl
  · exact ⟨item, hitem, hv⟩
  · exact absurd trivial hm

theorem ItemAt.of_lockRow {items : Table P ℕ ItemRow} {k : ℕ} {cond : ItemRow → Bool}
    (h : ∀ k v, db.items.locks.get? k = some (p, v) →
      ∃ item, db.items.committed.get? k = some item ∧ v = some item)
    (hu : db.items.update p k cond some = some items) :
    ∀ k v, items.locks.get? k = some (p, v) → ∃ item, items.committed.get? k = some item ∧
    v = some item := by
  intro k' v hl
  rw [Table.update_committed hu]
  rcases Table.update_held hu hl with hold | ⟨rfl, w, hw, -, hv⟩
  · exact h k' v hold
  · rcases Table.view_cases db.items p k' with hheld | ⟨-, hc⟩
    · rw [hw] at hheld
      rw [hv]
      exact h k' _ hheld
    · exact ⟨w, hc.symm.trans hw, hv⟩

/-- One item of the second transaction. -/
theorem ItemAt.of_point {items : Table P ℕ ItemRow} {sid k : ℕ} {row : SnapshotRow} {saved : Bool}
    {todo : List ℕ} (hat : ItemAt p (.createSnapshot (.marked sid row saved (k :: todo))) db)
    (hu : db.items.update p k (fun _ => true)
      (fun item => some (item.exportedIn sid row.snapshotType)) = some items) :
    ItemAt p (.createSnapshot (.marked sid row saved todo)) { db with items := items } := by
  obtain ⟨htodo, hsaved⟩ := hat.todo _ _ _ _ rfl
  have hs : saved = true := by
    cases saved with
    | true => rfl
    | false => exact absurd (hsaved rfl) (List.cons_ne_nil _ _)
  subst hs
  refine ⟨trivial, fun h => absurd h (fun h => h), fun k' v hl => ?_, ?_, ?_⟩
  · show ∃ item, items.committed.get? k' = some item ∧ _
    rw [Table.update_committed hu]
    rcases Table.update_held hu hl with hold | ⟨rfl, w, hw, -, rfl⟩
    · obtain ⟨item, hitem, ⟨hm, -⟩ | ⟨_, _, _, ⟨⟩, hk, hv⟩⟩ := hat.held k' v hold
      · exact absurd trivial hm
      · exact ⟨item, hitem, Or.inr ⟨_, _, _, rfl, hk, hv⟩⟩
    · have hk : k' ∈ row.itemIds := htodo k' List.mem_cons_self
      rcases Table.view_cases db.items p k' with hheld | ⟨-, hc⟩
      · -- the item stood twice in the list
        obtain ⟨item, hitem, ⟨hm, -⟩ | ⟨_, _, _, ⟨⟩, -, hv⟩⟩ := hat.held k' _ hheld
        · exact absurd trivial hm
        · obtain rfl := Option.some.inj (hw.symm.trans hv)
          exact ⟨item, hitem, Or.inr ⟨_, _, _, rfl, hk, by rw [exportedIn_exportedIn]⟩⟩
      · exact ⟨w, hc.symm.trans hw, Or.inr ⟨_, _, _, rfl, hk, rfl⟩⟩
  · rintro _ _ _ _ ⟨⟩
    exact ⟨fun k' hk' => htodo k' (List.mem_cons_of_mem _ hk'), fun h => (by cases h)⟩
  · rintro _ _ _ ⟨⟩ k' hk'
    show _ ∨ items.committed.get? k' = none ∨ _
    rw [Table.update_committed hu]
    obtain ⟨-, ⟨w, hw, -, rfl⟩ | ⟨hno, rfl⟩⟩ := Table.update_cases hu
    · by_cases hkk : k' = k
      · exact Or.inr (Or.inr ⟨_, by rw [Table.get?_locks_write, if_pos hkk]⟩)
      · rcases hat.marked _ _ _ rfl k' hk' with h | h | ⟨v, h⟩
        · exact Or.inl ((List.mem_cons.mp h).resolve_left hkk)
        · exact Or.inr (Or.inl h)
        · exact Or.inr (Or.inr ⟨v, by rw [Table.get?_locks_write, if_neg hkk]; exact h⟩)
    · rcases hat.marked _ _ _ rfl k' hk' with h | h | h
      · rcases List.mem_cons.mp h with rfl | h
        · -- no such row, so there is nothing to mark
          rcases Table.view_cases db.items p k' with hheld | ⟨-, hc⟩
          · exact Or.inr (Or.inr ⟨_, hheld⟩)
          · refine Or.inr (Or.inl ?_)
            rw [← hc, Option.eq_none_iff_forall_not_mem]
            intro w hw
            exact absurd (hno w hw) (by simp)
        · exact Or.inl h
      · exact Or.inr (Or.inl h)
      · exact Or.inr (Or.inr h)

/-- **The process that moves** keeps its own part. -/
theorem ItemAt.own (hat : ItemAt p point db) (ha : ExportsOnly (p, action))
    (h : StoreStep db p point action db' point') : ItemAt p point' db' := by
  cases h with
  | quit => exact .of_unlocked trivial (fun h => h) (Table.unlocked_abort _ p)
  | engineLock _ | toggleLock _ | archiveRead | deleteRead _ =>
    obtain ⟨_, _, _, he⟩ := ha _ rfl
    cases he
  | exportOpen _ _ => exact .of_unlocked trivial (fun h => h) (hat.unlocked trivial)
  | exportSelect =>
    refine .of_early (fun h => h) (fun h => h) fun k v hl => ?_
    exact absurd hl (hat.unlocked trivial k v)
  | exportLockRow hu =>
    exact .of_early (fun h => h) (fun h => h) (ItemAt.of_lockRow (hat.early fun h => h) hu)
  | exportLocked | exportNumber | exportInsert =>
    exact .of_early (fun h => h) (fun h => h) (hat.early fun h => h)
  | exportCommit => exact .of_unlocked trivial (fun h => h) (Table.unlocked_commit _ p)
  | exportMark _ =>
    have hu := hat.unlocked trivial
    refine ⟨trivial, fun h => absurd h (fun h => h), fun k v hl => absurd hl (hu k v), ?_, ?_⟩
    · rintro _ _ _ _ ⟨⟩
      split_ifs with hs
      · exact ⟨fun _ hk => hk, fun h => (by simp [hs] at h)⟩
      · exact ⟨fun _ hk => (by cases hk), fun _ => rfl⟩
    · rintro _ _ _ ⟨⟩ k hk
      exact Or.inl hk
  | exportPoint hu => exact hat.of_point hu
  | exportFinish => exact .of_unlocked trivial (fun h => h) (Table.unlocked_commit _ p)
  | _ => exact absurd hat.exporter (fun h => h)

/-! ### Commits -/

/-- A commit that is not the last one leaves the items as they were. -/
theorem ItemAt.view_early (hat : ItemAt p point db) (hm : ¬ point.marks) (k : ℕ) :
    db.items.view p k = db.items.committed.get? k := by
  rcases Table.view_cases db.items p k with hheld | ⟨-, hc⟩
  · obtain ⟨item, hitem, hv⟩ := hat.early hm k _ hheld
    rw [hv, hitem]
  · exact hc

/-- The last commit of an export that saved its workbook marks the items it has, and
no others. -/
theorem ItemAt.view_marked {sid k : ℕ} {row : SnapshotRow}
    (hat : ItemAt p (.createSnapshot (.marked sid row true [])) db) :
    db.items.view p k = if k ∈ row.itemIds then
      (db.items.committed.get? k).map fun item => item.exportedIn sid row.snapshotType
    else db.items.committed.get? k := by
  rcases Table.view_cases db.items p k with hheld | ⟨hno, hc⟩
  · obtain ⟨item, hitem, ⟨hm, -⟩ | ⟨_, _, _, ⟨⟩, hk, hv⟩⟩ := hat.held k _ hheld
    · exact absurd trivial hm
    · rw [if_pos hk, hitem, hv]
      rfl
  · rw [hc]
    split_ifs with hk
    · rcases hat.marked _ _ _ rfl k hk with h | h | ⟨v, h⟩
      · cases h
      · rw [h]
        rfl
      · exact absurd h (hno v)
    · rfl

/-- An export that could not save its workbook marks nothing. -/
theorem ItemAt.view_failed {sid k : ℕ} {row : SnapshotRow} {todo : List ℕ}
    (hat : ItemAt p (.createSnapshot (.marked sid row false todo)) db) :
    db.items.view p k = db.items.committed.get? k := by
  rcases Table.view_cases db.items p k with hheld | ⟨-, hc⟩
  · obtain ⟨item, hitem, ⟨hm, -⟩ | ⟨_, _, _, he, -, -⟩⟩ := hat.held k _ hheld
    · exact absurd trivial hm
    · cases he
  · exact hc

/-- The snapshot that an export marks is committed, and not ready. -/
theorem SnapshotAt.commit_marked {sid : ℕ} {row : SnapshotRow} {saved : Bool} {todo : List ℕ}
    (hs : SnapshotAt p (.createSnapshot (.marked sid row saved todo)) db) :
    (db.snapshots.commit p).committed = db.snapshots.committed.set sid (row.marked saved) ∧
      ∀ r, db.snapshots.committed.get? sid = some r → r.generationStatus ≠ .ready := by
  obtain ⟨hl, hg⟩ := hs.marked sid row saved todo rfl
  constructor
  · refine Table.commit_of_held hl fun k' v' hl' => ?_
    rcases hs.pending k' v' hl' with ⟨_, he, -⟩ | ⟨_, _, _, he, -⟩
    · cases he
    · cases he
      rfl
  · intro r hr hready
    obtain ⟨_, he, -⟩ | ⟨_, _, _, ⟨⟩, -, hc⟩ := hs.pending sid _ hl
    · cases he
    · obtain rfl := Option.some.inj (hr.symm.trans hc)
      rw [hg] at hready
      cases hready

/-- **The last commit** of an export that saved its workbook: right if the ready
snapshots that share an item have smaller versions. -/
theorem pointersOk_marked {sid : ℕ} {row : SnapshotRow}
    (hs : SnapshotAt p (.createSnapshot (.marked sid row true [])) db)
    (hat : ItemAt p (.createSnapshot (.marked sid row true [])) db) (hok : db.PointersOk)
      (horder : ∀ sid' row' k, k ∈ row.itemIds →
      ReadyWith db.snapshots.committed k row.snapshotType sid' row' →
      row'.version < row.version) : (db.commit p).PointersOk := by
  obtain ⟨hcommit, hnot⟩ := hs.commit_marked
  intro k item' hitem' type
  have hview : db.items.view p k = some item' := by
    rw [← Table.get?_commit]
    exact hitem'
  rw [hat.view_marked] at hview
  show PointerOk (db.snapshots.commit p).committed k item' type
  rw [hcommit]
  by_cases hk : k ∈ row.itemIds
  · rw [if_pos hk] at hview
    obtain ⟨item, hitem, rfl⟩ := Option.map_eq_some_iff.mp hview
    by_cases ht : type = row.snapshotType
    · subst ht
      refine Or.inl ⟨sid, ⟨row.marked true, ⟨Dict.get?_set_self _ _ _, rfl, rfl, hk⟩,
        ?_⟩, by simp, by simp⟩
      intro sid' row' hr hne
      rcases (readyWith_set rfl hnot).mp hr with ⟨h, -⟩ | h
      · exact absurd h hne
      · exact horder sid' row' k hk h
    · refine (hok k item hitem type).congr (fun sid' row' => ?_) (exportedIn_other item sid ht).1
        (exportedIn_other item sid ht).2
      rw [readyWith_set rfl hnot]
      refine or_iff_right ?_
      rintro ⟨-, -, h, -⟩
      exact ht h.symm
  · rw [if_neg hk] at hview
    refine (hok k item' hview type).congr (fun sid' row' => ?_) rfl rfl
    rw [readyWith_set rfl hnot]
    refine or_iff_right ?_
    rintro ⟨-, -, -, h⟩
    exact hk h

omit [DecidableEq P] in
/-- A statement that leaves the items, and makes no snapshot ready. -/
theorem StoreDb.PointersOk.congr (hok : db.PointersOk)
    (hitems : ∀ k, db'.items.committed.get? k = db.items.committed.get? k)
    (hready : ∀ k type sid row, ReadyWith db'.snapshots.committed k type sid row ↔
      ReadyWith db.snapshots.committed k type sid row) : db'.PointersOk := by
  intro k item hitem type
  rw [hitems] at hitem
  exact (hok k item hitem type).congr (hready k type) rfl rfl

/-- Exports alone, and a snapshot is marked ready only when the ready ones of its type
that share an item with it have smaller versions. -/
def InVersionOrder (a : P × StoreAction) (s : Procs P StorePoint (StoreDb P)) : Prop :=
  ExportsOnly a ∧ ∀ sid row, s.proc a.1 = .createSnapshot (.marked sid row true []) →
    a.2 = .statement → ∀ sid' row' k, k ∈ row.itemIds →
      ReadyWith s.shared.snapshots.committed k row.snapshotType sid' row' →
      row'.version < row.version

theorem StoreStep.pointersOk (hs : SnapshotAt p point db) (hat : ItemAt p point db)
    (hok : db.PointersOk) (horder : ∀ sid row, point = .createSnapshot (.marked sid row true []) →
      action = .statement → ∀ sid' row' k, k ∈ row.itemIds →
        ReadyWith db.snapshots.committed k row.snapshotType sid' row' → row'.version < row.version)
    (h : StoreStep db p point action db' point') : db'.PointersOk := by
  cases h with
  | exportCommit =>
    rename_i sid row
    obtain ⟨hl, hg⟩ := hs.inserted sid row rfl
    have hnew : ∀ r, db.snapshots.committed.get? sid = some r → r.generationStatus ≠ .ready := by
      intro r hr
      obtain ⟨_, ⟨⟩, -, hc⟩ | ⟨_, _, _, he, -⟩ := hs.pending sid _ hl
      · rw [hc] at hr
        cases hr
      · cases he
    have hcommit : (db.snapshots.commit p).committed = db.snapshots.committed.set sid row := by
      refine Table.commit_of_held hl fun k' v' hl' => ?_
      obtain ⟨_, ⟨⟩, -⟩ | ⟨_, _, _, he, -⟩ := hs.pending k' v' hl'
      · rfl
      · cases he
    refine hok.congr (fun k => ?_) fun k type sid' row' => ?_
    · show (db.items.commit p).committed.get? k = _
      rw [Table.get?_commit, hat.view_early fun h => h]
    · show ReadyWith (db.snapshots.commit p).committed _ _ _ _ ↔ _
      rw [hcommit]
      exact readyWith_set_of_not_ready (by rw [hg]; simp) hnew
  | exportFinish =>
    rename_i sid row saved
    cases saved with
    | true => exact pointersOk_marked hs hat hok (horder sid row rfl rfl)
    | false =>
      obtain ⟨hcommit, hnot⟩ := hs.commit_marked
      refine hok.congr (fun k => ?_) fun k type sid' row' => ?_
      · show (db.items.commit p).committed.get? k = _
        rw [Table.get?_commit, hat.view_failed]
      · show ReadyWith (db.snapshots.commit p).committed _ _ _ _ ↔ _
        rw [hcommit]
        exact readyWith_set_of_not_ready (by simp [SnapshotRow.marked]) hnot
  | quit | exportOpen _ _ | exportSelect | exportLocked | exportNumber | exportInsert => exact hok
  | exportLockRow hu | exportPoint hu =>
    exact hok.congr (fun k => by rw [Table.update_committed hu]) fun _ _ _ _ => Iff.rfl
  | exportMark hu =>
    exact hok.congr (fun k => rfl) fun _ _ _ _ => by rw [Table.update_committed hu]
  | engineLock _ | toggleLock _ | archiveRead | deleteRead _ => exact hok
  | _ => exact absurd hat.exporter (fun h => h)

/-- A quiet state with right pointers. -/
def PointerStart (s : Procs P StorePoint (StoreDb P)) : Prop := StoreQuiet s ∧ s.shared.PointersOk

/-- **The pointer names the newest ready snapshot** in every state of a run of exports
that are marked in the order of their versions. -/
theorem pointers_of_reach {s : Procs P StorePoint (StoreDb P)}
    (h : (storeRuns PointerStart).ReachIf InVersionOrder s) {itemId : ℕ} {item : ItemRow}
    (hitem : s.shared.items.committed.get? itemId = some item) (type : SnapshotType) :
    PointerOk s.shared.snapshots.committed itemId item type := by
  have hno : ∀ {a : P × StoreAction} {s}, InVersionOrder a s → NoDelete a := by
    intro a s ha id he
    obtain ⟨_, _, _, h⟩ := ha.1 _ he
    cases h
  have h' := h.and_invariant fun hr => snapshotAt_of_noDelete (fun hs => hs.1) hno hr
  have hI : s.shared.PointersOk ∧ ∀ p, ItemAt p (s.proc p) s.shared := by
    refine Procs.invariant (I := StoreDb.PointersOk) ?_ ?_ ?_ h'
    · intro s hs
      refine ⟨hs.2, fun p => ?_⟩
      rw [hs.1.idle p]
      refine .of_unlocked trivial (fun h => h) fun k v hl => ?_
      rw [hs.1.items] at hl
      cases hl
    · intro s p a r hok hAt ⟨ha, hf, hsnap⟩ hr
      have hst := storeNext_step hr
      exact ⟨hst.pointersOk (hsnap p) (hAt p) hok ha.2, (hAt p).own ha.1 hst⟩
    · intro s p a r q hok hAt ⟨ha, hf, hsnap⟩ hr hq
      exact (hAt p).other (hAt q) ((storeNext_step hr).effect hf) hq
  exact hI.1 itemId item hitem type

end Items

/-! ### Two exports -/

section TwoExports

variable {P : Type}

theorem pointerStart_oneItemStore : PointerStart (oneItemStore (P := P)) := by
  refine ⟨storeQuiet_oneItemStore, fun k item hitem type => Or.inr ⟨fun sid row h => ?_, ?_⟩⟩
  · cases h.committed
  · have hnew : item = .new 1 := by
      by_cases hk : k = 1
      · subst hk
        exact (Option.some.inj hitem).symm
      · rw [show (oneItemStore (P := P)).shared.items.committed.get? k =
          none from Dict.get?_set_ne _ _ hk] at hitem
        cases hitem
    subst hnew
    cases type
    · exact ⟨rfl, rfl⟩
    · exact ⟨rfl, rfl⟩

/-- The second transaction of an export with one item. -/
def finishRun (p : P) :
    List (P × StoreAction) := [(p, .workbook true), (p, .statement), (p, .statement)]

theorem exportsOnly_exportRun {p : P} {id itemId : ℕ} {type : SnapshotType} {a : P × StoreAction}
    (ha : a ∈ exportRun p type id itemId) : ExportsOnly a := by
  intro request hr
  rcases List.mem_cons.mp ha with rfl | ha
  · cases hr
    exact ⟨_, _, _, rfl⟩
  · rw [List.eq_of_mem_replicate ha] at hr
    cases hr

theorem exportsOnly_finishRun {p : P} {a : P × StoreAction} (ha : a ∈ finishRun p) :
    ExportsOnly a := by
  intro request hr
  simp only [finishRun, List.mem_cons, List.not_mem_nil, or_false] at ha
  rcases ha with rfl | rfl | rfl <;> cases hr

def noneReady (s : Procs P StorePoint (StoreDb P)) : Bool :=
  s.shared.snapshots.committed.values.all fun row => row.generationStatus ≠ .ready

theorem not_readyWith_of_noneReady {s : Procs P StorePoint (StoreDb P)}
    (h : noneReady s = true) {k sid : ℕ} {type : SnapshotType} {row : SnapshotRow} :
    ¬ ReadyWith s.shared.snapshots.committed k type sid row := by
  rintro ⟨hc, hr, -, -⟩
  have hmem : row ∈ s.shared.snapshots.committed.values :=
    List.mem_map.mpr ⟨(sid, row), Dict.get?_eq_some_iff.mp hc, rfl⟩
  have := List.all_eq_true.mp h row hmem
  simp [hr] at this

end TwoExports

/-- One export: the item points to its snapshot. -/
theorem pointers_one_export : ∃ s : Procs Bool StorePoint (StoreDb Bool),
    (storeRuns PointerStart).ReachIf InVersionOrder s ∧
    ∃ item, s.shared.items.committed.get? 1 = some item ∧
      item.exportedSnapshotId .procurement = some 1 ∧
      PointerOk s.shared.snapshots.committed 1 item .procurement := by
  have hrun : (Procs.execIf storeNext (fun _ s => noneReady s) oneItemStore
      (exportRun false .procurement 1 1 ++ finishRun false)).map
      (fun s => s.shared.items.committed.get? 1) =
      some (some ((ItemRow.new 1).exportedIn 1 .procurement)) := rfl
  obtain ⟨s, hs, hitem⟩ := Option.map_eq_some_iff.mp hrun
  have hreach : (storeRuns PointerStart).ReachIf InVersionOrder s := by
    refine Procs.reach_execIf (.start pointerStart_oneItemStore) hs fun a ha s hnone => ⟨?_, ?_⟩
    · rcases List.mem_append.mp ha with ha | ha
      · exact exportsOnly_exportRun ha
      · exact exportsOnly_finishRun ha
    · intro _ _ _ _ _ _ _ _ hready
      exact absurd hready (not_readyWith_of_noneReady hnone)
  exact ⟨s, hreach, _, hitem, rfl, pointers_of_reach hreach hitem .procurement⟩

/-- Two exports of the item that finish in the other order: both are done, and the item
points to the snapshot of version 1, though that of version 2 is ready. -/
theorem pointer_to_older : ∃ s : Procs Bool StorePoint (StoreDb Bool),
    (storeRuns PointerStart).ReachIf (fun a _ => ExportsOnly a) s ∧ (∀ p, s.proc p = .idle) ∧
    ∃ item, s.shared.items.committed.get? 1 = some item ∧
      ¬ PointerOk s.shared.snapshots.committed 1 item .procurement := by
  have hrun : (Procs.exec storeNext oneItemStore (exportRun false .procurement 1 1 ++
      (exportRun true .procurement 1 1 ++ (finishRun true ++ finishRun false)))).map (fun s =>
        ((s.proc false, s.proc true), s.shared.items.committed.get? 1,
          s.shared.snapshots.committed.get? 1, s.shared.snapshots.committed.get? 2)) =
      some ((.idle, .idle), some ((ItemRow.new 1).exportedIn 1 .procurement),
        some ⟨1, .procurement, 1, [1], .ready⟩, some ⟨1, .procurement, 2, [1], .ready⟩) := rfl
  obtain ⟨s, hs, hall⟩ := Option.map_eq_some_iff.mp hrun
  obtain ⟨hidle, hrest⟩ := Prod.mk.inj hall
  obtain ⟨hitem, hrest⟩ := Prod.mk.inj hrest
  obtain ⟨hfirst, hsecond⟩ := Prod.mk.inj hrest
  have hreach : (storeRuns PointerStart).ReachIf (fun a _ => ExportsOnly a) s := by
    refine Procs.reach_exec (.start pointerStart_oneItemStore) hs fun a ha _ => ?_
    simp only [List.mem_append] at ha
    rcases ha with ha | ha | ha | ha
    · exact exportsOnly_exportRun ha
    · exact exportsOnly_exportRun ha
    · exact exportsOnly_finishRun ha
    · exact exportsOnly_finishRun ha
  have hready : ReadyWith s.shared.snapshots.committed 1 .procurement 2
      ⟨1, .procurement, 2, [1], .ready⟩ :=
    ⟨hsecond, rfl, rfl, by simp⟩
  refine ⟨s, hreach, Bool.forall_bool.mpr (Prod.mk.inj hidle), _, hitem, ?_⟩
  rintro (⟨sid, ⟨row, hrow, hnewest⟩, hsid, -⟩ | ⟨hnone, -⟩)
  · obtain rfl : 1 = sid := Option.some.inj hsid
    obtain rfl := Option.some.inj (hfirst.symm.trans hrow.committed)
    have := hnewest 2 _ hready (by decide)
    simp at this
  · exact hnone 2 _ hready

end Restock
