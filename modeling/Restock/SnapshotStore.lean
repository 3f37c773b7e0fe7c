/-
# Snapshots under concurrent exports (`api/snapshot.py`)

A snapshot row belongs to the export that inserted it until the export has marked it
ready or failed (`owners_of_reach`). As long as no suggestion is deleted, what a
process has pending of the snapshots is the row it inserted or the row it marks, and
nobody else touches that row (`SnapshotAt`); a row that is ready stays as it is
(`snapshots_keep_of_reach`). A deletion takes the rows of its suggestion with it.

Under the row lock on the suggestion an export reads the largest version and inserts
the next one, so the versions of a suggestion and type are `1, …, n` in the order of
the first commits (`versions_of_reach`).
-/
import Restock.OneDraft

namespace Restock

open ReadCommitted

section Owners

variable {P : Type}

/-- The export has inserted the snapshot and is not done with it. -/
def StorePoint.owns : StorePoint → ℕ → Prop
  | .createSnapshot (.inserted sid _), k => k = sid
  | .createSnapshot (.writing sid _), k => k = sid
  | .createSnapshot (.marked sid _ _ _), k => k = sid
  | _, _ => False

/-- No snapshot has two owners. -/
structure Owners (s : Procs P StorePoint (StoreDb P)) : Prop where
  unique : ∀ p q sid, (s.proc p).owns sid → (s.proc q).owns sid → p = q
  below : ∀ p sid, (s.proc p).owns sid → sid < s.shared.nextSnapshot

variable [DecidableEq P] {db db' : StoreDb P} {p q : P} {point point' : StorePoint}
    {action : StoreAction} {sid : ℕ}

/-- A snapshot is owned by the export that inserts it. -/
theorem StoreStep.owns (h : StoreStep db p point action db' point') (ho : point'.owns sid) :
    point.owns sid ∨ sid = db.nextSnapshot ∧ db'.nextSnapshot = db.nextSnapshot + 1 := by
  cases h with
  | exportInsert => exact Or.inr ⟨ho, rfl⟩
  | exportCommit => exact Or.inl ho
  | exportMark _ => exact Or.inl ho
  | exportPoint _ => exact Or.inl ho
  | _ => cases ho

theorem owners_of_reach {ok : P × StoreAction → Procs P StorePoint (StoreDb P) → Prop}
    {start : Procs P StorePoint (StoreDb P) → Prop} (hstart : ∀ {s}, start s → StoreQuiet s)
    {s : Procs P StorePoint (StoreDb P)} (h : (storeRuns start).ReachIf ok s) :
    s.shared.Fresh ∧ Owners s := by
  refine Lts.ReachIf.invariant (I := fun s => s.shared.Fresh ∧ Owners s) ?_ ?_ h
  · intro s hs
    have hq := hstart hs
    refine ⟨hq.fresh, fun p q sid hp => ?_, fun p sid hp => ?_⟩
    · rw [hq.idle p] at hp
      cases hp
    · rw [hq.idle p] at hp
      cases hp
  · rintro s ⟨p, a⟩ s' ⟨hf, ho⟩ - hst
    obtain ⟨r, hr, rfl⟩ := Procs.step_iff.mp hst
    have hstep := storeNext_step hr
    have hle : s.shared.nextSnapshot ≤ r.1.nextSnapshot := (hstep.effect hf).nextSnapshot
    -- of the mover, what it owns it owned before, or it is the next number
    have hmove : ∀ q sid, ((s.move p r).proc q).owns sid → (s.proc q).owns sid ∨
        q = p ∧ sid = s.shared.nextSnapshot ∧ r.1.nextSnapshot = s.shared.nextSnapshot + 1 := by
      intro q sid hq
      by_cases hqp : q = p
      · subst hqp
        rw [Procs.move_proc_self] at hq
        exact (hstep.owns hq).imp_right fun h => ⟨rfl, h⟩
      · rw [Procs.move_proc_ne _ _ hqp] at hq
        exact Or.inl hq
    refine ⟨hstep.fresh hf, fun q q' sid hq hq' => ?_, fun q sid hq => ?_⟩
    · rcases hmove q sid hq with h | ⟨h, hn, -⟩
      · rcases hmove q' sid hq' with h' | ⟨-, hn', -⟩
        · exact ho.unique q q' sid h h'
        · have := ho.below q sid h
          omega
      · rcases hmove q' sid hq' with h' | ⟨h', -, -⟩
        · have := ho.below q' sid h'
          omega
        · rw [h, h']
    · show sid < r.1.nextSnapshot
      rcases hmove q sid hq with h | ⟨-, hn, hs⟩
      · have := ho.below q sid h
        omega
      · omega

end Owners

/-! ### What an export has pending -/

section Pending

variable {P : Type}

/-- No export commits a new snapshot of a suggestion while a request to delete the
suggestion stands between its count of the snapshots and its `DELETE`. -/
def CommitsApart (a : P × StoreAction) (s : Procs P StorePoint (StoreDb P)) : Prop :=
  ∀ sid row, s.proc a.1 = .createSnapshot (.inserted sid row) → a.2 = .statement →
    ∀ q, s.proc q ≠ .delete (.counted row.suggestionId)

/-- The suggestion has no committed snapshot. -/
def StoreDb.Unexported (db : StoreDb P) (suggestionId : ℕ) : Prop :=
  ∀ sid row, db.snapshots.committed.get? sid = some row → row.suggestionId ≠ suggestionId

/-- What holds of the snapshots for a process at a point. -/
structure SnapshotAt (p : P) (point : StorePoint) (db : StoreDb P) : Prop where
  counted : ∀ id, point = .delete (.counted id) → db.Unexported id
  cascading : ∀ id snapshots items, point = .delete (.cascading id snapshots items) → snapshots = []
  pending : ∀ sid v, db.snapshots.locks.get? sid = some (p, v) →
    (∃ row, point = .createSnapshot (.inserted sid row) ∧ v = some row ∧
      db.snapshots.committed.get? sid = none) ∨
    ∃ row saved todo, point = .createSnapshot (.marked sid row saved todo) ∧
      v = some (row.marked saved) ∧ db.snapshots.committed.get? sid = some row
  numbered : ∀ row, point = .createSnapshot (.numbered row) → row.generationStatus = .generating
  inserted : ∀ sid row, point = .createSnapshot (.inserted sid row) →
    db.snapshots.locks.get? sid = some (p, some row) ∧ row.generationStatus = .generating
  writing : ∀ sid row, point = .createSnapshot (.writing sid row) →
    db.snapshots.committed.get? sid = some row ∧ row.generationStatus = .generating
  marked : ∀ sid row saved todo, point = .createSnapshot (.marked sid row saved todo) →
    db.snapshots.locks.get? sid = some (p, some (row.marked saved)) ∧
      row.generationStatus = .generating

variable [DecidableEq P] {db db' : StoreDb P} {p q : P} {point point' : StorePoint}
    {action : StoreAction} {sid : ℕ}

/-- A committed snapshot that changes is one that the mover owns. -/
theorem SnapshotAt.committed_cases (hp : SnapshotAt p point db)
    (he : StoreEffect p db db') (sid : ℕ) :
    db'.snapshots.committed.get? sid = db.snapshots.committed.get? sid ∨ point.owns sid := by
  rcases he.snapshots.committed_cases sid with h | h
  · exact Or.inl h
  · rcases hp.pending sid _ h with ⟨row, rfl, -⟩ | ⟨row, saved, todo, rfl, -⟩
    · exact Or.inr rfl
    · exact Or.inr rfl

/-- Where no new snapshot is committed, a suggestion without snapshots stays without. -/
theorem SnapshotAt.unexported (hp : SnapshotAt p point db)
    (h : StoreStep db p point action db' point') {id : ℕ}
    (hnew : ∀ sid row, point = .createSnapshot (.inserted sid row) → action = .statement →
    row.suggestionId ≠ id) (hf : db.Fresh) (hid : db.Unexported id) : db'.Unexported id := by
  intro sid row hrow
  rcases (h.effect hf).snapshots.committed_cases sid with hc | hc
  · exact hid sid row (hc.symm.trans hrow)
  · rcases hp.pending sid _ hc with ⟨row', rfl, hv, hnone⟩ | ⟨row', saved, todo, -, hv, hold⟩
    · cases h with
      | quit =>
        rw [show (db.rollback p).snapshots.committed = db.snapshots.committed from rfl,
          hnone] at hrow
        cases hrow
      | exportCommit =>
        rw [hrow] at hv
        rw [Option.some.inj hv]
        exact hnew sid row' rfl rfl
    · rw [hrow] at hv
      rw [Option.some.inj hv]
      exact hid sid row' hold

theorem SnapshotAt.other (hf : db.Fresh) (hp : SnapshotAt p point db) (hq : SnapshotAt q point' db)
    {point'' : StorePoint} (h : StoreStep db p point action db' point'') (hne : q ≠ p)
    (hown : ∀ sid, point.owns sid → point'.owns sid → p = q)
    (hapart : ∀ sid row, point = .createSnapshot (.inserted sid row) → action = .statement →
      point' ≠ .delete (.counted row.suggestionId)) : SnapshotAt q point' db' := by
  have he := h.effect hf
  refine ⟨?_, hq.cascading, fun sid v hl => ?_, hq.numbered, fun sid row hpt => ?_,
    fun sid row hpt => ?_, fun sid row saved todo hpt => ?_⟩
  · rintro id rfl
    refine hp.unexported h (fun sid row hpt hst => ?_) hf (hq.counted id rfl)
    rintro rfl
    exact hapart sid row hpt hst rfl
  · have hl' := (he.snapshots.held_other hne).mp hl
    rw [he.snapshots.committed_of_held hne hl']
    exact hq.pending sid v hl'
  · exact ⟨(he.snapshots.held_other hne).mpr (hq.inserted sid row hpt).1,
      (hq.inserted sid row hpt).2⟩
  · refine ⟨?_, (hq.writing sid row hpt).2⟩
    rcases hp.committed_cases he sid with h | h
    · rw [h]
      exact (hq.writing sid row hpt).1
    · exact absurd (hown sid h (by rw [hpt]; rfl)).symm hne
  · exact ⟨(he.snapshots.held_other hne).mpr (hq.marked sid row saved todo hpt).1,
      (hq.marked sid row saved todo hpt).2⟩

omit [DecidableEq P] in
/-- At a point that is not about a snapshot. -/
theorem SnapshotAt.of_unlocked (hcounted : ∀ id, point = .delete (.counted id) → db.Unexported id)
    (hcascading : ∀ id snapshots items, point = .delete (.cascading id snapshots items) →
      snapshots = [])
    (hexp : ∀ e, point ≠ .createSnapshot e) (h : db.snapshots.Unlocked p) : SnapshotAt p point db :=
  ⟨hcounted, hcascading, fun sid v hl => absurd hl (h sid v), fun _ he => absurd he (hexp _),
    fun _ _ he => absurd he (hexp _), fun _ _ he => absurd he (hexp _), fun _ _ _ _ he =>
      absurd he (hexp _)⟩

omit [DecidableEq P] in
/-- Before its row is inserted and after it is committed a process has no snapshot. -/
theorem SnapshotAt.unlocked (h : SnapshotAt p point db)
    (h1 : ∀ sid row, point ≠ .createSnapshot (.inserted sid row))
    (h2 : ∀ sid row saved todo, point ≠ .createSnapshot (.marked sid row saved todo)) :
    db.snapshots.Unlocked p := by
  intro sid v hl
  rcases h.pending sid v hl with ⟨row, he, -⟩ | ⟨row, saved, todo, he, -⟩
  · exact h1 sid row he
  · exact h2 sid row saved todo he

omit [DecidableEq P] in
/-- Before the version is read. -/
theorem SnapshotAt.of_early {e : ExportPoint} (h : db.snapshots.Unlocked p)
    (he : ∀ sid row, e ≠ .inserted sid row ∧ e ≠ .writing sid row)
    (hm : ∀ sid row saved todo, e ≠ .marked sid row saved todo)
    (hn : ∀ row, e = .numbered row → row.generationStatus = .generating) :
    SnapshotAt p (.createSnapshot e) db := by
  refine ⟨fun _ h => (by cases h), fun _ _ _ h => (by cases h), fun sid v hl => absurd hl (h sid v),
    fun row hp => ?_, fun sid row hp => ?_, fun sid row hp => ?_, fun sid row saved todo hp => ?_⟩
  · injection hp with hp
    exact hn row hp
  · injection hp with hp
    exact absurd hp (he sid row).1
  · injection hp with hp
    exact absurd hp (he sid row).2
  · injection hp with hp
    exact absurd hp (hm sid row saved todo)

omit [DecidableEq P] in
theorem SnapshotAt.inserted_of_write {row : SnapshotRow} (hf : db.Fresh)
    (hu : db.snapshots.Unlocked p) (hg : row.generationStatus = .generating) (nextSnapshot : ℕ) :
    SnapshotAt p (.createSnapshot (.inserted db.nextSnapshot row))
      { db with snapshots := db.snapshots.write p db.nextSnapshot (some row), nextSnapshot := nextSnapshot } := by
  refine ⟨fun _ h => (by cases h), fun _ _ _ h => (by cases h), fun sid v hl => ?_,
    fun _ h => (by cases h), fun sid row' h => ?_, fun _ _ h => (by cases h), fun _ _ _ _ h =>
    (by cases h)⟩
  · rw [Table.get?_locks_write] at hl
    split_ifs at hl with hk
    · subst hk
      exact Or.inl ⟨row, rfl, (Prod.mk.inj (Option.some.inj hl)).2.symm, (hf.snapshots _ le_rfl).1⟩
    · exact absurd hl (hu sid v)
  · cases h
    refine ⟨?_, hg⟩
    rw [Table.get?_locks_write, if_pos rfl]

theorem SnapshotAt.writing_of_commit {row : SnapshotRow}
    (h : SnapshotAt p (.createSnapshot (.inserted sid row)) db) :
    SnapshotAt p (.createSnapshot (.writing sid row)) (db.commit p) := by
  refine ⟨fun _ h => (by cases h), fun _ _ _ h => (by cases h),
    fun sid v hl => absurd hl (Table.unlocked_commit _ p sid v), fun _ h => (by cases h),
    fun _ _ h => (by cases h), fun sid' row' hp => ?_, fun _ _ _ _ h => (by cases h)⟩
  cases hp
  obtain ⟨hl, hg⟩ := h.inserted sid row rfl
  refine ⟨?_, hg⟩
  show (db.snapshots.commit p).committed.get? sid = some row
  rw [Table.get?_commit, Table.view_of_held hl]

theorem SnapshotAt.marked_of_update {row : SnapshotRow} {saved : Bool} {todo : List ℕ}
    {snapshots : Table P ℕ SnapshotRow} (h : SnapshotAt p (.createSnapshot (.writing sid row)) db)
    (hu : db.snapshots.update p sid (fun _ => true) (fun current => some (current.marked saved)) =
      some snapshots) :
    SnapshotAt p (.createSnapshot (.marked sid row saved todo))
    { db with snapshots := snapshots } := by
  obtain ⟨hrow, hg⟩ := h.writing sid row rfl
  have hfree : db.snapshots.Unlocked p := h.unlocked (fun _ _ h => (by cases h)) fun _ _ _ _ h =>
    (by cases h)
  have hview : db.snapshots.view p sid = some row := (hfree.view sid).trans hrow
  obtain ⟨-, ⟨v, hv, -, rfl⟩ | ⟨hno, -⟩⟩ := Table.update_cases hu
  · obtain rfl := Option.some.inj (hview.symm.trans hv)
    refine ⟨fun _ h => (by cases h), fun _ _ _ h => (by cases h), fun sid' w hl => ?_,
      fun _ h => (by cases h), fun _ _ h => (by cases h), fun _ _ h => (by cases h),
      fun sid' row' saved' todo' hp => ?_⟩
    · rw [Table.get?_locks_write] at hl
      split_ifs at hl with hk
      · subst hk
        exact Or.inr ⟨row, saved, todo, rfl, (Prod.mk.inj (Option.some.inj hl)).2.symm, hrow⟩
      · exact absurd hl (hfree sid' w)
    · cases hp
      refine ⟨?_, hg⟩
      rw [Table.get?_locks_write, if_pos rfl]
  · exact absurd (hno row hview) (by simp)

/-- **The process that moves** keeps its own part. -/
theorem SnapshotAt.own (hf : db.Fresh) (hat : SnapshotAt p point db)
    (h : StoreStep db p point action db' point') : SnapshotAt p point' db' := by
  cases h with
  | quit =>
    exact .of_unlocked (fun _ h => (by cases h)) (fun _ _ _ h => (by cases h))
      (fun _ h => (by cases h)) (Table.unlocked_abort _ p)
  | switchCommit | toggleCommit | archiveCommit | exportFinish | engineCommit =>
    exact .of_unlocked (fun _ h => (by cases h)) (fun _ _ _ h => (by cases h))
      (fun _ h => (by cases h)) (Table.unlocked_commit _ p)
  | deleteGone _ | deleteCommit =>
    exact .of_unlocked (fun _ h => (by cases h)) (fun _ _ _ h => (by cases h))
      (fun _ h => (by cases h))
      (Table.unlocked_commit _ p)
  | deleteCount hnone =>
    have hfree : db.snapshots.Unlocked p :=
      hat.unlocked (fun _ _ h => (by cases h)) fun _ _ _ _ h => (by cases h)
    refine .of_unlocked (fun id hid sid row hrow he => ?_) (fun _ _ _ h => (by cases h))
      (fun _ h => (by cases h)) hfree
    cases hid
    have hmem : sid ∈ ([] : List ℕ) := by
      rw [← hnone]
      exact Table.mem_select.mpr ⟨row, (hfree.view sid).trans hrow, decide_eq_true he⟩
    cases hmem
  | deleteRow _ _ =>
    have hfree : db.snapshots.Unlocked p :=
      hat.unlocked (fun _ _ h => (by cases h)) fun _ _ _ _ h => (by cases h)
    refine .of_unlocked (fun _ h => (by cases h)) (fun id' snapshots items hp => ?_)
      (fun _ h => (by cases h)) hfree
    cases hp
    rw [List.eq_nil_iff_forall_not_mem]
    intro sid hsid
    obtain ⟨row, hrow, he⟩ := Table.mem_select.mp hsid
    exact hat.counted _ rfl sid row ((hfree.view sid).symm.trans hrow) (of_decide_eq_true he)
  | deleteSnapshot _ => exact absurd (hat.cascading _ _ _ rfl) (List.cons_ne_nil _ _)
  | deleteItem _ =>
    refine .of_unlocked (fun _ h => (by cases h)) (fun id snapshots items hp => ?_)
      (fun _ h => (by cases h))
      (hat.unlocked (fun _ _ h => (by cases h)) fun _ _ _ _ h => (by cases h))
    cases hp
    rfl
  | exportOpen _ _ =>
    exact .of_early (hat.unlocked (fun _ _ h => (by cases h)) fun _ _ _ _ h => (by cases h))
      (fun _ _ => ⟨fun h => (by cases h), fun h => (by cases h)⟩) (fun _ _ _ _ h => (by cases h))
        fun _ h => (by cases h)
  | exportSelect | exportLockRow _ | exportLocked =>
    exact .of_early (hat.unlocked (fun _ _ h => (by cases h)) fun _ _ _ _ h => (by cases h))
      (fun _ _ => ⟨fun h => (by cases h), fun h => (by cases h)⟩) (fun _ _ _ _ h => (by cases h))
        fun _ h => (by cases h)
  | exportNumber =>
    refine .of_early (hat.unlocked (fun _ _ h => (by cases h)) fun _ _ _ _ h => (by cases h))
      (fun _ _ => ⟨fun h => (by cases h), fun h => (by cases h)⟩) (fun _ _ _ _ h => (by cases h))
        fun row hr => ?_
    cases hr
    rfl
  | exportInsert =>
    exact .inserted_of_write hf
      (hat.unlocked (fun _ _ h => (by cases h)) fun _ _ _ _ h => (by cases h))
      (hat.numbered _ rfl) _
  | exportCommit => exact hat.writing_of_commit
  | exportMark hu => exact hat.marked_of_update hu
  | exportPoint _ =>
    refine ⟨fun _ h => (by cases h), fun _ _ _ h => (by cases h), fun sid v hl => ?_,
      fun _ h => (by cases h), fun _ _ h => (by cases h), fun _ _ h => (by cases h),
      fun sid row saved todo hp => ?_⟩
    · rcases hat.pending sid v hl with ⟨row, hp, -⟩ | ⟨row, saved, todo, hp, hv, hc⟩
      · cases hp
      · cases hp
        exact Or.inr ⟨_, _, _, rfl, hv, hc⟩
    · cases hp
      exact hat.marked _ _ _ _ rfl
  | _ =>
    exact .of_unlocked (fun _ h => (by cases h)) (fun _ _ _ h => (by cases h))
      (fun _ h => (by cases h))
      (hat.unlocked (fun _ _ h => (by cases h)) fun _ _ _ _ h => (by cases h))

/-- The invariant in every state reached while no deletion misses a snapshot. -/
theorem snapshotAt_of_reach {ok : P × StoreAction → Procs P StorePoint (StoreDb P) → Prop}
    {start : Procs P StorePoint (StoreDb P) → Prop} (hstart : ∀ {s}, start s → StoreQuiet s)
    (hok : ∀ {a s}, ok a s → CommitsApart a s) {s : Procs P StorePoint (StoreDb P)}
    (h : (storeRuns start).ReachIf ok s) :
    s.shared.Fresh ∧ ∀ p, SnapshotAt p (s.proc p) s.shared := by
  have h' := h.and_invariant fun hr => owners_of_reach hstart hr
  refine Procs.invariant (I := StoreDb.Fresh) ?_ ?_ ?_ h'
  · intro s hs
    have hq := hstart hs
    refine ⟨hq.fresh, fun p => ?_⟩
    rw [hq.idle p]
    refine .of_unlocked (fun _ h => (by cases h)) (fun _ _ _ h => (by cases h))
      (fun _ h => (by cases h))
      fun sid v hl => ?_
    rw [hq.snapshots] at hl
    cases hl
  · intro s p a r hf hAt ha hr
    have hst := storeNext_step hr
    exact ⟨hst.fresh hf, (hAt p).own hf hst⟩
  · intro s p a r q hf hAt ha hr hq
    exact (hAt p).other hf (hAt q)
      (storeNext_step hr) hq (fun sid hp hq' => ha.2.2.unique p q sid hp hq')
      fun sid row hpt hst => hok ha.1 sid row hpt hst q

/-! ### Runs without deletions -/

/-- No suggestion is deleted. -/
def NoDelete (a : P × StoreAction) : Prop := ∀ id, a.2 ≠ .request (.delete id)

theorem StoreStep.no_delete (h : StoreStep db p point action db' point') (ha : NoDelete (p, action))
    (hp : ∀ e, point ≠ .delete e) (e : DeletePoint) : point' ≠ .delete e := by
  cases h with
  | deleteRead _ => exact absurd rfl (ha _)
  | deleteCount _ | deleteGone _ | deleteRow _ _ | deleteSnapshot _ | deleteItem _ | deleteCommit =>
    exact absurd rfl (hp _)
  | _ => exact fun h => (by cases h)

theorem no_delete_of_reach {ok : P × StoreAction → Procs P StorePoint (StoreDb P) → Prop}
    {start : Procs P StorePoint (StoreDb P) → Prop} (hstart : ∀ {s}, start s → StoreQuiet s)
    (hok : ∀ {a s}, ok a s → NoDelete a) {s : Procs P StorePoint (StoreDb P)}
    (h : (storeRuns start).ReachIf ok s) :
    ∀ p e, s.proc p ≠ .delete e := by
  refine Lts.ReachIf.invariant (I := fun s => ∀ p e, s.proc p ≠ .delete e) ?_ ?_ h
  · intro s hs p e he
    rw [(hstart hs).idle p] at he
    cases he
  · rintro s ⟨p, a⟩ s' hAt ha hst q
    obtain ⟨r, hr, rfl⟩ := Procs.step_iff.mp hst
    by_cases hq : q = p
    · subst hq
      rw [Procs.move_proc_self]
      exact (storeNext_step hr).no_delete (hok ha) (hAt q)
    · rw [Procs.move_proc_ne _ _ hq]
      exact hAt q

theorem snapshotAt_of_noDelete {ok : P × StoreAction → Procs P StorePoint (StoreDb P) → Prop}
    {start : Procs P StorePoint (StoreDb P) → Prop} (hstart : ∀ {s}, start s → StoreQuiet s)
    (hok : ∀ {a s}, ok a s → NoDelete a) {s : Procs P StorePoint (StoreDb P)}
    (h : (storeRuns start).ReachIf ok s) :
    s.shared.Fresh ∧ ∀ p, SnapshotAt p (s.proc p) s.shared :=
  snapshotAt_of_reach hstart (fun ha _ _ _ _ q => ha.2 q _)
    (h.and_invariant fun hr => no_delete_of_reach hstart hok hr)

/-- A snapshot that is ready stays as it is. -/
theorem SnapshotAt.ready_keeps (hp : SnapshotAt p point db) (he : StoreEffect p db db')
    {row : SnapshotRow} (hrow : db.snapshots.committed.get? sid = some row)
    (hready : row.generationStatus = .ready) :
    db'.snapshots.committed.get? sid = some row := by
  rcases he.snapshots.committed_cases sid with h | h
  · rw [h]
    exact hrow
  · rcases hp.pending sid _ h with ⟨_, -, -, hc⟩ | ⟨row', saved, todo, rfl, -, hc⟩
    · rw [hrow] at hc
      cases hc
    · obtain rfl := Option.some.inj (hrow.symm.trans hc)
      rw [(hp.marked sid row saved todo rfl).2] at hready
      cases hready

end Pending

/-! ### Versions -/

section Versions

variable {P : Type}

/-- The versions of the committed snapshots of a suggestion and type, in the order of
their first commits. -/
def StoreDb.versions (db : StoreDb P) (suggestionId : ℕ) (type : SnapshotType) : List ℕ :=
  (db.snapshots.committed.values.filter fun row => row.suggestionId = suggestionId ∧
    row.snapshotType = type).map
    SnapshotRow.version

/-- The versions of every suggestion and type are `1, …, n`. -/
def StoreDb.Gapless (db : StoreDb P) : Prop :=
  ∀ suggestionId type, ∃ n, db.versions suggestionId type = List.range' 1 n

/-- Where the export holds the lock on its suggestion. -/
def StorePoint.exports : StorePoint → ℕ → Prop
  | .createSnapshot (.opened _ id _), k => k = id
  | .createSnapshot (.locking _ id _ _ _), k => k = id
  | .createSnapshot (.locked _ id _), k => k = id
  | .createSnapshot (.numbered row), k => k = row.suggestionId
  | .createSnapshot (.inserted _ row), k => k = row.suggestionId
  | _, _ => False

/-- The row that the export is about to commit. -/
def StorePoint.newRow : StorePoint → SnapshotRow → Prop
  | .createSnapshot (.numbered row), row' => row' = row
  | .createSnapshot (.inserted _ row), row' => row' = row
  | _, _ => False

/-- What holds of the versions for a process at a point. -/
structure VersionAt (p : P) (point : StorePoint) (db : StoreDb P) : Prop where
  locked : ∀ id, point.exports id → ∃ v, db.suggestions.locks.get? id = some (p, v)
  next : ∀ row, point.newRow row →
    row.version = (db.versions row.suggestionId row.snapshotType).length + 1

theorem StorePoint.exports_of_newRow {point : StorePoint} {row : SnapshotRow}
    (h : point.newRow row) : point.exports row.suggestionId := by
  unfold StorePoint.newRow at h
  split at h
  · rw [h]
    rfl
  · rw [h]
    rfl
  · cases h

theorem VersionAt.of_no_export {p : P} {point : StorePoint} {db : StoreDb P}
    (h : ∀ id, ¬ point.exports id) : VersionAt p point db :=
  ⟨fun id he => absurd he (h id), fun _ hr => absurd (StorePoint.exports_of_newRow hr) (h _)⟩

theorem mem_versions {db : StoreDb P} {id n : ℕ} {type : SnapshotType} : n ∈ db.versions id type ↔
    ∃ sid row, db.snapshots.committed.get? sid = some row ∧ row.suggestionId = id ∧
      row.snapshotType = type ∧ row.version = n := by
  unfold StoreDb.versions Dict.values
  simp only [List.mem_map, List.mem_filter, decide_eq_true_eq, Dict.get?_eq_some_iff]
  constructor
  · rintro ⟨row, ⟨⟨e, he, rfl⟩, hid, hty⟩, hn⟩
    exact ⟨e.1, e.2, he, hid, hty, hn⟩
  · rintro ⟨sid, row, he, hid, hty, hn⟩
    exact ⟨row, ⟨⟨(sid, row), he, rfl⟩, hid, hty⟩, hn⟩

theorem versions_congr {db db' : StoreDb P}
    (h : db'.snapshots.committed = db.snapshots.committed) (id : ℕ) (type : SnapshotType) :
    db'.versions id type = db.versions id type := by
  unfold StoreDb.versions
  rw [h]

/-- A new row is the last of its suggestion and type. -/
theorem versions_insert {db db' : StoreDb P} {sid : ℕ} {row : SnapshotRow}
    (hnew : db.snapshots.committed.get? sid = none)
    (h : db'.snapshots.committed = db.snapshots.committed.set sid row) (id : ℕ)
    (type : SnapshotType) :
    db'.versions id type = db.versions id type ++
      if row.suggestionId = id ∧ row.snapshotType = type then [row.version] else [] := by
  unfold StoreDb.versions Dict.values
  rw [h, Dict.items_set_of_new hnew, List.map_append, List.filter_append, List.map_append]
  congr 1
  by_cases hc : row.suggestionId = id ∧ row.snapshotType = type
  · simp [hc]
  · simp [hc]

/-- A row that is marked keeps its place and its version. -/
theorem versions_mark {db db' : StoreDb P} {sid : ℕ} {row : SnapshotRow} {saved : Bool}
    (hold : db.snapshots.committed.get? sid = some row)
    (h : db'.snapshots.committed = db.snapshots.committed.set sid (row.marked saved)) (id : ℕ)
    (type : SnapshotType) :
    db'.versions id type = db.versions id type := by
  -- the versions are read off what does not change
  have hread : ∀ d : Dict ℕ SnapshotRow,
      (d.values.filter fun row => row.suggestionId = id ∧ row.snapshotType = type).map
        SnapshotRow.version = ((d.values.map
        fun row => (row.suggestionId, row.snapshotType, row.version)).filter
          fun e => e.1 = id ∧ e.2.1 = type).map fun e => e.2.2 := by
    intro d
    rw [List.filter_map, List.map_map]
    rfl
  have hkeep : (db.snapshots.committed.set sid (row.marked saved)).values.map
      (fun row => (row.suggestionId, row.snapshotType, row.version)) =
      db.snapshots.committed.values.map fun row =>
          (row.suggestionId, row.snapshotType, row.version) :=
    Dict.map_values_set hold rfl
  unfold StoreDb.versions
  rw [hread, hread, h, hkeep]

variable [DecidableEq P] {db db' : StoreDb P} {p q : P} {point point' : StorePoint}
    {action : StoreAction} {sid : ℕ}

/-- What a statement does to the committed snapshots: nothing, a new row at the end, or
a row marked in place. -/
theorem SnapshotAt.committed_next (hat : SnapshotAt p point db) (he : StoreEffect p db db') :
    db'.snapshots.committed = db.snapshots.committed ∨
    (∃ sid row, point = .createSnapshot (.inserted sid row) ∧
      db.snapshots.committed.get? sid = none ∧
      db'.snapshots.committed = db.snapshots.committed.set sid row) ∨
    ∃ sid row saved todo, point = .createSnapshot (.marked sid row saved todo) ∧
      db.snapshots.committed.get? sid = some row ∧
      db'.snapshots.committed = db.snapshots.committed.set sid (row.marked saved) := by
  obtain ⟨-, -, hsnap, -⟩ := he
  generalize db'.snapshots = t' at hsnap
  cases hsnap with
  | same => exact Or.inl rfl
  | write _ => exact Or.inl rfl
  | abort => exact Or.inl rfl
  | commit =>
    by_cases hu : db.snapshots.Unlocked p
    · exact Or.inl (Table.commit_of_unlocked hu)
    · unfold Table.Unlocked at hu
      push Not at hu
      obtain ⟨sid, v, hl⟩ := hu
      -- the process has no second row, because its point names the one it has
      have hone : ∀ k' v', db.snapshots.locks.get? k' = some (p, v') → k' = sid := by
        intro k' v' hl'
        rcases hat.pending sid v hl with ⟨row, rfl, -⟩ | ⟨row, saved, todo, rfl, -⟩
        · rcases hat.pending k' v' hl' with ⟨row', he, -⟩ | ⟨row', saved', todo', he, -⟩
          · cases he
            rfl
          · cases he
        · rcases hat.pending k' v' hl' with ⟨row', he, -⟩ | ⟨row', saved', todo', he, -⟩
          · cases he
          · cases he
            rfl
      rcases hat.pending sid v hl with ⟨row, hpt, rfl, hc⟩ | ⟨row, saved, todo, hpt, rfl, hc⟩
      · exact Or.inr (Or.inl ⟨sid, row, hpt, hc, Table.commit_of_held hl hone⟩)
      · exact Or.inr (Or.inr ⟨sid, row, saved, todo, hpt, hc, Table.commit_of_held hl hone⟩)

/-- The versions of a suggestion that is not the mover's stay. -/
theorem SnapshotAt.versions_other (hat : SnapshotAt p point db) (he : StoreEffect p db db') {id : ℕ}
    (hid : ¬ point.exports id) (type : SnapshotType) :
    db'.versions id type = db.versions id type := by
  rcases hat.committed_next he with
    h | ⟨sid, row, rfl, hnew, h⟩ | ⟨sid, row, saved, todo, -, hold, h⟩
  · exact versions_congr h id type
  · rw [versions_insert hnew h, if_neg, List.append_nil]
    rintro ⟨h, -⟩
    exact hid h.symm
  · exact versions_mark hold h id type

theorem VersionAt.other (hs : SnapshotAt p point db) (hp : VersionAt p point db)
    (hq : VersionAt q point' db) (he : StoreEffect p db db') (hne : q ≠ p) :
    VersionAt q point' db' := by
  refine ⟨fun id hid => ?_, fun row hrow => ?_⟩
  · obtain ⟨v, hv⟩ := hq.locked id hid
    exact ⟨v, (he.suggestions.held_other hne).mpr hv⟩
  · rw [hq.next row hrow, hs.versions_other he]
    -- both would hold the lock on the suggestion
    intro hid
    obtain ⟨v, hv⟩ := hp.locked _ hid
    obtain ⟨w, hw⟩ := hq.locked _ (StorePoint.exports_of_newRow hrow)
    rw [hv] at hw
    exact hne (Prod.mk.inj (Option.some.inj hw)).1.symm

/-- Where the versions have no gap, `max(version) + 1` is the next one. -/
theorem nextVersion_eq (hu : db.snapshots.Unlocked p) (hg : db.Gapless)
    (type : SnapshotType) (id : ℕ) :
    db.nextVersion p type id = (db.versions id type).length + 1 := by
  obtain ⟨n, hn⟩ := hg id type
  set found := (db.snapshots.select p fun row => row.suggestionId = id ∧
    row.snapshotType = type).map
    fun sid => ((db.snapshots.view p sid).map SnapshotRow.version).getD 0 with hfound
  have hmem : ∀ m, m ∈ found ↔ m ∈ db.versions id type := by
    intro m
    rw [hfound, List.mem_map, mem_versions]
    constructor
    · rintro ⟨sid, hsid, rfl⟩
      obtain ⟨row, hrow, hc⟩ := Table.mem_select.mp hsid
      rw [decide_eq_true_eq] at hc
      refine ⟨sid, row, (hu.view sid).symm.trans hrow, hc.1, hc.2, ?_⟩
      rw [hrow]
      rfl
    · rintro ⟨sid, row, hrow, hid, hty, rfl⟩
      have hview := (hu.view sid).trans hrow
      refine ⟨sid, Table.mem_select.mpr ⟨row, hview, by simp [hid, hty]⟩, ?_⟩
      rw [hview]
      rfl
  have hmax : found.foldr max 0 = n := by
    refine le_antisymm (List.max_le_of_forall_le _ _ fun m hm => ?_) ?_
    · rw [hmem, hn, List.mem_range'_1] at hm
      omega
    · rcases Nat.eq_zero_or_pos n with rfl | hpos
      · exact Nat.zero_le _
      · refine List.le_max_of_le ((hmem n).mpr ?_) le_rfl
        rw [hn, List.mem_range'_1]
        omega
  show found.foldr max 0 + 1 = _
  rw [hmax, hn, List.length_range']

/-- A lock on a suggestion that its owner keeps. -/
theorem locked_of_update {id : ℕ} {suggestions : Table P ℕ SuggestionRow}
    (h : db.suggestions.update p id (fun _ => true) some = some suggestions)
    (hv : (db.suggestions.view p id).any SuggestionRow.isDraft = true) :
    ∃ v, suggestions.locks.get? id = some (p, v) := by
  obtain ⟨row, hrow, -⟩ := (Option.any_eq_true _ _).mp hv
  obtain ⟨-, ⟨v, -, -, rfl⟩ | ⟨hno, -⟩⟩ := Table.update_cases h
  · exact ⟨some v, by rw [Table.get?_locks_write, if_pos rfl]⟩
  · exact absurd (hno row hrow) (by simp)

/-- **The process that moves** keeps its own part. -/
theorem VersionAt.own (hs : SnapshotAt p point db) (hg : db.Gapless) (hat : VersionAt p point db)
    (h : StoreStep db p point action db' point') : VersionAt p point' db' := by
  cases h with
  | exportOpen hu hv =>
    refine ⟨?_, fun row hrow => ?_⟩
    · rintro id rfl
      exact locked_of_update hu hv
    · cases hrow
  | exportSelect | exportLockRow _ | exportLocked =>
    refine ⟨fun id hid => hat.locked id hid, fun row hrow => ?_⟩
    cases hrow
  | exportNumber =>
    refine ⟨fun id hid => hat.locked id hid, ?_⟩
    rintro row rfl
    exact nextVersion_eq (hs.unlocked (fun _ _ h => (by cases h)) fun _ _ _ _ h => (by cases h))
      hg _ _
  | exportInsert => exact ⟨fun id hid => hat.locked id hid, fun row hrow => hat.next row hrow⟩
  | _ => exact .of_no_export fun _ h => h

/-- One statement leaves no gap. -/
theorem VersionAt.gapless (hs : SnapshotAt p point db) (hg : db.Gapless)
    (hat : VersionAt p point db) (he : StoreEffect p db db') : db'.Gapless := by
  intro id type
  rcases hs.committed_next he with
    h | ⟨sid, row, rfl, hnew, h⟩ | ⟨sid, row, saved, todo, -, hold, h⟩
  · rw [versions_congr h]
    exact hg id type
  · obtain ⟨n, hn⟩ := hg id type
    rw [versions_insert hnew h]
    split_ifs with hc
    · obtain ⟨rfl, rfl⟩ := hc
      refine ⟨n + 1, ?_⟩
      rw [hat.next row rfl, hn, List.length_range', List.range'_1_concat, Nat.add_comm]
    · exact ⟨n, by rw [hn, List.append_nil]⟩
  · rw [versions_mark hold h]
    exact hg id type

/-- The committed snapshots stay in place, new ones come last. -/
theorem SnapshotAt.keys_extend (hat : SnapshotAt p point db) (he : StoreEffect p db db') :
    db.snapshots.committed.keys <+: db'.snapshots.committed.keys := by
  rcases hat.committed_next he with h | ⟨sid, row, -, hnew, h⟩ | ⟨sid, row, saved, todo, -, hold, h⟩
  · rw [h]
  · refine ⟨[sid], ?_⟩
    unfold Dict.keys
    rw [h, Dict.items_set_of_new hnew, List.map_append]
    rfl
  · rw [h, Dict.keys_set_of_old hold]

/-- A quiet state whose versions have no gap, as one without snapshots. -/
def GaplessStart (s : Procs P StorePoint (StoreDb P)) : Prop := StoreQuiet s ∧ s.shared.Gapless

theorem gapless_of_reach {s : Procs P StorePoint (StoreDb P)}
    (h : (storeRuns GaplessStart).ReachIf (fun a _ => NoDelete a) s) :
    s.shared.Gapless ∧ ∀ p, VersionAt p (s.proc p) s.shared := by
  have h' := h.and_invariant fun hr => snapshotAt_of_noDelete (fun hs => hs.1) (fun ha => ha) hr
  refine Procs.invariant (I := StoreDb.Gapless) ?_ ?_ ?_ h'
  · intro s hs
    refine ⟨hs.2, fun p => ?_⟩
    rw [hs.1.idle p]
    exact .of_no_export fun _ h => h
  · intro s p a r hg hAt ⟨_, hf, hsnap⟩ hr
    have hst := storeNext_step hr
    exact ⟨(hAt p).gapless (hsnap p) hg (hst.effect hf), (hAt p).own (hsnap p) hg hst⟩
  · intro s p a r q hg hAt ⟨_, hf, hsnap⟩ hr hq
    exact (hAt p).other (hsnap p) (hAt q) ((storeNext_step hr).effect hf) hq

/-- **Versions have no gap**: in every state reached without deletions the committed
snapshots of a suggestion and type carry `1, …, n` in the order in which they are
listed, and every statement from there keeps the list and adds to its end. -/
theorem versions_of_reach {s : Procs P StorePoint (StoreDb P)}
    (h : (storeRuns GaplessStart).ReachIf (fun a _ => NoDelete a) s) :
    (∀ suggestionId type, ∃ n, s.shared.versions suggestionId type = List.range' 1 n) ∧
    ∀ a s', NoDelete a → (storeRuns GaplessStart).step s a s' →
      s.shared.snapshots.committed.keys <+: s'.shared.snapshots.committed.keys := by
  refine ⟨(gapless_of_reach h).1, ?_⟩
  rintro ⟨p, a⟩ s' ha hst
  obtain ⟨r, hr, rfl⟩ := Procs.step_iff.mp hst
  obtain ⟨hf, hsnap⟩ := snapshotAt_of_noDelete (fun hs => hs.1) (fun ha => ha) h
  exact (hsnap p).keys_extend ((storeNext_step hr).effect hf)

end Versions

/-- The statements of an export up to its first commit, for one item. -/
def exportRun {P : Type} (p : P) (type : SnapshotType) (suggestionId itemId : ℕ) :
    List (P × StoreAction) :=
  (p, .request (.createSnapshot type suggestionId [itemId])) :: List.replicate 6 (p, .statement)

theorem noDelete_exportRun {P : Type} {p : P} {id itemId : ℕ} {type : SnapshotType}
    {a : P × StoreAction} (ha : a ∈ exportRun p type id itemId) : NoDelete a := by
  rintro k hk
  rcases List.mem_cons.mp ha with rfl | ha
  · cases hk
  · rw [List.eq_of_mem_replicate ha] at hk
    cases hk

theorem noDelete_engineRun {P : Type} {p : P} {a : P × StoreAction} (ha : a ∈ engineRun p) :
    NoDelete a := by
  intro k hk
  simp only [engineRun, List.mem_cons, List.not_mem_nil, or_false] at ha
  rcases ha with rfl | rfl | rfl | rfl | rfl | rfl <;> cases hk

/-- Two exports of one suggestion and type. -/
theorem versions_two_exports : ∃ s : Procs ℕ StorePoint (StoreDb ℕ),
    (storeRuns GaplessStart).ReachIf (fun a _ => NoDelete a) s ∧
    s.shared.versions 1 .procurement = [1, 2] ∧
    ∀ suggestionId type, ∃ n, s.shared.versions suggestionId type = List.range' 1 n := by
  have hrun : (Procs.exec storeNext emptyStore (engineRun 0 ++ (exportRun 1 .procurement 1 1 ++
      exportRun 2 .procurement 1 1))).map (fun s =>
        s.shared.versions 1 .procurement) = some [1, 2] := rfl
  obtain ⟨s, hs, hversions⟩ := Option.map_eq_some_iff.mp hrun
  have hstart : GaplessStart emptyStore := ⟨storeQuiet_emptyStore, fun _ _ => ⟨0, rfl⟩⟩
  have hreach : (storeRuns GaplessStart).ReachIf (fun a _ => NoDelete a) s := by
    refine Procs.reach_exec (.start hstart) hs fun a ha _ => ?_
    rcases List.mem_append.mp ha with ha | ha
    · exact noDelete_engineRun ha
    · rcases List.mem_append.mp ha with ha | ha
      · exact noDelete_exportRun ha
      · exact noDelete_exportRun ha
  exact ⟨s, hreach, hversions, (versions_of_reach hreach).1⟩

/-! ### Deletions

`delete_suggestion` counts the snapshots in one statement and deletes in the next, with
no lock in between. -/

section Deletions

variable {P : Type} [DecidableEq P]

/-- A statement removes no committed snapshot. -/
theorem SnapshotAt.committed_keeps {db db' : StoreDb P} {p : P} {point : StorePoint} {sid : ℕ}
    (hat : SnapshotAt p point db) (he : StoreEffect p db db')
    (hsome : (db.snapshots.committed.get? sid).isSome) :
    (db'.snapshots.committed.get? sid).isSome := by
  rcases hat.committed_next he with h | ⟨k, row, -, -, h⟩ | ⟨k, row, saved, todo, -, -, h⟩
  · rw [h]
    exact hsome
  · rw [h, Dict.get?_set]
    split_ifs
    · rfl
    · exact hsome
  · rw [h, Dict.get?_set]
    split_ifs
    · rfl
    · exact hsome

/-- **Committed snapshots stay**, in every run in which no export commits between the
count and the `DELETE` of a request to delete its suggestion. -/
theorem snapshots_keep_of_reach {s s' : Procs P StorePoint (StoreDb P)} {a : P × StoreAction}
    (h : (storeRuns StoreQuiet).ReachIf CommitsApart s) (ha : CommitsApart a s)
    (hst : (storeRuns StoreQuiet).step s a s') (sid : ℕ)
    (hsome : (s.shared.snapshots.committed.get? sid).isSome) :
    (s'.shared.snapshots.committed.get? sid).isSome := by
  obtain ⟨p, action⟩ := a
  obtain ⟨r, hr, rfl⟩ := Procs.step_iff.mp hst
  obtain ⟨hf, hsnap⟩ := snapshotAt_of_reach (fun hs => hs) (fun ha => ha) h
  exact (hsnap p).committed_keeps ((storeNext_step hr).effect hf) hsome

end Deletions

/-- Runs without deletions meet the condition. -/
theorem commitsApart_of_noDelete {P : Type} [DecidableEq P] {s : Procs P StorePoint (StoreDb P)}
    (h : (storeRuns StoreQuiet).ReachIf (fun a _ => NoDelete a) s) :
    (storeRuns StoreQuiet).ReachIf CommitsApart s :=
  (h.and_invariant fun hr => no_delete_of_reach (fun hs => hs) (fun ha => ha) hr).mono
    fun ha _ _ _ _ q => ha.2 q _

/-- A snapshot that was committed before the request to delete is there after it. -/
theorem snapshots_keep_delete_request : ∃ s s' : Procs ℕ StorePoint (StoreDb ℕ),
    (storeRuns StoreQuiet).ReachIf CommitsApart s ∧
    (storeRuns StoreQuiet).step s (2, .request (.delete 1)) s' ∧
    (s.shared.snapshots.committed.get? 1).isSome ∧
    (s'.shared.snapshots.committed.get? 1).isSome := by
  have hrun : (Procs.exec storeNext emptyStore (engineRun 0 ++ exportRun 1 .procurement 1 1)).map
      (fun s =>
      ((s.shared.snapshots.committed.get? 1).isSome,
        (storeNext s.shared 2 (s.proc 2) (.request (.delete 1))).isSome)) =
      some (true, true) := rfl
  obtain ⟨s, hs, hboth⟩ := Option.map_eq_some_iff.mp hrun
  obtain ⟨hsome, hnext⟩ := Prod.mk.inj hboth
  obtain ⟨r, hr⟩ := Option.isSome_iff_exists.mp hnext
  have hreach : (storeRuns StoreQuiet).ReachIf CommitsApart s := by
    refine commitsApart_of_noDelete
      (Procs.reach_exec (.start storeQuiet_emptyStore) hs fun a ha _ => ?_)
    rcases List.mem_append.mp ha with ha | ha
    · exact noDelete_engineRun ha
    · exact noDelete_exportRun ha
  have hst : (storeRuns StoreQuiet).step s (2, .request (.delete 1)) (s.move 2 r) :=
    Procs.step_iff.mpr ⟨r, hr, rfl⟩
  refine ⟨s, s.move 2 r, hreach, hst, hsome, ?_⟩
  refine snapshots_keep_of_reach hreach (fun sid row hp hstatement => ?_) hst 1 hsome
  cases hstatement

/-- The count, an export up to its commit, and the `DELETE` with its cascade. -/
def deleteRace : List (ℕ × StoreAction) :=
  engineRun 0 ++ ([(2, .request (.delete 1)), (2, .statement)] ++ (exportRun 1 .procurement 1 1 ++
    List.replicate 3 (2, .statement)))

/-- An export that commits between the count and the `DELETE` loses its snapshot. -/
theorem snapshot_lost_after_count :
    ∃ s s' : Procs ℕ StorePoint (StoreDb ℕ), (storeRuns StoreQuiet).Reach s ∧
    (storeRuns StoreQuiet).step s (2, .statement) s' ∧
    (s.shared.snapshots.committed.get? 1).isSome ∧ s'.shared.snapshots.committed.get? 1 = none := by
  have hrun : (Procs.exec storeNext emptyStore deleteRace).map
      (fun s => ((s.shared.snapshots.committed.get? 1).isSome,
      (storeNext s.shared 2 (s.proc 2) .statement).map fun r => r.1.snapshots.committed.get? 1)) =
      some (true, some none) := rfl
  obtain ⟨s, hs, hboth⟩ := Option.map_eq_some_iff.mp hrun
  obtain ⟨hsome, hnext⟩ := Prod.mk.inj hboth
  obtain ⟨r, hr, hgone⟩ := Option.map_eq_some_iff.mp hnext
  exact ⟨s, s.move 2 r, Procs.reach_exec (.start storeQuiet_emptyStore) hs fun _ _ _ => trivial,
    Procs.step_iff.mpr ⟨r, hr, rfl⟩, hsome, hgone⟩

end Restock
