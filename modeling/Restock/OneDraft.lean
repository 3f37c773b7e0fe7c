/-
# At most one draft

No index forbids two drafts: `run_engine` holds the lock of the engine from before its
first read to its commit, archives the drafts it finds before it inserts its own, and
no other request makes a draft. So from a state with at most one draft every reachable
state has at most one (`draft_unique_of_reach`), wherever processes die.

The invariant `DraftAt` says what a process may leave: no row becomes a draft by its
commit but the one the engine inserted, and by then every other draft is a row that
the engine has locked and will leave archived.
-/
import Restock.SuggestionStore

namespace Restock

open ReadCommitted

section Draft

variable {P : Type}

/-- The row is a draft, as committed. -/
def StoreDb.Draft (db : StoreDb P) (k : ℕ) : Prop :=
  ∃ row, db.suggestions.committed.get? k = some row ∧ row.status = .draft

/-- `p` has the row and will not leave a draft. -/
def StoreDb.Leaves (db : StoreDb P) (p : P) (k : ℕ) : Prop :=
  ∃ v, db.suggestions.locks.get? k = some (p, v) ∧ ∀ row ∈ v, row.status ≠ .draft

/-- Inside the transaction of `run_engine`. -/
def StorePoint.inRun : StorePoint → Prop
  | .engine .locked | .engine .enabled | .engine (.archiving _ _) | .engine (.inserting _ _) => True
  | _ => False

/-- Where a process has no row of the suggestions. -/
def StorePoint.noSuggestion : StorePoint → Prop
  | .idle | .engine .locked | .engine .enabled => True
  | _ => False

/-- What holds of the suggestions for a process at a point. -/
structure DraftAt (p : P) (point : StorePoint) (db : StoreDb P) : Prop where
  lock : point.inRun → db.engineLock = some p
  pending : ∀ k row, db.suggestions.locks.get? k = some (p, some row) → row.status = .draft →
    db.suggestions.committed.get? k = some row ∨ ∃ count, point = .engine (.inserting k count)
  unlocked : point.noSuggestion → db.suggestions.Unlocked p
  archiving : ∀ todo items, point = .engine (.archiving todo items) → ∀ k, db.Draft k → k ∈ todo ∨
    db.Leaves p k
  inserting : ∀ id count, point = .engine (.inserting id count) → ∀ k, db.Draft k → db.Leaves p k

variable {db db' : StoreDb P} {p q : P} {point point' : StorePoint} {action : StoreAction} {k : ℕ}

/-- At a point outside the engine only what is pending matters. -/
theorem DraftAt.of_pending (hrun : ¬ point.inRun) (hno : ¬ point.noSuggestion)
    (h : ∀ k row, db.suggestions.locks.get? k = some (p, some row) → row.status = .draft →
      db.suggestions.committed.get? k = some row) : DraftAt p point db := by
  refine ⟨fun hr => absurd hr hrun, fun k row hl hst => Or.inl (h k row hl hst),
    fun hn => absurd hn hno, ?_, ?_⟩
  · rintro todo items rfl
    exact absurd trivial hrun
  · rintro id count rfl
    exact absurd trivial hrun

/-- A process without a row of the suggestions, outside the engine. -/
theorem DraftAt.of_unlocked (hrun : ¬ point.inRun) (h : db.suggestions.Unlocked p) :
    DraftAt p point db := by
  refine ⟨fun hr => absurd hr hrun, fun k row hl => absurd hl (h k _), fun _ => h, ?_, ?_⟩
  · rintro todo items rfl
    exact absurd trivial hrun
  · rintro id count rfl
    exact absurd trivial hrun

theorem DraftAt.pending_committed (h : DraftAt p point db) (hrun : ¬ point.inRun) :
    ∀ k row, db.suggestions.locks.get? k = some (p, some row) → row.status = .draft →
      db.suggestions.committed.get? k = some row := by
  intro k row hl hst
  rcases h.pending k row hl hst with hc | ⟨count, rfl⟩
  · exact hc
  · exact absurd trivial hrun

/-- The committed suggestions change at a commit only. -/
theorem draft_of_committed (h : db'.suggestions.committed = db.suggestions.committed)
    (hd : db'.Draft k) : db.Draft k := by
  obtain ⟨row, hrow, hst⟩ := hd
  exact ⟨row, h ▸ hrow, hst⟩

variable [DecidableEq P]

/-- A draft after a statement was one before, or is the row that the engine inserted. -/
theorem DraftAt.draft_cases (hat : DraftAt p point db) (he : StoreEffect p db db')
    (hd : db'.Draft k) : db.Draft k ∨ ∃ count, point = .engine (.inserting k count) := by
  obtain ⟨row, hrow, hst⟩ := hd
  rcases he.suggestions.committed_cases k with h | h
  · exact Or.inl ⟨row, h ▸ hrow, hst⟩
  · rw [hrow] at h
    rcases hat.pending k row h hst with hc | hi
    · exact Or.inl ⟨row, hc, hst⟩
    · exact Or.inr hi

theorem StoreEffect.leaves_other (he : StoreEffect p db db') (hq : q ≠ p) :
    db'.Leaves q k ↔ db.Leaves q k := by
  unfold StoreDb.Leaves
  simp only [he.suggestions.held_other hq]

/-- A statement of `p` does not disturb another process. -/
theorem DraftAt.other (hp : DraftAt p point db) (hq : DraftAt q point' db)
    (he : StoreEffect p db db') (hne : q ≠ p) : DraftAt q point' db' := by
  -- while `q` is inside its run, `p` is not inside one, so no draft is new
  have hdraft : point'.inRun → ∀ k, db'.Draft k → db.Draft k := by
    intro hrun k hd
    rcases hp.draft_cases he hd with h | ⟨count, rfl⟩
    · exact h
    · have h1 := hp.lock trivial
      rw [hq.lock hrun] at h1
      exact absurd (Option.some.inj h1) hne
  refine ⟨fun hrun => he.engineLock q hne (hq.lock hrun), fun k row hl hst => ?_,
    fun hn => he.suggestions.unlocked_other hne (hq.unlocked hn), ?_, ?_⟩
  · have hl' := (he.suggestions.held_other hne).mp hl
    rw [he.suggestions.committed_of_held hne hl']
    exact hq.pending k row hl' hst
  · rintro todo items rfl k hd
    exact (hq.archiving todo items rfl k (hdraft trivial k hd)).imp_right (he.leaves_other hne).mpr
  · rintro id count rfl k hd
    exact (he.leaves_other hne).mpr (hq.inserting id count rfl k (hdraft trivial k hd))

/-! ### The process that moves -/

/-- A statement that archives, deletes or locks a row leaves no new draft. -/
theorem pending_update {suggestions : Table P ℕ SuggestionRow} {cond : SuggestionRow → Bool}
    {f : SuggestionRow → Option SuggestionRow}
    (hu : db.suggestions.update p k cond f = some suggestions)
    (hf : ∀ row row', f row = some row' → row'.status = .draft → row' = row)
      (h : ∀ k row, db.suggestions.locks.get? k = some (p, some row) → row.status = .draft →
      db.suggestions.committed.get? k = some row) :
    ∀ k row, suggestions.locks.get? k = some (p, some row) → row.status = .draft →
      suggestions.committed.get? k = some row := by
  intro k' row hl hst
  rw [Table.update_committed hu]
  rcases Table.update_held hu hl with hold | ⟨rfl, v, hv, -, hw⟩
  · exact h k' row hold hst
  · obtain rfl := hf v row hw.symm hst
    rcases Table.view_cases db.suggestions p k' with hheld | ⟨-, hc⟩
    · rw [hv] at hheld
      exact h k' row hheld hst
    · rw [← hc]
      exact hv

theorem archived_ne_draft (row row' : SuggestionRow) (h : some row.archived = some row')
    (hst : row'.status = .draft) : row' = row := by
  rw [← Option.some.inj h] at hst
  cases hst

/-- A row that was treated as a draft is left archived, or was none. -/
theorem leaves_archiveRow {suggestions : Table P ℕ SuggestionRow}
    (hu : db.suggestions.update p k SuggestionRow.isDraft (fun row => some row.archived) =
      some suggestions)
    (hd : db.Draft k) : StoreDb.Leaves { db with suggestions := suggestions } p k := by
  obtain ⟨-, ⟨v, -, -, rfl⟩ | ⟨hno, rfl⟩⟩ := Table.update_cases hu
  · refine ⟨some v.archived, ?_, fun row hrow => ?_⟩
    · rw [Table.get?_locks_write, if_pos rfl]
    · rw [← Option.some.inj hrow]
      simp [SuggestionRow.archived]
  · rcases Table.view_cases db.suggestions p k with hheld | ⟨-, hc⟩
    · refine ⟨_, hheld, fun row hrow hst => ?_⟩
      have := hno row hrow
      simp [SuggestionRow.isDraft, hst] at this
    · obtain ⟨row, hrow, hst⟩ := hd
      have := hno row (hc.trans hrow)
      simp [SuggestionRow.isDraft, hst] at this

/-- A row that `p` had archived stays so. -/
theorem leaves_update {suggestions : Table P ℕ SuggestionRow} {j : ℕ}
    (hu : db.suggestions.update p j SuggestionRow.isDraft (fun row => some row.archived) =
      some suggestions)
    (h : db.Leaves p k) : StoreDb.Leaves { db with suggestions := suggestions } p k := by
  obtain ⟨-, ⟨v, -, -, rfl⟩ | ⟨-, rfl⟩⟩ := Table.update_cases hu
  · obtain ⟨w, hw, hst⟩ := h
    by_cases hk : k = j
    · refine ⟨some v.archived, ?_, fun row hrow => ?_⟩
      · rw [Table.get?_locks_write, if_pos hk]
      · rw [← Option.some.inj hrow]
        simp [SuggestionRow.archived]
    · refine ⟨w, ?_, hst⟩
      rw [Table.get?_locks_write, if_neg hk]
      exact hw
  · exact h

/-- **The process that moves** keeps its own part. -/
theorem DraftAt.own (hf : db.Fresh) (hat : DraftAt p point db)
    (h : StoreStep db p point action db' point') : DraftAt p point' db' := by
  cases h with
  | quit => exact .of_unlocked (fun h => h) (Table.unlocked_abort _ p)
  | engineLock _ =>
    have hu := hat.unlocked trivial
    refine ⟨fun _ => rfl, fun k row hl => absurd hl (hu k _), fun _ => hu, ?_, ?_⟩
    · rintro todo items ⟨⟩
    · rintro id count ⟨⟩
  | engineEnabled _ =>
    have hu := hat.unlocked trivial
    refine ⟨fun _ => hat.lock trivial, fun k row hl => absurd hl (hu k _), fun _ => hu, ?_, ?_⟩
    · rintro todo items ⟨⟩
    · rintro id count ⟨⟩
  | engineArchive =>
    have hu := hat.unlocked trivial
    refine ⟨fun _ => hat.lock trivial, fun k row hl => absurd hl (hu k _),
      fun h => absurd h (fun h => h), ?_, ?_⟩
    · rintro todo items ⟨⟩ k ⟨row, hrow, hst⟩
      refine Or.inl (Table.mem_select.mpr ⟨row, ?_, by simp [SuggestionRow.isDraft, hst]⟩)
      rw [hu.view]
      exact hrow
    · rintro id count ⟨⟩
  | engineArchiveRow hu =>
    refine ⟨fun _ => hat.lock trivial, fun k row hl hst => Or.inl ?_,
      fun h => absurd h (fun h => h), ?_, ?_⟩
    · refine pending_update hu archived_ne_draft (fun k row hl hst => ?_) k row hl hst
      rcases hat.pending k row hl hst with hc | ⟨count, hi⟩
      · exact hc
      · cases hi
    · rintro todo items ⟨⟩ k hd
      have hd' := draft_of_committed (Table.update_committed hu) hd
      rcases hat.archiving _ _ rfl k hd' with hk | hk
      · rcases List.mem_cons.mp hk with rfl | hk
        · exact Or.inr (leaves_archiveRow hu hd')
        · exact Or.inl hk
      · exact Or.inr (leaves_update hu hk)
    · rintro id count ⟨⟩
  | engineInsert =>
    have hnew := (hf.suggestions db.nextSuggestion le_rfl)
    refine ⟨fun _ => hat.lock trivial, fun k row hl hst => ?_,
      fun h => absurd h (fun h => h), ?_, ?_⟩
    · rw [Table.get?_locks_write] at hl
      split_ifs at hl with hk
      · exact Or.inr ⟨_, by rw [hk]⟩
      · rcases hat.pending k row hl hst with hc | ⟨count, hi⟩
        · exact Or.inl hc
        · cases hi
    · rintro todo items ⟨⟩
    · rintro id count ⟨⟩ k hd
      have hd' : db.Draft k := draft_of_committed rfl hd
      obtain ⟨v, hv, hst⟩ := (hat.archiving _ _ rfl k hd').resolve_left (by simp)
      refine ⟨v, ?_, hst⟩
      rw [Table.get?_locks_write, if_neg ?_]
      · exact hv
      · rintro rfl
        rw [hnew.2] at hv
        cases hv
  | engineInsertItem =>
    refine ⟨fun _ => hat.lock trivial, fun k row hl hst => ?_,
      fun h => absurd h (fun h => h), ?_, ?_⟩
    · refine (hat.pending k row hl hst).imp_right ?_
      rintro ⟨count, ⟨⟩⟩
      exact ⟨_, rfl⟩
    · rintro todo items ⟨⟩
    · rintro id count ⟨⟩ k hd
      exact hat.inserting _ _ rfl k (draft_of_committed rfl hd)
  | engineCommit | switchCommit | toggleCommit | archiveCommit | deleteGone | deleteCommit | exportCommit
  | exportFinish => exact .of_unlocked (fun h => h) (Table.unlocked_commit _ p)
  | toggleArchiveRow hu | archiveWrite hu =>
    exact .of_pending (fun h => h) (fun h => h)
      (pending_update hu archived_ne_draft (hat.pending_committed fun h => h))
  | deleteRow _ hu =>
    refine .of_pending (fun h => h) (fun h => h)
      (pending_update hu ?_ (hat.pending_committed fun h => h))
    rintro row row' ⟨⟩
  | exportOpen hu _ =>
    refine .of_pending (fun h => h) (fun h => h)
      (pending_update hu ?_ (hat.pending_committed fun h => h))
    intro row row' he _
    exact (Option.some.inj he).symm
  | _ => exact .of_pending (fun h => h) (fun h => h) (hat.pending_committed fun h => h)

/-! ### Drafts and commits -/

/-- Only the commit of the engine makes a draft. -/
theorem DraftAt.draft_mono (hf : db.Fresh) (hat : DraftAt p point db)
    (h : StoreStep db p point action db' point') (hd : db'.Draft k) :
    db.Draft k ∨ point = .engine (.inserting k 0) := by
  have hcases := hat.draft_cases (h.effect hf) hd
  cases h with
  | engineCommit =>
    refine hcases.imp_right ?_
    rintro ⟨count, ⟨⟩⟩
    rfl
  | switchCommit | toggleCommit | archiveCommit | deleteGone | deleteCommit | exportCommit | exportFinish =>
    refine hcases.imp_right ?_
    rintro ⟨count, ⟨⟩⟩
  | engineArchiveRow hu | toggleArchiveRow hu | archiveWrite hu | deleteRow _ hu =>
    exact Or.inl (draft_of_committed (Table.update_committed hu) hd)
  | exportOpen hu _ => exact Or.inl (draft_of_committed (Table.update_committed hu) hd)
  | _ => exact Or.inl (draft_of_committed rfl hd)

/-- When the engine commits, its row is the only draft. -/
theorem DraftAt.draft_engineCommit {id count : ℕ}
    (hat : DraftAt p (.engine (.inserting id count)) db) {unswitched : List ℕ}
    (hd : StoreDb.Draft { db.commit p with unswitched := unswitched } k) : k = id := by
  obtain ⟨row, hrow, hst⟩ := hd
  have hview : db.suggestions.view p k = some row := by
    rw [← Table.get?_commit]
    exact hrow
  by_cases hold : db.Draft k
  · obtain ⟨v, hv, hleft⟩ := hat.inserting id count rfl k hold
    rw [Table.view_of_held hv] at hview
    exact absurd hst (hleft row hview)
  · rcases Table.view_cases db.suggestions p k with hheld | ⟨-, hc⟩
    · rw [hview] at hheld
      rcases hat.pending k row hheld hst with hc | ⟨_, he⟩
      · exact absurd ⟨row, hc, hst⟩ hold
      · injection he with he
        injection he with he
        exact he.symm
    · exact absurd ⟨row, hc.symm.trans hview, hst⟩ hold

/-- One statement keeps the draft unique. -/
theorem DraftAt.draft_unique (hf : db.Fresh) (hat : DraftAt p point db)
    (hone : ∀ k k', db.Draft k → db.Draft k' → k = k')
    (h : StoreStep db p point action db' point') :
    ∀ k k', db'.Draft k → db'.Draft k' → k = k' := by
  intro k k' hk hk'
  by_cases hi : ∃ id, point = .engine (.inserting id 0)
  · obtain ⟨id, rfl⟩ := hi
    cases h with
    | quit => exact hone k k' (draft_of_committed rfl hk) (draft_of_committed rfl hk')
    | engineCommit => exact (hat.draft_engineCommit hk).trans (hat.draft_engineCommit hk').symm
  · refine hone k k' ((hat.draft_mono hf h hk).resolve_right ?_)
      ((hat.draft_mono hf h hk').resolve_right ?_)
    · exact fun he => hi ⟨k, he⟩
    · exact fun he => hi ⟨k', he⟩

/-! ### Runs -/

/-- All processes idle, no row or lock taken, the sequences ahead of the rows. -/
structure StoreQuiet (s : Procs P StorePoint (StoreDb P)) : Prop where
  idle : ∀ p, s.proc p = .idle
  suggestions : s.shared.suggestions.locks = .empty
  items : s.shared.items.locks = .empty
  snapshots : s.shared.snapshots.locks = .empty
  config : s.shared.suggestionGenerationEnabled.locks = .empty
  engineLock : s.shared.engineLock = none
  fresh : s.shared.Fresh

/-- A quiet state with at most one draft. -/
def OneDraftStart (s : Procs P StorePoint (StoreDb P)) : Prop :=
  StoreQuiet s ∧ ∀ k k', s.shared.Draft k → s.shared.Draft k' → k = k'

omit [DecidableEq P] in
theorem StoreQuiet.draftAt {s : Procs P StorePoint (StoreDb P)} (h : StoreQuiet s) (p : P) :
    DraftAt p (s.proc p) s.shared := by
  rw [h.idle p]
  refine .of_unlocked (fun h => h) fun k v hl => ?_
  rw [h.suggestions] at hl
  cases hl

/-- The invariant in every state reached, under any condition on the steps. -/
theorem draftAt_of_reach {ok : P × StoreAction → Procs P StorePoint (StoreDb P) → Prop}
    {start : Procs P StorePoint (StoreDb P) → Prop} (hstart : ∀ {s}, start s → OneDraftStart s)
    {s : Procs P StorePoint (StoreDb P)} (h : (storeRuns start).ReachIf ok s) :
    (s.shared.Fresh ∧ ∀ k k', s.shared.Draft k → s.shared.Draft k' → k = k') ∧
    ∀ p, DraftAt p (s.proc p) s.shared := by
  refine Procs.invariant (I := fun db => db.Fresh ∧ ∀ k k', db.Draft k → db.Draft k' →
    k = k') ?_ ?_ ?_ h
  · intro s hs
    obtain ⟨hquiet, hone⟩ := hstart hs
    exact ⟨⟨hquiet.fresh, hone⟩, hquiet.draftAt⟩
  · intro s p a r hI hAt _ hr
    have hst := storeNext_step hr
    exact ⟨⟨hst.fresh hI.1, (hAt p).draft_unique hI.1 hI.2 hst⟩, (hAt p).own hI.1 hst⟩
  · intro s p a r q hI hAt _ hr hq
    exact (hAt p).other (hAt q) ((storeNext_step hr).effect hI.1) hq

/-- **At most one draft** in every reachable state. -/
theorem draft_unique_of_reach {s : Procs P StorePoint (StoreDb P)}
    (h : (storeRuns OneDraftStart).Reach s) {k k' : ℕ} (hk : s.shared.Draft k)
    (hk' : s.shared.Draft k') : k = k' :=
  (draftAt_of_reach (fun hs => hs) h).1.2 k k' hk hk'

end Draft

/-! ### A run -/

/-- No suggestion yet, the generation switched on. -/
def emptyStore : Procs ℕ StorePoint (StoreDb ℕ) where
  shared := ⟨⟨.empty, .empty⟩, ⟨.empty, .empty⟩, ⟨.empty, .empty⟩, ⟨.set .empty () true, .empty⟩,
    none, 1, 1, 1, []⟩
  proc _ := .idle

theorem not_draft_emptyStore (k : ℕ) : ¬ emptyStore.shared.Draft k := by
  rintro ⟨row, hrow, -⟩
  exact absurd hrow (by simp [emptyStore])

theorem storeQuiet_emptyStore : StoreQuiet emptyStore where
  idle _ := rfl
  suggestions := rfl
  items := rfl
  snapshots := rfl
  config := rfl
  engineLock := rfl
  fresh := ⟨fun _ _ => ⟨rfl, rfl⟩, fun _ _ => ⟨rfl, rfl⟩, fun _ _ => ⟨rfl, rfl⟩⟩

theorem oneDraftStart_emptyStore : OneDraftStart emptyStore :=
  ⟨storeQuiet_emptyStore, fun k _ hk => absurd hk (not_draft_emptyStore k)⟩

/-- A draft with one item. -/
def oneItemStore {P : Type} : Procs P StorePoint (StoreDb P) where
  shared := ⟨⟨.set .empty 1 (draftRow [firstItem]), .empty⟩, ⟨.set .empty 1 (.new 1), .empty⟩,
    ⟨.empty, .empty⟩, ⟨.set .empty () true, .empty⟩, none, 2, 2, 1, []⟩
  proc _ := .idle

theorem storeQuiet_oneItemStore {P : Type} : StoreQuiet (oneItemStore (P := P)) where
  idle _ := rfl
  suggestions := rfl
  items := rfl
  snapshots := rfl
  config := rfl
  engineLock := rfl
  fresh := by
    refine ⟨fun k (hk : 2 ≤ k) => ⟨?_, rfl⟩, fun k (hk : 2 ≤ k) => ⟨?_, rfl⟩, fun _ _ => ⟨rfl, rfl⟩⟩
    · exact Dict.get?_set_ne _ _ (by omega)
    · exact Dict.get?_set_ne _ _ (by omega)

/-- The statements of a run of the engine that stores one item. -/
def engineRun {P : Type} (p : P) : List (P × StoreAction) :=
  [(p, .request .calcEngine), (p, .statement), (p, .compute [firstItem]), (p, .statement),
    (p, .statement), (p, .statement)]

/-- After a run of the engine its suggestion is the draft. -/
theorem draft_unique_engineRun :
    ∃ s : Procs ℕ StorePoint (StoreDb ℕ), (storeRuns OneDraftStart).Reach s ∧ s.shared.Draft 1 ∧
    ∀ k, s.shared.Draft k → k = 1 := by
  have hrun : (Procs.exec storeNext emptyStore (engineRun 0)).map
      (fun s => s.shared.suggestions.committed.get? 1) = some (some (draftRow [firstItem])) := rfl
  obtain ⟨s, hs, hrow⟩ := Option.map_eq_some_iff.mp hrun
  have hreach : (storeRuns OneDraftStart).Reach s :=
    Procs.reach_exec (.start oneDraftStart_emptyStore) hs fun _ _ _ => trivial
  have hdraft : s.shared.Draft 1 := ⟨_, hrow, rfl⟩
  exact ⟨s, hreach, hdraft, fun k hk => draft_unique_of_reach hreach hk hdraft⟩

end Restock
