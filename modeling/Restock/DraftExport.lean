/-
# Drafts are exported before they are archived

`run_engine` archives the drafts when it finds the generation switched on, and
`patch_generation_toggle` when it switches it on. Both rest on the flag: the job that
stored a draft switches it off in a transaction of its own, and the toggle looks for
snapshots of the draft before it switches it on again.

The flag does not protect a draft whose job has not switched it off yet, has died
before it did, or had read it as off; the toggle counts snapshots that are not ready,
and archives a draft that was stored after it looked. Where none of this happens, a
draft that the engine or the toggle archives has a ready snapshot of each type it has
items of (`exported_of_archived`). Two jobs are enough for the first
(`archived_unexported`).
-/
import Restock.SnapshotStore

namespace Restock

open ReadCommitted

/-! ### The flag -/

section Flag

variable {P : Type}

/-- Where a process may have the row of the configuration. -/
def StorePoint.hasConfig : StorePoint → Prop
  | .toggle _ | .engine (.switchWritten _ _) => True
  | _ => False

/-- What holds of the flag for a process at a point. -/
structure FlagAt (p : P) (point : StorePoint) (db : StoreDb P) : Prop where
  unlocked : ¬ point.hasConfig → db.suggestionGenerationEnabled.Unlocked p
  held : ∀ e, point = .toggle e → ∃ v, db.suggestionGenerationEnabled.locks.get? () = some (p, v)
  switched : ∀ id, point = .engine (.switchWritten id true) →
    db.suggestionGenerationEnabled.locks.get? () = some (p, some false)
  pending : ∀ v, db.suggestionGenerationEnabled.locks.get? () = some (p, v) →
    ∃ enabled, v = some enabled ∧
    (enabled = true → db.suggestionGenerationEnabled.committed.get? () = some true ∨
    point = .toggle .written)

theorem FlagAt.of_unlocked {p : P} {point : StorePoint} {db : StoreDb P} (hp : ¬ point.hasConfig)
    (h : db.suggestionGenerationEnabled.Unlocked p) : FlagAt p point db := by
  refine ⟨fun _ => h, ?_, ?_, fun v hl => absurd hl (h () v)⟩
  · rintro e rfl
    exact absurd trivial hp
  · rintro id rfl
    exact absurd trivial hp

variable [DecidableEq P] {db db' : StoreDb P} {p q : P} {point point' : StorePoint}
    {action : StoreAction}

theorem FlagAt.other (hq : FlagAt q point' db) (he : StoreEffect p db db') (hne : q ≠ p) :
    FlagAt q point' db' := by
  refine ⟨fun h => he.config.unlocked_other hne (hq.unlocked h), fun e h => ?_, fun id h => ?_,
    fun v hl => ?_⟩
  · obtain ⟨v, hv⟩ := hq.held e h
    exact ⟨v, (he.config.held_other hne).mpr hv⟩
  · exact (he.config.held_other hne).mpr (hq.switched id h)
  · have hl' := (he.config.held_other hne).mp hl
    rw [he.config.committed_of_held hne hl']
    exact hq.pending v hl'

/-- The row that a statement locked or wrote, where there is one. -/
theorem config_update {config : Table P Unit Bool} {f : Bool → Option Bool}
    (hrow : db.suggestionGenerationEnabled.view p () ≠ none)
    (hu : db.suggestionGenerationEnabled.update p () (fun _ => true) f = some config) :
    ∃ current, db.suggestionGenerationEnabled.view p () = some current ∧
      config.locks.get? () = some (p, f current) ∧
      config.committed = db.suggestionGenerationEnabled.committed := by
  obtain ⟨-, ⟨current, hv, -, rfl⟩ | ⟨hno, -⟩⟩ := Table.update_cases hu
  · exact ⟨current, hv, by rw [Table.get?_locks_write, if_pos rfl], rfl⟩
  · obtain ⟨current, hv⟩ := Option.ne_none_iff_exists'.mp hrow
    exact absurd (hno current hv) (by simp)

/-- The process sees a row of the configuration, if there is one. -/
theorem FlagAt.view_ne_none (hat : FlagAt p point db)
    (hrow : db.suggestionGenerationEnabled.committed.get? () ≠ none) :
    db.suggestionGenerationEnabled.view p () ≠ none := by
  rcases Table.view_cases db.suggestionGenerationEnabled p () with h | ⟨-, h⟩
  · obtain ⟨enabled, he, -⟩ := hat.pending _ h
    rw [he]
    simp
  · rw [h]
    exact hrow

omit [DecidableEq P] in
/-- Between the first and the last statement of the toggle the row stays locked. -/
theorem FlagAt.toggle {e e' : TogglePoint} (hat : FlagAt p (.toggle e) db) (he : e ≠ .written)
    (hc : db'.suggestionGenerationEnabled = db.suggestionGenerationEnabled) :
    FlagAt p (.toggle e') db' := by
  refine ⟨fun h => absurd trivial h, fun _ _ => ?_, nofun, fun v hl => ?_⟩
  · rw [hc]
    exact hat.held e rfl
  · rw [hc] at hl ⊢
    obtain ⟨enabled, hv, ht⟩ := hat.pending v hl
    refine ⟨enabled, hv, fun h => Or.inl ((ht h).resolve_right ?_)⟩
    rintro ⟨⟩
    exact he rfl

/-- **The process that moves** keeps its own part. -/
theorem FlagAt.own (hrow : db.suggestionGenerationEnabled.committed.get? () ≠ none)
    (hat : FlagAt p point db) (h : StoreStep db p point action db' point') :
    FlagAt p point' db' := by
  cases h with
  | quit => exact .of_unlocked (fun h => h) (Table.unlocked_abort _ p)
  | engineCommit | switchCommit | toggleCommit | archiveCommit | deleteGone | deleteCommit | exportCommit
  | exportFinish => exact .of_unlocked (fun h => h) (Table.unlocked_commit _ p)
  | switchWrite hu =>
    rename_i id enabled config
    have hfree := hat.unlocked fun h => h
    obtain ⟨current, hv, hl, hc⟩ := config_update (hat.view_ne_none hrow) hu
    rw [hfree.view] at hv
    refine ⟨fun h => absurd trivial h, nofun, ?_, fun v hlv => ?_⟩
    · rintro _ ⟨⟩
      exact hl
    · obtain ⟨-, rfl⟩ := Prod.mk.inj (Option.some.inj (hl.symm.trans hlv))
      refine ⟨_, rfl, fun ht => Or.inl ?_⟩
      show config.committed.get? () = some true
      rw [hc, hv]
      cases enabled with
      | true => simp at ht
      | false => simpa using ht
  | toggleLock hu =>
    have hfree := hat.unlocked fun h => h
    obtain ⟨current, hv, hl, hc⟩ := config_update (hat.view_ne_none hrow) hu
    rw [hfree.view] at hv
    refine ⟨fun h => absurd trivial h, fun _ _ => ⟨_, hl⟩, nofun, fun v hlv => ?_⟩
    obtain ⟨-, rfl⟩ := Prod.mk.inj (Option.some.inj (hl.symm.trans hlv))
    refine ⟨_, rfl, ?_⟩
    rintro rfl
    exact Or.inl (hc ▸ hv)
  | toggleOff hu =>
    obtain ⟨current, -, hl, -⟩ := config_update (hat.view_ne_none hrow) hu
    refine ⟨fun h => absurd trivial h, fun _ _ => ⟨_, hl⟩, nofun, fun v hlv => ?_⟩
    obtain ⟨-, rfl⟩ := Prod.mk.inj (Option.some.inj (hl.symm.trans hlv))
    exact ⟨_, rfl, fun h => (by cases h)⟩
  | toggleOn hu =>
    obtain ⟨current, -, hl, -⟩ := config_update (hat.view_ne_none hrow) hu
    refine ⟨fun h => absurd trivial h, fun _ _ => ⟨_, hl⟩, nofun, fun v hlv => ?_⟩
    obtain ⟨-, rfl⟩ := Prod.mk.inj (Option.some.inj (hl.symm.trans hlv))
    exact ⟨_, rfl, fun _ => Or.inr rfl⟩
  | toggleNoDraft _ | toggleDraft _ | toggleCheck _ | toggleArchive | toggleArchiveRow _ =>
    exact hat.toggle (fun h => (by cases h)) rfl
  | _ => exact .of_unlocked (fun h => h) (hat.unlocked fun h => h)

/-- The row of the configuration is never deleted. -/
theorem FlagAt.row_keeps (hat : FlagAt p point db) (he : StoreEffect p db db')
    (hrow : db.suggestionGenerationEnabled.committed.get? () ≠ none) :
    db'.suggestionGenerationEnabled.committed.get? () ≠ none := by
  rcases he.config.committed_cases () with h | h
  · rw [h]
    exact hrow
  · obtain ⟨enabled, hv, -⟩ := hat.pending _ h
    rw [hv]
    simp

end Flag

/-! ### Counts

A row keeps the item counts it was stored with. -/

section Counts

variable {P : Type}

/-- What a process has of the suggestions: rows with the counts of the committed ones, or
the row that the engine inserted. -/
def CountsAt (p : P) (point : StorePoint) (db : StoreDb P) : Prop :=
  ∀ k v, db.suggestions.locks.get? k = some (p, v) →
    (∃ row row', db.suggestions.committed.get? k = some row ∧ v = some row' ∧
      ∀ type, row'.itemCount type = row.itemCount type) ∨
    (∃ count, point = .engine (.inserting k count)) ∧ db.suggestions.committed.get? k = none

variable [DecidableEq P] {db db' : StoreDb P} {p q : P} {point point' : StorePoint}
    {action : StoreAction}

theorem CountsAt.other (hq : CountsAt q point' db) (he : StoreEffect p db db') (hne : q ≠ p) :
    CountsAt q point' db' := by
  intro k v hl
  have hl' := (he.suggestions.held_other hne).mp hl
  rw [he.suggestions.committed_of_held hne hl']
  exact hq k v hl'

/-- A statement that locks or archives a row. -/
theorem CountsAt.update {suggestions : Table P ℕ SuggestionRow} {k : ℕ}
    {cond : SuggestionRow → Bool} {f : SuggestionRow → Option SuggestionRow}
    (hat : CountsAt p point db) (hp : ∀ k count, point ≠ .engine (.inserting k count))
    (hf : ∀ row, ∃ row', f row = some row' ∧ ∀ type, row'.itemCount type = row.itemCount type)
    (hu : db.suggestions.update p k cond f = some suggestions) :
    CountsAt p point' { db with suggestions := suggestions } := by
  intro k' v hl
  refine Or.inl ?_
  show ∃ row row', suggestions.committed.get? k' = some row ∧ _
  rw [Table.update_committed hu]
  have hold : ∀ v, db.suggestions.locks.get? k' = some (p, v) → ∃ row row',
      db.suggestions.committed.get? k' = some row ∧ v = some row' ∧
        ∀ type, row'.itemCount type = row.itemCount type := by
    intro v hv
    rcases hat k' v hv with h | ⟨⟨count, h⟩, -⟩
    · exact h
    · exact absurd h (hp k' count)
  rcases Table.update_held hu hl with h | ⟨rfl, w, hw, -, rfl⟩
  · exact hold v h
  · obtain ⟨w', hw', hcount⟩ := hf w
    rcases Table.view_cases db.suggestions p k' with hheld | ⟨-, hc⟩
    · obtain ⟨row, row', hrow, hrow', hc⟩ := hold _ hheld
      obtain rfl := Option.some.inj (hw.symm.trans hrow')
      exact ⟨row, w', hrow, hw', fun type => (hcount type).trans (hc type)⟩
    · exact ⟨w, w', hc.symm.trans hw, hw', hcount⟩

theorem archived_itemCount (row : SuggestionRow) :
    ∃ row', some row.archived = some row' ∧ ∀ type, row'.itemCount type = row.itemCount type := by
  refine ⟨_, rfl, fun type => ?_⟩
  cases type <;> rfl

omit [DecidableEq P] in
theorem CountsAt.of_unlocked (h : db.suggestions.Unlocked p) : CountsAt p point db :=
  fun k v hl => absurd hl (h k v)

theorem CountsAt.own (hf : db.Fresh) (hno : ∀ e, point ≠ .delete e) (hat : CountsAt p point db)
    (h : StoreStep db p point action db' point') : CountsAt p point' db' := by
  have hsame : (∀ k count, point ≠ .engine (.inserting k count)) → CountsAt p point' db := by
    intro hp k v hl
    rcases hat k v hl with h | ⟨⟨count, h⟩, -⟩
    · exact Or.inl h
    · exact absurd h (hp k count)
  cases h with
  | quit => exact .of_unlocked (Table.unlocked_abort _ p)
  | engineCommit | switchCommit | toggleCommit | archiveCommit | deleteGone | deleteCommit | exportCommit
  | exportFinish => exact .of_unlocked (Table.unlocked_commit _ p)
  | engineArchiveRow hu | toggleArchiveRow hu | archiveWrite hu =>
    exact hat.update (fun _ _ h => (by cases h)) archived_itemCount hu
  | exportOpen hu _ =>
    exact hat.update (fun _ _ h => (by cases h)) (fun row => ⟨row, rfl, fun _ => rfl⟩) hu
  | deleteRow _ _ => exact absurd rfl (hno _)
  | engineInsert =>
    intro k v hl
    rw [Table.get?_locks_write] at hl
    split_ifs at hl with hk
    · subst hk
      exact Or.inr ⟨⟨_, rfl⟩, (hf.suggestions _ le_rfl).1⟩
    · exact hsame (fun _ _ h => (by cases h)) k v hl
  | engineInsertItem =>
    intro k v hl
    rcases hat k v hl with h | ⟨⟨count, h⟩, hc⟩
    · exact Or.inl h
    · cases h
      exact Or.inr ⟨⟨_, rfl⟩, hc⟩
  | _ => exact hsame fun _ _ h => (by cases h)

end Counts

/-! ### Exported drafts -/

section Exported

variable {P : Type}

/-- The suggestion has a ready snapshot of the type. -/
def StoreDb.ReadyFor (db : StoreDb P) (k : ℕ) (type : SnapshotType) : Prop :=
  ∃ sid row, db.snapshots.committed.get? sid = some row ∧ row.suggestionId = k ∧
    row.snapshotType = type ∧ row.generationStatus = .ready

/-- The suggestion has a ready snapshot of each type it has items of. -/
def StoreDb.Exported (db : StoreDb P) (k : ℕ) : Prop :=
  ∃ row, db.suggestions.committed.get? k = some row ∧ ∀ type, 0 < row.itemCount type →
    db.ReadyFor k type

/-- Every draft is exported, or its job has not switched the generation off. -/
def StoreDb.Guarded (db : StoreDb P) : Prop := ∀ k, db.Draft k → k ∈ db.unswitched ∨ db.Exported k

/-- Inside a program that archives drafts. -/
def StorePoint.archives : StorePoint → Prop
  | .engine _ | .toggle _ => True
  | _ => False

/-- After `run_engine` has found the generation switched on. -/
def StorePoint.runs : StorePoint → Prop
  | .engine .enabled | .engine (.archiving _ _) | .engine (.inserting _ _) => True
  | _ => False

/-- The drafts that the process is about to archive. -/
def StorePoint.todo : StorePoint → List ℕ
  | .engine (.archiving todo _) | .toggle (.archiving todo) => todo
  | _ => []

/-- Where the toggle has not archived yet. -/
def StorePoint.checks : StorePoint → Prop
  | .toggle (.locked _) | .toggle (.checking _ _) => True
  | _ => False

/-- Where the toggle will switch the generation on. -/
def StorePoint.enables (p : P) (db : StoreDb P) : StorePoint → Prop
  | .toggle (.archiving _) => True
  | .toggle .written => db.suggestionGenerationEnabled.locks.get? () = some (p, some true)
  | _ => False

/-- What holds of the drafts for a process at a point. -/
structure ExportedAt (p : P) (point : StorePoint) (db : StoreDb P) : Prop where
  archives : point.archives → ∀ k v, db.suggestions.locks.get? k = some (p, v) →
    db.Exported k ∨ ∃ count, point = .engine (.inserting k count)
  unlocked : point.checks → db.suggestions.Unlocked p
  runs : point.runs → ∀ k, db.Draft k → db.Exported k
  todo : ∀ k ∈ point.todo, db.Exported k
  checking : ∀ k row types, point = .toggle (.checking (some (k, row)) types) →
    ∃ row', db.suggestions.committed.get? k = some row' ∧
      (∀ type, row'.itemCount type = row.itemCount type) ∧ ∀ type, type ∉ types →
      0 < row.itemCount type → db.ReadyFor k type
  enables : point.enables p db → db.Guarded

/-- Outside the programs that archive. -/
theorem ExportedAt.of_not_archives {p : P} {point : StorePoint} {db : StoreDb P}
    (h : ¬ point.archives) : ExportedAt p point db := by
  refine ⟨fun ha => absurd ha h, fun hc => ?_, fun hr => ?_, fun k hk => ?_, ?_, fun he => ?_⟩
  · unfold StorePoint.checks at hc
    split at hc
    · exact absurd trivial h
    · exact absurd trivial h
    · cases hc
  · unfold StorePoint.runs at hr
    split at hr
    · exact absurd trivial h
    · exact absurd trivial h
    · exact absurd trivial h
    · cases hr
  · unfold StorePoint.todo at hk
    split at hk
    · exact absurd trivial h
    · exact absurd trivial h
    · cases hk
  · rintro k row types rfl
    exact absurd trivial h
  · unfold StorePoint.enables at he
    split at he
    · exact absurd trivial h
    · exact absurd trivial h
    · cases he

/-- A process without a row of the suggestions, that has found nothing yet or is done. -/
theorem ExportedAt.of_unlocked {p : P} {point : StorePoint} {db : StoreDb P} (hr : ¬ point.runs)
    (ht : point.todo = []) (hc : ∀ draft types, point ≠ .toggle (.checking draft types))
    (he : ¬ point.enables p db) (h : db.suggestions.Unlocked p) : ExportedAt p point db := by
  refine ⟨fun _ k v hl => absurd hl (h k v), fun _ => h, fun h => absurd h hr, fun k hk => ?_, ?_,
    fun h => absurd h he⟩
  · rw [ht] at hk
    cases hk
  · intro k row types hp
    exact absurd hp (hc _ _)

variable [DecidableEq P] {db db' : StoreDb P} {p q : P} {point point' : StorePoint}
    {action : StoreAction} {k : ℕ}

/-! ### What stays -/

theorem StoreDb.ReadyFor.mono {type : SnapshotType} (h : db.ReadyFor k type)
    (hs : SnapshotAt p point db) (he : StoreEffect p db db') : db'.ReadyFor k type := by
  obtain ⟨sid, row, hrow, hk, ht, hready⟩ := h
  exact ⟨sid, row, hs.ready_keeps he hrow hready, hk, ht, hready⟩

/-- A committed row stays, with its counts. -/
theorem CountsAt.row_keeps (hc : CountsAt p point db) (he : StoreEffect p db db')
    {row : SuggestionRow} (hrow : db.suggestions.committed.get? k = some row) :
    ∃ row', db'.suggestions.committed.get? k = some row' ∧
    ∀ type, row'.itemCount type = row.itemCount type := by
  rcases he.suggestions.committed_cases k with h | h
  · exact ⟨row, h.trans hrow, fun _ => rfl⟩
  · rcases hc k _ h with ⟨row₀, row', hrow₀, hrow', hcount⟩ | ⟨-, hnone⟩
    · obtain rfl := Option.some.inj (hrow.symm.trans hrow₀)
      exact ⟨row', hrow', hcount⟩
    · rw [hrow] at hnone
      cases hnone

theorem StoreDb.Exported.mono (h : db.Exported k) (hs : SnapshotAt p point db)
    (hc : CountsAt p point db) (he : StoreEffect p db db') : db'.Exported k := by
  obtain ⟨row, hrow, hready⟩ := h
  obtain ⟨row', hrow', hcount⟩ := hc.row_keeps he hrow
  refine ⟨row', hrow', fun type hpos => (hready type ?_).mono hs he⟩
  rw [← hcount type]
  exact hpos

/-- Only the job that switches the generation off takes a draft off the list. -/
theorem StoreStep.unswitched (h : StoreStep db p point action db' point')
    (hp : ∀ id, point ≠ .engine (.switchWritten id true)) (hk : k ∈ db.unswitched) :
    k ∈ db'.unswitched := by
  cases h with
  | engineCommit => exact List.mem_cons_of_mem _ hk
  | switchCommit =>
    rename_i id enabled
    cases enabled with
    | true => exact absurd rfl (hp id)
    | false => exact hk
  | _ => exact hk

theorem StoreStep.guarded (hf : db.Fresh) (hd : DraftAt p point db) (hs : SnapshotAt p point db)
    (hc : CountsAt p point db) (h : StoreStep db p point action db' point')
    (hp : ∀ id, point ≠ .engine (.switchWritten id true)) (hg : db.Guarded) : db'.Guarded := by
  intro k hk
  rcases hd.draft_mono hf h hk with hold | rfl
  · rcases hg k hold with hu | he
    · exact Or.inl (h.unswitched hp hu)
    · exact Or.inr (he.mono hs hc (h.effect hf))
  · cases h with
    | quit => exact (hg k hk).imp_right fun he => he.mono hs hc .rollback
    | engineCommit => exact Or.inl List.mem_cons_self

/-! ### The other processes -/

theorem ExportedAt.other {point'' : StorePoint} (hf : db.Fresh) (hdp : DraftAt p point db)
    (hdq : DraftAt q point' db) (hs : SnapshotAt p point db) (hc : CountsAt p point db)
    (hfp : FlagAt p point db) (hfq : FlagAt q point' db) (hq : ExportedAt q point' db)
    (h : StoreStep db p point action db' point'') (hne : q ≠ p) :
    ExportedAt q point' db' := by
  have he := h.effect hf
  refine ⟨fun ha k v hl => ?_, fun hch => he.suggestions.unlocked_other hne (hq.unlocked hch),
    fun hr k hk => ?_, fun k hk => (hq.todo k hk).mono hs hc he, fun k row types hpt => ?_,
    fun hen => ?_⟩
  · exact (hq.archives ha k v ((he.suggestions.held_other hne).mp hl)).imp_left fun h =>
      h.mono hs hc he
  · -- no other process stores a draft while `q` is inside its run
    rcases hdp.draft_mono hf h hk with hold | rfl
    · exact (hq.runs hr k hold).mono hs hc he
    · have hrun : point'.inRun := by
        unfold StorePoint.runs at hr
        split at hr
        · trivial
        · trivial
        · trivial
        · cases hr
      have hlock := hdp.lock trivial
      rw [hdq.lock hrun] at hlock
      exact absurd (Option.some.inj hlock) hne
  · obtain ⟨row', hrow', hcount, hready⟩ := hq.checking k row types hpt
    obtain ⟨row'', hrow'', hcount'⟩ := hc.row_keeps he hrow'
    exact ⟨row'', hrow'', fun type => (hcount' type).trans (hcount type),
      fun type ht hpos => (hready type ht hpos).mono hs he⟩
  · -- `q` has the row of the configuration, so `p` does not switch the generation off
    have hold : point'.enables q db ∧ ∃ e, point' = .toggle e := by
      unfold StorePoint.enables at hen ⊢
      split at hen
      · exact ⟨trivial, _, rfl⟩
      · exact ⟨(he.config.held_other hne).mp hen, _, rfl⟩
      · cases hen
    obtain ⟨hold, e, rfl⟩ := hold
    refine h.guarded hf hdp hs hc (fun id hp => ?_) (hq.enables hold)
    obtain ⟨v, hv⟩ := hfq.held e rfl
    rw [hfp.switched id hp] at hv
    exact hne (Prod.mk.inj (Option.some.inj hv)).1.symm

/-! ### The process that moves -/

/-- What keeps the flag, the check and the drafts together: `run_engine` does not find
the generation switched on while the job of a draft has not switched it off; a
snapshot that the toggle counts is ready; and the toggle finds no draft but the one it
has looked at. -/
structure Watched (p : P) (point : StorePoint) (action : StoreAction) (db : StoreDb P) : Prop where
  flag : point = .engine .locked → action = .statement →
    db.suggestionGenerationEnabled.view p () = some true → ∀ k, db.Draft k → k ∉ db.unswitched
  count : ∀ draft type types, point = .toggle (.checking draft (type :: types)) →
    action = .statement → ∀ d ∈ draft, db.hasSnapshot p d.1 type = true → db.ReadyFor d.1 type
  archive : ∀ draft, point = .toggle (.checking draft []) → action = .statement →
    ∀ k, db.Draft k → ∃ row, draft = some (k, row)

omit [DecidableEq P] in
/-- After the run of the engine. -/
theorem ExportedAt.of_archives {e : EnginePoint} (hr : ¬ (StorePoint.engine e).runs)
    (ht : (StorePoint.engine e).todo = [])
    (h : ∀ k v, db.suggestions.locks.get? k = some (p, v) → db.Exported k) :
    ExportedAt p (.engine e) db := by
  refine ⟨fun _ k v hl => Or.inl (h k v hl), nofun, fun h => absurd h hr, fun k hk => ?_,
    nofun, nofun⟩
  rw [ht] at hk
  cases hk

omit [DecidableEq P] in
/-- Before a draft is inserted, every row a process holds is exported. -/
theorem ExportedAt.locked (hat : ExportedAt p point db) (ha : point.archives)
    (hne : ∀ id count, point ≠ .engine (.inserting id count)) :
    ∀ k v, db.suggestions.locks.get? k = some (p, v) → db.Exported k := by
  intro k v hl
  rcases hat.archives ha k v hl with h | ⟨count, h⟩
  · exact h
  · exact absurd h (hne k count)

/-- The drafts that the `UPDATE` of the archiving finds. -/
theorem exported_select (hfree : db.suggestions.Unlocked p) (h : ∀ k, db.Draft k → db.Exported k) :
    ∀ k ∈ db.suggestions.select p SuggestionRow.isDraft, db.Exported k := by
  intro k hk
  obtain ⟨row, hview, hdraft⟩ := Table.mem_select.mp hk
  rw [hfree.view] at hview
  exact h k ⟨row, hview, of_decide_eq_true hdraft⟩

omit [DecidableEq P] in
theorem exported_congr (hs : db'.suggestions.committed = db.suggestions.committed)
    (ht : db'.snapshots.committed = db.snapshots.committed) : db'.Exported k ↔ db.Exported k := by
  unfold StoreDb.Exported StoreDb.ReadyFor
  rw [hs, ht]

/-- A row of the list is archived: the rows held are exported as before, and no draft is new. -/
theorem archiveRow_kept {suggestions : Table P ℕ SuggestionRow} {j : ℕ}
    {cond : SuggestionRow → Bool} {f : SuggestionRow → Option SuggestionRow} (hj : db.Exported j)
    (h : ∀ k v, db.suggestions.locks.get? k = some (p, v) → db.Exported k)
    (hu : db.suggestions.update p j cond f = some suggestions) :
    (∀ k v, suggestions.locks.get? k = some (p, v) →
      StoreDb.Exported { db with suggestions := suggestions } k) ∧
      (∀ k, db.Exported k → StoreDb.Exported { db with suggestions := suggestions } k) ∧
      ∀ k, StoreDb.Draft { db with suggestions := suggestions } k → db.Draft k := by
  have hsame : ∀ k, StoreDb.Exported { db with suggestions := suggestions } k ↔ db.Exported k :=
    fun k => exported_congr (Table.update_committed hu) rfl
  refine ⟨fun k v hl => (hsame k).mpr ?_, fun k => (hsame k).mpr,
    fun k => draft_of_committed (Table.update_committed hu)⟩
  rcases Table.update_held hu hl with hold | ⟨rfl, -⟩
  · exact h k v hold
  · exact hj

theorem readyFor_of_hasSnapshot {draft : Option (ℕ × SuggestionRow)} {row : SuggestionRow}
    {type : SnapshotType} (hdraft : draft = some (k, row))
    (hcheck : ∀ d ∈ draft, 0 < d.2.itemCount type → db.hasSnapshot p d.1 type = true)
    (hready : ∀ d ∈ draft, db.hasSnapshot p d.1 type = true → db.ReadyFor d.1 type)
    (hpos : 0 < row.itemCount type) : db.ReadyFor k type :=
  hready (k, row) hdraft (hcheck (k, row) hdraft hpos)

omit [DecidableEq P] in
/-- The draft that was checked for both types is exported. -/
theorem ExportedAt.exported_of_checked {draft : Option (ℕ × SuggestionRow)} {row : SuggestionRow}
    (hat : ExportedAt p (.toggle (.checking draft [])) db) (hdraft : draft = some (k, row)) :
    db.Exported k := by
  subst hdraft
  obtain ⟨row', hrow', hcount, hready⟩ := hat.checking k row [] rfl
  refine ⟨row', hrow', fun type hpos => hready type (by simp) ?_⟩
  rw [← hcount type]
  exact hpos

/-! The statements of the toggle. -/

/-- The draft that the toggle looks at, before a check. -/
theorem ExportedAt.own_draft (hat : ExportedAt p (.toggle (.locked true)) db) (id : ℕ) :
    ExportedAt p (.toggle (.checking ((db.suggestions.view p id).map (id, ·))
      [.procurement, .restock])) db := by
  have hfree := hat.unlocked trivial
  refine ⟨fun _ k v hl => absurd hl (hfree k v), fun _ => hfree, nofun, nofun,
    fun k row types hp => ?_, nofun⟩
  injection hp with hp
  injection hp with hdraft htypes
  obtain ⟨row', hview, he⟩ := Option.map_eq_some_iff.mp hdraft
  obtain ⟨rfl, rfl⟩ := Prod.mk.inj he
  subst htypes
  refine ⟨row', (hfree.view _).symm.trans hview, fun _ => rfl, fun type ht => ?_⟩
  cases type <;> simp at ht

/-- One type of the draft is checked. -/
theorem ExportedAt.own_check {draft : Option (ℕ × SuggestionRow)} {type : SnapshotType}
    {types : List SnapshotType}
    (hcheck : ∀ d ∈ draft, 0 < d.2.itemCount type → db.hasSnapshot p d.1 type = true)
    (hready : ∀ d ∈ draft, db.hasSnapshot p d.1 type = true → db.ReadyFor d.1 type)
    (hat : ExportedAt p (.toggle (.checking draft (type :: types))) db) :
    ExportedAt p (.toggle (.checking draft types)) db := by
  have hfree := hat.unlocked trivial
  refine ⟨fun _ k v hl => absurd hl (hfree k v), fun _ => hfree, nofun, nofun,
    fun k row types' hp => ?_, nofun⟩
  injection hp with hp
  injection hp with hdraft htypes
  subst hdraft htypes
  obtain ⟨row', hrow', hcount, hother⟩ := hat.checking k row _ rfl
  refine ⟨row', hrow', hcount, fun type' ht hpos => ?_⟩
  by_cases htt : type' = type
  · subst htt
    exact readyFor_of_hasSnapshot rfl hcheck hready hpos
  · exact hother type' (fun hm => (List.mem_cons.mp hm).elim htt ht) hpos

/-- Both types are checked, and the toggle selects what it archives. -/
theorem ExportedAt.own_archive {draft : Option (ℕ × SuggestionRow)}
    (hdraft : ∀ k, db.Draft k → ∃ row, draft = some (k, row))
    (hat : ExportedAt p (.toggle (.checking draft [])) db) :
    ExportedAt p (.toggle (.archiving (db.suggestions.select p SuggestionRow.isDraft))) db := by
  have hfree := hat.unlocked trivial
  have hall : ∀ k, db.Draft k → db.Exported k := by
    intro k hk
    obtain ⟨row, hrow⟩ := hdraft k hk
    exact hat.exported_of_checked hrow
  exact ⟨fun _ k v hl => absurd hl (hfree k v), nofun, nofun, exported_select hfree hall, nofun,
    fun _ k hk => Or.inr (hall k hk)⟩

/-- The toggle archives one draft of its list. -/
theorem ExportedAt.own_toggleRow {j : ℕ} {todo : List ℕ} {suggestions : Table P ℕ SuggestionRow}
    {cond : SuggestionRow → Bool} {f : SuggestionRow → Option SuggestionRow}
    (hat : ExportedAt p (.toggle (.archiving (j :: todo))) db)
    (hu : db.suggestions.update p j cond f = some suggestions) :
    ExportedAt p (.toggle (.archiving todo)) { db with suggestions := suggestions } := by
  obtain ⟨hheld, hkept, hdraft⟩ :=
    archiveRow_kept (hat.todo j List.mem_cons_self) (hat.locked trivial nofun) hu
  exact ⟨fun _ k v hl => Or.inl (hheld k v hl), nofun, nofun,
    fun k hk => hkept k (hat.todo k (List.mem_cons_of_mem _ hk)), nofun, fun _ k hk =>
    (hat.enables trivial k (hdraft k hk)).imp_right (hkept k)⟩

/-! The statements of `run_engine`. -/

omit [DecidableEq P] in
/-- The engine finds the generation switched on. -/
theorem ExportedAt.own_enabled (hfree : db.suggestions.Unlocked p) (hguarded : db.Guarded)
    (hswitched : ∀ k, db.Draft k → k ∉ db.unswitched) : ExportedAt p (.engine .enabled) db :=
  ⟨fun _ k v hl => absurd hl (hfree k v), nofun,
    fun _ k hk => (hguarded k hk).resolve_left (hswitched k hk), nofun, nofun, nofun⟩

/-- The engine has its items and selects the drafts it archives. -/
theorem ExportedAt.own_compute (hfree : db.suggestions.Unlocked p)
    (hat : ExportedAt p (.engine .enabled) db) (items : List SuggestionItem) :
    ExportedAt p (.engine (.archiving (db.suggestions.select p SuggestionRow.isDraft) items)) db :=
  ⟨fun _ k v hl => absurd hl (hfree k v), nofun, fun _ => hat.runs trivial,
    exported_select hfree (hat.runs trivial), nofun, nofun⟩

/-- The engine archives one draft of its list. -/
theorem ExportedAt.own_engineRow {j : ℕ} {todo : List ℕ} {items : List SuggestionItem}
    {suggestions : Table P ℕ SuggestionRow} {cond : SuggestionRow → Bool}
    {f : SuggestionRow → Option SuggestionRow}
    (hat : ExportedAt p (.engine (.archiving (j :: todo) items)) db)
    (hu : db.suggestions.update p j cond f = some suggestions) :
    ExportedAt p (.engine (.archiving todo items)) { db with suggestions := suggestions } := by
  obtain ⟨hheld, hkept, hdraft⟩ :=
    archiveRow_kept (hat.todo j List.mem_cons_self) (hat.locked trivial nofun) hu
  exact ⟨fun _ k v hl => Or.inl (hheld k v hl), nofun,
    fun _ k hk => hkept k (hat.runs trivial k (hdraft k hk)),
    fun k hk => hkept k (hat.todo k (List.mem_cons_of_mem _ hk)), nofun, nofun⟩

omit [DecidableEq P] in
/-- The engine inserts its draft: the one row it holds that is not exported. -/
theorem ExportedAt.own_insert {items : List SuggestionItem}
    (hat : ExportedAt p (.engine (.archiving [] items)) db) (row : SuggestionRow) (count : ℕ) :
    ExportedAt p (.engine (.inserting db.nextSuggestion count))
      { db with
        suggestions := db.suggestions.write p db.nextSuggestion (some row)
        nextSuggestion := db.nextSuggestion + 1 } := by
  refine ⟨fun _ k v hl => ?_, nofun, fun _ => hat.runs trivial, nofun, nofun, nofun⟩
  rw [Table.get?_locks_write] at hl
  split_ifs at hl with hk
  · exact Or.inr ⟨_, by rw [hk]⟩
  · exact Or.inl (hat.locked trivial nofun k v hl)

/-- **The process that moves** keeps its own part. -/
theorem ExportedAt.own (hd : DraftAt p point db) (hfl : FlagAt p point db)
    (hrow : db.suggestionGenerationEnabled.committed.get? () ≠ none)
    (hguard : db.suggestionGenerationEnabled.committed.get? () = some true → db.Guarded)
    (hok : Watched p point action db) (hat : ExportedAt p point db)
    (h : StoreStep db p point action db' point') :
    ExportedAt p point' db' := by
  cases h with
  | engineLock _ =>
    exact .of_unlocked (fun h => h) rfl (fun _ _ h => (by cases h)) (fun h => h)
      (hd.unlocked trivial)
  | engineEnabled hv =>
    have hon : db.suggestionGenerationEnabled.committed.get? () = some true := by
      rw [← (hfl.unlocked fun h => h).view]
      exact hv
    exact .own_enabled (hd.unlocked trivial) (hguard hon) (hok.flag rfl rfl hv)
  | engineArchive => exact hat.own_compute (hd.unlocked trivial) _
  | engineArchiveRow hu => exact hat.own_engineRow hu
  | engineInsert => exact hat.own_insert _ _
  | engineInsertItem =>
    refine ⟨fun _ k v hl => ?_, nofun, fun _ => hat.runs trivial, nofun, nofun, nofun⟩
    rcases hat.archives trivial k v hl with h | ⟨count, h⟩
    · exact Or.inl h
    · cases h
      exact Or.inr ⟨_, rfl⟩
  | engineCommit =>
    exact .of_unlocked (fun h => h) rfl (fun _ _ h => (by cases h)) (fun h => h)
      (Table.unlocked_commit _ p)
  | switchRead _ | switchWrite _ => exact .of_archives (fun h => h) rfl (hat.locked trivial nofun)
  | toggleLock _ =>
    exact .of_unlocked (fun h => h) rfl (fun _ _ h => (by cases h)) (fun h => h)
      (hd.unlocked trivial)
  | toggleOff hu =>
    refine .of_unlocked (fun h => h) rfl (fun _ _ h => (by cases h)) (fun he => ?_)
      (hat.unlocked trivial)
    obtain ⟨current, -, hl, -⟩ := config_update (hfl.view_ne_none hrow) hu
    have := (Prod.mk.inj (Option.some.inj (hl.symm.trans he))).2
    cases this
  | toggleNoDraft _ =>
    have hfree := hat.unlocked trivial
    exact ⟨fun _ k v hl => absurd hl (hfree k v), fun _ => hfree, nofun, nofun, nofun, nofun⟩
  | toggleDraft _ => exact hat.own_draft _
  | toggleCheck hcheck => exact hat.own_check hcheck (hok.count _ _ _ rfl rfl)
  | toggleArchive => exact hat.own_archive (hok.archive _ rfl rfl)
  | toggleArchiveRow hu => exact hat.own_toggleRow hu
  | toggleOn _ =>
    exact ⟨fun _ k v hl => Or.inl (hat.locked trivial nofun k v hl), nofun, nofun, nofun, nofun,
      fun _ => hat.enables trivial⟩
  | _ => exact .of_not_archives fun h => h

/-! ### Runs -/

/-- Where the generation is switched on, every draft is exported or its job has still to
switch it off. -/
theorem StoreStep.guarded_of_enabled (hf : db.Fresh) (hd : DraftAt p point db)
    (hs : SnapshotAt p point db) (hc : CountsAt p point db) (hfl : FlagAt p point db)
    (hat : ExportedAt p point db)
    (hguard : db.suggestionGenerationEnabled.committed.get? () = some true → db.Guarded)
    (h : StoreStep db p point action db' point')
    (hon : db'.suggestionGenerationEnabled.committed.get? () = some true) : db'.Guarded := by
  by_cases hsw : ∃ id, point = .engine (.switchWritten id true)
  · obtain ⟨id, rfl⟩ := hsw
    cases h with
    | quit => exact hguard hon
    | switchCommit =>
      -- the commit leaves the generation switched off
      rw [show ({ db.commit p with unswitched := _ } : StoreDb P).suggestionGenerationEnabled =
        db.suggestionGenerationEnabled.commit p from rfl, Table.get?_commit,
          Table.view_of_held (hfl.switched id rfl)] at hon
      cases hon
  · have hp : ∀ id, point ≠ .engine (.switchWritten id true) := fun id he => hsw ⟨id, he⟩
    have hold : db.Guarded := by
      rcases (h.effect hf).config.committed_cases () with hsame | hl
      · exact hguard (hsame.symm.trans hon)
      · rw [hon] at hl
        obtain ⟨enabled, he, hcase⟩ := hfl.pending _ hl
        rcases hcase (Option.some.inj he).symm with hold | rfl
        · exact hguard hold
        · exact hat.enables hl
    exact h.guarded hf hd hs hc hp hold

/-- A quiet state with at most one draft and a row of the configuration, in which a draft
beside a generation that is switched on is exported. -/
structure ExportedStart (s : Procs P StorePoint (StoreDb P)) : Prop where
  oneDraft : OneDraftStart s
  config : s.shared.suggestionGenerationEnabled.committed.get? () ≠ none
  guarded : s.shared.suggestionGenerationEnabled.committed.get? () = some true → s.shared.Guarded

/-- The steps of the runs: no deletions, and the flag, the check and the drafts are kept
together. -/
def WatchedStep (a : P × StoreAction) (s : Procs P StorePoint (StoreDb P)) : Prop :=
  NoDelete a ∧ Watched a.1 (s.proc a.1) a.2 s.shared

/-- All that holds for a process at a point. -/
structure ArchiveAt (p : P) (point : StorePoint) (db : StoreDb P) : Prop where
  counts : CountsAt p point db
  flag : FlagAt p point db
  exported : ExportedAt p point db

theorem archiveAt_of_reach {s : Procs P StorePoint (StoreDb P)}
    (h : (storeRuns ExportedStart).ReachIf WatchedStep s) :
    (s.shared.suggestionGenerationEnabled.committed.get? () ≠ none ∧
      (s.shared.suggestionGenerationEnabled.committed.get? () = some true → s.shared.Guarded)) ∧
    ∀ p, ArchiveAt p (s.proc p) s.shared := by
  have h' := h.and_invariant fun hr => And.intro (draftAt_of_reach (fun hs => hs.oneDraft) hr)
    (And.intro (snapshotAt_of_noDelete (fun hs => hs.oneDraft.1) (fun ha => ha.1) hr)
      (no_delete_of_reach (fun hs => hs.oneDraft.1) (fun ha => ha.1) hr))
  refine Procs.invariant (I := fun db => db.suggestionGenerationEnabled.committed.get? () ≠ none ∧
    (db.suggestionGenerationEnabled.committed.get? () = some true → db.Guarded)) ?_ ?_ ?_ h'
  · intro s hs
    refine ⟨⟨hs.config, hs.guarded⟩, fun p => ?_⟩
    have hq := hs.oneDraft.1
    rw [hq.idle p]
    refine ⟨.of_unlocked fun k v hl => ?_, .of_unlocked (fun h => h) fun k v hl => ?_,
      .of_not_archives fun h => h⟩
    · rw [hq.suggestions] at hl
      cases hl
    · rw [hq.config] at hl
      cases hl
  · intro s p a r ⟨hrow, hguard⟩ hAt ⟨⟨_, hw⟩, ⟨⟨hf, _⟩, hd⟩, ⟨_, hs⟩, hdel⟩ hr
    have hst := storeNext_step hr
    obtain ⟨hc, hfl, hat⟩ := hAt p
    refine ⟨⟨hfl.row_keeps (hst.effect hf) hrow, ?_⟩, hc.own hf (hdel p) hst, hfl.own hrow hst, ?_⟩
    · exact hst.guarded_of_enabled hf (hd p) (hs p) hc hfl hat hguard
    · exact hat.own (hd p) hfl hrow hguard hw hst
  · intro s p a r q ⟨hrow, hguard⟩ hAt ⟨_, ⟨⟨hf, _⟩, hd⟩, ⟨_, hs⟩, _⟩ hr hq
    have hst := storeNext_step hr
    obtain ⟨hc, hfl, -⟩ := hAt p
    refine ⟨(hAt q).counts.other (hst.effect hf) hq, (hAt q).flag.other (hst.effect hf) hq, ?_⟩
    exact (hAt q).exported.other hf (hd p) (hd q) (hs p) hc hfl (hAt q).flag hst hq

/-- **A draft that is archived is exported**: when a statement of the engine or of the
toggle ends a draft, the draft has a ready snapshot of each type it has items of. -/
theorem exported_of_archived {s s' : Procs P StorePoint (StoreDb P)}
    (h : (storeRuns ExportedStart).ReachIf WatchedStep s) {p : P} {action : StoreAction}
    (hst : (storeRuns ExportedStart).step s (p, action) s') (hp : (s.proc p).archives) {k : ℕ}
    (hk : s.shared.Draft k) (hk' : ¬ s'.shared.Draft k) : s.shared.Exported k := by
  obtain ⟨r, hr, rfl⟩ := Procs.step_iff.mp hst
  have hf := (draftAt_of_reach (fun hs => hs.oneDraft) h).1.1
  have hat := ((archiveAt_of_reach h).2 p).exported
  rcases ((storeNext_step hr).effect hf).suggestions.committed_cases k with hsame | hl
  · obtain ⟨row, hrow, hdraft⟩ := hk
    exact absurd ⟨row, hsame.trans hrow, hdraft⟩ hk'
  · rcases hat.archives hp k _ hl with he | ⟨count, he⟩
    · exact he
    · exact hat.runs (by rw [he]; trivial) k hk

end Exported

/-! ### Two runs -/

def StorePoint.isToggle : StorePoint → Bool
  | .toggle _ => true
  | _ => false

def StorePoint.isEngine : StorePoint → Bool
  | .engine _ => true
  | _ => false

theorem StorePoint.archives_of_isEngine {point : StorePoint} (h : point.isEngine = true) :
    point.archives := by
  cases point with
  | engine e => trivial
  | _ => cases h

/-- The draft of `oneItemStore` with a ready snapshot. -/
def exportedStore : Procs Bool StorePoint (StoreDb Bool) :=
  { oneItemStore with
    shared := { oneItemStore.shared with
      snapshots := ⟨.set .empty 1 ⟨1, .procurement, 1, [1], .ready⟩, .empty⟩
      nextSnapshot := 2 } }

theorem draft_oneItemStore {P : Type} {k : ℕ} (h : (oneItemStore (P := P)).shared.Draft k) :
    k = 1 := by
  obtain ⟨row, hrow, -⟩ := h
  by_contra hk
  rw [show (oneItemStore (P := P)).shared.suggestions.committed.get? k =
    none from Dict.get?_set_ne _ _ hk] at hrow
  cases hrow

theorem exported_exportedStore : exportedStore.shared.Exported 1 := by
  refine ⟨draftRow [firstItem], rfl, fun type hpos => ?_⟩
  cases type with
  | procurement => exact ⟨1, _, rfl, rfl, rfl, rfl⟩
  | restock => exact absurd hpos (by decide)

theorem exportedStart_exportedStore : ExportedStart exportedStore where
  oneDraft := by
    refine ⟨⟨fun _ => rfl, rfl, rfl, rfl, rfl, rfl, ?_⟩, fun k k' hk hk' => ?_⟩
    · have hf := (storeQuiet_oneItemStore (P := Bool)).fresh
      refine ⟨hf.suggestions, hf.items, fun k (hk : 2 ≤ k) => ⟨?_, rfl⟩⟩
      exact Dict.get?_set_ne _ _ (by omega)
    · rw [draft_oneItemStore (P := Bool) hk, draft_oneItemStore (P := Bool) hk']
  config := by decide
  guarded _ k hk := by
    rw [draft_oneItemStore (P := Bool) hk]
    exact Or.inr exported_exportedStore

/-- The engine is at its commit. -/
theorem exported_of_archived_engine : ∃ s s' : Procs Bool StorePoint (StoreDb Bool),
    (storeRuns ExportedStart).ReachIf WatchedStep s ∧
    (storeRuns ExportedStart).step s (false, .statement) s' ∧ s.shared.Draft 1 ∧
    ¬ s'.shared.Draft 1 ∧ s.shared.Exported 1 := by
  -- no job is between its two transactions, and no toggle is under way
  let check : Bool × StoreAction → Procs Bool StorePoint (StoreDb Bool) → Bool := fun a s =>
    s.shared.unswitched.isEmpty && !(s.proc a.1).isToggle
  have hrun : (Procs.execIf storeNext check exportedStore
      ((engineRun false).dropLast ++ [(false, .statement)])).map
      (fun s => ((s.proc false).isEngine, s.shared.suggestions.committed.get? 1,
        (storeNext s.shared false (s.proc false) .statement).map fun r =>
          r.1.suggestions.committed.get? 1)) =
      some (true, some (draftRow [firstItem]), some (some (draftRow [firstItem]).archived)) := rfl
  obtain ⟨s, hs, hall⟩ := Option.map_eq_some_iff.mp hrun
  obtain ⟨hengine, hrest⟩ := Prod.mk.inj hall
  obtain ⟨hbefore, hnext⟩ := Prod.mk.inj hrest
  obtain ⟨r, hr, hafter⟩ := Option.map_eq_some_iff.mp hnext
  have hreach : (storeRuns ExportedStart).ReachIf WatchedStep s := by
    refine Procs.reach_execIf (.start exportedStart_exportedStore) hs fun a ha s hc => ?_
    obtain ⟨hempty, htoggle⟩ := (Bool.and_eq_true _ _).mp hc
    have hnot : ∀ e, s.proc a.1 ≠ .toggle e := by
      intro e he
      rw [he] at htoggle
      cases htoggle
    refine ⟨?_, fun _ _ _ k _ hk => ?_, fun _ _ _ he => absurd he (hnot _),
      fun _ he => absurd he (hnot _)⟩
    · rcases List.mem_append.mp ha with ha | ha
      · exact noDelete_engineRun (List.mem_of_mem_dropLast ha)
      · rw [List.mem_singleton.mp ha]
        exact fun _ h => (by cases h)
    · rw [List.isEmpty_iff.mp hempty] at hk
      cases hk
  have hst : (storeRuns ExportedStart).step s (false, .statement) (s.move false r) :=
    Procs.step_iff.mpr ⟨r, hr, rfl⟩
  have hdraft : s.shared.Draft 1 := ⟨_, hbefore, rfl⟩
  have hgone : ¬ (s.move false r).shared.Draft 1 := by
    rintro ⟨row, hrow, hst⟩
    obtain rfl := Option.some.inj (hafter.symm.trans hrow)
    cases hst
  have hpoint : (s.proc false).archives := StorePoint.archives_of_isEngine hengine
  exact ⟨s, _, hreach, hst, hdraft, hgone, exported_of_archived hreach hst hpoint hdraft hgone⟩

/-- A second job that runs before the first has switched the generation off archives the
draft of the first, of which there is no snapshot. -/
theorem archived_unexported : ∃ s s' : Procs ℕ StorePoint (StoreDb ℕ),
    (storeRuns ExportedStart).ReachIf (fun a _ => NoDelete a) s ∧
    (storeRuns ExportedStart).step s (1, .statement) s' ∧ (s.proc 1).archives ∧ s.shared.Draft 1 ∧
    ¬ s'.shared.Draft 1 ∧ ¬ s.shared.Exported 1 := by
  have hrun : (Procs.exec storeNext emptyStore
      (engineRun 0 ++ ((engineRun 1).dropLast ++ [(1, .statement)]))).map (fun s =>
      ((s.proc 1).isEngine, (s.shared.suggestions.committed.get? 1,
        s.shared.snapshots.committed), (storeNext s.shared 1 (s.proc 1) .statement).map fun r =>
          r.1.suggestions.committed.get? 1)) =
      some (true, (some (draftRow [firstItem]), .empty),
        some (some (draftRow [firstItem]).archived)) := rfl
  obtain ⟨s, hs, hall⟩ := Option.map_eq_some_iff.mp hrun
  obtain ⟨hengine, hrest⟩ := Prod.mk.inj hall
  obtain ⟨hboth, hnext⟩ := Prod.mk.inj hrest
  obtain ⟨hbefore, hnone⟩ := Prod.mk.inj hboth
  obtain ⟨r, hr, hafter⟩ := Option.map_eq_some_iff.mp hnext
  have hstart : ExportedStart emptyStore :=
    ⟨oneDraftStart_emptyStore, by decide, fun _ k hk => absurd hk (not_draft_emptyStore k)⟩
  have hreach : (storeRuns ExportedStart).ReachIf (fun a _ => NoDelete a) s := by
    refine Procs.reach_exec (.start hstart) hs fun a ha _ => ?_
    simp only [List.mem_append] at ha
    rcases ha with ha | ha | ha
    · exact noDelete_engineRun ha
    · exact noDelete_engineRun (List.mem_of_mem_dropLast ha)
    · rw [List.mem_singleton.mp ha]
      exact fun _ h => (by cases h)
  refine ⟨s, s.move 1 r, hreach, Procs.step_iff.mpr ⟨r, hr, rfl⟩,
    StorePoint.archives_of_isEngine hengine, ⟨_, hbefore, rfl⟩, ?_, ?_⟩
  · rintro ⟨row, hrow, hst⟩
    obtain rfl := Option.some.inj (hafter.symm.trans hrow)
    cases hst
  · rintro ⟨row, hrow, hready⟩
    obtain rfl := Option.some.inj (hbefore.symm.trans hrow)
    obtain ⟨sid, snapshot, hsid, -⟩ := hready .procurement (by decide)
    rw [hnone] at hsid
    cases hsid

end Restock
