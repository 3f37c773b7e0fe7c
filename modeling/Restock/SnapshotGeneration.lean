/-
# An export behind its first commit (`_create_snapshot`)

The row of the snapshot is committed as `generating`. Then the directory is made, the
workbook built, saved under a temporary name and moved; whatever that raises is answered by
an update to `failed`; at the end one transaction marks the snapshot `ready` and its items
exported. At every point something may be raised. The items change only with a snapshot
that is ready (`items_serveSnapshot`). The snapshot is left `generating` by what is raised
before the guarded part, in the clean-up of the temporary file, and in the last transaction
(`settled_iff`); the retention job marks it hours later (`purgeStuckGenerating_clears`).
-/
import Restock.SuggestionStore
import Restock.Lib.Retrying
import Restock.Lib.Session

namespace Restock

/-! ### The state -/

/-- The row of the snapshot (its time in seconds), the items, and what `excel_export_log` says was
generated. -/
structure GenerationDb where
  generationStatus : GenerationStatus
  generationError : Option String
  exportedAt : ℤ
  filePath : Option String
  fileSizeBytes : Option ℕ
  items : Dict ℕ ItemRow
  generated : List ℕ

/-- The session of the request, and which of the two files are there. -/
structure GenerationState where
  db : Session GenerationDb
  tmpFile : Bool
  targetFile : Bool

/-- The points at which something can be raised, `failureUpdate` and `failureCommit` in the
compensation. -/
inductive GenerationPoint
  | settings | mkdir | build | save | replace | stat
  | tmpExists | unlink | failureUpdate | failureCommit
  | markReady | markItems | commit | refresh
deriving DecidableEq, Repr

inductive GenerationError
  | raised (message : String)
  | http (statusCode : ℕ) (detail : String)
deriving DecidableEq, Repr

/-- `str(exc)`. -/
def GenerationError.text : GenerationError → String
  | .raised message => message
  | .http _ detail => detail

/-- What the request works with; `partlySaved` is whether a save that raises leaves a part
of the file. -/
structure GenerationJob where
  snapshotId : ℕ
  snapshotType : SnapshotType
  itemIds : List ℕ
  relativePath : String
  fileSize : ℕ
  partlySaved : Bool
  fault : GenerationPoint → Option String

/-! ### The request -/

section Request

variable (job : GenerationJob)

def raiseAt (point : GenerationPoint) : Transaction GenerationState GenerationError Unit :=
  Transaction.raise ((job.fault point).map .raised)

def writeDb (f : GenerationDb → GenerationDb) : Transaction GenerationState GenerationError Unit :=
  Transaction.change fun s => { s with db := s.db.write f }

def commitDb : Transaction GenerationState GenerationError Unit :=
  Transaction.change fun s => { s with db := s.db.commit }

/-- `workbook.save(tmp_path)`. -/
def saveWorkbook : Transaction GenerationState GenerationError Unit := do
  Transaction.change fun s =>
    { s with tmpFile := s.tmpFile || job.partlySaved || (job.fault .save).isNone }
  raiseAt job .save

/-- The guarded part: the size of the file. -/
def writeFile : Transaction GenerationState GenerationError ℕ := do
  raiseAt job .build
  saveWorkbook job
  raiseAt job .replace
  Transaction.change fun s => { s with tmpFile := false, targetFile := true }
  raiseAt job .stat
  Transaction.pure job.fileSize

/-- `except Exception as exc`. -/
def compensate (exc : GenerationError) : Transaction GenerationState GenerationError ℕ := do
  raiseAt job .tmpExists
  let s ← Transaction.read
  Transaction.raise (if s.tmpFile then (job.fault .unlink).map .raised else none)
  Transaction.change fun s => { s with tmpFile := false }
  raiseAt job .failureUpdate
  writeDb fun db => { db with generationStatus := .failed, generationError := some exc.text }
  raiseAt job .failureCommit
  commitDb
  Transaction.fail (.http 500 s!"Excel 生成失败：{exc.text}")

/-- The last transaction. -/
def markExported (fileSizeBytes : ℕ) : Transaction GenerationState GenerationError Unit := do
  raiseAt job .markReady
  writeDb fun db => { db with
    generationStatus := .ready
    generationError := none
    filePath := some job.relativePath
    fileSizeBytes := some fileSizeBytes }
  raiseAt job .markItems
  writeDb fun db => { db with
    items := db.items.mapVal fun id row => if id ∈ job.itemIds then
      row.exportedIn job.snapshotId job.snapshotType else row
    generated := job.snapshotId :: db.generated }
  raiseAt job .commit
  commitDb

/-- `_create_snapshot` behind its first commit. -/
def finishSnapshot : Transaction GenerationState GenerationError Unit := do
  raiseAt job .settings
  raiseAt job .mkdir
  let fileSizeBytes ← (writeFile job).catching (fun _ => true) (compensate job)
  markExported job fileSizeBytes
  raiseAt job .refresh

/-- The request with its end. -/
def serveSnapshot (s : GenerationState) : GenerationState :=
  let r := finishSnapshot job s
  { r.2 with db := Session.close (r.1, r.2.db) }

end Request

/-! ### What each part leaves -/

section Parts

variable (job : GenerationJob)

/-- The first error of the guarded part. -/
def fileFault : Option String :=
  (((job.fault .build).or (job.fault .save)).or (job.fault .replace)).or (job.fault .stat)

/-- Whether the guarded part leaves the temporary file. -/
def tmpLeft (tmpFile : Bool) : Bool :=
  if (job.fault .build).isSome then tmpFile
  else if (job.fault .save).isSome then tmpFile || job.partlySaved
  else (job.fault .replace).isSome

/-- The temporary file is looked for and, where it is there, taken away. -/
def CleansUp (tmpFile : Bool) : Prop :=
  job.fault .tmpExists = none ∧ (tmpFile = true → job.fault .unlink = none)

/-- Nothing is raised in the last transaction. -/
def Finishes : Prop := job.fault .markReady = none ∧ job.fault .markItems = none ∧
    job.fault .commit = none

instance (tmpFile : Bool) : Decidable (CleansUp job tmpFile) := inferInstanceAs (Decidable (_ ∧ _))

instance : Decidable (Finishes job) := inferInstanceAs (Decidable (_ ∧ _ ∧ _))

variable {job} {point : GenerationPoint} {message : String} {s : GenerationState}

theorem raiseAt_none (h : job.fault point = none) (s : GenerationState) :
    raiseAt job point s = (.ok (), s) := by
  rw [raiseAt, h]
  rfl

theorem raiseAt_some (h : job.fault point = some message) (s : GenerationState) :
    raiseAt job point s = (.error (.raised message), s) := by
  rw [raiseAt, h]
  rfl

/-- The guarded part touches the files only. -/
theorem writeFile_eq (job : GenerationJob) (s : GenerationState) : ∃ targetFile,
    writeFile job s = ((fileFault job).elim (.ok job.fileSize)
      fun message => .error (.raised message), ⟨s.db, tmpLeft job s.tmpFile, targetFile⟩) ∧
      (fileFault job = none → targetFile = true) := by
  unfold writeFile saveWorkbook raiseAt fileFault tmpLeft
  cases job.fault .build with
  | some message => exact ⟨s.targetFile, rfl, fun h => by cases h⟩
  | none =>
    cases job.fault .save with
    | some message =>
      refine ⟨s.targetFile, ?_, fun h => by cases h⟩
      have hpart : (s.tmpFile || job.partlySaved || false) = (s.tmpFile || job.partlySaved) :=
        Bool.or_false _
      exact congrArg (fun tmpFile => ((.error (.raised message) : Except GenerationError ℕ),
        GenerationState.mk s.db tmpFile s.targetFile)) hpart
    | none =>
      cases job.fault .replace with
      | some message =>
        refine ⟨s.targetFile, ?_, fun h => by cases h⟩
        have hpart : (s.tmpFile || job.partlySaved || true) = true := Bool.or_true _
        exact congrArg (fun tmpFile => ((.error (.raised message) : Except GenerationError ℕ),
          GenerationState.mk s.db tmpFile s.targetFile)) hpart
      | none =>
        cases job.fault .stat with
        | some message => exact ⟨true, rfl, fun h => by cases h⟩
        | none => exact ⟨true, rfl, fun _ => rfl⟩

/-- The compensation raises in any case, and marks the snapshot if the clean-up does not. -/
theorem compensate_spec (hupdate : job.fault .failureUpdate = none)
    (hcommit : job.fault .failureCommit = none) (exc : GenerationError) (s : GenerationState) :
    (∃ e, (compensate job exc s).1 = .error e) ∧ (compensate job exc s).2.db.stored =
        if CleansUp job s.tmpFile then
        { s.db.current with generationStatus := .failed, generationError := some exc.text }
        else s.db.stored := by
  obtain ⟨db, tmpFile, targetFile⟩ := s
  have hraised : ∀ {o : Option String} {m : String} {P : Prop}, o = some m → o = none → P :=
      fun h h0 => by
    rw [h] at h0
    cases h0
  unfold compensate raiseAt
  rw [hupdate, hcommit]
  cases htmp : job.fault .tmpExists with
  | some message => exact ⟨⟨_, rfl⟩, (if_neg fun h => hraised htmp h.1).symm⟩
  | none =>
    cases tmpFile with
    | false => exact ⟨⟨_, rfl⟩, (if_pos ⟨htmp, fun h => by cases h⟩).symm⟩
    | true =>
      cases hunlink : job.fault .unlink with
      | some message => exact ⟨⟨_, rfl⟩, (if_neg fun h => hraised hunlink (h.2 rfl)).symm⟩
      | none => exact ⟨⟨_, rfl⟩, (if_pos ⟨htmp, fun _ => hunlink⟩).symm⟩

/-- The tables with the snapshot ready and its items marked. -/
def exported (job : GenerationJob) (db : GenerationDb) : GenerationDb where
  generationStatus := .ready
  generationError := none
  exportedAt := db.exportedAt
  filePath := some job.relativePath
  fileSizeBytes := some job.fileSize
  items := db.items.mapVal fun id row => if id ∈ job.itemIds then
    row.exportedIn job.snapshotId job.snapshotType else row
  generated := job.snapshotId :: db.generated

theorem markExported_of_finishes (h : Finishes job) (s : GenerationState) :
    markExported job job.fileSize s =
    (.ok (), { s with db := Session.opened (exported job s.db.current) }) := by
  obtain ⟨hready, hitems, hcommit⟩ := h
  unfold markExported raiseAt
  rw [hready, hitems, hcommit]
  rfl

/-- What is raised in the last transaction leaves what was stored. -/
theorem markExported_of_not_finishes (h : ¬ Finishes job) (s : GenerationState) :
    (∃ e, (markExported job job.fileSize s).1 = .error e) ∧
    (markExported job job.fileSize s).2.db.stored = s.db.stored := by
  unfold markExported raiseAt
  cases hready : job.fault .markReady with
  | some message => exact ⟨⟨_, rfl⟩, rfl⟩
  | none =>
    cases hitems : job.fault .markItems with
    | some message => exact ⟨⟨_, rfl⟩, rfl⟩
    | none =>
      cases hcommit : job.fault .commit with
      | some message => exact ⟨⟨_, rfl⟩, rfl⟩
      | none => exact absurd ⟨hready, hitems, hcommit⟩ h

end Parts

/-! ### What the request leaves -/

/-- The directory is there. -/
def Prepares (job : GenerationJob) : Prop := job.fault .settings = none ∧ job.fault .mkdir = none

instance (job : GenerationJob) : Decidable (Prepares job) := inferInstanceAs (Decidable (_ ∧ _))

section Whole

variable {job : GenerationJob} (db : GenerationDb) (tmpFile targetFile : Bool)

/-- What a request that fails has stored. -/
theorem stored_serveSnapshot_of_error {s : GenerationState}
    (h : ∃ e, (finishSnapshot job s).1 = .error e) :
    (serveSnapshot job s).db.stored = (finishSnapshot job s).2.db.stored := by
  obtain ⟨e, he⟩ := h
  rw [serveSnapshot, he]
  rfl

/-- Without a directory nothing is stored. -/
theorem stored_of_not_prepares (h : ¬ Prepares job) (s : GenerationState) :
    (serveSnapshot job s).db.stored = s.db.stored := by
  have hfinish : (∃ e, (finishSnapshot job s).1 = .error e) ∧
      (finishSnapshot job s).2.db.stored = s.db.stored := by
    unfold finishSnapshot
    cases hsettings : job.fault .settings with
    | some message =>
      rw [Transaction.bind_of_error (raiseAt_some hsettings s)]
      exact ⟨⟨_, rfl⟩, rfl⟩
    | none =>
      rw [Transaction.bind_of_ok (raiseAt_none hsettings s)]
      cases hmkdir : job.fault .mkdir with
      | some message =>
        rw [Transaction.bind_of_error (raiseAt_some hmkdir s)]
        exact ⟨⟨_, rfl⟩, rfl⟩
      | none => exact absurd ⟨hsettings, hmkdir⟩ h
  rw [stored_serveSnapshot_of_error hfinish.1, hfinish.2]

/-- With a directory the request goes on with the guarded part. -/
theorem finishSnapshot_of_prepares (h : Prepares job) (s : GenerationState) : finishSnapshot job s =
    ((writeFile job).catching (fun _ => true) (compensate job) >>= fun fileSizeBytes =>
      markExported job fileSizeBytes >>= fun _ => raiseAt job .refresh) s := by
  unfold finishSnapshot
  rw [Transaction.bind_of_ok (raiseAt_none h.1 s), Transaction.bind_of_ok (raiseAt_none h.2 s)]

/-- After an error of the guarded part the snapshot is marked if the clean-up succeeds. -/
theorem stored_of_fileFault (h : Prepares job) (hupdate : job.fault .failureUpdate = none)
    (hcommit : job.fault .failureCommit = none) {message : String}
    (hfile : fileFault job = some message) :
    (serveSnapshot job ⟨Session.opened db, tmpFile, targetFile⟩).db.stored =
      if CleansUp job (tmpLeft job tmpFile) then
      { db with generationStatus := .failed, generationError := some message }
      else db := by
  obtain ⟨target, hwrite, -⟩ := writeFile_eq job ⟨Session.opened db, tmpFile, targetFile⟩
  rw [hfile] at hwrite
  set s₁ : GenerationState := ⟨Session.opened db, tmpLeft job tmpFile, target⟩
  obtain ⟨⟨e, he⟩, hstored⟩ := compensate_spec hupdate hcommit (.raised message) s₁
  have hcatch : (writeFile job).catching (fun _ => true)
      (compensate job) ⟨Session.opened db, tmpFile, targetFile⟩ =
      (.error e, (compensate job (.raised message) s₁).2) := by
    unfold Transaction.catching
    rw [hwrite]
    exact Prod.ext he rfl
  have hfinish : finishSnapshot job ⟨Session.opened db, tmpFile, targetFile⟩ =
      (.error e, (compensate job (.raised message) s₁).2) := by
    rw [finishSnapshot_of_prepares h, Transaction.bind_of_error hcatch]
  rw [stored_serveSnapshot_of_error ⟨e, by rw [hfinish]⟩, hfinish]
  exact hstored

/-- With the file in its place the last transaction decides. -/
theorem stored_of_file (h : Prepares job) (hfile : fileFault job = none) :
    (Finishes job → (serveSnapshot job ⟨Session.opened db, tmpFile, targetFile⟩).db.stored =
      exported job db ∧ (serveSnapshot job ⟨Session.opened db, tmpFile, targetFile⟩).targetFile =
      true) ∧
    (¬ Finishes job → (serveSnapshot job ⟨Session.opened db, tmpFile, targetFile⟩).db.stored =
      db) := by
  obtain ⟨target, hwrite, htarget⟩ := writeFile_eq job ⟨Session.opened db, tmpFile, targetFile⟩
  obtain rfl := htarget hfile
  rw [hfile] at hwrite
  set s₁ : GenerationState := ⟨Session.opened db, tmpLeft job tmpFile, true⟩
  have hcatch : (writeFile job).catching (fun _ => true)
      (compensate job) ⟨Session.opened db, tmpFile, targetFile⟩ = (.ok job.fileSize, s₁) := by
    unfold Transaction.catching
    rw [hwrite]
    rfl
  have hrest : finishSnapshot job ⟨Session.opened db, tmpFile, targetFile⟩ =
      (markExported job job.fileSize >>= fun _ => raiseAt job .refresh) s₁ := by
    rw [finishSnapshot_of_prepares h, Transaction.bind_of_ok hcatch]
  refine ⟨fun hfinish => ?_, fun hfinish => ?_⟩
  · rw [Transaction.bind_of_ok (markExported_of_finishes hfinish s₁)] at hrest
    unfold serveSnapshot
    rw [hrest]
    -- what is raised behind the commit changes nothing that is stored
    cases hrefresh : job.fault .refresh with
    | some message =>
      rw [raiseAt_some hrefresh]
      exact ⟨rfl, rfl⟩
    | none =>
      rw [raiseAt_none hrefresh]
      exact ⟨rfl, rfl⟩
  · obtain ⟨⟨e, he⟩, hstored⟩ := markExported_of_not_finishes hfinish s₁
    have hmark : markExported job job.fileSize s₁ =
      (.error e, (markExported job job.fileSize s₁).2) := Prod.ext he rfl
    rw [Transaction.bind_of_error hmark] at hrest
    rw [stored_serveSnapshot_of_error ⟨e, by rw [hrest]⟩, hrest]
    exact hstored

end Whole

/-! ### When the request settles the snapshot -/

/-- The snapshot is marked ready and its file is there. -/
def ReadyWithFile (s : GenerationState) :
    Prop := s.db.stored.generationStatus = .ready ∧ s.targetFile = true

/-- No snapshot is left generating, and the items changed only with one that is ready. -/
structure Settled (db : GenerationDb) (s : GenerationState) : Prop where
  status : s.db.stored.generationStatus = .failed ∨ ReadyWithFile s
  items : ¬ ReadyWithFile s → s.db.stored.items = db.items

/-- The directory is there, and what is raised is raised in the guarded part, in front of a
clean-up that succeeds. -/
def CoversFaults (job : GenerationJob) (tmpFile : Bool) : Prop :=
  Prepares job ∧ if fileFault job = none then Finishes job else CleansUp job (tmpLeft job tmpFile)

instance (job : GenerationJob) (tmpFile : Bool) : Decidable (CoversFaults job tmpFile) :=
  inferInstanceAs (Decidable (_ ∧ ite _ _ _))

section Settle

variable {job : GenerationJob} (db : GenerationDb) (tmpFile targetFile : Bool)

/-- What a request can leave behind: the row as it was, or marked as failed, or the export as
a whole with its file. -/
theorem serveSnapshot_cases (hupdate : job.fault .failureUpdate = none)
    (hcommit : job.fault .failureCommit = none) :
    (¬ CoversFaults job tmpFile ∧
      (serveSnapshot job ⟨Session.opened db, tmpFile, targetFile⟩).db.stored = db) ∨
      (CoversFaults job tmpFile ∧
      ∃ message, (serveSnapshot job ⟨Session.opened db, tmpFile, targetFile⟩).db.stored =
      { db with generationStatus := .failed, generationError := some message }) ∨
    (CoversFaults job tmpFile ∧
      (serveSnapshot job ⟨Session.opened db, tmpFile, targetFile⟩).db.stored = exported job db ∧
      (serveSnapshot job ⟨Session.opened db, tmpFile, targetFile⟩).targetFile = true) := by
  by_cases hprepare : Prepares job
  swap
  · exact .inl ⟨fun h => hprepare h.1, stored_of_not_prepares hprepare _⟩
  cases hfile : fileFault job with
  | none =>
    have hcovered : CoversFaults job tmpFile ↔ Finishes job := by
      unfold CoversFaults
      rw [if_pos hfile]
      exact and_iff_right hprepare
    obtain ⟨hfinished, hlost⟩ := stored_of_file db tmpFile targetFile hprepare hfile
    by_cases hfinish : Finishes job
    · exact .inr (.inr ⟨hcovered.mpr hfinish, hfinished hfinish⟩)
    · exact .inl ⟨fun h => hfinish (hcovered.mp h), hlost hfinish⟩
  | some message =>
    have hraised : fileFault job ≠ none := by simp [hfile]
    have hcovered : CoversFaults job tmpFile ↔ CleansUp job (tmpLeft job tmpFile) := by
      unfold CoversFaults
      rw [if_neg hraised]
      exact and_iff_right hprepare
    have hstored := stored_of_fileFault db tmpFile targetFile hprepare hupdate hcommit hfile
    by_cases hclean : CleansUp job (tmpLeft job tmpFile)
    · rw [if_pos hclean] at hstored
      exact .inr (.inl ⟨hcovered.mpr hclean, message, hstored⟩)
    · rw [if_neg hclean] at hstored
      exact .inl ⟨fun h => hclean (hcovered.mp h), hstored⟩

/-- Whatever is raised, the items change only with a snapshot that is ready. -/
theorem items_serveSnapshot (hupdate : job.fault .failureUpdate = none)
    (hcommit : job.fault .failureCommit = none)
    (hready : ¬ ReadyWithFile (serveSnapshot job ⟨Session.opened db, tmpFile, targetFile⟩)) :
    (serveSnapshot job ⟨Session.opened db, tmpFile, targetFile⟩).db.stored.items = db.items := by
  obtain ⟨_, h⟩ | ⟨_, _, h⟩ | ⟨_, h, htarget⟩ :=
    serveSnapshot_cases db tmpFile targetFile hupdate hcommit
  · rw [h]
  · rw [h]
  · have hstatus : (serveSnapshot job
      ⟨Session.opened db, tmpFile, targetFile⟩).db.stored.generationStatus = .ready := by
      rw [h]
      rfl
    exact absurd ⟨hstatus, htarget⟩ hready

/-- **The request settles a snapshot exactly when what is raised is covered**, as long as the
failure update itself succeeds. -/
theorem settled_iff (job : GenerationJob) (hgenerating : db.generationStatus = .generating)
    (hupdate : job.fault .failureUpdate = none) (hcommit : job.fault .failureCommit = none) :
    Settled db (serveSnapshot job ⟨Session.opened db, tmpFile, targetFile⟩) ↔
    CoversFaults job tmpFile := by
  have hitems := items_serveSnapshot db tmpFile targetFile hupdate hcommit
  obtain ⟨hcovered, h⟩ | ⟨hcovered, message, h⟩ | ⟨hcovered, h, htarget⟩ :=
    serveSnapshot_cases db tmpFile targetFile hupdate hcommit
  · refine iff_of_false (fun hsettled => ?_) hcovered
    have hstatus := hsettled.status
    rw [ReadyWithFile, h, hgenerating] at hstatus
    simp at hstatus
  · exact iff_of_true ⟨.inl (by rw [h]), hitems⟩ hcovered
  · have hready : ReadyWithFile (serveSnapshot job ⟨Session.opened db, tmpFile, targetFile⟩) :=
      ⟨by rw [h]; rfl, htarget⟩
    exact iff_of_true ⟨.inr hready, hitems⟩ hcovered

end Settle

/-- A procurement export of the items 4 and 7, at which the given points raise. -/
def augustExport (fault : GenerationPoint → Option String) : GenerationJob :=
  ⟨3, .procurement, [4, 7], "2026/08/suggestion-1-v1.xlsx", 8192, true, fault⟩

/-- Behind the first commit of the export. -/
def augustDb : GenerationDb where
  generationStatus := .generating
  generationError := none
  exportedAt := 0
  filePath := none
  fileSizeBytes := none
  items := ⟨[(4, .new 1), (7, .new 1)], by decide⟩
  generated := []

/-- A save that stops half way is covered. -/
theorem settled_iff_save : Settled augustDb (serveSnapshot
    (augustExport fun point => if point = .save then some "No space left on device" else none)
    ⟨Session.opened augustDb, false, false⟩) :=
  (settled_iff augustDb false false _ rfl rfl rfl).mpr (by decide)

/-- A directory that cannot be made leaves the snapshot generating. -/
theorem mkdir_leaves_generating : ¬ Settled augustDb (serveSnapshot
    (augustExport fun point => if point = .mkdir then some "Permission denied" else none)
    ⟨Session.opened augustDb, false, false⟩) := by
  intro h
  have hstatus : (serveSnapshot
      (augustExport fun point => if point = .mkdir then some "Permission denied" else none)
      ⟨Session.opened augustDb, false, false⟩).db.stored.generationStatus = .generating := rfl
  have hfailed := h.status
  rw [ReadyWithFile, hstatus] at hfailed
  simp at hfailed

/-! ### The retention job -/

/-- `purge_stuck_generating` on the row, and how many rows it counts. -/
def purgeStuckGenerating (now hours : ℤ) (db : GenerationDb) : GenerationDb × ℕ :=
  if hours ≤ 0 then (db, 0)
  else if db.generationStatus = .generating ∧ db.exportedAt < now - hours * 3600 then
    ({ db with generationStatus := .failed
               generationError := some s!"stuck in generating > {hours}h, cleaned by retention" },
                 1)
  else (db, 0)

/-- What a request has settled is left alone. -/
theorem purgeStuckGenerating_of_ne {db : GenerationDb} (h : db.generationStatus ≠ .generating)
    (now hours : ℤ) : purgeStuckGenerating now hours db = (db, 0) := by
  have hstuck : ¬ (db.generationStatus = .generating ∧ db.exportedAt < now - hours * 3600) :=
    fun hs => h hs.1
  rw [purgeStuckGenerating, if_neg hstuck, ite_self]

/-- **Hours later no snapshot is left generating**, whatever was raised. -/
theorem purgeStuckGenerating_clears {now hours : ℤ} {db : GenerationDb} (hours_pos : 0 < hours)
    (hlate : db.exportedAt < now - hours * 3600) :
    (purgeStuckGenerating now hours db).1.generationStatus ≠ .generating := by
  by_cases h : db.generationStatus = .generating
  · rw [purgeStuckGenerating, if_neg (by omega), if_pos ⟨h, hlate⟩]
    simp
  · rwa [purgeStuckGenerating_of_ne h]

end Restock
