/-
# The files of the exports (`api/snapshot.py`, `tasks/jobs/retention.py`)

An export commits the row of its snapshot, writes the workbook and then, in one
transaction, marks the snapshot `ready` and logs the generation. A download reads the row,
looks for the file, and counts itself in the row and in the log. The retention job deletes
the files whose generation is older than the retention and marks their log rows; a file
that it cannot delete, or a run that dies, is left for the next run.

All of these interleave, and a suggestion may be deleted with all its rows at any time. In
every state that they reach (`retained_of_reach`) the count of a snapshot is the number of
its downloads in the log, a file marked as purged is gone, and no file of a ready snapshot
is gone before its retention has passed; so a download is answered with 410 only for a
snapshot whose retention has passed (`download_refused_only_expired`). Both rest on the
names: no two snapshots share one (`relativePath_inj`).
-/
import Restock.Lib.Processes
import Restock.Lib.PyParse
import Restock.SuggestionStore
import Restock.Workbooks

namespace Restock

open PyText

/-! ### The names of the files (`services/excel_export.py`) -/

/-- What the name of a file says of its snapshot. -/
structure SnapshotKey where
  suggestionId : ℕ
  snapshotType : SnapshotType
  version : ℕ
deriving DecidableEq, Repr

/-- `strftime("%Y/%m")` and `strftime("%Y%m%d%H%M%S")` of an instant. -/
structure Stamps where
  month : ℤ → String
  second : ℤ → String
  month_plain : ∀ t, '_' ∉ (month t).toList

section Names

variable (stamps : Stamps)

/-- `build_filename`. -/
def buildFilename (key : SnapshotKey) (exportedAt : ℤ) : String :=
  snapshotTypeText key.snapshotType ++ "_" ++ key.suggestionId.repr ++ "_v" ++
    key.version.repr ++ "_" ++ stamps.second exportedAt ++ ".xlsx"

/-- The path of a file under the storage root. -/
def relativePath (key : SnapshotKey) (exportedAt : ℤ) : String :=
  stamps.month exportedAt ++ "/" ++ buildFilename stamps key exportedAt

variable {stamps}

theorem underscore_not_mem_repr (n : ℕ) : '_' ∉ n.repr.toList := by
  intro h
  exact absurd (isDigit_of_mem_repr h) (by decide)

theorem toList_relativePath (key : SnapshotKey) (exportedAt : ℤ) :
    (relativePath stamps key exportedAt).toList =
      ((stamps.month exportedAt).toList ++ '/' :: (snapshotTypeText key.snapshotType).toList) ++
        '_' :: (key.suggestionId.repr.toList ++ '_' :: ('v' :: key.version.repr.toList ++
          '_' :: ((stamps.second exportedAt).toList ++ ".xlsx".toList))) := by
  simp [relativePath, buildFilename, String.toList_append]

theorem getLast?_snapshotTypeText (snapshotType : SnapshotType) (l : List Char) :
    (l ++ '/' :: (snapshotTypeText snapshotType).toList).getLast? =
      some (if snapshotType = .procurement then 't' else 'k') := by
  cases snapshotType <;> simp [snapshotTypeText]

/-- What stands before the first separator, and what behind it. -/
theorem append_separator_inj {a : Char} :
    ∀ {x x' z z' : List Char}, a ∉ x → a ∉ x' → x ++ a :: z = x' ++ a :: z' → x = x' ∧ z = z'
  | [], [], _, _, _, _, h => ⟨rfl, (List.cons.inj h).2⟩
  | [], c :: x', _, _, _, hx', h => absurd ((List.cons.inj h).1 ▸ List.mem_cons_self) hx'
  | c :: x, [], _, _, hx, _, h => absurd ((List.cons.inj h).1 ▸ List.mem_cons_self) hx
  | c :: x, c' :: x', _, _, hx, hx', h => by
    obtain ⟨hc, hrest⟩ := List.cons.inj h
    obtain ⟨hxx, hz⟩ := append_separator_inj (fun hm => hx (List.mem_cons_of_mem _ hm))
      (fun hm => hx' (List.mem_cons_of_mem _ hm)) hrest
    exact ⟨by rw [hc, hxx], hz⟩

/-- **The name says which snapshot it is of.** -/
theorem relativePath_inj {key key' : SnapshotKey} {t t' : ℤ}
    (h : relativePath stamps key t = relativePath stamps key' t') : key = key' := by
  have hchars := congrArg String.toList h
  rw [toList_relativePath, toList_relativePath] at hchars
  have hplain : ∀ (key : SnapshotKey) (t : ℤ),
      '_' ∉ (stamps.month t).toList ++ '/' :: (snapshotTypeText key.snapshotType).toList := by
    intro key t hm
    rcases List.mem_append.mp hm with hm | hm
    · exact stamps.month_plain t hm
    · cases htype : key.snapshotType <;> simp [htype, snapshotTypeText] at hm
  obtain ⟨htype, hrest⟩ := append_separator_inj (hplain key t) (hplain key' t') hchars
  obtain ⟨hid, hrest⟩ :=
    append_separator_inj (underscore_not_mem_repr _) (underscore_not_mem_repr _) hrest
  have hv : ∀ n : ℕ, '_' ∉ 'v' :: n.repr.toList := by
    intro n hm
    rcases List.mem_cons.mp hm with hm | hm
    · exact absurd hm (by decide)
    · exact underscore_not_mem_repr n hm
  obtain ⟨hversion, -⟩ := append_separator_inj (hv _) (hv _) hrest
  have hlast := congrArg List.getLast? htype
  rw [getLast?_snapshotTypeText, getLast?_snapshotTypeText] at hlast
  obtain ⟨suggestionId, snapshotType, version⟩ := key
  obtain ⟨suggestionId', snapshotType', version'⟩ := key'
  obtain rfl : suggestionId = suggestionId' := Nat.repr_injective (String.toList_injective hid)
  obtain rfl : version = version' :=
    Nat.repr_injective (String.toList_injective (List.cons.inj hversion).2)
  cases snapshotType <;> cases snapshotType' <;> simp at hlast ⊢

end Names

/-! ### The tables and the disk -/

/-- What a row of the log is about. -/
inductive LogAction
  | generate | download
deriving DecidableEq, Repr

/-- A row of `excel_export_log`; times are seconds. -/
structure ExportLog where
  snapshotId : ℕ
  action : LogAction
  performedAt : ℤ
  filePurgedAt : Option ℤ
deriving DecidableEq, Repr

/-- The columns of `suggestion_snapshot` about the file. -/
structure FileRow where
  key : SnapshotKey
  exportedAt : ℤ
  generationStatus : GenerationStatus
  generationError : Option String
  filePath : Option String
  downloadCount : ℕ
  lastDownloadedAt : Option ℤ
deriving DecidableEq, Repr

/-- The clock, the suggestions, the two tables with their sequences, and the files under
the storage directory and elsewhere. -/
structure FileDb where
  now : ℤ
  suggestions : List ℕ
  nextSuggestion : ℕ
  snapshots : Dict ℕ FileRow
  nextSnapshot : ℕ
  logs : List ExportLog
  disk : List (List String)

/-- The settings and the storage directory: `resolve` is `(storage_root / file_path).resolve()`,
which takes the path of an export under the root as it is written. -/
structure ExportStorage where
  retentionExportsDays : ℤ
  retentionStuckGeneratingHours : ℤ
  stamps : Stamps
  root : List String
  resolve : String → List String
  resolve_export : ∀ key t, resolve (relativePath stamps key t) =
    root ++ ((relativePath stamps key t).toList.splitOn '/').map String.ofList

section Model

variable (storage : ExportStorage)

/-- `_resolve_snapshot_file_path`, which the retention job repeats. -/
def resolveSnapshotFilePath (filePath : Option String) : Option (List String) :=
  match filePath with
  | none => none
  | some path =>
    if path = "" then none
    else if storage.root <+: storage.resolve path then some (storage.resolve path) else none

/-- `target_path`. -/
def targetPath (key : SnapshotKey) (exportedAt : ℤ) : List String :=
  storage.root ++ ((relativePath storage.stamps key exportedAt).toList.splitOn '/').map
    String.ofList

def secondsPerDay : ℤ := 24 * 60 * 60

/-- The generation is older than the retention. -/
def ExportLog.expired (log : ExportLog) (now : ℤ) : Bool :=
  decide (0 < storage.retentionExportsDays) &&
    decide (log.performedAt < now - storage.retentionExportsDays * secondsPerDay)

/-- The row is about the generation of the snapshot. -/
def ExportLog.isGeneration (log : ExportLog) (snapshotId : ℕ) : Bool :=
  decide (log.action = .generate) && decide (log.snapshotId = snapshotId)

/-- The row is about a download of the snapshot. -/
def ExportLog.isDownload (log : ExportLog) (snapshotId : ℕ) : Bool :=
  decide (log.action = .download) && decide (log.snapshotId = snapshotId)

/-- `func.coalesce(func.max(SuggestionSnapshot.version), 0) + 1`. -/
def nextVersion (db : FileDb) (suggestionId : ℕ) (snapshotType : SnapshotType) : ℕ :=
  ((db.snapshots.values.filter fun row =>
    row.key.suggestionId = suggestionId ∧ row.key.snapshotType = snapshotType).map fun row =>
      row.key.version).foldr max 0 + 1

/-- What an export works with behind its first commit. -/
structure ExportJob where
  snapshotId : ℕ
  key : SnapshotKey
  now : ℤ
deriving DecidableEq, Repr

/-- The answer to a download. -/
inductive DownloadAnswer
  | file (path : List String)
  | http (statusCode : ℕ) (detail : String)
  | raised
deriving DecidableEq, Repr

/-- Where a process is. Behind `idle`: an export, a download, the two steps of the purge of
the exports. -/
inductive FilePoint
  | idle
  | rowCommitted (job : ExportJob)
  | fileWritten (job : ExportJob)
  | marking (job : ExportJob) (performedAt : ℤ)
  | snapshotRead (snapshotId : ℕ) (filePath : Option String)
  | fileMissing (snapshotId : ℕ)
  | fileFound (snapshotId : ℕ) (path : List String)
  | counted (snapshotId : ℕ) (path : List String)
  | answered (snapshotId : ℕ) (answer : DownloadAnswer)
  | logsSelected (snapshotIds : List ℕ)
  | purging (todo : List (ℕ × Option String)) (purged : List ℕ) (now : ℤ)
deriving DecidableEq, Repr

/-- What happens next: a request or a job begins, a statement of the process runs or raises,
or the process dies, which rolls its transaction back. -/
inductive FileAction
  | tick (seconds : ℕ)
  | createSuggestion
  | deleteSuggestion (suggestionId : ℕ)
  | createSnapshot (suggestionId : ℕ) (snapshotType : SnapshotType)
  | download (snapshotId : ℕ)
  | purgeExports
  | purgeStuckGenerating
  | run
  | raise (message : String)
  | die
deriving DecidableEq, Repr

/-- The first transaction of an export, under the lock on the suggestion. -/
def insertSnapshot (db : FileDb) (suggestionId : ℕ) (snapshotType : SnapshotType) :
    FileDb × FilePoint :=
  let key := ⟨suggestionId, snapshotType, nextVersion db suggestionId snapshotType⟩
  ({ db with
    snapshots := db.snapshots.set db.nextSnapshot ⟨key, db.now, .generating, none, none, 0, none⟩
    nextSnapshot := db.nextSnapshot + 1 }, .rowCommitted ⟨db.nextSnapshot, key, db.now⟩)

/-- An update of the row of a snapshot; a row that is gone is not updated. -/
def updateSnapshot (db : FileDb) (snapshotId : ℕ) (f : FileRow → FileRow) : FileDb :=
  match db.snapshots.get? snapshotId with
  | none => db
  | some row => { db with snapshots := db.snapshots.set snapshotId (f row) }

/-- The compensation of an export. -/
def markFailed (db : FileDb) (job : ExportJob) (message : String) : FileDb :=
  updateSnapshot db job.snapshotId fun row =>
    { row with generationStatus := .failed, generationError := some message }

/-- The last transaction of an export; the log row of a snapshot that is gone is refused. -/
def markReady (db : FileDb) (job : ExportJob) (performedAt : ℤ) : FileDb :=
  match db.snapshots.get? job.snapshotId with
  | none => db
  | some row =>
    { db with
      snapshots := db.snapshots.set job.snapshotId { row with
        generationStatus := .ready
        generationError := none
        filePath := some (relativePath storage.stamps job.key job.now) }
      logs := db.logs ++ [⟨job.snapshotId, .generate, performedAt, none⟩] }

/-- A suggestion is deleted with its snapshots and their log. -/
def deleteSuggestion (db : FileDb) (suggestionId : ℕ) : FileDb :=
  { db with
    suggestions := db.suggestions.filter (· ≠ suggestionId)
    snapshots := db.snapshots.filter fun _ row => row.key.suggestionId ≠ suggestionId
    logs := db.logs.filter fun log => (db.snapshots.get? log.snapshotId).all fun row =>
      row.key.suggestionId ≠ suggestionId }

/-- The first read of a download. -/
def readSnapshot (db : FileDb) (snapshotId : ℕ) : FilePoint :=
  match db.snapshots.get? snapshotId with
  | none => .answered snapshotId (.http 404 "快照不存在")
  | some row =>
    if row.generationStatus ≠ .ready then .answered snapshotId (.http 409 "文件尚未就绪或生成失败")
    else .snapshotRead snapshotId row.filePath

/-- The download looks for the file of the row it has read. -/
def lookForFile (db : FileDb) (snapshotId : ℕ) (filePath : Option String) : FilePoint :=
  match resolveSnapshotFilePath storage filePath with
  | none => .fileMissing snapshotId
  | some path => if path ∈ db.disk then .fileFound snapshotId path else .fileMissing snapshotId

/-- The two refusals of a download without a file. -/
def refuseDownload (db : FileDb) (snapshotId : ℕ) : DownloadAnswer :=
  if db.logs.any fun log => log.isGeneration snapshotId && log.filePurgedAt.isSome then
    .http 410 s!"该版本已过期清理（保留期 {storage.retentionExportsDays} 天）"
  else .http 410 "文件已丢失"

/-- A download counts itself; the log row of a snapshot that is gone is refused. -/
def countDownload (db : FileDb) (snapshotId : ℕ) (path : List String) : FileDb × FilePoint :=
  match db.snapshots.get? snapshotId with
  | none => (db, .answered snapshotId .raised)
  | some row =>
    ({ db with
      snapshots := db.snapshots.set snapshotId { row with
        downloadCount := row.downloadCount + 1
        lastDownloadedAt := some db.now }
      logs := db.logs ++ [⟨snapshotId, .download, db.now, none⟩] }, .counted snapshotId path)

/-- The snapshots with a generation that is to be purged. -/
def selectLogs (db : FileDb) : List ℕ :=
  ((db.logs.filter fun log =>
    decide (log.action = .generate) && log.expired storage db.now && log.filePurgedAt.isNone).map
      (·.snapshotId)).dedup

/-- The files of some snapshots. -/
def selectFiles (db : FileDb) (snapshotIds : List ℕ) : List (ℕ × Option String) :=
  (db.snapshots.filter fun snapshotId _ => snapshotId ∈ snapshotIds).items.map fun entry =>
    (entry.1, entry.2.filePath)

/-- One round of the loop of `purge_exports`: the disk, and whether the log is marked. -/
def purgeFile (db : FileDb) (filePath : Option String) : FileDb × Bool :=
  if filePath.getD "" = "" then (db, true)
  else match resolveSnapshotFilePath storage filePath with
    | none => (db, false)
    | some path => ({ db with disk := db.disk.filter (· ≠ path) }, true)

/-- The rows of the purged snapshots get the time of the purge. -/
def markPurged (db : FileDb) (purged : List ℕ) (now : ℤ) : FileDb :=
  { db with logs := db.logs.map fun log =>
      if log.action = .generate ∧ log.snapshotId ∈ purged ∧ log.filePurgedAt = none then
        { log with filePurgedAt := some now }
      else log }

/-- The snapshots that have been generating for too long are marked as failed. -/
def purgeStuck (db : FileDb) : FileDb :=
  if storage.retentionStuckGeneratingHours ≤ 0 then db
  else { db with snapshots := db.snapshots.mapVal fun _ row =>
      if row.generationStatus = .generating ∧
          row.exportedAt < db.now - storage.retentionStuckGeneratingHours * 3600 then
        { row with
          generationStatus := .failed
          generationError := some s!"stuck in generating > {storage.retentionStuckGeneratingHours}h, cleaned by retention" }
      else row }

/-- One statement of one process. -/
def fileNext {P : Type} (db : FileDb) (_ : P) : FilePoint → FileAction → Option (FileDb × FilePoint)
  | _, .die => some (db, .idle)
  | .idle, .tick seconds => some ({ db with now := db.now + seconds }, .idle)
  | .idle, .createSuggestion =>
    some ({ db with suggestions := db.suggestions ++ [db.nextSuggestion], nextSuggestion := db.nextSuggestion + 1 }, .idle)
  | .idle, .deleteSuggestion suggestionId => some (deleteSuggestion db suggestionId, .idle)
  | .idle, .createSnapshot suggestionId snapshotType =>
    if suggestionId ∈ db.suggestions then some (insertSnapshot db suggestionId snapshotType)
    else some (db, .idle)
  | .idle, .download snapshotId => some (db, readSnapshot db snapshotId)
  | .idle, .purgeExports => some (db, .logsSelected (selectLogs storage db))
  | .idle, .purgeStuckGenerating => some (purgeStuck storage db, .idle)
  | .rowCommitted job, .run =>
    some ({ db with disk := targetPath storage job.key job.now :: db.disk }, .fileWritten job)
  | .rowCommitted job, .raise message => some (markFailed db job message, .idle)
  | .fileWritten job, .run => some (db, .marking job db.now)
  | .fileWritten job, .raise message => some (markFailed db job message, .idle)
  | .marking job performedAt, .run => some (markReady storage db job performedAt, .idle)
  | .snapshotRead snapshotId filePath, .run => some (db, lookForFile storage db snapshotId filePath)
  | .fileMissing snapshotId, .run =>
    some (db, .answered snapshotId (refuseDownload storage db snapshotId))
  | .fileFound snapshotId path, .run => some (countDownload db snapshotId path)
  | .counted snapshotId path, .run =>
    some (db, .answered snapshotId (if path ∈ db.disk then .file path else .raised))
  | .answered _ _, .run => some (db, .idle)
  | .logsSelected snapshotIds, .run => some (db, .purging (selectFiles db snapshotIds) [] db.now)
  | .purging ((snapshotId, filePath) :: todo) purged now, .run =>
    let r := purgeFile storage db filePath
    some (r.1, .purging todo (if r.2 then snapshotId :: purged else purged) now)
  -- `unlink` raises: the file and its log row stay for the next run
  | .purging (_ :: todo) purged now, .raise _ => some (db, .purging todo purged now)
  | .purging [] purged now, .run => some (markPurged db purged now, .idle)
  | _, _ => none

end Model

/-! ### What every step leaves to the others -/

section Files

variable {storage : ExportStorage} {db db' : FileDb} {sid : ℕ} {key : SnapshotKey}

/-- A later state, as another process sees it: rows keep their names, and what is ready
stays as it is. -/
structure Later (db db' : FileDb) : Prop where
  now : db.now ≤ db'.now
  nextSnapshot : db.nextSnapshot ≤ db'.nextSnapshot
  nextSuggestion : db.nextSuggestion ≤ db'.nextSuggestion
  suggestions : ∀ s ∈ db'.suggestions, s < db.nextSuggestion → s ∈ db.suggestions
  rows : ∀ sid row', db'.snapshots.get? sid = some row' → sid < db.nextSnapshot →
    ∃ row, db.snapshots.get? sid = some row ∧ row'.key = row.key ∧
    (row.generationStatus = .ready → row'.generationStatus = .ready ∧ row'.filePath = row.filePath)
  keeps : ∀ sid row, db.snapshots.get? sid = some row → row.key.suggestionId ∈ db'.suggestions →
    (db'.snapshots.get? sid).isSome
  logs : ∀ log' ∈ db'.logs, log'.action = .generate → log'.snapshotId < db.nextSnapshot →
    (∀ row, db.snapshots.get? log'.snapshotId = some row → row.generationStatus = .ready) →
    ∃ log ∈ db.logs, log.action = .generate ∧ log.snapshotId = log'.snapshotId ∧
      log.performedAt = log'.performedAt

/-- The number is that of the key, for as long as the suggestion is there. -/
structure Belongs (db : FileDb) (sid : ℕ) (key : SnapshotKey) : Prop where
  below : sid < db.nextSnapshot
  suggestion_below : key.suggestionId < db.nextSuggestion
  key_eq : ∀ row, db.snapshots.get? sid = some row → row.key = key
  alive : key.suggestionId ∈ db.suggestions → (db.snapshots.get? sid).isSome

/-- The snapshot is ready, or gone. -/
structure SnapshotSettled (db : FileDb) (sid : ℕ) : Prop where
  below : sid < db.nextSnapshot
  ready : ∀ row, db.snapshots.get? sid = some row → row.generationStatus = .ready

/-- Nothing that was generated for the snapshot is within the retention. -/
structure PastRetention (storage : ExportStorage) (db : FileDb) (sid : ℕ) : Prop where
  settled : SnapshotSettled db sid
  expired : ∀ log ∈ db.logs, log.action = .generate → log.snapshotId = sid →
    log.expired storage db.now = true

theorem expired_iff {log : ExportLog} {now : ℤ} : log.expired storage now = true ↔
    0 < storage.retentionExportsDays ∧
    log.performedAt < now - storage.retentionExportsDays * secondsPerDay := by
  rw [ExportLog.expired, Bool.and_eq_true, decide_eq_true_eq, decide_eq_true_eq]

theorem Later.refl (db : FileDb) : Later db db :=
  ⟨le_rfl, le_rfl, le_rfl, fun _ hs _ => hs, fun _ row' h _ => ⟨row', h, rfl, fun hr => ⟨hr, rfl⟩⟩,
    fun _ _ h _ => by rw [h]; rfl, fun log' hl ha _ _ => ⟨log', hl, ha, rfl, rfl⟩⟩

theorem Belongs.later (h : Belongs db sid key) (hl : Later db db') : Belongs db' sid key := by
  refine ⟨h.below.trans_le hl.nextSnapshot, h.suggestion_below.trans_le hl.nextSuggestion,
    fun row' hrow' => ?_, fun hs => ?_⟩
  · obtain ⟨row, hrow, hkey, -⟩ := hl.rows sid row' hrow' h.below
    rw [hkey]
    exact h.key_eq row hrow
  · obtain ⟨row, hrow⟩ :=
      Option.isSome_iff_exists.mp (h.alive (hl.suggestions _ hs h.suggestion_below))
    refine hl.keeps sid row hrow ?_
    rw [h.key_eq row hrow]
    exact hs

theorem SnapshotSettled.later (h : SnapshotSettled db sid) (hl : Later db db') :
    SnapshotSettled db' sid := by
  refine ⟨h.below.trans_le hl.nextSnapshot, fun row' hrow' => ?_⟩
  obtain ⟨row, hrow, -, hready⟩ := hl.rows sid row' hrow' h.below
  exact (hready (h.ready row hrow)).1

theorem PastRetention.later (h : PastRetention storage db sid) (hl : Later db db') :
    PastRetention storage db' sid := by
  refine ⟨h.settled.later hl, fun log' hlog' ha hs => ?_⟩
  obtain ⟨log, hlog, hact, hsid, htime⟩ := hl.logs log' hlog' ha (hs ▸ h.settled.below)
    fun row hrow => h.settled.ready row (hs ▸ hrow)
  have hexpired := expired_iff.mp (h.expired log hlog hact (hsid.trans hs))
  have hnow := hl.now
  rw [expired_iff, ← htime]
  exact ⟨hexpired.1, by omega⟩

/-! ### The invariant -/

/-- What every reachable state keeps. -/
structure Retained (storage : ExportStorage) (db : FileDb) : Prop where
  below : ∀ sid row, db.snapshots.get? sid = some row → sid < db.nextSnapshot ∧
    row.key.suggestionId ∈ db.suggestions
  suggestions_below : ∀ s ∈ db.suggestions, s < db.nextSuggestion
  keys : ∀ sid sid' row row', db.snapshots.get? sid = some row →
    db.snapshots.get? sid' = some row' → row.key = row'.key → sid = sid'
  logged : ∀ log ∈ db.logs, ∃ row, db.snapshots.get? log.snapshotId = some row ∧
    (log.action = .generate → row.generationStatus = .ready)
  generated : ∀ sid row, db.snapshots.get? sid = some row → row.generationStatus = .ready →
    db.logs.countP (·.isGeneration sid) = 1
  counted : ∀ sid row, db.snapshots.get? sid = some row →
    row.downloadCount = db.logs.countP (·.isDownload sid)
  path : ∀ sid row, db.snapshots.get? sid = some row → row.generationStatus = .ready →
    ∃ t, row.filePath = some (relativePath storage.stamps row.key t)
  past : ∀ log ∈ db.logs, log.performedAt ≤ db.now
  purged : ∀ log ∈ db.logs, log.filePurgedAt.isSome → log.action = .generate ∧
    log.expired storage db.now = true
  gone : ∀ log ∈ db.logs, log.filePurgedAt.isSome →
    ∀ row path, db.snapshots.get? log.snapshotId = some row → row.filePath = some path →
    storage.resolve path ∉ db.disk
  there : ∀ log ∈ db.logs, log.action = .generate → log.expired storage db.now = false → ∀ row path,
    db.snapshots.get? log.snapshotId = some row → row.filePath = some path →
      storage.resolve path ∈ db.disk

/-- An export that is not done. -/
structure JobAt (db : FileDb) (job : ExportJob) : Prop where
  belongs : Belongs db job.snapshotId job.key
  unready : ∀ row, db.snapshots.get? job.snapshotId = some row → row.generationStatus ≠ .ready

/-- The file is there for as long as the suggestion is. -/
def OnDisk (storage : ExportStorage) (db : FileDb) (job : ExportJob) : Prop :=
  job.key.suggestionId ∈ db.suggestions → targetPath storage job.key job.now ∈ db.disk

/-- The file of the snapshot, under the root. -/
structure FileOf (storage : ExportStorage) (db : FileDb) (sid : ℕ) (path : List String) : Prop where
  settled : SnapshotSettled db sid
  under_root : storage.root <+: path
  resolved : ∀ row, db.snapshots.get? sid = some row → ∃ filePath, row.filePath = some filePath ∧
    storage.resolve filePath = path

/-- The snapshot was ready, and there is no file. -/
def DownloadAnswer.isLost : DownloadAnswer → Prop
  | .file _ => False
  | .http statusCode _ => statusCode = 410
  | .raised => True

/-- What holds for a process at a point. -/
def FileAt (storage : ExportStorage) (db : FileDb) : FilePoint → Prop
  | .idle => True
  | .rowCommitted job => JobAt db job
  | .fileWritten job => JobAt db job ∧ OnDisk storage db job
  | .marking job performedAt => JobAt db job ∧ OnDisk storage db job ∧ performedAt ≤ db.now
  | .snapshotRead sid filePath =>
    SnapshotSettled db sid ∧ ∀ row, db.snapshots.get? sid = some row → row.filePath = filePath
  | .fileMissing sid => PastRetention storage db sid
  | .fileFound sid path => FileOf storage db sid path
  | .counted sid path => FileOf storage db sid path
  | .answered sid answer => (answer.isLost → PastRetention storage db sid) ∧
    ∀ path, answer = .file path → FileOf storage db sid path
  | .logsSelected sids => ∀ sid ∈ sids, PastRetention storage db sid
  | .purging todo purged _ =>
    (∀ entry ∈ todo, PastRetention storage db entry.1 ∧
      ∃ key t, entry.2 = some (relativePath storage.stamps key t) ∧ Belongs db entry.1 key ∧
      ∀ row, db.snapshots.get? entry.1 = some row → row.filePath = entry.2) ∧
    ∀ sid ∈ purged, PastRetention storage db sid ∧ ∀ row path, db.snapshots.get? sid = some row →
      row.filePath = some path → storage.resolve path ∉ db.disk

theorem FileOf.later {path : List String} (h : FileOf storage db sid path) (hl : Later db db') :
    FileOf storage db' sid path := by
  refine ⟨h.settled.later hl, h.under_root, fun row' hrow' => ?_⟩
  obtain ⟨row, hrow, -, hready⟩ := hl.rows sid row' hrow' h.settled.below
  rw [(hready (h.settled.ready row hrow)).2]
  exact h.resolved row hrow

/-! ### No two snapshots share a file -/

theorem resolve_relativePath (key : SnapshotKey) (t : ℤ) :
    storage.resolve (relativePath storage.stamps key t) = targetPath storage key t :=
  storage.resolve_export key t

theorem targetPath_inj {key key' : SnapshotKey} {t t' : ℤ}
    (h : targetPath storage key t = targetPath storage key' t') : key = key' := by
  have hpieces := List.map_injective_iff.mpr (fun a b => String.ofList_injective)
    (List.append_cancel_left h)
  have hchars := congrArg (List.intercalate ['/']) hpieces
  rw [List.intercalate_splitOn, List.intercalate_splitOn] at hchars
  exact relativePath_inj (String.toList_injective hchars)

/-- The snapshot of a name that is still in use. -/
theorem Belongs.eq_of_key (h : Belongs db sid key) (hI : Retained storage db) {sid' : ℕ}
    {row : FileRow} (hrow : db.snapshots.get? sid' = some row) (hkey : row.key = key) :
    sid' = sid := by
  have halive : key.suggestionId ∈ db.suggestions := hkey ▸ (hI.below sid' row hrow).2
  obtain ⟨own, hown⟩ := Option.isSome_iff_exists.mp (h.alive halive)
  exact hI.keys sid' sid row own hrow hown (hkey.trans (h.key_eq own hown).symm)

/-- A file that is being written is not the file of a ready snapshot. -/
theorem JobAt.ne_resolve {job : ExportJob} (h : JobAt db job) (hI : Retained storage db)
    {row : FileRow} {path : String} (hrow : db.snapshots.get? sid = some row)
    (hready : row.generationStatus = .ready) (hpath : row.filePath = some path) :
    storage.resolve path ≠ targetPath storage job.key job.now := by
  intro heq
  obtain ⟨t, ht⟩ := hI.path sid row hrow hready
  obtain rfl : path = relativePath storage.stamps row.key t := Option.some.inj (hpath.symm.trans ht)
  rw [resolve_relativePath] at heq
  have hsid := h.belongs.eq_of_key hI hrow (targetPath_inj heq)
  exact h.unready row (hsid ▸ hrow) hready

/-! ### The effects of a step -/

/-- The export that has inserted the snapshot. -/
def FilePoint.owns : FilePoint → ℕ → Prop
  | .rowCommitted job, k => job.snapshotId = k
  | .fileWritten job, k => job.snapshotId = k
  | .marking job _, k => job.snapshotId = k
  | _, _ => False

/-- What a step does to the rows and to the disk. -/
structure FileEffect (storage : ExportStorage) (db : FileDb) (point : FilePoint) (db' : FileDb) :
    Prop where
  later : Later db db'
  ready : ∀ sid row', db'.snapshots.get? sid = some row' → row'.generationStatus = .ready →
    (∃ row, db.snapshots.get? sid = some row ∧ row.generationStatus = .ready) ∨ point.owns sid
  added : ∀ path ∈ db'.disk, path ∈ db.disk ∨ ∃ job, JobAt db job ∧
    path = targetPath storage job.key job.now
  removed : ∀ path ∈ db.disk, path ∈ db'.disk ∨ ∃ sid key t, PastRetention storage db sid ∧
    Belongs db sid key ∧ path = targetPath storage key t

variable {point : FilePoint}

/-- The disk is as it was. -/
theorem FileEffect.of_disk (hl : Later db db') (hd : db'.disk = db.disk)
    (hr : ∀ sid row', db'.snapshots.get? sid = some row' → row'.generationStatus = .ready →
      (∃ row, db.snapshots.get? sid = some row ∧ row.generationStatus = .ready) ∨ point.owns sid) :
    FileEffect storage db point db' :=
  ⟨hl, hr, fun _ hp => Or.inl (hd ▸ hp), fun _ hp => Or.inl (hd ▸ hp)⟩

theorem FileEffect.refl (db : FileDb) : FileEffect storage db point db :=
  .of_disk (Later.refl db) rfl fun _ row' h hr => Or.inl ⟨row', h, hr⟩

/-- **What a step leaves to the others.** -/
theorem FileAt.other {point' : FilePoint} (h : FileAt storage db point') (hI : Retained storage db)
    (he : FileEffect storage db point db') (hne : ∀ sid, point.owns sid → ¬ point'.owns sid) :
    FileAt storage db' point' := by
  have hl := he.later
  have hjob : ∀ job : ExportJob, point'.owns job.snapshotId → JobAt db job → JobAt db' job := by
    intro job hown hj
    refine ⟨hj.belongs.later hl, fun row' hrow' hready => ?_⟩
    rcases he.ready _ row' hrow' hready with ⟨row, hrow, hr⟩ | howner
    · exact hj.unready row hrow hr
    · exact hne _ howner hown
  have hwritten : ∀ job : ExportJob, JobAt db job → OnDisk storage db job →
      OnDisk storage db' job := by
    intro job hj hw hs
    have halive := hl.suggestions _ hs hj.belongs.suggestion_below
    rcases he.removed _ (hw halive) with hkept | ⟨sid, key, t, hpast, hbelongs, heq⟩
    · exact hkept
    · obtain rfl := targetPath_inj heq
      obtain ⟨row, hrow⟩ := Option.isSome_iff_exists.mp (hj.belongs.alive halive)
      have hsid := hbelongs.eq_of_key hI hrow (hj.belongs.key_eq row hrow)
      exact absurd (hpast.settled.ready row (hsid ▸ hrow)) (hj.unready row hrow)
  cases point' with
  | idle => trivial
  | rowCommitted job => exact hjob job rfl h
  | fileWritten job => exact ⟨hjob job rfl h.1, hwritten job h.1 h.2⟩
  | marking job performedAt => exact ⟨hjob job rfl h.1, hwritten job h.1 h.2.1, h.2.2.trans hl.now⟩
  | snapshotRead sid filePath =>
    refine ⟨h.1.later hl, fun row' hrow' => ?_⟩
    obtain ⟨row, hrow, -, hready⟩ := hl.rows sid row' hrow' h.1.below
    rw [(hready (h.1.ready row hrow)).2]
    exact h.2 row hrow
  | fileMissing sid => exact PastRetention.later h hl
  | fileFound sid path => exact FileOf.later h hl
  | counted sid path => exact FileOf.later h hl
  | answered sid answer =>
    exact ⟨fun hlost => (h.1 hlost).later hl, fun path hp => (h.2 path hp).later hl⟩
  | logsSelected sids => exact fun sid hs => (h sid hs).later hl
  | purging todo purged now =>
    refine ⟨fun entry hentry => ?_, fun sid hs => ?_⟩
    · obtain ⟨hpast, key, t, hpath, hbelongs, hfile⟩ := h.1 entry hentry
      refine ⟨hpast.later hl, key, t, hpath, hbelongs.later hl, fun row' hrow' => ?_⟩
      obtain ⟨row, hrow, -, hready⟩ := hl.rows entry.1 row' hrow' hpast.settled.below
      rw [(hready (hpast.settled.ready row hrow)).2]
      exact hfile row hrow
    · obtain ⟨hpast, hgone⟩ := h.2 sid hs
      refine ⟨hpast.later hl, fun row' path hrow' hpath hm => ?_⟩
      obtain ⟨row, hrow, -, hready⟩ := hl.rows sid row' hrow' hpast.settled.below
      have hr := hpast.settled.ready row hrow
      have hpath' : row.filePath = some path := (hready hr).2.symm.trans hpath
      rcases he.added _ hm with hold | ⟨job, hj, heq⟩
      · exact hgone row path hrow hpath' hold
      · exact hj.ne_resolve hI hrow hr hpath' heq

/-! ### The steps -/

theorem expired_mono {log : ExportLog} {now now' : ℤ} (hle : now ≤ now')
    (h : log.expired storage now = true) : log.expired storage now' = true := by
  obtain ⟨hdays, hold⟩ := expired_iff.mp h
  exact expired_iff.mpr ⟨hdays, by omega⟩

theorem later_tick (seconds : ℕ) : Later db { db with now := db.now + seconds } :=
  ⟨by simp, le_rfl, le_rfl, fun _ hs _ => hs, fun _ row' h _ => ⟨row', h, rfl, fun hr => ⟨hr, rfl⟩⟩,
    fun _ _ h _ => by rw [h]; rfl, fun log' hl ha _ _ => ⟨log', hl, ha, rfl, rfl⟩⟩

theorem retained_tick (hI : Retained storage db) (seconds : ℕ) :
    Retained storage { db with now := db.now + seconds } := by
  have hle : db.now ≤ db.now + seconds := by omega
  refine ⟨hI.below, hI.suggestions_below, hI.keys, hI.logged, hI.generated, hI.counted, hI.path, ?_,
    ?_, hI.gone, ?_⟩
  · exact fun log hlog => (hI.past log hlog).trans hle
  · exact fun log hlog hp => ⟨(hI.purged log hlog hp).1, expired_mono hle (hI.purged log hlog hp).2⟩
  · intro log hlog ha hfresh
    refine hI.there log hlog ha ?_
    cases hold : log.expired storage db.now with
    | false => rfl
    | true => exact absurd (expired_mono hle hold) (by rw [hfresh]; exact Bool.false_ne_true)

theorem later_createSuggestion : Later db { db with
    suggestions := db.suggestions ++ [db.nextSuggestion], nextSuggestion :=
      db.nextSuggestion + 1 } := by
  refine ⟨le_rfl, le_rfl, Nat.le_succ _, fun s hs hlt => ?_,
    fun _ row' h _ => ⟨row', h, rfl, fun hr => ⟨hr, rfl⟩⟩,
    fun _ _ h _ => by rw [h]; rfl, fun log' hl ha _ _ => ⟨log', hl, ha, rfl, rfl⟩⟩
  rcases List.mem_append.mp hs with hold | hnew
  · exact hold
  · exact absurd hlt (by rw [List.mem_singleton.mp hnew]; exact lt_irrefl _)

theorem retained_createSuggestion (hI : Retained storage db) : Retained storage { db with
    suggestions := db.suggestions ++ [db.nextSuggestion], nextSuggestion :=
      db.nextSuggestion + 1 } := by
  refine ⟨fun sid row h => ⟨(hI.below sid row h).1, List.mem_append_left _ (hI.below sid row h).2⟩,
    fun s hs => ?_, hI.keys, hI.logged, hI.generated, hI.counted, hI.path, hI.past, hI.purged,
    hI.gone, hI.there⟩
  rcases List.mem_append.mp hs with hold | hnew
  · exact (hI.suggestions_below s hold).trans (Nat.lt_succ_self _)
  · rw [List.mem_singleton.mp hnew]
    exact Nat.lt_succ_self _

theorem get?_deleteSuggestion {suggestionId : ℕ} {row : FileRow} :
    (deleteSuggestion db suggestionId).snapshots.get? sid = some row ↔
      db.snapshots.get? sid = some row ∧ row.key.suggestionId ≠ suggestionId := by
  show (db.snapshots.filter _).get? sid = _ ↔ _
  rw [Dict.get?_filter, Option.filter_eq_some_iff, decide_eq_true_eq]

theorem later_deleteSuggestion (suggestionId : ℕ) :
    Later db (deleteSuggestion db suggestionId) := by
  refine ⟨le_rfl, le_rfl, le_rfl, fun s hs _ => (List.mem_filter.mp hs).1, fun sid row' h _ => ?_,
    fun sid row h hs => ?_, fun log' hl ha _ _ => ⟨log', (List.mem_filter.mp hl).1, ha, rfl, rfl⟩⟩
  · exact ⟨row', (get?_deleteSuggestion.mp h).1, rfl, fun hr => ⟨hr, rfl⟩⟩
  · rw [get?_deleteSuggestion.mpr ⟨h, of_decide_eq_true (List.mem_filter.mp hs).2⟩]
    rfl

/-- The log of a snapshot goes with it. -/
theorem countP_deleteSuggestion {suggestionId : ℕ} {row : FileRow}
    (h : (deleteSuggestion db suggestionId).snapshots.get? sid = some row) {p : ExportLog → Bool}
    (hp : ∀ log, p log = true → log.snapshotId = sid) :
    (deleteSuggestion db suggestionId).logs.countP p = db.logs.countP p := by
  obtain ⟨hrow, hne⟩ := get?_deleteSuggestion.mp h
  show (db.logs.filter _).countP p = _
  rw [List.countP_filter]
  refine List.countP_congr fun log _ => ?_
  simp only [Bool.and_eq_true, and_iff_left_iff_imp]
  intro hlog
  rw [hp log hlog, hrow, Option.all_some, decide_eq_true_eq]
  exact hne

theorem isGeneration_iff {log : ExportLog} :
    log.isGeneration sid = true ↔ log.action = .generate ∧ log.snapshotId = sid := by
  rw [ExportLog.isGeneration, Bool.and_eq_true, decide_eq_true_eq, decide_eq_true_eq]

theorem isDownload_iff {log : ExportLog} :
    log.isDownload sid = true ↔ log.action = .download ∧ log.snapshotId = sid := by
  rw [ExportLog.isDownload, Bool.and_eq_true, decide_eq_true_eq, decide_eq_true_eq]

theorem retained_deleteSuggestion (hI : Retained storage db) (suggestionId : ℕ) :
    Retained storage (deleteSuggestion db suggestionId) := by
  have hlog : ∀ log ∈ (deleteSuggestion db suggestionId).logs, log ∈ db.logs :=
    fun log h => (List.mem_filter.mp h).1
  refine ⟨fun sid row h => ?_, fun s hs => hI.suggestions_below s (List.mem_filter.mp hs).1,
    fun sid sid' row row' h h' => ?_, fun log h => ?_, fun sid row h hr => ?_, fun sid row h => ?_,
    fun sid row h => ?_, fun log h => hI.past log (hlog log h),
    fun log h => hI.purged log (hlog log h), fun log h hp row path hrow => ?_,
      fun log h ha hfresh row path hrow => ?_⟩
  · obtain ⟨hrow, hne⟩ := get?_deleteSuggestion.mp h
    obtain ⟨hlt, hs⟩ := hI.below sid row hrow
    exact ⟨hlt, List.mem_filter.mpr ⟨hs, decide_eq_true hne⟩⟩
  · exact hI.keys sid sid' row row' (get?_deleteSuggestion.mp h).1 (get?_deleteSuggestion.mp h').1
  · obtain ⟨hold, hall⟩ := List.mem_filter.mp h
    obtain ⟨row, hrow, hready⟩ := hI.logged log hold
    rw [hrow, Option.all_some, decide_eq_true_eq] at hall
    exact ⟨row, get?_deleteSuggestion.mpr ⟨hrow, hall⟩, hready⟩
  · rw [countP_deleteSuggestion h fun log hp => (isGeneration_iff.mp hp).2]
    exact hI.generated sid row (get?_deleteSuggestion.mp h).1 hr
  · rw [countP_deleteSuggestion h fun log hp => (isDownload_iff.mp hp).2]
    exact hI.counted sid row (get?_deleteSuggestion.mp h).1
  · exact hI.path sid row (get?_deleteSuggestion.mp h).1
  · exact hI.gone log (hlog log h) hp row path (get?_deleteSuggestion.mp hrow).1
  · exact hI.there log (hlog log h) ha hfresh row path (get?_deleteSuggestion.mp hrow).1

/-! An update of rows that keeps names, files, counts and what is ready. -/

/-- The rows are changed in their status only, and what is ready is kept. -/
structure SameFiles (db db' : FileDb) : Prop where
  eq : db' = { db with snapshots := db'.snapshots }
  row : ∀ sid row', db'.snapshots.get? sid = some row' → ∃ row, db.snapshots.get? sid = some row ∧
    row'.key = row.key ∧ row'.filePath = row.filePath ∧ row'.downloadCount = row.downloadCount ∧
      (row'.generationStatus = .ready ↔ row.generationStatus = .ready)
  keeps : ∀ sid row, db.snapshots.get? sid = some row → (db'.snapshots.get? sid).isSome

theorem SameFiles.later (h : SameFiles db db') : Later db db' := by
  rw [h.eq]
  refine ⟨le_rfl, le_rfl, le_rfl, fun _ hs _ => hs, fun sid row' hrow' _ => ?_,
    fun sid row hrow _ => h.keeps sid row hrow, fun log' hl ha _ _ => ⟨log', hl, ha, rfl, rfl⟩⟩
  obtain ⟨row, hrow, hkey, hpath, -, hready⟩ := h.row sid row' hrow'
  exact ⟨row, hrow, hkey, fun hr => ⟨hready.mpr hr, hpath⟩⟩

theorem SameFiles.effect (h : SameFiles db db') : FileEffect storage db point db' := by
  refine .of_disk h.later (by rw [h.eq]) fun sid row' hrow' hr => ?_
  obtain ⟨row, hrow, -, -, -, hready⟩ := h.row sid row' hrow'
  exact Or.inl ⟨row, hrow, hready.mp hr⟩

theorem SameFiles.retained (h : SameFiles db db') (hI : Retained storage db) :
    Retained storage db' := by
  rw [h.eq]
  refine ⟨fun sid row' hrow' => ?_, hI.suggestions_below, fun sid sid' r r' hr hr' heq => ?_,
    fun log hl => ?_, fun sid row' hrow' hr => ?_, fun sid row' hrow' => ?_,
    fun sid row' hrow' hr => ?_, hI.past, hI.purged,
    fun log hl hp row' path hrow' hpath => ?_, fun log hl ha hfresh row' path hrow' hpath => ?_⟩
  · obtain ⟨row, hrow, hkey, -⟩ := h.row sid row' hrow'
    rw [hkey]
    exact hI.below sid row hrow
  · obtain ⟨row, hrow, hkey, -⟩ := h.row sid r hr
    obtain ⟨row', hrow', hkey', -⟩ := h.row sid' r' hr'
    exact hI.keys sid sid' row row' hrow hrow' (hkey.symm.trans (heq.trans hkey'))
  · obtain ⟨row, hrow, hready⟩ := hI.logged log hl
    obtain ⟨row', hrow'⟩ := Option.isSome_iff_exists.mp (h.keeps _ row hrow)
    obtain ⟨old, hold, -, -, -, hiff⟩ := h.row _ row' hrow'
    obtain rfl : row = old := Option.some.inj (hrow.symm.trans hold)
    exact ⟨row', hrow', fun ha => hiff.mpr (hready ha)⟩
  · obtain ⟨row, hrow, -, -, -, hiff⟩ := h.row sid row' hrow'
    exact hI.generated sid row hrow (hiff.mp hr)
  · obtain ⟨row, hrow, -, -, hcount, -⟩ := h.row sid row' hrow'
    rw [hcount]
    exact hI.counted sid row hrow
  · obtain ⟨row, hrow, hkey, hpath, -, hiff⟩ := h.row sid row' hrow'
    rw [hkey, hpath]
    exact hI.path sid row hrow (hiff.mp hr)
  · obtain ⟨row, hrow, -, hsame, -⟩ := h.row _ row' hrow'
    exact hI.gone log hl hp row path hrow (hsame.symm.trans hpath)
  · obtain ⟨row, hrow, -, hsame, -⟩ := h.row _ row' hrow'
    exact hI.there log hl ha hfresh row path hrow (hsame.symm.trans hpath)

theorem sameFiles_refl (db : FileDb) : SameFiles db db :=
  ⟨rfl, fun _ row' h => ⟨row', h, rfl, rfl, rfl, Iff.rfl⟩, fun _ _ h => by rw [h]; rfl⟩

theorem sameFiles_markFailed {job : ExportJob} (hj : JobAt db job) (message : String) :
    SameFiles db (markFailed db job message) := by
  unfold markFailed updateSnapshot
  cases hrow : db.snapshots.get? job.snapshotId with
  | none => exact sameFiles_refl db
  | some row =>
    refine ⟨rfl, fun sid row' hrow' => ?_, fun sid old hold => ?_⟩
    · rw [Dict.get?_set] at hrow'
      split_ifs at hrow' with hsid
      · obtain rfl := Option.some.inj hrow'
        refine ⟨row, hsid ▸ hrow, rfl, rfl, rfl,
          ⟨fun hr => (by cases hr), fun hr => absurd hr (hj.unready row hrow)⟩⟩
      · exact ⟨row', hrow', rfl, rfl, rfl, Iff.rfl⟩
    · show ((db.snapshots.set _ _).get? sid).isSome
      rw [Dict.get?_set]
      split_ifs
      · rfl
      · rw [hold]
        rfl

theorem sameFiles_purgeStuck (storage : ExportStorage) (db : FileDb) :
    SameFiles db (purgeStuck storage db) := by
  unfold purgeStuck
  split_ifs
  · exact sameFiles_refl db
  · refine ⟨rfl, fun sid row' hrow' => ?_, fun sid old hold => ?_⟩
    · rw [Dict.get?_mapVal] at hrow'
      obtain ⟨row, hrow, rfl⟩ := Option.map_eq_some_iff.mp hrow'
      refine ⟨row, hrow, ?_⟩
      split_ifs with hstuck
      · refine ⟨rfl, rfl, rfl, ⟨fun hr => (by cases hr), fun hr => ?_⟩⟩
        rw [hstuck.1] at hr
        cases hr
      · exact ⟨rfl, rfl, rfl, Iff.rfl⟩
    · show ((db.snapshots.mapVal _).get? sid).isSome
      rw [Dict.get?_mapVal, hold]
      rfl

/-! New rows -/

theorem lt_nextVersion (suggestionId : ℕ) (snapshotType : SnapshotType) {row : FileRow}
    (h : db.snapshots.get? sid = some row) (hs : row.key.suggestionId = suggestionId)
    (ht : row.key.snapshotType = snapshotType) :
    row.key.version < nextVersion db suggestionId snapshotType := by
  have hmax : ∀ (l : List ℕ) (n : ℕ), n ∈ l → n ≤ l.foldr max 0 := by
    intro l n hn
    induction l with
    | nil => cases hn
    | cons m l ih =>
      rcases List.mem_cons.mp hn with rfl | hn
      · exact le_max_left _ _
      · exact (ih hn).trans (le_max_right _ _)
  refine Nat.lt_succ_of_le
    (hmax _ _ (List.mem_map.mpr ⟨row, List.mem_filter.mpr ⟨?_, decide_eq_true ⟨hs, ht⟩⟩, rfl⟩))
  exact List.mem_map.mpr ⟨(sid, row), Dict.get?_eq_some_iff.mp h, rfl⟩

section Insert

variable {suggestionId : ℕ} {snapshotType : SnapshotType}

theorem get?_insertSnapshot (hI : Retained storage db) {row : FileRow}
    (h : (insertSnapshot db suggestionId snapshotType).1.snapshots.get? sid = some row) :
    (db.snapshots.get? sid = some row ∧ sid < db.nextSnapshot) ∨ sid = db.nextSnapshot ∧
      row = ⟨⟨suggestionId, snapshotType, nextVersion db suggestionId snapshotType⟩, db.now,
        .generating, none, none, 0, none⟩ := by
  rw [show (insertSnapshot db suggestionId snapshotType).1.snapshots =
    db.snapshots.set db.nextSnapshot _ from rfl, Dict.get?_set] at h
  split_ifs at h with hsid
  · exact Or.inr ⟨hsid, (Option.some.inj h).symm⟩
  · exact Or.inl ⟨h, (hI.below sid row h).1⟩

theorem get?_insertSnapshot_old (hI : Retained storage db) {row : FileRow}
    (h : db.snapshots.get? sid = some row) :
    (insertSnapshot db suggestionId snapshotType).1.snapshots.get? sid = some row := by
  show (db.snapshots.set db.nextSnapshot _).get? sid = _
  rw [Dict.get?_set_ne _ _ (hI.below sid row h).1.ne, h]

theorem effect_insertSnapshot (hI : Retained storage db) :
    FileEffect storage db point (insertSnapshot db suggestionId snapshotType).1 := by
  refine .of_disk ⟨le_rfl, Nat.le_succ _, le_rfl, fun _ hs _ => hs, fun sid row' h hlt => ?_,
    fun sid row h _ => ?_, fun log' hl ha _ _ => ⟨log', hl, ha, rfl, rfl⟩⟩ rfl fun sid row' h hr =>
    ?_
  · rcases get?_insertSnapshot hI h with ⟨hold, -⟩ | ⟨hnew, -⟩
    · exact ⟨row', hold, rfl, fun hr => ⟨hr, rfl⟩⟩
    · omega
  · rw [get?_insertSnapshot_old hI h]
    rfl
  · rcases get?_insertSnapshot hI h with ⟨hold, -⟩ | ⟨-, rfl⟩
    · exact Or.inl ⟨row', hold, hr⟩
    · cases hr

theorem retained_insertSnapshot (hI : Retained storage db) (hs : suggestionId ∈ db.suggestions) :
    Retained storage (insertSnapshot db suggestionId snapshotType).1 := by
  have hnew : ∀ {sid : ℕ} {row : FileRow}, db.snapshots.get? sid = some row →
      row.key ≠ ⟨suggestionId, snapshotType, nextVersion db suggestionId snapshotType⟩ := by
    intro sid row h heq
    have hlt := lt_nextVersion suggestionId snapshotType h
      (congrArg SnapshotKey.suggestionId heq) (congrArg SnapshotKey.snapshotType heq)
    rw [heq] at hlt
    exact lt_irrefl _ hlt
  have hlogs : ∀ log ∈ db.logs, log.snapshotId ≠ db.nextSnapshot := by
    intro log hl
    obtain ⟨row, hrow, -⟩ := hI.logged log hl
    exact (hI.below _ row hrow).1.ne
  refine ⟨fun sid row h => ?_, hI.suggestions_below, fun sid sid' row row' h h' heq => ?_,
    fun log hl => ?_, fun sid row h hr => ?_, fun sid row h => ?_, fun sid row h hr => ?_,
    hI.past, hI.purged,
    fun log hl hp row path hrow => ?_, fun log hl ha hfresh row path hrow => ?_⟩
  · rcases get?_insertSnapshot hI h with ⟨hold, hlt⟩ | ⟨rfl, rfl⟩
    · exact ⟨hlt.trans (Nat.lt_succ_self _), (hI.below sid row hold).2⟩
    · exact ⟨Nat.lt_succ_self _, hs⟩
  · rcases get?_insertSnapshot hI h with ⟨hold, -⟩ | ⟨rfl, rfl⟩
    · rcases get?_insertSnapshot hI h' with ⟨hold', -⟩ | ⟨-, rfl⟩
      · exact hI.keys sid sid' row row' hold hold' heq
      · exact absurd heq (hnew hold)
    · rcases get?_insertSnapshot hI h' with ⟨hold', -⟩ | ⟨rfl, -⟩
      · exact absurd heq.symm (hnew hold')
      · rfl
  · obtain ⟨row, hrow, hready⟩ := hI.logged log hl
    exact ⟨row, get?_insertSnapshot_old hI hrow, hready⟩
  · rcases get?_insertSnapshot hI h with ⟨hold, -⟩ | ⟨-, rfl⟩
    · exact hI.generated sid row hold hr
    · cases hr
  · rcases get?_insertSnapshot hI h with ⟨hold, -⟩ | ⟨rfl, rfl⟩
    · exact hI.counted sid row hold
    · refine (List.countP_eq_zero.mpr fun log hl hd => ?_).symm
      exact hlogs log hl (isDownload_iff.mp hd).2
  · rcases get?_insertSnapshot hI h with ⟨hold, -⟩ | ⟨-, rfl⟩
    · exact hI.path sid row hold hr
    · cases hr
  · rcases get?_insertSnapshot hI hrow with ⟨hold, -⟩ | ⟨hsid, -⟩
    · exact hI.gone log hl hp row path hold
    · exact absurd hsid (hlogs log hl)
  · rcases get?_insertSnapshot hI hrow with ⟨hold, -⟩ | ⟨hsid, -⟩
    · exact hI.there log hl ha hfresh row path hold
    · exact absurd hsid (hlogs log hl)

theorem jobAt_insertSnapshot (hI : Retained storage db) (hs : suggestionId ∈ db.suggestions) :
    FileAt storage (insertSnapshot db suggestionId snapshotType).1
    (insertSnapshot db suggestionId snapshotType).2 := by
  have hrow : ∀ row, (insertSnapshot db suggestionId snapshotType).1.snapshots.get?
      db.nextSnapshot = some row →
      row = ⟨⟨suggestionId, snapshotType, nextVersion db suggestionId snapshotType⟩, db.now,
      .generating, none, none, 0, none⟩ := by
    intro row h
    rcases get?_insertSnapshot hI h with ⟨-, hlt⟩ | ⟨-, hnew⟩
    · exact absurd hlt (lt_irrefl _)
    · exact hnew
  refine ⟨⟨Nat.lt_succ_self _, hI.suggestions_below _ hs,
    fun row h => by rw [hrow row h], fun _ => ?_⟩, fun row h hr => ?_⟩
  · show ((db.snapshots.set db.nextSnapshot _).get? db.nextSnapshot).isSome
    rw [Dict.get?_set_self]
    rfl
  · rw [hrow row h] at hr
    cases hr

end Insert

/-! New log rows -/

section Append

variable {row : FileRow} {log : ExportLog}

/-- The tables with a row changed and a log row about it. -/
def appendLog (db : FileDb) (row : FileRow) (log : ExportLog) : FileDb :=
  { db with snapshots := db.snapshots.set log.snapshotId row, logs := db.logs ++ [log] }

theorem get?_appendLog {row' : FileRow}
    (h : (appendLog db row log).snapshots.get? sid = some row') :
    (sid = log.snapshotId ∧ row' = row) ∨
    (sid ≠ log.snapshotId ∧ db.snapshots.get? sid = some row') := by
  rw [show (appendLog db row log).snapshots = db.snapshots.set log.snapshotId row from rfl,
    Dict.get?_set] at h
  split_ifs at h with hsid
  · exact Or.inl ⟨hsid, (Option.some.inj h).symm⟩
  · exact Or.inr ⟨hsid, h⟩

theorem isSome_appendLog (row : FileRow) (log : ExportLog) {old : FileRow}
    (h : db.snapshots.get? sid = some old) :
    ((appendLog db row log).snapshots.get? sid).isSome := by
  show ((db.snapshots.set _ _).get? sid).isSome
  rw [Dict.get?_set]
  split_ifs
  · rfl
  · rw [h]
    rfl

theorem countP_append_of_ne {p : ExportLog → Bool} (hp : p log = false) :
    (db.logs ++ [log]).countP p = db.logs.countP p := by
  rw [List.countP_append, List.countP_singleton, hp]
  rfl

/-- The row that a log row is about keeps its name, and what is ready its file. -/
structure AppendsTo (storage : ExportStorage) (db : FileDb) (old row : FileRow) (log : ExportLog) :
    Prop where
  old_eq : db.snapshots.get? log.snapshotId = some old
  key_eq : row.key = old.key
  ready : row.generationStatus = .ready
  keeps : old.generationStatus = .ready → row.filePath = old.filePath
  path : ∃ t, row.filePath = some (relativePath storage.stamps row.key t)
  performed : log.performedAt ≤ db.now
  unpurged : log.filePurgedAt = none
  generation : old.generationStatus = .ready ↔ log.action ≠ .generate
  count : row.downloadCount = old.downloadCount + if log.action = .download then 1 else 0
  file : log.action = .generate → ∀ path, row.filePath = some path → storage.resolve path ∈ db.disk

theorem AppendsTo.later {old : FileRow} (h : AppendsTo storage db old row log) :
    Later db (appendLog db row log) := by
  refine ⟨le_rfl, le_rfl, le_rfl, fun _ hs _ => hs, fun sid row' hrow' _ => ?_,
    fun sid old' hold _ => isSome_appendLog row log hold, fun log' hl ha hlt hready => ?_⟩
  · rcases get?_appendLog hrow' with ⟨rfl, rfl⟩ | ⟨-, hsame⟩
    · exact ⟨old, h.old_eq, h.key_eq, fun hr => ⟨h.ready, h.keeps hr⟩⟩
    · exact ⟨row', hsame, rfl, fun hr => ⟨hr, rfl⟩⟩
  · rcases List.mem_append.mp hl with hold | hnew
    · exact ⟨log', hold, ha, rfl, rfl⟩
    · obtain rfl := List.mem_singleton.mp hnew
      exact absurd ha (h.generation.mp (hready old h.old_eq))

theorem AppendsTo.key_before {old row' : FileRow} (h : AppendsTo storage db old row log)
    (hrow' : (appendLog db row log).snapshots.get? sid = some row') :
    ∃ old', db.snapshots.get? sid = some old' ∧ row'.key = old'.key := by
  rcases get?_appendLog hrow' with ⟨rfl, rfl⟩ | ⟨-, hsame⟩
  · exact ⟨old, h.old_eq, h.key_eq⟩
  · exact ⟨row', hsame, rfl⟩

/-- The snapshot of an earlier generation was ready, so its path is the one it had. -/
theorem AppendsTo.path_before {old row' : FileRow} (h : AppendsTo storage db old row log)
    (hI : Retained storage db) {log' : ExportLog} (hl : log' ∈ db.logs)
    (ha : log'.action = .generate) {path : String}
    (hrow' : (appendLog db row log).snapshots.get? log'.snapshotId = some row')
    (hpath : row'.filePath = some path) :
    ∃ old', db.snapshots.get? log'.snapshotId = some old' ∧ old'.filePath = some path := by
  rcases get?_appendLog hrow' with ⟨hsid, rfl⟩ | ⟨-, hsame⟩
  · obtain ⟨old', hold', hready⟩ := hI.logged log' hl
    obtain rfl : old' = old := Option.some.inj ((hsid ▸ hold').symm.trans h.old_eq)
    exact ⟨old', hold', (h.keeps (hready ha)).symm.trans hpath⟩
  · exact ⟨row', hsame, hpath⟩

theorem AppendsTo.logged_after {old : FileRow} (h : AppendsTo storage db old row log)
    (hI : Retained storage db) {log' : ExportLog} (hl : log' ∈ (appendLog db row log).logs) :
    ∃ row', (appendLog db row log).snapshots.get? log'.snapshotId = some row' ∧
      (log'.action = .generate → row'.generationStatus = .ready) := by
  rcases List.mem_append.mp hl with hold | hnew
  · obtain ⟨old', hold', hready⟩ := hI.logged log' hold
    obtain ⟨row', hrow'⟩ := Option.isSome_iff_exists.mp (isSome_appendLog row log hold')
    refine ⟨row', hrow', fun ha => ?_⟩
    rcases get?_appendLog hrow' with ⟨-, rfl⟩ | ⟨-, hsame⟩
    · exact h.ready
    · obtain rfl : old' = row' := Option.some.inj (hold'.symm.trans hsame)
      exact hready ha
  · obtain rfl := List.mem_singleton.mp hnew
    exact ⟨row, Dict.get?_set_self _ _ _, fun _ => h.ready⟩

/-- A snapshot that is not ready has no generation in the log. -/
theorem Retained.countP_unready (hI : Retained storage db) {old : FileRow}
    (hold : db.snapshots.get? sid = some old) (hunready : old.generationStatus ≠ .ready) :
    db.logs.countP (·.isGeneration sid) = 0 := by
  refine List.countP_eq_zero.mpr fun log hl hg => ?_
  obtain ⟨hact, hsid⟩ := isGeneration_iff.mp hg
  obtain ⟨old', hold', hready⟩ := hI.logged log hl
  obtain rfl : old' = old := Option.some.inj ((hsid ▸ hold').symm.trans hold)
  exact hunready (hready hact)

theorem AppendsTo.generated_after {old row' : FileRow} (h : AppendsTo storage db old row log)
    (hI : Retained storage db) (hrow' : (appendLog db row log).snapshots.get? sid = some row')
    (hr : row'.generationStatus = .ready) :
    (appendLog db row log).logs.countP (·.isGeneration sid) = 1 := by
  show (db.logs ++ [log]).countP _ = 1
  rcases get?_appendLog hrow' with ⟨rfl, rfl⟩ | ⟨hne, hsame⟩
  · cases ha : log.action with
    | generate =>
      have hunready : old.generationStatus ≠ .ready := fun hready => h.generation.mp hready ha
      rw [List.countP_append, hI.countP_unready h.old_eq hunready, List.countP_singleton,
        isGeneration_iff.mpr ⟨ha, rfl⟩]
      rfl
    | download =>
      have hnot : log.isGeneration log.snapshotId = false := by simp [ExportLog.isGeneration, ha]
      have hready : old.generationStatus = .ready := h.generation.mpr (by simp [ha])
      rw [countP_append_of_ne hnot]
      exact hI.generated _ old h.old_eq hready
  · have hnot : log.isGeneration sid = false := by simp [ExportLog.isGeneration, hne.symm]
    rw [countP_append_of_ne hnot]
    exact hI.generated sid row' hsame hr

theorem AppendsTo.counted_after {old row' : FileRow} (h : AppendsTo storage db old row log)
    (hI : Retained storage db) (hrow' : (appendLog db row log).snapshots.get? sid = some row') :
    row'.downloadCount = (appendLog db row log).logs.countP (·.isDownload sid) := by
  show row'.downloadCount = (db.logs ++ [log]).countP _
  rcases get?_appendLog hrow' with ⟨rfl, rfl⟩ | ⟨hne, hsame⟩
  · rw [h.count, hI.counted _ old h.old_eq, List.countP_append, List.countP_singleton]
    simp [ExportLog.isDownload]
  · have hnot : log.isDownload sid = false := by simp [ExportLog.isDownload, hne.symm]
    rw [countP_append_of_ne hnot]
    exact hI.counted sid row' hsame

theorem AppendsTo.retained {old : FileRow} (h : AppendsTo storage db old row log)
    (hI : Retained storage db) : Retained storage (appendLog db row log) := by
  refine ⟨fun sid row' hrow' => ?_, hI.suggestions_below, fun sid sid' r r' hr hr' heq => ?_,
    fun log' hl => h.logged_after hI hl, fun sid row' hrow' hr => h.generated_after hI hrow' hr,
    fun sid row' hrow' => h.counted_after hI hrow', fun sid row' hrow' hr => ?_,
    fun log' hl => ?_, fun log' hl hp => ?_, fun log' hl hp row' path hrow' hpath => ?_,
    fun log' hl ha hfresh row' path hrow' hpath => ?_⟩
  · obtain ⟨old', hold', hk⟩ := h.key_before hrow'
    rw [hk]
    exact hI.below sid old' hold'
  · obtain ⟨o, ho, hk⟩ := h.key_before hr
    obtain ⟨o', ho', hk'⟩ := h.key_before hr'
    exact hI.keys sid sid' o o' ho ho' (hk.symm.trans (heq.trans hk'))
  · rcases get?_appendLog hrow' with ⟨rfl, rfl⟩ | ⟨-, hsame⟩
    · exact h.path
    · exact hI.path sid row' hsame hr
  · rcases List.mem_append.mp hl with hold | hnew
    · exact hI.past log' hold
    · rw [List.mem_singleton.mp hnew]
      exact h.performed
  · rcases List.mem_append.mp hl with hold | hnew
    · exact hI.purged log' hold hp
    · rw [List.mem_singleton.mp hnew, h.unpurged] at hp
      cases hp
  · rcases List.mem_append.mp hl with hold | hnew
    · obtain ⟨old', hold', hpath'⟩ :=
        h.path_before hI hold (hI.purged log' hold hp).1 hrow' hpath
      exact hI.gone log' hold hp old' path hold' hpath'
    · rw [List.mem_singleton.mp hnew, h.unpurged] at hp
      cases hp
  · rcases List.mem_append.mp hl with hold | hnew
    · obtain ⟨old', hold', hpath'⟩ := h.path_before hI hold ha hrow' hpath
      exact hI.there log' hold ha hfresh old' path hold' hpath'
    · obtain rfl := List.mem_singleton.mp hnew
      rcases get?_appendLog hrow' with ⟨-, rfl⟩ | ⟨hne, -⟩
      · exact h.file ha path hpath
      · exact absurd rfl hne

end Append

/-- The last transaction of an export. -/
theorem appendsTo_markReady (hI : Retained storage db) {job : ExportJob} {performedAt : ℤ}
    {old : FileRow} (h : FileAt storage db (.marking job performedAt))
    (hold : db.snapshots.get? job.snapshotId = some old) :
    AppendsTo storage db old { old with
        generationStatus := .ready
        generationError := none
        filePath := some (relativePath storage.stamps job.key job.now) }
      ⟨job.snapshotId, .generate, performedAt, none⟩ := by
  obtain ⟨hj, hw, ht⟩ := h
  have hkey := hj.belongs.key_eq old hold
  have hunready := hj.unready old hold
  refine ⟨hold, rfl, rfl, fun hr => absurd hr hunready, ⟨job.now, by rw [hkey]⟩, ht, rfl,
    ⟨fun hr => absurd hr hunready, fun ha => absurd rfl ha⟩, rfl, fun _ path hpath => ?_⟩
  rw [← Option.some.inj hpath, resolve_relativePath]
  exact hw (hkey ▸ (hI.below _ old hold).2)

/-- The count of a download. -/
theorem appendsTo_countDownload (hI : Retained storage db) {old : FileRow}
    (h : SnapshotSettled db sid) (hold : db.snapshots.get? sid = some old) :
    AppendsTo storage db old
    { old with downloadCount := old.downloadCount + 1, lastDownloadedAt := some db.now }
      ⟨sid, .download, db.now, none⟩ := by
  have hready := h.ready old hold
  exact ⟨hold, rfl, hready, fun _ => rfl, hI.path sid old hold hready, le_rfl, rfl,
    ⟨fun _ ha => (by cases ha), fun _ => hready⟩, rfl, fun ha => (by cases ha)⟩

/-! The disk -/

theorem later_disk (disk : List (List String)) : Later db { db with disk := disk } :=
  ⟨le_rfl, le_rfl, le_rfl, fun _ hs _ => hs, fun _ row' h _ => ⟨row', h, rfl, fun hr => ⟨hr, rfl⟩⟩,
    fun _ _ h _ => by rw [h]; rfl, fun log' hl ha _ _ => ⟨log', hl, ha, rfl, rfl⟩⟩

theorem retained_write (hI : Retained storage db) {job : ExportJob} (hj : JobAt db job) :
    Retained storage { db with disk := targetPath storage job.key job.now :: db.disk } := by
  refine ⟨hI.below, hI.suggestions_below, hI.keys, hI.logged, hI.generated, hI.counted, hI.path,
    hI.past, hI.purged, fun log hl hp row path hrow hpath hm => ?_,
    fun log hl ha hfresh row path hrow hpath =>
      List.mem_cons_of_mem _ (hI.there log hl ha hfresh row path hrow hpath)⟩
  obtain ⟨own, hown, hready⟩ := hI.logged log hl
  obtain rfl : own = row := Option.some.inj (hown.symm.trans hrow)
  rcases List.mem_cons.mp hm with heq | hold
  · exact hj.ne_resolve hI hrow (hready (hI.purged log hl hp).1) hpath heq
  · exact hI.gone log hl hp own path hrow hpath hold

theorem relativePath_ne_empty (key : SnapshotKey) (t : ℤ) :
    relativePath storage.stamps key t ≠ "" := by
  intro h0
  have hchars := congrArg String.toList h0
  rw [toList_relativePath] at hchars
  simp at hchars

theorem resolveSnapshotFilePath_relativePath (key : SnapshotKey) (t : ℤ) :
    resolveSnapshotFilePath storage (some (relativePath storage.stamps key t)) =
    some (targetPath storage key t) := by
  have hroot : storage.root <+: targetPath storage key t := List.prefix_append _ _
  simp only [resolveSnapshotFilePath]
  rw [if_neg (relativePath_ne_empty key t), resolve_relativePath, if_pos hroot]

/-- What the purge deletes is the file of the snapshot. -/
theorem purgeFile_spec {filePath : Option String} {t : ℤ}
    (hpath : filePath = some (relativePath storage.stamps key t)) :
    purgeFile storage db filePath =
    ({ db with disk := db.disk.filter (· ≠ targetPath storage key t) }, true) := by
  unfold purgeFile
  rw [hpath, Option.getD_some, if_neg (relativePath_ne_empty key t),
    resolveSnapshotFilePath_relativePath]

theorem retained_purge (hI : Retained storage db) (hpast : PastRetention storage db sid)
    (hb : Belongs db sid key) (t : ℤ) :
    Retained storage { db with disk := db.disk.filter (· ≠ targetPath storage key t) } := by
  refine ⟨hI.below, hI.suggestions_below, hI.keys, hI.logged, hI.generated, hI.counted, hI.path,
    hI.past, hI.purged, fun log hl hp row path hrow hpath hm =>
    hI.gone log hl hp row path hrow hpath (List.mem_filter.mp hm).1,
    fun log hl ha hfresh row path hrow hpath => ?_⟩
  refine List.mem_filter.mpr
    ⟨hI.there log hl ha hfresh row path hrow hpath, decide_eq_true fun heq => ?_⟩
  obtain ⟨own, hown, hready⟩ := hI.logged log hl
  obtain rfl : own = row := Option.some.inj (hown.symm.trans hrow)
  obtain ⟨t', ht'⟩ := hI.path _ own hown (hready ha)
  obtain rfl : path = relativePath storage.stamps own.key t' :=
    Option.some.inj (hpath.symm.trans ht')
  rw [resolve_relativePath] at heq
  have hsid := hb.eq_of_key hI hrow (targetPath_inj heq)
  have hexpired := hpast.expired log hl ha hsid
  rw [hfresh] at hexpired
  exact Bool.false_ne_true hexpired

/-! The marks of the purge -/

theorem mem_markPurged {purged : List ℕ} {now : ℤ} {log' : ExportLog}
    (h : log' ∈ (markPurged db purged now).logs) :
    ∃ log ∈ db.logs, log'.snapshotId = log.snapshotId ∧ log'.action = log.action ∧
      log'.performedAt = log.performedAt ∧
      (log'.filePurgedAt.isSome → log.filePurgedAt.isSome ∨ log.action = .generate ∧
      log.snapshotId ∈ purged) := by
  obtain ⟨log, hl, rfl⟩ := List.mem_map.mp h
  refine ⟨log, hl, ?_⟩
  split_ifs with hmark
  · exact ⟨rfl, rfl, rfl, fun _ => Or.inr ⟨hmark.1, hmark.2.1⟩⟩
  · exact ⟨rfl, rfl, rfl, fun hp => Or.inl hp⟩

theorem countP_markPurged (purged : List ℕ) (now : ℤ) {p : ExportLog → Bool}
    (hp : ∀ log t, p { log with filePurgedAt := t } = p log) :
    (markPurged db purged now).logs.countP p = db.logs.countP p := by
  show (db.logs.map _).countP p = _
  rw [List.countP_map]
  refine List.countP_congr fun log _ => ?_
  simp only [Function.comp_apply]
  split_ifs
  · rw [hp]
  · exact Iff.rfl

theorem later_markPurged (purged : List ℕ) (now : ℤ) : Later db (markPurged db purged now) := by
  refine ⟨le_rfl, le_rfl, le_rfl, fun _ hs _ => hs,
    fun _ row' h _ => ⟨row', h, rfl, fun hr => ⟨hr, rfl⟩⟩, fun sid row h _ => ?_,
    fun log' hl ha _ _ => ?_⟩
  · show (db.snapshots.get? sid).isSome
    rw [h]
    rfl
  · obtain ⟨log, hlog, hsid, hact, htime, -⟩ := mem_markPurged hl
    exact ⟨log, hlog, hact ▸ ha, hsid.symm, htime.symm⟩

theorem retained_markPurged (hI : Retained storage db) {todo : List (ℕ × Option String)}
    {purged : List ℕ} {now : ℤ} (h : FileAt storage db (.purging todo purged now)) :
    Retained storage (markPurged db purged now) := by
  have hexpired : ∀ {log log' : ExportLog} (t : ℤ), log'.performedAt = log.performedAt →
      log'.expired storage t = log.expired storage t := by
    intro log log' t ht
    rw [ExportLog.expired, ExportLog.expired, ht]
  refine ⟨hI.below, hI.suggestions_below, hI.keys, fun log' hl => ?_, fun sid row hrow hr => ?_,
    fun sid row hrow => ?_, hI.path, fun log' hl => ?_, fun log' hl hp => ?_,
    fun log' hl hp row path hrow hpath => ?_,
    fun log' hl ha hfresh row path hrow hpath => ?_⟩
  · obtain ⟨log, hlog, hsid, hact, -⟩ := mem_markPurged hl
    obtain ⟨row, hrow, hready⟩ := hI.logged log hlog
    exact ⟨row, hsid ▸ hrow, fun ha => hready (hact ▸ ha)⟩
  · rw [countP_markPurged purged now fun _ _ => rfl]
    exact hI.generated sid row hrow hr
  · rw [countP_markPurged purged now fun _ _ => rfl]
    exact hI.counted sid row hrow
  · obtain ⟨log, hlog, -, -, htime, -⟩ := mem_markPurged hl
    rw [htime]
    exact hI.past log hlog
  · obtain ⟨log, hlog, hsid, hact, htime, hmark⟩ := mem_markPurged hl
    show log'.action = .generate ∧ log'.expired storage db.now = true
    rw [hact, hexpired db.now htime]
    rcases hmark hp with hold | ⟨ha, hin⟩
    · exact hI.purged log hlog hold
    · exact ⟨ha, (h.2 _ hin).1.expired log hlog ha rfl⟩
  · obtain ⟨log, hlog, hsid, hact, htime, hmark⟩ := mem_markPurged hl
    rw [hsid] at hrow
    rcases hmark hp with hold | ⟨-, hin⟩
    · exact hI.gone log hlog hold row path hrow hpath
    · exact (h.2 _ hin).2 row path hrow hpath
  · obtain ⟨log, hlog, hsid, hact, htime, -⟩ := mem_markPurged hl
    rw [hsid] at hrow
    exact hI.there log hlog (hact ▸ ha) ((hexpired db.now htime).symm.trans hfresh)
      row path hrow hpath

/-! ### What a statement does -/

/-- What a statement does, with what has to hold for it: the suggestions, an export, a
download and the two retention jobs. -/
inductive FileStep (storage : ExportStorage) (db : FileDb) : FilePoint → FileDb → FilePoint → Prop
  /-- The process dies, is refused or is done. -/
  | stop {point : FilePoint} : FileStep storage db point db .idle
  | tick {seconds : ℕ} : FileStep storage db .idle { db with now := db.now + seconds } .idle
  | createSuggestion : FileStep storage db .idle
      { db with suggestions := db.suggestions ++ [db.nextSuggestion], nextSuggestion := db.nextSuggestion + 1 } .idle
  | deleteSuggestion {suggestionId} :
    FileStep storage db .idle (deleteSuggestion db suggestionId) .idle
  | insert {suggestionId snapshotType} : suggestionId ∈ db.suggestions → FileStep storage db .idle
      (insertSnapshot db suggestionId snapshotType).1
        (insertSnapshot db suggestionId snapshotType).2
  | write {job} : FileStep storage db (.rowCommitted job)
      { db with disk := targetPath storage job.key job.now :: db.disk } (.fileWritten job)
  | mark {job} : FileStep storage db (.fileWritten job) db (.marking job db.now)
  | fail {point : FilePoint} {job message} : point = .rowCommitted job ∨ point = .fileWritten job →
      FileStep storage db point (markFailed db job message) .idle
  | ready {job performedAt} :
    FileStep storage db (.marking job performedAt) (markReady storage db job performedAt) .idle
  | read {sid : ℕ} : FileStep storage db .idle db (readSnapshot db sid)
  | look {sid : ℕ} {filePath} :
    FileStep storage db (.snapshotRead sid filePath) db (lookForFile storage db sid filePath)
  | refuse {sid : ℕ} : FileStep storage db (.fileMissing sid) db
    (.answered sid (refuseDownload storage db sid))
  | count {sid : ℕ} {path} :
    FileStep storage db (.fileFound sid path) (countDownload db sid path).1
    (countDownload db sid path).2
  | serve {sid : ℕ} {path} : FileStep storage db (.counted sid path) db
      (.answered sid (if path ∈ db.disk then .file path else .raised))
  | selectLogs : FileStep storage db .idle db (.logsSelected (selectLogs storage db))
  | selectFiles {sids} :
    FileStep storage db (.logsSelected sids) db (.purging (selectFiles db sids) [] db.now)
  | purge {sid : ℕ} {filePath todo purged now} :
      FileStep storage db (.purging ((sid, filePath) :: todo) purged now)
      (purgeFile storage db filePath).1
        (.purging todo (if (purgeFile storage db filePath).2 then sid :: purged else purged) now)
  | skip {entry todo purged now} :
    FileStep storage db (.purging (entry :: todo) purged now) db (.purging todo purged now)
  | purged {purged now} :
    FileStep storage db (.purging [] purged now) (markPurged db purged now) .idle
  | stuck : FileStep storage db .idle (purgeStuck storage db) .idle

/-- **Every statement** is one of the listed ones. -/
theorem fileNext_step {P : Type} {p : P} {action : FileAction} {r : FileDb × FilePoint}
    (hr : fileNext storage db p point action = some r) : FileStep storage db point r.1 r.2 := by
  unfold fileNext at hr
  split at hr
  case h_5 =>
    split_ifs at hr with hs
    · rw [← Option.some.inj hr]
      exact .insert hs
    · rw [← Option.some.inj hr]
      exact .stop
  case h_23 => cases hr
  all_goals rw [← Option.some.inj hr]
  case h_1 => exact .stop
  case h_2 => exact .tick
  case h_3 => exact .createSuggestion
  case h_4 => exact .deleteSuggestion
  case h_6 => exact .read
  case h_7 => exact .selectLogs
  case h_8 => exact .stuck
  case h_9 => exact .write
  case h_10 => exact .fail (Or.inl rfl)
  case h_11 => exact .mark
  case h_12 => exact .fail (Or.inr rfl)
  case h_13 => exact .ready
  case h_14 => exact .look
  case h_15 => exact .refuse
  case h_16 => exact .count
  case h_17 => exact .serve
  case h_18 => exact .stop
  case h_19 => exact .selectFiles
  case h_20 => exact .purge
  case h_21 => exact .skip
  case h_22 => exact .purged

/-! ### A statement and its own process -/

theorem own_of_append {old row : FileRow} {log : ExportLog} (hI : Retained storage db)
    (h : AppendsTo storage db old row log)
    (howns : old.generationStatus ≠ .ready → point.owns log.snapshotId) :
    FileEffect storage db point (appendLog db row log) ∧
    Retained storage (appendLog db row log) := by
  refine ⟨.of_disk h.later rfl fun sid row' hrow' hr => ?_, h.retained hI⟩
  rcases get?_appendLog hrow' with ⟨rfl, rfl⟩ | ⟨-, hsame⟩
  · by_cases hready : old.generationStatus = .ready
    · exact Or.inl ⟨old, h.old_eq, hready⟩
    · exact Or.inr (howns hready)
  · exact Or.inl ⟨row', hsame, hr⟩

/-- The logs that a purge selects. -/
theorem fileAt_selectLogs (hI : Retained storage db) :
    FileAt storage db (.logsSelected (selectLogs storage db)) := by
  intro sid hs
  obtain ⟨log, hl, rfl⟩ := List.mem_map.mp (List.mem_dedup.mp hs)
  obtain ⟨hlog, hcond⟩ := List.mem_filter.mp hl
  simp only [Bool.and_eq_true, decide_eq_true_eq] at hcond
  obtain ⟨⟨ha, hexpired⟩, -⟩ := hcond
  obtain ⟨row, hrow, hready⟩ := hI.logged log hlog
  refine ⟨⟨(hI.below _ row hrow).1, fun row' hrow' => ?_⟩, fun log' hlog' ha' hsid' => ?_⟩
  · obtain rfl : row = row' := Option.some.inj (hrow.symm.trans hrow')
    exact hready ha
  · -- a snapshot has one generation in the log
    have hone := hI.generated _ row hrow (hready ha)
    have hmem : ∀ {l : ExportLog}, l ∈ db.logs → l.action = .generate →
        l.snapshotId = log.snapshotId → l ∈ db.logs.filter (·.isGeneration log.snapshotId) :=
        fun hl ha hs =>
      List.mem_filter.mpr ⟨hl, isGeneration_iff.mpr ⟨ha, hs⟩⟩
    rw [List.countP_eq_length_filter, List.length_eq_one_iff] at hone
    obtain ⟨only, hone⟩ := hone
    have hfirst := hmem hlog ha rfl
    have hsecond := hmem hlog' ha' hsid'
    rw [hone, List.mem_singleton] at hfirst hsecond
    rw [hsecond, ← hfirst]
    exact hexpired

theorem fileAt_selectFiles (hI : Retained storage db) {sids : List ℕ}
    (h : FileAt storage db (.logsSelected sids)) (now : ℤ) :
    FileAt storage db (.purging (selectFiles db sids) [] now) := by
  refine ⟨fun entry hentry => ?_, fun sid hs => absurd hs List.not_mem_nil⟩
  obtain ⟨⟨sid, row⟩, he, rfl⟩ := List.mem_map.mp hentry
  obtain ⟨hrow, hin⟩ := List.mem_filter.mp he
  have hget : db.snapshots.get? sid = some row := Dict.get?_eq_some_iff.mpr hrow
  have hpast : PastRetention storage db sid := h sid (of_decide_eq_true hin)
  obtain ⟨t, ht⟩ := hI.path sid row hget (hpast.settled.ready row hget)
  obtain ⟨hlt, hs⟩ := hI.below sid row hget
  refine ⟨hpast, row.key, t, ht,
    ⟨hlt, hI.suggestions_below _ hs, fun row' hrow' => ?_, fun _ => ?_⟩, fun row' hrow' => ?_⟩
  · rw [Option.some.inj (hget.symm.trans hrow')]
  · show (db.snapshots.get? sid).isSome
    rw [hget]
    rfl
  · rw [Option.some.inj (hget.symm.trans hrow')]

theorem own_purge (hI : Retained storage db) {filePath : Option String}
    {todo : List (ℕ × Option String)} {purged : List ℕ} {now : ℤ}
    (h : FileAt storage db (.purging ((sid, filePath) :: todo) purged now)) :
    FileEffect storage db point (purgeFile storage db filePath).1 ∧
      Retained storage (purgeFile storage db filePath).1 ∧
      FileAt storage (purgeFile storage db filePath).1
        (.purging todo (if (purgeFile storage db filePath).2 then sid :: purged
          else purged) now) := by
  obtain ⟨hpast, key, t, hpath, hb, hfile⟩ := h.1 _ List.mem_cons_self
  have hpath' : filePath = some (relativePath storage.stamps key t) := hpath
  rw [purgeFile_spec hpath']
  have hl : Later db { db with disk := db.disk.filter (· ≠ targetPath storage key t) } :=
    later_disk _
  refine ⟨⟨hl, fun sid row' hrow' hr => Or.inl ⟨row', hrow', hr⟩,
    fun path hp => Or.inl (List.mem_filter.mp hp).1, fun path hp => ?_⟩,
    retained_purge hI hpast hb t, fun entry hentry => ?_, fun sid' hs => ?_⟩
  · by_cases heq : path = targetPath storage key t
    · exact Or.inr ⟨sid, key, t, hpast, hb, heq⟩
    · exact Or.inl (List.mem_filter.mpr ⟨hp, decide_eq_true heq⟩)
  · obtain ⟨hpast', key', t', hpath', hb', hfile'⟩ := h.1 entry (List.mem_cons_of_mem _ hentry)
    exact ⟨hpast'.later hl, key', t', hpath', hb'.later hl, hfile'⟩
  · rcases List.mem_cons.mp hs with rfl | hold
    · refine ⟨hpast.later hl, fun row path hrow hp hm => ?_⟩
      obtain rfl : path = relativePath storage.stamps key t :=
        Option.some.inj (hp.symm.trans ((hfile row hrow).trans hpath))
      rw [resolve_relativePath] at hm
      exact of_decide_eq_true (List.mem_filter.mp hm).2 rfl
    · obtain ⟨hpast', hgone⟩ := h.2 sid' hold
      exact ⟨hpast'.later hl,
        fun row path hrow hp hm => hgone row path hrow hp (List.mem_filter.mp hm).1⟩

/-- A ready snapshot whose file is not there is past its retention. -/
theorem pastRetention_of_missing (hI : Retained storage db) (hs : SnapshotSettled db sid)
    (hmissing : ∀ row path, db.snapshots.get? sid = some row → row.filePath = some path →
      storage.resolve path ∉ db.disk) :
    PastRetention storage db sid := by
  refine ⟨hs, fun log hl ha hsid => ?_⟩
  obtain ⟨row, hrow, hready⟩ := hI.logged log hl
  obtain ⟨t, ht⟩ := hI.path _ row hrow (hready ha)
  cases hexpired : log.expired storage db.now with
  | true => rfl
  | false =>
    exact absurd (hI.there log hl ha hexpired row _ hrow ht) (hmissing row _ (hsid ▸ hrow) ht)

theorem fileAt_lookForFile (hI : Retained storage db) {filePath : Option String}
    (hs : SnapshotSettled db sid)
    (hpath : ∀ row, db.snapshots.get? sid = some row → row.filePath = filePath) :
    FileAt storage db (lookForFile storage db sid filePath) := by
  have hresolve : ∀ row path, db.snapshots.get? sid = some row → row.filePath = some path →
      resolveSnapshotFilePath storage filePath = some (storage.resolve path) := by
    intro row path hrow hp
    obtain ⟨t, ht⟩ := hI.path sid row hrow (hs.ready row hrow)
    obtain rfl : path = relativePath storage.stamps row.key t := Option.some.inj (hp.symm.trans ht)
    rw [← hpath row hrow, hp, resolve_relativePath]
    exact resolveSnapshotFilePath_relativePath row.key t
  unfold lookForFile
  cases hfile : resolveSnapshotFilePath storage filePath with
  | none =>
    refine pastRetention_of_missing hI hs fun row path hrow hp => ?_
    rw [hresolve row path hrow hp] at hfile
    cases hfile
  | some file =>
    simp only
    split_ifs with hdisk
    · refine ⟨hs, ?_, fun row hrow => ?_⟩
      · unfold resolveSnapshotFilePath at hfile
        split at hfile
        · cases hfile
        · split_ifs at hfile with hempty hroot
          rw [← Option.some.inj hfile]
          exact hroot
      · obtain ⟨t, ht⟩ := hI.path sid row hrow (hs.ready row hrow)
        exact ⟨_, ht, Option.some.inj ((hresolve row _ hrow ht).symm.trans hfile)⟩
    · refine pastRetention_of_missing hI hs fun row path hrow hp hm => hdisk ?_
      rwa [← Option.some.inj ((hresolve row path hrow hp).symm.trans hfile)]

/-! Exports -/

section Exports

variable {job : ExportJob}

theorem own_write (hI : Retained storage db) (h : JobAt db job) :
    FileEffect storage db point { db with disk := targetPath storage job.key job.now :: db.disk } ∧
      Retained storage { db with disk := targetPath storage job.key job.now :: db.disk } ∧
      FileAt storage { db with disk := targetPath storage job.key job.now :: db.disk }
      (.fileWritten job) := by
  have hl : Later db { db with disk := targetPath storage job.key job.now :: db.disk } :=
    later_disk _
  refine ⟨⟨hl, fun sid row' h hr => Or.inl ⟨row', h, hr⟩, fun path hp => ?_,
    fun path hp => Or.inl (List.mem_cons_of_mem _ hp)⟩, retained_write hI h,
      ⟨h.belongs.later hl, h.unready⟩,
    fun _ => List.mem_cons_self⟩
  rcases List.mem_cons.mp hp with rfl | hold
  · exact Or.inr ⟨job, h, rfl⟩
  · exact Or.inl hold

theorem own_fail (point : FilePoint) (hI : Retained storage db) (h : JobAt db job)
    (message : String) :
    FileEffect storage db point (markFailed db job message) ∧
    Retained storage (markFailed db job message) := by
  have hsame := sameFiles_markFailed h message
  exact ⟨hsame.effect, hsame.retained hI⟩

theorem own_ready (hI : Retained storage db) {performedAt : ℤ}
    (h : FileAt storage db (.marking job performedAt)) :
    FileEffect storage db (.marking job performedAt) (markReady storage db job performedAt) ∧
      Retained storage (markReady storage db job performedAt) := by
  unfold markReady
  cases hrow : db.snapshots.get? job.snapshotId with
  | none => exact ⟨.refl db, hI⟩
  | some old =>
    have howns : old.generationStatus ≠ .ready →
      FilePoint.owns (.marking job performedAt) job.snapshotId := fun _ => rfl
    exact own_of_append hI (appendsTo_markReady hI h hrow) howns

end Exports

/-! Downloads -/

theorem fileAt_readSnapshot (hI : Retained storage db) (sid : ℕ) :
    FileAt storage db (readSnapshot db sid) := by
  unfold readSnapshot
  cases hrow : db.snapshots.get? sid with
  | none =>
    exact ⟨fun hlost => absurd hlost (show ¬ (404 : ℕ) = 410 by decide),
      fun path hp => (by cases hp)⟩
  | some row =>
    simp only
    split_ifs with hready
    · exact ⟨fun hlost => absurd hlost (show ¬ (409 : ℕ) = 410 by decide),
        fun path hp => (by cases hp)⟩
    · refine ⟨⟨(hI.below sid row hrow).1, fun row' hrow' => ?_⟩, fun row' hrow' => ?_⟩
      · rw [← Option.some.inj (hrow.symm.trans hrow')]
        exact not_not.mp hready
      · rw [Option.some.inj (hrow.symm.trans hrow')]

theorem fileAt_refuseDownload (h : PastRetention storage db sid) :
    FileAt storage db (.answered sid (refuseDownload storage db sid)) := by
  refine ⟨fun _ => h, fun path hp => ?_⟩
  unfold refuseDownload at hp
  split_ifs at hp

theorem own_count (hI : Retained storage db) {path : List String} (h : FileOf storage db sid path) :
    FileEffect storage db (.fileFound sid path) (countDownload db sid path).1 ∧
      Retained storage (countDownload db sid path).1 ∧
      FileAt storage (countDownload db sid path).1 (countDownload db sid path).2 := by
  unfold countDownload
  cases hrow : db.snapshots.get? sid with
  | none =>
    have hpast : PastRetention storage db sid :=
        pastRetention_of_missing hI h.settled fun row _ hrow' => by
      rw [hrow] at hrow'
      cases hrow'
    exact ⟨.refl db, hI, fun _ => hpast, fun path hp => (by cases hp)⟩
  | some old =>
    have happ := appendsTo_countDownload hI h.settled hrow
    have hunready : old.generationStatus ≠ .ready → FilePoint.owns (.fileFound sid path) sid :=
      fun hunready => absurd (h.settled.ready old hrow) hunready
    obtain ⟨heffect, hkept⟩ := own_of_append hI happ hunready
    exact ⟨heffect, hkept, FileOf.later h happ.later⟩

/-- A file that is gone when it is to be sent belongs to an expired generation. -/
theorem fileAt_serve (hI : Retained storage db) {path : List String}
    (h : FileOf storage db sid path) :
    FileAt storage db (.answered sid (if path ∈ db.disk then .file path else .raised)) := by
  refine ⟨fun hlost => ?_, fun path' hp => ?_⟩
  · split_ifs at hlost with hdisk
    · exact absurd hlost id
    · refine pastRetention_of_missing hI h.settled fun row filePath hrow hpath hm => hdisk ?_
      obtain ⟨filePath', hpath', hresolve⟩ := h.resolved row hrow
      rwa [← hresolve, ← Option.some.inj (hpath.symm.trans hpath')]
  · split_ifs at hp
    obtain rfl := DownloadAnswer.file.inj hp
    exact h

/-- **One statement** keeps the invariant and the point of its process. -/
theorem FileStep.own {point' : FilePoint} (hI : Retained storage db) (h : FileAt storage db point)
    (hstep : FileStep storage db point db' point') :
    FileEffect storage db point db' ∧ Retained storage db' ∧ FileAt storage db' point' := by
  cases hstep with
  | stop => exact ⟨.refl db, hI, trivial⟩
  | @tick seconds =>
    exact ⟨.of_disk (later_tick seconds) rfl fun sid row' h hr => Or.inl ⟨row', h, hr⟩,
      retained_tick hI seconds, trivial⟩
  | createSuggestion =>
    exact ⟨.of_disk later_createSuggestion rfl fun sid row' h hr => Or.inl ⟨row', h, hr⟩,
      retained_createSuggestion hI, trivial⟩
  | @deleteSuggestion suggestionId =>
    exact ⟨.of_disk (later_deleteSuggestion suggestionId) rfl
      fun sid row' h hr => Or.inl ⟨row', (get?_deleteSuggestion.mp h).1, hr⟩,
        retained_deleteSuggestion hI suggestionId,
      trivial⟩
  | insert hs =>
    exact ⟨effect_insertSnapshot hI, retained_insertSnapshot hI hs, jobAt_insertSnapshot hI hs⟩
  | write => exact own_write hI h
  | mark => exact ⟨.refl db, hI, h.1, h.2, le_rfl⟩
  | @fail _ job message hpoint =>
    have hjob : JobAt db job := by
      rcases hpoint with rfl | rfl
      · exact h
      · exact h.1
    obtain ⟨heffect, hkept⟩ := own_fail point hI hjob message
    exact ⟨heffect, hkept, trivial⟩
  | ready =>
    obtain ⟨heffect, hkept⟩ := own_ready hI h
    exact ⟨heffect, hkept, trivial⟩
  | @read sid => exact ⟨.refl db, hI, fileAt_readSnapshot hI sid⟩
  | look => exact ⟨.refl db, hI, fileAt_lookForFile hI h.1 h.2⟩
  | refuse => exact ⟨.refl db, hI, fileAt_refuseDownload h⟩
  | count => exact own_count hI h
  | serve => exact ⟨.refl db, hI, fileAt_serve hI h⟩
  | selectLogs => exact ⟨.refl db, hI, fileAt_selectLogs hI⟩
  | selectFiles => exact ⟨.refl db, hI, fileAt_selectFiles hI h db.now⟩
  | purge => exact own_purge hI h
  | skip => exact ⟨.refl db, hI, fun entry hentry => h.1 entry (List.mem_cons_of_mem _ hentry), h.2⟩
  | @purged purged now =>
    exact ⟨.of_disk (later_markPurged purged now) rfl fun sid row' h hr => Or.inl ⟨row', h, hr⟩,
      retained_markPurged hI h, trivial⟩
  | stuck =>
    have hsame := sameFiles_purgeStuck storage db
    exact ⟨hsame.effect, hsame.retained hI, trivial⟩

/-! Who owns a snapshot -/

theorem nextSnapshot_updateSnapshot (db : FileDb) (sid : ℕ) (f : FileRow → FileRow) :
    (updateSnapshot db sid f).nextSnapshot = db.nextSnapshot := by
  unfold updateSnapshot
  cases db.snapshots.get? sid <;> rfl

theorem nextSnapshot_markReady (db : FileDb) (job : ExportJob) (performedAt : ℤ) :
    (markReady storage db job performedAt).nextSnapshot = db.nextSnapshot := by
  unfold markReady
  cases db.snapshots.get? job.snapshotId <;> rfl

theorem nextSnapshot_countDownload (db : FileDb) (sid : ℕ) (path : List String) :
    (countDownload db sid path).1.nextSnapshot = db.nextSnapshot ∧
    ∀ k, ¬ (countDownload db sid path).2.owns k := by
  unfold countDownload
  cases db.snapshots.get? sid <;> exact ⟨rfl, fun _ h => h⟩

theorem nextSnapshot_purgeFile (db : FileDb) (filePath : Option String) :
    (purgeFile storage db filePath).1.nextSnapshot = db.nextSnapshot := by
  unfold purgeFile
  split_ifs
  · rfl
  · cases resolveSnapshotFilePath storage filePath <;> rfl

theorem nextSnapshot_purgeStuck (db : FileDb) :
    (purgeStuck storage db).nextSnapshot = db.nextSnapshot := by
  unfold purgeStuck
  split_ifs <;> rfl

theorem not_owns_lookForFile (filePath : Option String) (k : ℕ) :
    ¬ (lookForFile storage db sid filePath).owns k := by
  unfold lookForFile
  cases resolveSnapshotFilePath storage filePath with
  | none => exact id
  | some path =>
    simp only
    split_ifs <;> exact id

theorem not_owns_readSnapshot (k : ℕ) : ¬ (readSnapshot db sid).owns k := by
  unfold readSnapshot
  cases db.snapshots.get? sid with
  | none => exact id
  | some row =>
    simp only
    split_ifs <;> exact id

/-- A statement owns what its process owned, or the number it takes. -/
theorem FileStep.owns {point' : FilePoint} (hstep : FileStep storage db point db' point') :
    db.nextSnapshot ≤ db'.nextSnapshot ∧
      ∀ sid, point'.owns sid → point.owns sid ∨ sid = db.nextSnapshot ∧
      db.nextSnapshot < db'.nextSnapshot := by
  have hkeep : ∀ {db' : FileDb}, db'.nextSnapshot = db.nextSnapshot →
      (∀ sid, point'.owns sid → point.owns sid) → db.nextSnapshot ≤ db'.nextSnapshot ∧
        ∀ sid, point'.owns sid → point.owns sid ∨ sid = db.nextSnapshot ∧
            db.nextSnapshot < db'.nextSnapshot :=
    fun hsame howns => ⟨hsame.ge, fun sid h => Or.inl (howns sid h)⟩
  cases hstep with
  | insert => exact ⟨Nat.le_succ _, fun sid h => Or.inr ⟨h.symm, Nat.lt_succ_self _⟩⟩
  | write | mark => exact hkeep rfl fun _ h => h
  | fail => exact hkeep (nextSnapshot_updateSnapshot _ _ _) fun _ h => h.elim
  | ready => exact hkeep (nextSnapshot_markReady _ _ _) fun _ h => h.elim
  | read => exact hkeep rfl fun k h => absurd h (not_owns_readSnapshot k)
  | look => exact hkeep rfl fun k h => absurd h (not_owns_lookForFile _ k)
  | @count sid path =>
    obtain ⟨hsame, hnone⟩ := nextSnapshot_countDownload db sid path
    exact hkeep hsame fun k h => absurd h (hnone k)
  | purge => exact hkeep (nextSnapshot_purgeFile _ _) fun _ h => h.elim
  | stuck => exact hkeep (nextSnapshot_purgeStuck db) fun _ h => h.elim
  | _ => exact hkeep rfl fun _ h => h.elim

end Files

section Runs

variable {P : Type}

/-- Nothing has been exported, and no process is at work. -/
structure FileStart (s : Procs P FilePoint FileDb) : Prop where
  idle : ∀ p, s.proc p = .idle
  snapshots : ∀ sid, s.shared.snapshots.get? sid = none
  logs : s.shared.logs = []
  suggestions : ∀ id ∈ s.shared.suggestions, id < s.shared.nextSuggestion

variable [DecidableEq P] (storage : ExportStorage)

/-- The runs of the exports, the downloads and the retention jobs. -/
def fileRuns : Lts (Procs P FilePoint FileDb) (P × FileAction) :=
  Procs.runs FileStart (fileNext storage)

variable {storage}

omit [DecidableEq P] in
theorem retained_start {s : Procs P FilePoint FileDb} (h : FileStart s) :
    Retained storage s.shared := by
  have hrow : ∀ {sid : ℕ} {row : FileRow}, s.shared.snapshots.get? sid ≠ some row := by
    intro sid row hget
    rw [h.snapshots] at hget
    cases hget
  have hlog : ∀ {log : ExportLog}, log ∉ s.shared.logs := by
    intro log hm
    rw [h.logs] at hm
    cases hm
  exact ⟨fun _ _ hget => absurd hget hrow, h.suggestions, fun _ _ _ _ hget => absurd hget hrow,
    fun _ hm => absurd hm hlog, fun _ _ hget => absurd hget hrow, fun _ _ hget => absurd hget hrow,
    fun _ _ hget => absurd hget hrow,
    fun _ hm => absurd hm hlog, fun _ hm => absurd hm hlog, fun _ hm => absurd hm hlog,
      fun _ hm => absurd hm hlog⟩

/-- The invariant, and what holds for every process at its point. -/
theorem fileAt_of_reach {s : Procs P FilePoint FileDb} (h : (fileRuns storage).Reach s) :
    Retained storage s.shared ∧ ∀ p, FileAt storage s.shared (s.proc p) := by
  have howned : ∀ {s : Procs P FilePoint FileDb}, (fileRuns storage).Reach s →
      Procs.Owned FilePoint.owns FileDb.nextSnapshot s := by
    intro s hs
    refine Procs.owned_of_reach (fun hstart p n hown => ?_) (fun hr => (fileNext_step hr).owns) hs
    rw [hstart.idle p] at hown
    exact hown
  have h' := h.and_invariant fun hr => howned hr
  refine Procs.invariant (I := Retained storage)
    (Q := fun _ point db => FileAt storage db point) ?_ ?_ ?_ h'
  · intro s hs
    refine ⟨retained_start hs, fun p => ?_⟩
    rw [hs.idle p]
    trivial
  · intro s p a r hI hAt _ hr
    exact ((fileNext_step hr).own hI (hAt p)).2
  · intro s p a r q hI hAt hok hr hq
    refine (hAt q).other hI ((fileNext_step hr).own hI (hAt p)).1 fun sid hp hq' => ?_
    exact hq (hok.2.unique q p sid hq' hp)

/-- **Exports, downloads and purges agree.** A snapshot counts its downloads. A ready one has
one generation in the log and a file under the root; the file is gone if the generation is
marked as purged, and is there until the retention has passed. -/
theorem retained_of_reach {s : Procs P FilePoint FileDb} (h : (fileRuns storage).Reach s) {sid : ℕ}
    {row : FileRow} (hrow : s.shared.snapshots.get? sid = some row) :
    row.downloadCount = s.shared.logs.countP (·.isDownload sid) ∧
    (row.generationStatus = .ready → ∃ log path, s.shared.logs.filter (·.isGeneration sid) = [log] ∧
      resolveSnapshotFilePath storage row.filePath = some path ∧
      (log.filePurgedAt.isSome → log.expired storage s.shared.now = true ∧ path ∉ s.shared.disk) ∧
      (log.expired storage s.shared.now = false → path ∈ s.shared.disk)) := by
  obtain ⟨hI, -⟩ := fileAt_of_reach h
  refine ⟨hI.counted sid row hrow, fun hready => ?_⟩
  obtain ⟨log, hlog⟩ := List.length_eq_one_iff.mp
    (List.countP_eq_length_filter.symm.trans (hI.generated sid row hrow hready))
  obtain ⟨t, ht⟩ := hI.path sid row hrow hready
  have hmem : log ∈ s.shared.logs.filter (·.isGeneration sid) := by
    rw [hlog]
    exact List.mem_singleton_self _
  obtain ⟨hin, hgen⟩ := List.mem_filter.mp hmem
  obtain ⟨ha, rfl⟩ := isGeneration_iff.mp hgen
  refine ⟨log, storage.resolve (relativePath storage.stamps row.key t), hlog, ?_, fun hp => ?_,
    fun hfresh => ?_⟩
  · rw [ht, resolve_relativePath]
    exact resolveSnapshotFilePath_relativePath row.key t
  · exact ⟨(hI.purged log hin hp).2, hI.gone log hin hp row _ hrow ht⟩
  · exact hI.there log hin ha hfresh row _ hrow ht

/-- **What a download answers.** A snapshot that it has found ready is refused, or fails
because its row or its file is gone, only if the retention has passed or the snapshot has
been deleted since; a file that is served is the one of the snapshot, under the root. A
statement that raises for another reason is no answer here: it ends the request as the
death of its process does. -/
theorem download_refused_only_expired {s : Procs P FilePoint FileDb}
    (h : (fileRuns storage).Reach s) {p : P} {sid : ℕ} {answer : DownloadAnswer}
    (hp : s.proc p = .answered sid answer) :
    (answer.isLost → ∀ row, s.shared.snapshots.get? sid = some row → ∃ log,
      s.shared.logs.filter (·.isGeneration sid) = [log] ∧ log.expired storage s.shared.now = true) ∧
    ∀ path, answer = .file path → storage.root <+: path ∧
      ∀ row, s.shared.snapshots.get? sid = some row →
      resolveSnapshotFilePath storage row.filePath = some path := by
  obtain ⟨hI, hAt⟩ := fileAt_of_reach h
  have hanswered := hAt p
  rw [hp] at hanswered
  refine ⟨fun hlost row hrow => ?_, fun path hpath => ?_⟩
  · have hpast := hanswered.1 hlost
    obtain ⟨log, -, hlog, -⟩ := (retained_of_reach h hrow).2 (hpast.settled.ready row hrow)
    refine ⟨log, hlog, ?_⟩
    have hmem : log ∈ s.shared.logs.filter (·.isGeneration sid) := by
      rw [hlog]
      exact List.mem_singleton_self _
    obtain ⟨hin, hgen⟩ := List.mem_filter.mp hmem
    obtain ⟨ha, hsid⟩ := isGeneration_iff.mp hgen
    exact hpast.expired log hin ha hsid
  · have hfile := hanswered.2 path hpath
    refine ⟨hfile.under_root, fun row hrow => ?_⟩
    obtain ⟨filePath, hpath', hresolve⟩ := hfile.resolved row hrow
    obtain ⟨t, ht⟩ := hI.path sid row hrow (hfile.settled.ready row hrow)
    rw [ht, resolveSnapshotFilePath_relativePath]
    obtain rfl : filePath = relativePath storage.stamps row.key t :=
      Option.some.inj (hpath'.symm.trans ht)
    rw [← resolve_relativePath, hresolve]

end Runs

/-! A run in which a file is served and later purged. -/

section Run

def plainStamps : Stamps where
  month _ := "2026/01"
  second t := s!"{t}"
  month_plain _ := by decide

/-- Exports are kept for sixty days. -/
def exportStorage : ExportStorage where
  retentionExportsDays := 60
  retentionStuckGeneratingHours := 1
  stamps := plainStamps
  root := ["data", "exports"]
  resolve path := ["data", "exports"] ++ (path.toList.splitOn '/').map String.ofList
  resolve_export _ _ := rfl

/-- No export so far. -/
def noExports : Procs ℕ FilePoint FileDb :=
  ⟨{ now := 0, suggestions := [], nextSuggestion := 1, snapshots := .empty, nextSnapshot := 1, logs := [], disk := [] },
    fun _ => .idle⟩

theorem fileStart_noExports : FileStart noExports :=
  ⟨fun _ => rfl, fun _ => rfl, rfl, fun _ h => absurd h List.not_mem_nil⟩

/-- An export by the first process and a download by the second, which has its answer. -/
def exportAndDownload : List (ℕ × FileAction) :=
  [(0, .createSuggestion), (0, .createSnapshot 1 .restock), (0, .run), (0, .run), (0, .run),
    (1, .download 1), (1, .run), (1, .run), (1, .run)]

/-- The retention passes, the job purges the file, and another download has its answer. -/
def purgeAndDownload : List (ℕ × FileAction) :=
  [(1, .run), (0, .tick (61 * 86400)), (0, .purgeExports), (0, .run), (0, .run), (0, .run),
    (2, .download 1), (2, .run), (2, .run)]

theorem run_purgeAndDownload :
    (Procs.exec (fileNext exportStorage) noExports (exportAndDownload ++ purgeAndDownload)).map
    (fun s => ((s.shared.snapshots.get? 1).isSome, s.proc 2)) =
    some (true, .answered 1 (.http 410 "该版本已过期清理（保留期 60 天）")) := by
  decide +kernel

/-- The snapshot is counted once, and its file is gone. -/
theorem retained_of_reach_purged :
    ∃ s : Procs ℕ FilePoint FileDb, ∃ row, (fileRuns exportStorage).Reach s ∧
    s.shared.snapshots.get? 1 = some row ∧
    row.downloadCount = s.shared.logs.countP (·.isDownload 1) := by
  obtain ⟨s, hs, hboth⟩ := Option.map_eq_some_iff.mp run_purgeAndDownload
  obtain ⟨hsome, -⟩ := Prod.mk.inj hboth
  obtain ⟨row, hrow⟩ := Option.isSome_iff_exists.mp hsome
  have hreach : (fileRuns exportStorage).Reach s :=
    Procs.reach_exec (.start fileStart_noExports) hs fun _ _ _ => trivial
  exact ⟨s, row, hreach, hrow, (retained_of_reach hreach hrow).1⟩

/-- The second download is refused, and the retention has passed. -/
theorem download_refused_after_purge :
    ∃ s : Procs ℕ FilePoint FileDb, ∃ log, (fileRuns exportStorage).Reach s ∧
    s.proc 2 = .answered 1 (.http 410 "该版本已过期清理（保留期 60 天）") ∧
    s.shared.logs.filter (·.isGeneration 1) = [log] ∧
    log.expired exportStorage s.shared.now = true := by
  obtain ⟨s, hs, hboth⟩ := Option.map_eq_some_iff.mp run_purgeAndDownload
  obtain ⟨hsome, hanswer⟩ := Prod.mk.inj hboth
  obtain ⟨row, hrow⟩ := Option.isSome_iff_exists.mp hsome
  have hreach : (fileRuns exportStorage).Reach s :=
    Procs.reach_exec (.start fileStart_noExports) hs fun _ _ _ => trivial
  obtain ⟨log, hlog, hexpired⟩ := (download_refused_only_expired hreach hanswer).1 rfl row hrow
  exact ⟨s, log, hreach, hanswer, hlog, hexpired⟩

end Run

end Restock
