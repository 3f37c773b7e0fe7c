/-
# The suggestion tables under concurrent requests

Jobs of `calc_engine`, patches of the generation toggle, requests to archive or to
delete a suggestion and exports of snapshots run side by side, each a sequence of
statements in READ COMMITTED transactions (`engine/runner.py`,
`engine/calc_engine_job.py`, `api/config.py`, `api/suggestion.py`,
`api/snapshot.py`). A statement of one process is `storeNext`; between any two
statements the others may run, and a process may die at any of them.

The statements are listed in `StoreStep` (`storeNext_step`). On each table a statement
locks or writes one row, or commits or drops all rows of the process
(`StoreStep.effect`).
-/
import Restock.SuggestionCounts
import Restock.Lib.Processes
import Restock.Lib.ReadCommitted

namespace Restock

open ReadCommitted

/-! ### The tables -/

/-- A row of `suggestion`. -/
structure SuggestionRow where
  status : SuggestionStatus
  procurementItemCount : ℕ
  restockItemCount : ℕ
deriving DecidableEq, Repr

/-- The number of items to be exported of a type. -/
def SuggestionRow.itemCount (row : SuggestionRow) : SnapshotType → ℕ
  | .procurement => row.procurementItemCount
  | .restock => row.restockItemCount

/-- The condition of the statements on drafts. -/
def SuggestionRow.isDraft (row : SuggestionRow) : Bool := row.status = .draft

/-- The row after an archiving. -/
def SuggestionRow.archived (row : SuggestionRow) : SuggestionRow := { row with status := .archived }

/-- The row that `_persist_suggestion` inserts. -/
def draftRow (items : List SuggestionItem) : SuggestionRow :=
  ⟨.draft, items.countP fun item => 0 < item.purchaseQty,
    items.countP fun item => 0 < item.totalQty⟩

/-- Whether an item is exported. -/
inductive ExportStatus
  | pending | exported
deriving DecidableEq, Repr

/-- An item: of its columns, its suggestion and how it was last exported. -/
structure ItemRow where
  suggestionId : ℕ
  procurementExportStatus : ExportStatus
  procurementExportedSnapshotId : Option ℕ
  restockExportStatus : ExportStatus
  restockExportedSnapshotId : Option ℕ
deriving DecidableEq, Repr

/-- The row of an item as `_persist_suggestion` inserts it. -/
def ItemRow.new (suggestionId : ℕ) : ItemRow := ⟨suggestionId, .pending, none, .pending, none⟩

/-- The status of an item for a type. -/
def ItemRow.exportStatus (row : ItemRow) : SnapshotType → ExportStatus
  | .procurement => row.procurementExportStatus
  | .restock => row.restockExportStatus

/-- The snapshot that has exported an item, for a type. -/
def ItemRow.exportedSnapshotId (row : ItemRow) : SnapshotType → Option ℕ
  | .procurement => row.procurementExportedSnapshotId
  | .restock => row.restockExportedSnapshotId

/-- The item after the export of a snapshot of a type. -/
def ItemRow.exportedIn (row : ItemRow) (snapshotId : ℕ) : SnapshotType → ItemRow
  | .procurement =>
    { row with procurementExportStatus := .exported, procurementExportedSnapshotId := some snapshotId }
  | .restock =>
    { row with restockExportStatus := .exported, restockExportedSnapshotId := some snapshotId }

/-- How far the file of a snapshot is. -/
inductive GenerationStatus
  | generating | ready | failed
deriving DecidableEq, Repr

/-- A snapshot, with the items it was made from. -/
structure SnapshotRow where
  suggestionId : ℕ
  snapshotType : SnapshotType
  version : ℕ
  itemIds : List ℕ
  generationStatus : GenerationStatus
deriving DecidableEq, Repr

/-- The row after the workbook was saved, or could not be. -/
def SnapshotRow.marked (row : SnapshotRow) (saved : Bool) : SnapshotRow :=
  { row with generationStatus := if saved then .ready else .failed }

/-- The tables, the lock of the engine and the sequences. `unswitched` are the
suggestions that were stored and whose job has not switched the generation off since;
the program does not keep them. -/
structure StoreDb (P : Type) where
  suggestions : Table P ℕ SuggestionRow
  items : Table P ℕ ItemRow
  snapshots : Table P ℕ SnapshotRow
  suggestionGenerationEnabled : Table P Unit Bool
  engineLock : Option P
  nextSuggestion : ℕ
  nextItem : ℕ
  nextSnapshot : ℕ
  unswitched : List ℕ

section Store

variable {P : Type} [DecidableEq P]

/-- The transaction of a process commits. -/
def StoreDb.commit (db : StoreDb P) (p : P) : StoreDb P :=
  { db with
    suggestions := db.suggestions.commit p
    items := db.items.commit p
    snapshots := db.snapshots.commit p
    suggestionGenerationEnabled := db.suggestionGenerationEnabled.commit p
    engineLock := if db.engineLock = some p then none else db.engineLock }

/-- The transaction of a process rolls back. -/
def StoreDb.rollback (db : StoreDb P) (p : P) : StoreDb P :=
  { db with
    suggestions := db.suggestions.abort p
    items := db.items.abort p
    snapshots := db.snapshots.abort p
    suggestionGenerationEnabled := db.suggestionGenerationEnabled.abort p
    engineLock := if db.engineLock = some p then none else db.engineLock }

/-! ### The points of the programs -/

/-- `calc_engine_job` with its `run_engine`. -/
inductive EnginePoint
  | locked
  | enabled
  | archiving (todo : List ℕ) (items : List SuggestionItem)
  | inserting (suggestionId count : ℕ)
  | returned (suggestionId : ℕ)
  | switchRead (suggestionId : ℕ) (enabled : Bool)
  | switchWritten (suggestionId : ℕ) (enabled : Bool)

/-- `patch_generation_toggle`; `types` are the counts still to be checked. -/
inductive TogglePoint
  | locked (enabled : Bool)
  | checking (draft : Option (ℕ × SuggestionRow)) (types : List SnapshotType)
  | archiving (todo : List ℕ)
  | written

/-- `archive_suggestion`. -/
inductive ArchivePoint
  | read (suggestionId : ℕ)
  | written

/-- `delete_suggestion`, with the rows that the foreign keys still have to delete. -/
inductive DeletePoint
  | read (suggestionId : ℕ)
  | counted (suggestionId : ℕ)
  | cascading (suggestionId : ℕ) (snapshots items : List ℕ)

/-- `_create_snapshot`. -/
inductive ExportPoint
  | opened (type : SnapshotType) (suggestionId : ℕ) (itemIds : List ℕ)
  | locking (type : SnapshotType) (suggestionId : ℕ) (itemIds todo : List ℕ) (found : ℕ)
  | locked (type : SnapshotType) (suggestionId : ℕ) (itemIds : List ℕ)
  | numbered (row : SnapshotRow)
  | inserted (snapshotId : ℕ) (row : SnapshotRow)
  | writing (snapshotId : ℕ) (row : SnapshotRow)
  | marked (snapshotId : ℕ) (row : SnapshotRow) (saved : Bool) (todo : List ℕ)

/-- Where a process stands. -/
inductive StorePoint
  | idle
  | engine (point : EnginePoint)
  | toggle (point : TogglePoint)
  | archive (point : ArchivePoint)
  | delete (point : DeletePoint)
  | createSnapshot (point : ExportPoint)

/-- The requests and jobs on suggestions. -/
inductive StoreRequest
  | calcEngine
  | toggle (enabled : Bool)
  | archive (suggestionId : ℕ)
  | delete (suggestionId : ℕ)
  | createSnapshot (type : SnapshotType) (suggestionId : ℕ) (itemIds : List ℕ)

/-- A new request, the next statement of the one under way, the end of a computation
between two statements, or the end of the process. A request that is refused ends
like one that dies. -/
inductive StoreAction
  | request (request : StoreRequest)
  | statement
  | compute (items : List SuggestionItem)
  | workbook (saved : Bool)
  | crash

/-! ### The programs -/

/-- The end of a request without a change. -/
def StoreDb.quit (db : StoreDb P) (p : P) :
    Option (StoreDb P × StorePoint) := some (db.rollback p, .idle)

/-- The transaction commits and the process is free. -/
def StoreDb.finish (db : StoreDb P) (p : P) :
    Option (StoreDb P × StorePoint) := some (db.commit p, .idle)

/-- One row of `update(Suggestion).where(Suggestion.status == "draft")`. -/
def StoreDb.archiveDraft (db : StoreDb P) (p : P) (suggestionId : ℕ) : Option (StoreDb P) :=
  (db.suggestions.update p suggestionId SuggestionRow.isDraft fun row => some row.archived).map
    fun suggestions => { db with suggestions := suggestions }

/-- The statements of `run_engine` and of the job that called it. -/
def engineNext (db : StoreDb P) (p : P) :
    EnginePoint → StoreAction → Option (StoreDb P × StorePoint)
  | .locked, .statement =>
    if db.suggestionGenerationEnabled.view p () = some true then some (db, .engine .enabled)
    else db.quit p
  | .enabled, .compute items =>
    if items.isEmpty then db.quit p
    else some (db, .engine (.archiving (db.suggestions.select p SuggestionRow.isDraft) items))
  | .archiving (suggestionId :: todo) items, .statement =>
    (db.archiveDraft p suggestionId).map fun db => (db, .engine (.archiving todo items))
  | .archiving [] items, .statement =>
    some ({ db with
      suggestions := db.suggestions.write p db.nextSuggestion (some (draftRow items))
      nextSuggestion := db.nextSuggestion + 1 },
        .engine (.inserting db.nextSuggestion items.length))
  | .inserting suggestionId (count + 1), .statement =>
    some ({ db with
      items := db.items.write p db.nextItem (some (.new suggestionId))
      nextItem := db.nextItem + 1 }, .engine (.inserting suggestionId count))
  | .inserting suggestionId 0, .statement =>
    some ({ db.commit p with unswitched := suggestionId :: db.unswitched },
      .engine (.returned suggestionId))
  | .returned suggestionId, .statement =>
    (db.suggestionGenerationEnabled.view p ()).map fun enabled =>
      (db, .engine (.switchRead suggestionId enabled))
  -- a column that the session sets to the value it had read is not part of the update
  | .switchRead suggestionId enabled, .statement =>
    (db.suggestionGenerationEnabled.update p () (fun _ => true) fun current =>
        some (if enabled then false else current)).map fun config =>
      ({ db with suggestionGenerationEnabled := config },
        .engine (.switchWritten suggestionId enabled))
  | .switchWritten suggestionId enabled, .statement =>
    some ({ db.commit p with
      unswitched := if enabled then db.unswitched.erase suggestionId else db.unswitched }, .idle)
  | _, _ => none

/-- Some snapshot of the type, of whatever status. -/
def StoreDb.hasSnapshot (db : StoreDb P) (p : P) (suggestionId : ℕ) (type : SnapshotType) : Bool :=
  !(db.snapshots.select p fun row => row.suggestionId = suggestionId ∧
    row.snapshotType = type).isEmpty

/-- The statements of the generation toggle. -/
def toggleNext (db : StoreDb P) (p : P) :
    TogglePoint → StoreAction → Option (StoreDb P × StorePoint)
  | .locked false, .statement =>
    (db.suggestionGenerationEnabled.update p () (fun _ => true)
        fun _ => some false).map fun config =>
      ({ db with suggestionGenerationEnabled := config }, .toggle .written)
  -- the latest draft
  | .locked true, .statement =>
    match (db.suggestions.select p SuggestionRow.isDraft).getLast? with
    | none => some (db, .toggle (.checking none []))
    | some id =>
      some (db, .toggle (.checking ((db.suggestions.view p id).map (id, ·))
        [.procurement, .restock]))
  | .checking draft (type :: types), .statement =>
    if draft.all fun d => !(0 < d.2.itemCount type && !db.hasSnapshot p d.1 type) then
      some (db, .toggle (.checking draft types))
    else db.quit p
  | .checking _ [], .statement =>
    some (db, .toggle (.archiving (db.suggestions.select p SuggestionRow.isDraft)))
  | .archiving (suggestionId :: todo), .statement =>
    (db.archiveDraft p suggestionId).map fun db => (db, .toggle (.archiving todo))
  | .archiving [], .statement =>
    (db.suggestionGenerationEnabled.update p () (fun _ => true)
        fun _ => some true).map fun config =>
      ({ db with suggestionGenerationEnabled := config }, .toggle .written)
  | .written, .statement => db.finish p
  | _, _ => none

/-- The statements of the archiving of one suggestion. -/
def archiveNext (db : StoreDb P) (p : P) :
    ArchivePoint → StoreAction → Option (StoreDb P × StorePoint)
  | .read suggestionId, .statement =>
    (db.suggestions.update p suggestionId (fun _ => true)
        fun row => some row.archived).map fun suggestions =>
      ({ db with suggestions := suggestions }, .archive .written)
  | .written, .statement => db.finish p
  | _, _ => none

/-- The statements of the deletion of a suggestion. -/
def deleteNext (db : StoreDb P) (p : P) :
    DeletePoint → StoreAction → Option (StoreDb P × StorePoint)
  | .read suggestionId, .statement =>
    if (db.snapshots.select p fun row => row.suggestionId = suggestionId).isEmpty then
      some (db, .delete (.counted suggestionId))
    else db.quit p
  | .counted suggestionId, .statement =>
    if (db.suggestions.view p suggestionId).isNone then db.finish p
    else (db.suggestions.update p suggestionId (fun _ => true) fun _ => none).map fun suggestions =>
      ({ db with suggestions := suggestions }, .delete
        (.cascading suggestionId (db.snapshots.select p fun row => row.suggestionId = suggestionId)
          (db.items.select p fun row => row.suggestionId = suggestionId)))
  | .cascading suggestionId (snapshotId :: snapshots) items, .statement =>
    (db.snapshots.update p snapshotId (fun _ => true) fun _ => none).map fun table =>
      ({ db with snapshots := table }, .delete (.cascading suggestionId snapshots items))
  | .cascading suggestionId [] (itemId :: items), .statement =>
    (db.items.update p itemId (fun _ => true) fun _ => none).map fun table =>
      ({ db with items := table }, .delete (.cascading suggestionId [] items))
  | .cascading _ [] [], .statement => db.finish p
  | _, _ => none

/-- `max(version) + 1`. -/
def StoreDb.nextVersion (db : StoreDb P) (p : P) (type : SnapshotType) (suggestionId : ℕ) : ℕ :=
  ((db.snapshots.select p fun row => row.suggestionId = suggestionId ∧ row.snapshotType = type).map
    fun snapshotId => ((db.snapshots.view p snapshotId).map SnapshotRow.version).getD 0).foldr max
      0 + 1

/-- The statements of an export. -/
def exportNext (db : StoreDb P) (p : P) :
    ExportPoint → StoreAction → Option (StoreDb P × StorePoint)
  | .opened type suggestionId itemIds, .statement =>
    some (db, .createSnapshot (.locking type suggestionId itemIds
      ((db.items.select p fun row => row.suggestionId = suggestionId).filter (· ∈ itemIds)) 0))
  | .locking type suggestionId itemIds (itemId :: todo) found, .statement =>
    (db.items.update p itemId (fun row => row.suggestionId = suggestionId) some).map fun items =>
      ({ db with items := items }, .createSnapshot (.locking type suggestionId itemIds todo
        (if (db.items.view p itemId).any fun row => row.suggestionId = suggestionId then found + 1
          else found)))
  | .locking type suggestionId itemIds [] found, .statement =>
    if found = itemIds.length then some (db, .createSnapshot (.locked type suggestionId itemIds))
    else db.quit p
  | .locked type suggestionId itemIds, .statement =>
    some (db, .createSnapshot (.numbered
      ⟨suggestionId, type, db.nextVersion p type suggestionId, itemIds, .generating⟩))
  | .numbered row, .statement =>
    some ({ db with
      snapshots := db.snapshots.write p db.nextSnapshot (some row)
      nextSnapshot := db.nextSnapshot + 1 }, .createSnapshot (.inserted db.nextSnapshot row))
  | .inserted snapshotId row, .statement =>
    some (db.commit p, .createSnapshot (.writing snapshotId row))
  | .writing snapshotId row, .workbook saved =>
    (db.snapshots.update p snapshotId (fun _ => true) fun current =>
        some (current.marked saved)).map fun snapshots =>
      ({ db with snapshots := snapshots }, .createSnapshot
        (.marked snapshotId row saved (if saved then row.itemIds else [])))
  | .marked snapshotId row saved (itemId :: todo), .statement =>
    (db.items.update p itemId (fun _ => true)
      fun item => some (item.exportedIn snapshotId row.snapshotType)).map
      fun items => ({ db with items := items }, .createSnapshot (.marked snapshotId row saved todo))
  | .marked _ _ _ [], .statement => db.finish p
  | _, _ => none

/-- The first statement of a request. -/
def requestNext (db : StoreDb P) (p : P) : StoreRequest → Option (StoreDb P × StorePoint)
  | .calcEngine =>
    if db.engineLock = none then some ({ db with engineLock := some p }, .engine .locked) else none
  | .toggle enabled =>
    (db.suggestionGenerationEnabled.update p () (fun _ => true) some).map fun config =>
      ({ db with suggestionGenerationEnabled := config }, .toggle (.locked enabled))
  | .archive suggestionId =>
    if (db.suggestions.view p suggestionId).any fun row => row.status ≠ .archived then
      some (db, .archive (.read suggestionId))
    else db.quit p
  | .delete suggestionId =>
    if (db.suggestions.view p suggestionId).isSome then some (db, .delete (.read suggestionId))
    else db.quit p
  | .createSnapshot type suggestionId itemIds =>
    (db.suggestions.update p suggestionId (fun _ => true) some).bind fun suggestions =>
      if (db.suggestions.view p suggestionId).any SuggestionRow.isDraft then
        some ({ db with suggestions := suggestions },
          .createSnapshot (.opened type suggestionId itemIds))
      else db.quit p

/-- One statement of a process. -/
def storeNext (db : StoreDb P) (p : P) : StorePoint → StoreAction → Option (StoreDb P × StorePoint)
  | _, .crash => db.quit p
  | .idle, .request request => requestNext db p request
  | .idle, _ => none
  | .engine point, action => engineNext db p point action
  | .toggle point, action => toggleNext db p point action
  | .archive point, action => archiveNext db p point action
  | .delete point, action => deleteNext db p point action
  | .createSnapshot point, action => exportNext db p point action

/-- The interleavings, from the given states. -/
def storeRuns (start : Procs P StorePoint (StoreDb P) → Prop) :
    Lts (Procs P StorePoint (StoreDb P)) (P × StoreAction) :=
  Procs.runs start storeNext

/-! ### What a statement does -/

/-- What each statement does, with what has to hold for it. -/
inductive StoreStep (db : StoreDb P) (p : P) :
    StorePoint → StoreAction → StoreDb P → StorePoint → Prop
  | quit {point action} : StoreStep db p point action (db.rollback p) .idle
  | engineLock (h : db.engineLock = none) :
      StoreStep db p .idle (.request .calcEngine) { db with engineLock := some p } (.engine .locked)
  | engineEnabled (h : db.suggestionGenerationEnabled.view p () = some true) :
      StoreStep db p (.engine .locked) .statement db (.engine .enabled)
  | engineArchive {items} : StoreStep db p (.engine .enabled) (.compute items) db
      (.engine (.archiving (db.suggestions.select p SuggestionRow.isDraft) items))
  | engineArchiveRow {k todo items suggestions}
      (h : db.suggestions.update p k SuggestionRow.isDraft (fun row => some row.archived) =
        some suggestions) :
      StoreStep db p (.engine (.archiving (k :: todo) items))
        .statement { db with suggestions := suggestions }
        (.engine (.archiving todo items))
  | engineInsert {items} : StoreStep db p (.engine (.archiving [] items)) .statement
      { db with
        suggestions := db.suggestions.write p db.nextSuggestion (some (draftRow items))
        nextSuggestion := db.nextSuggestion + 1 }
          (.engine (.inserting db.nextSuggestion items.length))
  | engineInsertItem {id count} : StoreStep db p (.engine (.inserting id (count + 1))) .statement
      { db with
        items := db.items.write p db.nextItem (some (.new id))
        nextItem := db.nextItem + 1 } (.engine (.inserting id count))
  | engineCommit {id} : StoreStep db p (.engine (.inserting id 0)) .statement
      { db.commit p with unswitched := id :: db.unswitched } (.engine (.returned id))
  | switchRead {id enabled} (h : db.suggestionGenerationEnabled.view p () = some enabled) :
      StoreStep db p (.engine (.returned id)) .statement db (.engine (.switchRead id enabled))
  | switchWrite {id enabled config} (h : db.suggestionGenerationEnabled.update p () (fun _ => true)
        (fun current => some (if enabled then false else current)) = some config) :
      StoreStep db p (.engine (.switchRead id enabled))
        .statement { db with suggestionGenerationEnabled := config }
        (.engine (.switchWritten id enabled))
  | switchCommit {id enabled} : StoreStep db p (.engine (.switchWritten id enabled)) .statement
      { db.commit p with unswitched := if enabled then db.unswitched.erase id else db.unswitched }
        .idle
  | toggleLock {enabled config}
      (h : db.suggestionGenerationEnabled.update p () (fun _ => true) some = some config) :
      StoreStep db p .idle (.request (.toggle enabled))
        { db with suggestionGenerationEnabled := config }
        (.toggle (.locked enabled))
  | toggleOff {config}
      (h : db.suggestionGenerationEnabled.update p () (fun _ => true)
        (fun _ => some false) = some config) :
      StoreStep db p (.toggle (.locked false))
        .statement { db with suggestionGenerationEnabled := config }
        (.toggle .written)
  | toggleNoDraft (h : (db.suggestions.select p SuggestionRow.isDraft).getLast? = none) :
      StoreStep db p (.toggle (.locked true)) .statement db (.toggle (.checking none []))
  | toggleDraft {id} (h : (db.suggestions.select p SuggestionRow.isDraft).getLast? = some id) :
      StoreStep db p (.toggle (.locked true)) .statement db
        (.toggle (.checking ((db.suggestions.view p id).map (id, ·)) [.procurement, .restock]))
  | toggleCheck {draft type types}
      (h : ∀ d ∈ draft, 0 < d.2.itemCount type → db.hasSnapshot p d.1 type = true) :
      StoreStep db p (.toggle (.checking draft (type :: types))) .statement db
        (.toggle (.checking draft types))
  | toggleArchive {draft} : StoreStep db p (.toggle (.checking draft [])) .statement db
      (.toggle (.archiving (db.suggestions.select p SuggestionRow.isDraft)))
  | toggleArchiveRow {k todo suggestions}
      (h : db.suggestions.update p k SuggestionRow.isDraft (fun row => some row.archived) =
        some suggestions) :
      StoreStep db p (.toggle (.archiving (k :: todo)))
        .statement { db with suggestions := suggestions }
        (.toggle (.archiving todo))
  | toggleOn {config}
      (h : db.suggestionGenerationEnabled.update p () (fun _ => true)
        (fun _ => some true) = some config) :
      StoreStep db p (.toggle (.archiving []))
        .statement { db with suggestionGenerationEnabled := config }
        (.toggle .written)
  | toggleCommit : StoreStep db p (.toggle .written) .statement (db.commit p) .idle
  | archiveRead {id} : StoreStep db p .idle (.request (.archive id)) db (.archive (.read id))
  | archiveWrite {id suggestions}
      (h : db.suggestions.update p id (fun _ => true) (fun row => some row.archived) =
        some suggestions) :
      StoreStep db p (.archive (.read id)) .statement { db with suggestions := suggestions }
        (.archive .written)
  | archiveCommit : StoreStep db p (.archive .written) .statement (db.commit p) .idle
  | deleteRead {id} (h : (db.suggestions.view p id).isSome) :
      StoreStep db p .idle (.request (.delete id)) db (.delete (.read id))
  | deleteCount {id} (h : db.snapshots.select p (fun row => row.suggestionId = id) = []) :
      StoreStep db p (.delete (.read id)) .statement db (.delete (.counted id))
  | deleteGone {id} (h : db.suggestions.view p id = none) :
      StoreStep db p (.delete (.counted id)) .statement (db.commit p) .idle
  | deleteRow {id suggestions} (hv : db.suggestions.view p id ≠ none)
      (h : db.suggestions.update p id (fun _ => true) (fun _ => none) = some suggestions) :
      StoreStep db p (.delete (.counted id))
        .statement { db with suggestions := suggestions } (.delete
        (.cascading id (db.snapshots.select p fun row => row.suggestionId = id)
          (db.items.select p fun row => row.suggestionId = id)))
  | deleteSnapshot {id k snapshots items table}
      (h : db.snapshots.update p k (fun _ => true) (fun _ => none) = some table) :
      StoreStep db p (.delete (.cascading id (k :: snapshots) items))
        .statement { db with snapshots := table }
        (.delete (.cascading id snapshots items))
  | deleteItem {id k items table}
      (h : db.items.update p k (fun _ => true) (fun _ => none) = some table) :
      StoreStep db p (.delete (.cascading id [] (k :: items))) .statement { db with items := table }
        (.delete (.cascading id [] items))
  | deleteCommit {id} : StoreStep db p (.delete (.cascading id [] [])) .statement
    (db.commit p) .idle
  | exportOpen {type id itemIds suggestions}
      (h : db.suggestions.update p id (fun _ => true) some = some suggestions)
      (hdraft : (db.suggestions.view p id).any SuggestionRow.isDraft = true) :
      StoreStep db p .idle (.request (.createSnapshot type id itemIds))
        { db with suggestions := suggestions }
        (.createSnapshot (.opened type id itemIds))
  | exportSelect {type id itemIds} :
      StoreStep db p (.createSnapshot (.opened type id itemIds)) .statement db
      (.createSnapshot (.locking type id itemIds
        ((db.items.select p fun row => row.suggestionId = id).filter (· ∈ itemIds)) 0))
  | exportLockRow {type id itemIds k todo found found' items}
      (h : db.items.update p k (fun row => row.suggestionId = id) some = some items) :
      StoreStep db p (.createSnapshot (.locking type id itemIds (k :: todo) found)) .statement
        { db with items := items } (.createSnapshot (.locking type id itemIds todo found'))
  | exportLocked {type id itemIds found} :
      StoreStep db p (.createSnapshot (.locking type id itemIds [] found))
      .statement db (.createSnapshot (.locked type id itemIds))
  | exportNumber {type id itemIds} :
      StoreStep db p (.createSnapshot (.locked type id itemIds)) .statement db
      (.createSnapshot (.numbered ⟨id, type, db.nextVersion p type id, itemIds, .generating⟩))
  | exportInsert {row} : StoreStep db p (.createSnapshot (.numbered row)) .statement
      { db with
        snapshots := db.snapshots.write p db.nextSnapshot (some row)
        nextSnapshot := db.nextSnapshot + 1 } (.createSnapshot (.inserted db.nextSnapshot row))
  | exportCommit {sid row} :
      StoreStep db p (.createSnapshot (.inserted sid row)) .statement (db.commit p)
      (.createSnapshot (.writing sid row))
  | exportMark {sid row saved snapshots}
      (h : db.snapshots.update p sid (fun _ => true) (fun current => some (current.marked saved)) =
        some snapshots) :
      StoreStep db p (.createSnapshot (.writing sid row)) (.workbook saved)
        { db with snapshots := snapshots }
        (.createSnapshot (.marked sid row saved (if saved then row.itemIds else [])))
  | exportPoint {sid row saved k todo items} (h : db.items.update p k (fun _ => true)
        (fun item => some (item.exportedIn sid row.snapshotType)) = some items) :
      StoreStep db p (.createSnapshot (.marked sid row saved (k :: todo)))
        .statement { db with items := items }
        (.createSnapshot (.marked sid row saved todo))
  | exportFinish {sid row saved} :
      StoreStep db p (.createSnapshot (.marked sid row saved [])) .statement (db.commit p) .idle

/-- The sequences are ahead of the rows. -/
structure StoreDb.Fresh (db : StoreDb P) : Prop where
  suggestions : db.suggestions.Fresh db.nextSuggestion
  items : db.items.Fresh db.nextItem
  snapshots : db.snapshots.Fresh db.nextSnapshot

/-- What a statement of `p` does to the tables and the lock. -/
structure StoreEffect (p : P) (db db' : StoreDb P) : Prop where
  suggestions : Table.Moves p db.suggestions db'.suggestions
  items : Table.Moves p db.items db'.items
  snapshots : Table.Moves p db.snapshots db'.snapshots
  config : Table.Moves p db.suggestionGenerationEnabled db'.suggestionGenerationEnabled
  engineLock : ∀ q, q ≠ p → db.engineLock = some q → db'.engineLock = some q
  nextSnapshot : db.nextSnapshot ≤ db'.nextSnapshot

variable {db db' : StoreDb P} {p : P}

theorem StoreEffect.refl : StoreEffect p db db :=
  ⟨.same, .same, .same, .same, fun _ _ h => h, le_rfl⟩

theorem engineLock_release {q : P} (hq : q ≠ p) (h : db.engineLock = some q) :
    (if db.engineLock = some p then none else db.engineLock) = some q := by
  rw [if_neg (by rw [h]; simpa using hq)]
  exact h

theorem StoreEffect.rollback : StoreEffect p db (db.rollback p) :=
  ⟨.abort, .abort, .abort, .abort, fun _ hq h => engineLock_release hq h, le_rfl⟩

theorem StoreDb.Fresh.rollback (h : db.Fresh) : (db.rollback p).Fresh :=
  ⟨h.suggestions.abort p, h.items.abort p, h.snapshots.abort p⟩

section Updates

variable {k : ℕ}

/-- A statement on the suggestions. -/
theorem StoreEffect.updateSuggestion {cond : SuggestionRow → Bool}
    {f : SuggestionRow → Option SuggestionRow} {suggestions : Table P ℕ SuggestionRow}
    (h : db.suggestions.update p k cond f = some suggestions) :
    StoreEffect p db { db with suggestions := suggestions } :=
  ⟨Table.moves_update h, .same, .same, .same, fun _ _ h => h, le_rfl⟩

theorem StoreEffect.updateItem {cond : ItemRow → Bool} {f : ItemRow → Option ItemRow}
    {items : Table P ℕ ItemRow} (h : db.items.update p k cond f = some items) :
    StoreEffect p db { db with items := items } :=
  ⟨.same, Table.moves_update h, .same, .same, fun _ _ h => h, le_rfl⟩

theorem StoreEffect.updateSnapshot {cond : SnapshotRow → Bool}
    {f : SnapshotRow → Option SnapshotRow} {snapshots : Table P ℕ SnapshotRow}
    (h : db.snapshots.update p k cond f = some snapshots) :
    StoreEffect p db { db with snapshots := snapshots } :=
  ⟨.same, .same, Table.moves_update h, .same, fun _ _ h => h, le_rfl⟩

theorem StoreEffect.updateConfig {cond : Bool → Bool} {f : Bool → Option Bool}
    {config : Table P Unit Bool}
    (h : db.suggestionGenerationEnabled.update p () cond f = some config) :
    StoreEffect p db { db with suggestionGenerationEnabled := config } :=
  ⟨.same, .same, .same, Table.moves_update h, fun _ _ h => h, le_rfl⟩

end Updates

/-! ### The statements -/

section Cases

variable {point point' : StorePoint} {action : StoreAction} {r : StoreDb P × StorePoint}

theorem quit_step (h : db.quit p = some r) : StoreStep db p point action r.1 r.2 := by
  rw [← Option.some.inj h]
  exact .quit

theorem engineNext_step {e : EnginePoint} (h : engineNext db p e action = some r) :
    StoreStep db p (.engine e) action r.1 r.2 := by
  unfold engineNext at h
  split at h
  · split_ifs at h with hv
    · rw [← Option.some.inj h]
      exact .engineEnabled hv
    · exact quit_step h
  · split_ifs at h
    · exact quit_step h
    · rw [← Option.some.inj h]
      exact .engineArchive
  · obtain ⟨db', hdb, rfl⟩ := Option.map_eq_some_iff.mp h
    obtain ⟨suggestions, hu, rfl⟩ := Option.map_eq_some_iff.mp hdb
    exact .engineArchiveRow hu
  · rw [← Option.some.inj h]
    exact .engineInsert
  · rw [← Option.some.inj h]
    exact .engineInsertItem
  · rw [← Option.some.inj h]
    exact .engineCommit
  · obtain ⟨enabled, hv, rfl⟩ := Option.map_eq_some_iff.mp h
    exact .switchRead hv
  · obtain ⟨config, hu, rfl⟩ := Option.map_eq_some_iff.mp h
    exact .switchWrite hu
  · rw [← Option.some.inj h]
    exact .switchCommit
  · cases h

theorem toggleNext_step {e : TogglePoint} (h : toggleNext db p e action = some r) :
    StoreStep db p (.toggle e) action r.1 r.2 := by
  unfold toggleNext at h
  split at h
  · obtain ⟨config, hu, rfl⟩ := Option.map_eq_some_iff.mp h
    exact .toggleOff hu
  · split at h
    · rename_i hnone
      rw [← Option.some.inj h]
      exact .toggleNoDraft hnone
    · rename_i id hid
      rw [← Option.some.inj h]
      exact .toggleDraft hid
  · split_ifs at h with hc
    · rw [← Option.some.inj h]
      refine .toggleCheck fun d hd hpos => ?_
      have hd' := (Option.all_eq_true _ _).mp hc d hd
      simpa [hpos] using hd'
    · exact quit_step h
  · rw [← Option.some.inj h]
    exact .toggleArchive
  · obtain ⟨db', hdb, rfl⟩ := Option.map_eq_some_iff.mp h
    obtain ⟨suggestions, hu, rfl⟩ := Option.map_eq_some_iff.mp hdb
    exact .toggleArchiveRow hu
  · obtain ⟨config, hu, rfl⟩ := Option.map_eq_some_iff.mp h
    exact .toggleOn hu
  · rw [← Option.some.inj h]
    exact .toggleCommit
  · cases h

theorem archiveNext_step {e : ArchivePoint} (h : archiveNext db p e action = some r) :
    StoreStep db p (.archive e) action r.1 r.2 := by
  unfold archiveNext at h
  split at h
  · obtain ⟨suggestions, hu, rfl⟩ := Option.map_eq_some_iff.mp h
    exact .archiveWrite hu
  · rw [← Option.some.inj h]
    exact .archiveCommit
  · cases h

theorem deleteNext_step {e : DeletePoint} (h : deleteNext db p e action = some r) :
    StoreStep db p (.delete e) action r.1 r.2 := by
  unfold deleteNext at h
  split at h
  · split_ifs at h with hc
    · rw [← Option.some.inj h]
      exact .deleteCount (List.isEmpty_iff.mp hc)
    · exact quit_step h
  · split_ifs at h with hc
    · rw [← Option.some.inj h]
      exact .deleteGone (Option.isNone_iff_eq_none.mp hc)
    · obtain ⟨suggestions, hu, rfl⟩ := Option.map_eq_some_iff.mp h
      exact .deleteRow (fun hv => hc (by rw [hv]; rfl)) hu
  · obtain ⟨table, hu, rfl⟩ := Option.map_eq_some_iff.mp h
    exact .deleteSnapshot hu
  · obtain ⟨table, hu, rfl⟩ := Option.map_eq_some_iff.mp h
    exact .deleteItem hu
  · rw [← Option.some.inj h]
    exact .deleteCommit
  · cases h

theorem exportNext_step {e : ExportPoint} (h : exportNext db p e action = some r) :
    StoreStep db p (.createSnapshot e) action r.1 r.2 := by
  unfold exportNext at h
  split at h
  · rw [← Option.some.inj h]
    exact .exportSelect
  · obtain ⟨items, hu, rfl⟩ := Option.map_eq_some_iff.mp h
    exact .exportLockRow hu
  · split_ifs at h
    · rw [← Option.some.inj h]
      exact .exportLocked
    · exact quit_step h
  · rw [← Option.some.inj h]
    exact .exportNumber
  · rw [← Option.some.inj h]
    exact .exportInsert
  · rw [← Option.some.inj h]
    exact .exportCommit
  · obtain ⟨snapshots, hu, rfl⟩ := Option.map_eq_some_iff.mp h
    exact .exportMark hu
  · obtain ⟨items, hu, rfl⟩ := Option.map_eq_some_iff.mp h
    exact .exportPoint hu
  · rw [← Option.some.inj h]
    exact .exportFinish
  · cases h

theorem requestNext_step {request : StoreRequest} (h : requestNext db p request = some r) :
    StoreStep db p .idle (.request request) r.1 r.2 := by
  unfold requestNext at h
  split at h
  · split_ifs at h with hl
    rw [← Option.some.inj h]
    exact .engineLock hl
  · obtain ⟨config, hu, rfl⟩ := Option.map_eq_some_iff.mp h
    exact .toggleLock hu
  · split_ifs at h
    · rw [← Option.some.inj h]
      exact .archiveRead
    · exact quit_step h
  · split_ifs at h with hv
    · rw [← Option.some.inj h]
      exact .deleteRead hv
    · exact quit_step h
  · obtain ⟨suggestions, hu, hr⟩ := Option.bind_eq_some_iff.mp h
    split_ifs at hr with hd
    · rw [← Option.some.inj hr]
      exact .exportOpen hu hd
    · exact quit_step hr

/-- **Every statement** is one of the listed ones. -/
theorem storeNext_step (h : storeNext db p point action = some r) :
    StoreStep db p point action r.1 r.2 := by
  unfold storeNext at h
  split at h
  · exact quit_step h
  · exact requestNext_step h
  · cases h
  · exact engineNext_step h
  · exact toggleNext_step h
  · exact archiveNext_step h
  · exact deleteNext_step h
  · exact exportNext_step h

end Cases

/-! ### Effects -/

section Effects

variable {point point' : StorePoint} {action : StoreAction}

theorem StoreStep.effect (hf : db.Fresh) (h : StoreStep db p point action db' point') :
    StoreEffect p db db' := by
  cases h with
  | quit => exact .rollback
  | engineLock hl =>
    refine ⟨.same, .same, .same, .same, fun q _ hq => ?_, le_rfl⟩
    rw [hl] at hq
    cases hq
  | engineInsert => exact ⟨.write hf.suggestions.free, .same, .same, .same, fun _ _ h => h, le_rfl⟩
  | engineInsertItem => exact ⟨.same, .write hf.items.free, .same, .same, fun _ _ h => h, le_rfl⟩
  | exportInsert =>
    exact ⟨.same, .same, .write hf.snapshots.free, .same, fun _ _ h => h, Nat.le_succ _⟩
  | engineCommit | switchCommit | toggleCommit | archiveCommit | deleteGone | deleteCommit | exportCommit
  | exportFinish =>
    exact ⟨.commit, .commit, .commit, .commit, fun _ hq h => engineLock_release hq h, le_rfl⟩
  | engineArchiveRow h | toggleArchiveRow h | archiveWrite h | deleteRow _ h =>
    exact .updateSuggestion h
  | exportOpen h _ => exact .updateSuggestion h
  | switchWrite h | toggleLock h | toggleOff h | toggleOn h => exact .updateConfig h
  | deleteSnapshot h | exportMark h => exact .updateSnapshot h
  | deleteItem h | exportLockRow h | exportPoint h => exact .updateItem h
  | _ => exact .refl

theorem StoreStep.fresh (hf : db.Fresh) (h : StoreStep db p point action db' point') :
    db'.Fresh := by
  cases h with
  | quit => exact hf.rollback
  | engineInsert => exact ⟨hf.suggestions.insert _, hf.items, hf.snapshots⟩
  | engineInsertItem => exact ⟨hf.suggestions, hf.items.insert _, hf.snapshots⟩
  | exportInsert => exact ⟨hf.suggestions, hf.items, hf.snapshots.insert _⟩
  | engineCommit | switchCommit | toggleCommit | archiveCommit | deleteGone | deleteCommit | exportCommit
  | exportFinish => exact ⟨hf.suggestions.commit p, hf.items.commit p, hf.snapshots.commit p⟩
  | engineArchiveRow h | toggleArchiveRow h | archiveWrite h | deleteRow _ h =>
    exact ⟨hf.suggestions.update h, hf.items, hf.snapshots⟩
  | exportOpen h _ => exact ⟨hf.suggestions.update h, hf.items, hf.snapshots⟩
  | deleteSnapshot h | exportMark h => exact ⟨hf.suggestions, hf.items, hf.snapshots.update h⟩
  | deleteItem h | exportLockRow h | exportPoint h =>
    exact ⟨hf.suggestions, hf.items.update h, hf.snapshots⟩
  | engineLock _ | switchWrite _ | toggleLock _ | toggleOff _ | toggleOn _ =>
    exact ⟨hf.suggestions, hf.items, hf.snapshots⟩
  | _ => exact hf

end Effects

end Store

end Restock
