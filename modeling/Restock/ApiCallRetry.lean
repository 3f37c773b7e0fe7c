/-
# Retrying calls in the background (`tasks/jobs/api_call_retry.py`, `api/monitor.py`)

A job loads up to fifty failed calls and, one after the other, sends each again
(`_retry_one`) and marks its row with what came of it. The rows are loaded once: what a
job knows of a row may be old when its turn comes, and the marks are made by id whatever
the row says by then. `retry_call` puts a row back in the queue, after a check of its own
reading.

If no call is sent while another job has it under way, or after it could no longer be
retried, no job is cut off while it has the call, and no `retry_call` queues a row that
was settled since it was read, then a settled row stays as it is and no call is sent more
than five times (`retry_of_reach`). Two jobs that have loaded the same row can queue it
again after it was resolved, and six can send it six times (`retry_reopened`).
-/
import Restock.RetryCall
import Restock.Lib.Processes
import Restock.Lib.ReadCommitted

namespace Restock

open ReadCommitted

/-! ### Rows -/

def supportedEndpoints : List String :=
  ["/api/commodity/pageList.json", "/api/order/api/product/pageList.json",
    "/api/warehouseManage/warehouseList.json", "/api/warehouseManage/warehouseItemList.json",
    "/api/warehouseInOut/outRecords.json",
    "/api/packageShip/v1/getPackagePage.json", "/api/shop/pageList.json"]

/-- The errors of the client. -/
inductive SaihuErrorKind
  | api | authExpired | rateLimited | biz | network
deriving DecidableEq, Repr

/-- `_is_transient_retry_error`. -/
def SaihuErrorKind.transient : SaihuErrorKind → Bool
  | .rateLimited | .network => true
  | _ => false

/-- What comes of sending a call again. -/
inductive PostResult
  | ok
  | apiError (kind : SaihuErrorKind) (message : String) (code : Option ℤ)
    (requestId : Option String)
  | error (text : String)

/-- `_format_retry_error`. -/
def formatRetryError (message : String) (code : Option ℤ) (requestId : Option String) : String :=
  " ".intercalate ([message] ++ (code.map fun n => s!"code={n}").toList ++
    ((requestId.filter (· ≠ "")).map fun id => s!"request_id={id}").toList)

namespace ApiCallLog

/-- The row is settled. -/
def final (row : ApiCallLog) :
    Bool := row.retryStatus = some .resolved || row.retryStatus = some .permanent

/-- `_is_retryable_row`. -/
def retryable (row : ApiCallLog) : Bool :=
  row.saihuCode = some 40019 && row.endpoint ∈ supportedEndpoints &&
    (match row.requestPayload with | some (.object _) => true | _ => false) &&
      row.retrySourceLogId.isNone &&
    !row.final && row.retryStatus ≠ some .unsupported && row.autoRetryAttempts <
      maxAutoRetryAttempts

/-- The conditions of `_load_retry_candidates` on the row. -/
def candidate (row : ApiCallLog) (callIds : Option (List ℕ)) (now : ℤ) : Bool :=
  row.saihuCode = some 40019 && row.requestPayload.isSome && row.retrySourceLogId.isNone &&
    row.autoRetryAttempts < maxAutoRetryAttempts &&
      (row.retryStatus.isNone || row.retryStatus = some .queued) &&
    (callIds.isSome || (row.retryStatus = some .queued && row.nextRetryAt.all (· ≤ now)))

/-- `_mark_resolved`. -/
def markResolved (row : ApiCallLog) (now : ℤ) : ApiCallLog :=
  { row with
    retryStatus := some .resolved
    autoRetryAttempts := row.autoRetryAttempts + 1
    resolvedAt := some now
    lastRetryError := none
    nextRetryAt := none }

/-- `_mark_retry_transient`, with the attempts of the row that was loaded. -/
def markRetryTransient (row : ApiCallLog) (loadedAttempts : ℤ) (error : String) (now : ℤ) :
    ApiCallLog :=
  { row with
    retryStatus := some (if maxAutoRetryAttempts ≤ loadedAttempts + 1 then .permanent else .queued)
    autoRetryAttempts := row.autoRetryAttempts + 1
    nextRetryAt := if maxAutoRetryAttempts ≤ loadedAttempts + 1 then none else some now
    lastRetryError := some (String.ofList (error.toList.take 2000)) }

/-- `_mark_permanent`. -/
def markPermanent (row : ApiCallLog) (error : String) : ApiCallLog :=
  { row with
    retryStatus := some .permanent
    autoRetryAttempts := row.autoRetryAttempts + 1
    nextRetryAt := none
    lastRetryError := some (String.ofList (error.toList.take 2000)) }

/-- The row after `_retry_one` of a job that has loaded `loaded`. -/
def marked (row loaded : ApiCallLog) (now : ℤ) : PostResult → ApiCallLog
  | .ok => row.markResolved now
  | .apiError kind message code requestId =>
    if kind.transient then
      row.markRetryTransient loaded.autoRetryAttempts (formatRetryError message code requestId) now
    else row.markPermanent (formatRetryError message code requestId)
  | .error text => row.markPermanent text

/-- The row after the flush of `retry_call`, which has read `loaded`: columns that do not
change are not written. -/
def flushed (row loaded : ApiCallLog) (now : ℤ) : ApiCallLog :=
  { row with
    retryStatus := if loaded.retryStatus = some .queued then row.retryStatus else some .queued
    nextRetryAt := if loaded.nextRetryAt = some now then row.nextRetryAt else some now }

theorem autoRetryAttempts_marked (row loaded : ApiCallLog) (now : ℤ) (result : PostResult) :
    (row.marked loaded now result).autoRetryAttempts = row.autoRetryAttempts + 1 := by
  cases result with
  | ok => rfl
  | apiError kind message code requestId =>
    simp only [marked]
    split_ifs
    · rfl
    · rfl
  | error text => rfl

theorem retryable_spec {row : ApiCallLog} (h : row.retryable = true) :
    row.final = false ∧ row.autoRetryAttempts < maxAutoRetryAttempts := by
  simp only [retryable, Bool.and_eq_true, Bool.not_eq_true', decide_eq_true_eq] at h
  exact ⟨h.1.1.2, h.2⟩

theorem final_eq_of_status {row row' : ApiCallLog} (h : row'.retryStatus = row.retryStatus) :
    row'.final = row.final := by
  simp [final, h]

end ApiCallLog

/-! ### The program -/

/-- Where a job or a request stands. A job has the calls that it has still to look at. -/
inductive RetryPoint
  | idle
  | job (rest : List (ℕ × ApiCallLog))
  /-- The call is not busy, and the job waits before it sends it. -/
  | sleeping (id : ℕ) (row : ApiCallLog) (rest : List (ℕ × ApiCallLog))
  | posting (id : ℕ) (row : ApiCallLog) (rest : List (ℕ × ApiCallLog))
  | marking (id : ℕ) (row : ApiCallLog) (result : PostResult) (rest : List (ℕ × ApiCallLog))
  | marked (id : ℕ) (rest : List (ℕ × ApiCallLog))
  /-- `retry_call` has read the row and will write it. -/
  | queueing (id : ℕ) (row : ApiCallLog)
  | enqueueing (id : ℕ)

inductive RetryAction
  | start (callIds : Option (List ℕ)) (now : ℤ)
  /-- The answer of `_has_active_related_task`. -/
  | busy (active : Bool)
  | answer (result : PostResult)
  | statement (now : ℤ)
  | request (callId : ℕ)
  /-- The insert of `enqueue_task` is taken, or the session is rolled back. -/
  | enqueue (inserted : Bool)
  | crash

/-- The call log, with how often `_retry_one` was executed for each row. -/
structure RetryDb (P : Type) where
  logs : Table P ℕ ApiCallLog
  executions : ℕ → ℕ

section Retry

variable {P : Type} [DecidableEq P] (calledAt : ℕ → ℤ)

def RetryDb.commit (db : RetryDb P) (p : P) : RetryDb P := { db with logs := db.logs.commit p }

def RetryDb.rollback (db : RetryDb P) (p : P) : RetryDb P := { db with logs := db.logs.abort p }

def RetryDb.execute (db : RetryDb P) (id : ℕ) : RetryDb P :=
  { db with executions := Function.update db.executions id (db.executions id + 1) }

/-- `_load_retry_candidates`. -/
def loadRetryCandidates (logs : Table P ℕ ApiCallLog) (p : P)
    (callIds : Option (List ℕ)) (now : ℤ) : List (ℕ × ApiCallLog) :=
  if callIds = some [] then []
  else
    let found := (logs.select p fun row => row.candidate callIds now).filter fun id =>
      callIds.all (id ∈ ·)
    let oldestFirst := found.insertionSort fun i j => calledAt i < calledAt j ∨
      (calledAt i = calledAt j ∧ i ≤ j)
    (oldestFirst.take 50).filterMap fun id => (logs.view p id).map (id, ·)

/-- One statement of a job or of a request. -/
def retryNext (db : RetryDb P) (p : P) (point : RetryPoint) (action : RetryAction) :
    Option (RetryDb P × RetryPoint) :=
  match action, point with
  | .crash, _ => some (db.rollback p, .idle)
  | .start callIds now, .idle =>
    some (db, .job (loadRetryCandidates calledAt db.logs p callIds now))
  | .statement _, .job [] => some (db, .idle)
  | .statement _, .job ((_, row) :: rest) => if row.retryable then none else some (db, .job rest)
  | .busy active, .job ((id, row) :: rest) =>
    if row.retryable then some (db, if active then .job rest else .sleeping id row rest) else none
  | .statement _, .sleeping id row rest => some (db.execute id, .posting id row rest)
  | .answer result, .posting id row rest => some (db, .marking id row result rest)
  | .statement now, .marking id row result rest =>
    (db.logs.update p id (fun _ => true)
        fun stored => some (stored.marked row now result)).map fun logs =>
      ({ db with logs := logs }, .marked id rest)
  | .statement _, .marked _ rest => some (db.commit p, .job rest)
  | .request callId, .idle =>
    match db.logs.view p callId with
    | some row => some (db, if row.retryRefusal.isNone then .queueing callId row else .idle)
    | none => some (db, .idle)
  | .statement now, .queueing id row =>
    (db.logs.update p id (fun _ => true)
        fun stored => some (stored.flushed row now)).map fun logs =>
      ({ db with logs := logs }, .enqueueing id)
  | .enqueue inserted, .enqueueing _ =>
    some (if inserted then db.commit p else db.rollback p, .idle)
  | _, _ => none

/-- The interleavings, from the given states. -/
def retryRuns (start : Procs P RetryPoint (RetryDb P) → Prop) :
    Lts (Procs P RetryPoint (RetryDb P)) (P × RetryAction) :=
  Procs.runs start (retryNext calledAt)

/-- The execution of `_retry_one` for the call is under way. -/
def RetryPoint.executing (id : ℕ) : RetryPoint → Prop
  | .posting k _ _ | .marking k _ _ _ | .marked k _ => k = id
  | _ => False

/-- Nothing is under way, and the call is logged. -/
structure RetryStart (id : ℕ) (s : Procs P RetryPoint (RetryDb P)) : Prop where
  idle : ∀ p, s.proc p = .idle
  locks : s.shared.logs.locks = .empty
  executions : s.shared.executions id = 0
  row : ∃ row, s.shared.logs.committed.get? id = some row ∧ 0 ≤ row.autoRetryAttempts

/-- The condition on the steps of a run, for a call. -/
def RetryGuarded (id : ℕ) (a : P × RetryAction) (s : Procs P RetryPoint (RetryDb P)) : Prop :=
  match a.2, s.proc a.1 with
  | .statement _, .sleeping k _ _ => k = id → (∀ q, ¬ (s.proc q).executing id) ∧
      ∀ row, s.shared.logs.committed.get? id = some row → row.retryable = true
  | .statement _, .queueing k read => k = id → read.retryStatus = some .queued ∨
      ∀ row, s.shared.logs.committed.get? id = some row → row.final = false
  | .crash, point => ¬ point.executing id
  | _, _ => True

/-! ### What a statement does -/

variable {calledAt} {id : ℕ} {db : RetryDb P} {p q : P} {point : RetryPoint} {action : RetryAction}

/-- What a job or a request that has the row leaves of it. -/
def RetryPoint.Leaves (id : ℕ) (row row' : ApiCallLog) : RetryPoint → Prop
  | .marked k _ => k = id ∧ row'.autoRetryAttempts = row.autoRetryAttempts + 1
  | .enqueueing k => k = id ∧ row'.autoRetryAttempts = row.autoRetryAttempts ∧
      (row'.retryStatus = row.retryStatus ∨ (row.final = false ∧ row'.retryStatus = some .queued))
  | _ => False

/-- What holds for a job or a request at a point. -/
structure RetryAt (id : ℕ) (p : P) (point : RetryPoint) (db : RetryDb P) : Prop where
  held : ∀ v, db.logs.locks.get? id = some (p, v) → ∃ row row', v = some row' ∧
    db.logs.committed.get? id = some row ∧ point.Leaves id row row'
  has : ∀ rest, point = .marked id rest → ∃ v, db.logs.locks.get? id = some (p, v)

/-- What a statement does to the row, and to the number of executions. -/
inductive RetryEffect (id : ℕ) (db : RetryDb P) (point : RetryPoint) (action : RetryAction)
    (r : RetryDb P × RetryPoint) : Prop
  | keeps : r.1.logs.committed.get? id = db.logs.committed.get? id →
      r.1.executions id = db.executions id → (r.2.executing id ↔ point.executing id) →
      RetryEffect id db point action r
  | begins : r.1.logs.committed = db.logs.committed → r.1.executions id = db.executions id + 1 →
      r.2.executing id → (∃ row rest now, point = .sleeping id row rest ∧ action = .statement now) →
      RetryEffect id db point action r
  | marks {row row'} : point.executing id → ¬ r.2.executing id →
      r.1.executions id = db.executions id → db.logs.committed.get? id = some row →
      r.1.logs.committed.get? id = some row' →
      row'.autoRetryAttempts = row.autoRetryAttempts + 1 → RetryEffect id db point action r
  | queues {row row'} : ¬ point.executing id → ¬ r.2.executing id →
      r.1.executions id = db.executions id → db.logs.committed.get? id = some row →
      r.1.logs.committed.get? id = some row' →
      row'.autoRetryAttempts = row.autoRetryAttempts →
      (row'.retryStatus = row.retryStatus ∨ (row.final = false ∧ row'.retryStatus = some .queued)) →
      RetryEffect id db point action r

theorem retryNext_moves {r : RetryDb P × RetryPoint}
    (h : retryNext calledAt db p point action = some r) : Table.Moves p db.logs r.1.logs := by
  unfold retryNext at h
  split at h
  case h_1 =>
    rw [← Option.some.inj h]
    exact .abort
  case h_2 | h_3 | h_6 | h_7 =>
    rw [← Option.some.inj h]
    exact .same
  case h_4 | h_5 =>
    split at h
    · cases h <;> exact .same
    · cases h <;> exact .same
  case h_8 | h_11 =>
    obtain ⟨logs, hu, rfl⟩ := Option.map_eq_some_iff.mp h
    exact Table.moves_update hu
  case h_9 =>
    rw [← Option.some.inj h]
    exact .commit
  case h_10 =>
    split at h
    · rw [← Option.some.inj h]
      exact .same
    · rw [← Option.some.inj h]
      exact .same
  case h_12 inserted _ =>
    rw [← Option.some.inj h]
    cases inserted with
    | true => exact .commit
    | false => exact .abort
  case h_13 => cases h

omit [DecidableEq P] in
theorem RetryAt.not_held (hat : RetryAt id p point db)
    (h : ∀ row row', ¬ point.Leaves id row row') : ∀ v, db.logs.locks.get? id ≠ some (p, v) := by
  intro v hv
  obtain ⟨row, row', -, -, hleaves⟩ := hat.held v hv
  exact h row row' hleaves

omit [DecidableEq P] in
theorem RetryAt.of_not_held (h : ∀ v, db.logs.locks.get? id ≠ some (p, v))
    (hp : ∀ rest, point ≠ .marked id rest) : RetryAt id p point db :=
  ⟨fun v hv => absurd hv (h v), fun rest hrest => absurd hrest (hp rest)⟩

/-- The `UPDATE` of one who does not have the row. -/
theorem update_logs {logs logs' : Table P ℕ ApiCallLog} {k : ℕ} {row : ApiCallLog}
    {f : ApiCallLog → ApiCallLog} (hno : ∀ v, logs.locks.get? id ≠ some (p, v))
    (hrow : logs.committed.get? id = some row)
    (hu : logs.update p k (fun _ => true) (fun stored => some (f stored)) = some logs') :
    logs'.committed = logs.committed ∧ (k = id → logs'.locks.get? id = some (p, some (f row))) ∧
      (k ≠ id → ∀ v, logs'.locks.get? id ≠ some (p, v)) := by
  obtain ⟨-, ⟨stored, hview, -, rfl⟩ | ⟨hnone, rfl⟩⟩ := Table.update_cases hu
  · refine ⟨rfl, fun hk => ?_, fun hk v => ?_⟩
    · subst hk
      rw [Table.view_of_not_held hno, hrow] at hview
      rw [Table.get?_locks_write, if_pos rfl, Option.some.inj hview]
    · rw [Table.get?_locks_write, if_neg (Ne.symm hk)]
      exact hno v
  · refine ⟨rfl, fun hk => ?_, fun _ => hno⟩
    subst hk
    have hview : logs'.view p k = some row := (Table.view_of_not_held hno).trans hrow
    cases hnone row hview

/-- **Every statement**: what holds after it for the one who ran it, and what it does to
the row. -/
theorem retryNext_spec {r : RetryDb P × RetryPoint}
    (hrow : ∃ row, db.logs.committed.get? id = some row) (hat : RetryAt id p point db)
      (hqueue : ∀ now read, action = .statement now → point = .queueing id read →
      read.retryStatus = some .queued ∨ ∀ row, db.logs.committed.get? id = some row →
      row.final = false)
    (hcrash : action = .crash → ¬ point.executing id)
    (h : retryNext calledAt db p point action = some r) :
    RetryAt id p r.2 r.1 ∧ RetryEffect id db point action r := by
  obtain ⟨row, hrow⟩ := hrow
  unfold retryNext at h
  split at h
  case h_1 =>
    rw [← Option.some.inj h]
    refine ⟨.of_not_held (Table.unlocked_abort _ p id) nofun, .keeps rfl rfl ?_⟩
    exact ⟨fun h => h.elim, fun h => hcrash rfl h⟩
  case h_2 =>
    rw [← Option.some.inj h]
    exact ⟨.of_not_held (hat.not_held fun _ _ h => h) nofun, .keeps rfl rfl Iff.rfl⟩
  case h_3 =>
    rw [← Option.some.inj h]
    exact ⟨.of_not_held (hat.not_held fun _ _ h => h) nofun, .keeps rfl rfl Iff.rfl⟩
  case h_4 =>
    split_ifs at h
    rw [← Option.some.inj h]
    exact ⟨.of_not_held (hat.not_held fun _ _ h => h) nofun, .keeps rfl rfl Iff.rfl⟩
  case h_5 active k loaded rest =>
    have hno := hat.not_held fun _ _ h => h
    split_ifs at h
    · rw [← Option.some.inj h]
      exact ⟨.of_not_held hno nofun, .keeps rfl rfl Iff.rfl⟩
    · rw [← Option.some.inj h]
      exact ⟨.of_not_held hno nofun, .keeps rfl rfl Iff.rfl⟩
  case h_6 k loaded rest =>
    rw [← Option.some.inj h]
    refine ⟨.of_not_held (hat.not_held fun _ _ h => h) nofun, ?_⟩
    by_cases hk : k = id
    · subst hk
      exact .begins rfl (Function.update_self _ _ _) rfl ⟨loaded, rest, _, rfl, rfl⟩
    · exact .keeps rfl (Function.update_of_ne (Ne.symm hk) _ _)
        ⟨fun h => absurd h hk, fun h => h.elim⟩
  case h_7 result k loaded rest =>
    rw [← Option.some.inj h]
    exact ⟨.of_not_held (hat.not_held fun _ _ h => h) nofun, .keeps rfl rfl Iff.rfl⟩
  case h_8 now k loaded result rest =>
    obtain ⟨logs, hu, rfl⟩ := Option.map_eq_some_iff.mp h
    obtain ⟨hcom, hmine, hother⟩ := update_logs (hat.not_held fun _ _ h => h) hrow hu
    refine ⟨?_, .keeps (congrArg (·.get? id) hcom) rfl Iff.rfl⟩
    by_cases hk : k = id
    · subst hk
      refine ⟨fun v hv => ?_, fun _ _ => ⟨_, hmine rfl⟩⟩
      have hv' := (hmine rfl).symm.trans hv
      obtain ⟨-, rfl⟩ := Prod.mk.inj (Option.some.inj hv')
      refine ⟨row, _, rfl, (congrArg (·.get? k) hcom).trans hrow, rfl, ?_⟩
      exact ApiCallLog.autoRetryAttempts_marked row loaded now result
    · refine .of_not_held (hother hk) fun rest' hm => hk ?_
      injection hm
  case h_9 k rest =>
    rw [← Option.some.inj h]
    refine ⟨.of_not_held (Table.unlocked_commit _ p id) nofun, ?_⟩
    have hget : (db.logs.commit p).committed.get? id = db.logs.view p id := Table.get?_commit _ _ _
    by_cases hk : k = id
    · subst hk
      obtain ⟨v, hv⟩ := hat.has rest rfl
      obtain ⟨row, row', rfl, hrow, -, hattempts⟩ := hat.held v hv
      exact .marks rfl (fun h => h) rfl hrow (hget.trans (Table.view_of_held hv)) hattempts
    · have hno := hat.not_held fun _ _ hl => hk hl.1
      exact .keeps (hget.trans (Table.view_of_not_held hno)) rfl
        ⟨fun h => h.elim, fun h => absurd h hk⟩
  case h_10 callId =>
    have hno := hat.not_held fun _ _ h => h
    split at h
    · rename_i read _
      rw [← Option.some.inj h]
      cases hrefused : read.retryRefusal.isNone with
      | true => exact ⟨.of_not_held hno nofun, .keeps rfl rfl Iff.rfl⟩
      | false => exact ⟨.of_not_held hno nofun, .keeps rfl rfl Iff.rfl⟩
    · rw [← Option.some.inj h]
      exact ⟨.of_not_held hno nofun, .keeps rfl rfl Iff.rfl⟩
  case h_11 now k read =>
    obtain ⟨logs, hu, rfl⟩ := Option.map_eq_some_iff.mp h
    obtain ⟨hcom, hmine, hother⟩ := update_logs (hat.not_held fun _ _ h => h) hrow hu
    refine ⟨?_, .keeps (congrArg (·.get? id) hcom) rfl Iff.rfl⟩
    by_cases hk : k = id
    · subst hk
      refine ⟨fun v hv => ?_, nofun⟩
      have hv' := (hmine rfl).symm.trans hv
      obtain ⟨-, rfl⟩ := Prod.mk.inj (Option.some.inj hv')
      refine ⟨row, _, rfl, (congrArg (·.get? k) hcom).trans hrow, rfl, rfl, ?_⟩
      by_cases hqueued : read.retryStatus = some .queued
      · exact Or.inl (if_pos hqueued)
      · have hopen := (hqueue now read rfl rfl).resolve_left hqueued
        exact Or.inr ⟨hopen row hrow, if_neg hqueued⟩
    · exact .of_not_held (hother hk) nofun
  case h_12 inserted k =>
    rw [← Option.some.inj h]
    cases inserted with
    | false => exact ⟨.of_not_held (Table.unlocked_abort _ p id) nofun, .keeps rfl rfl Iff.rfl⟩
    | true =>
      refine ⟨.of_not_held (Table.unlocked_commit _ p id) nofun, ?_⟩
      have hget : (db.logs.commit p).committed.get? id = db.logs.view p id :=
        Table.get?_commit _ _ _
      rcases Table.view_cases db.logs p id with hheld | ⟨-, hsame⟩
      · obtain ⟨row, row', hv, hrow, -, hattempts, hstatus⟩ := hat.held _ hheld
        exact .queues (fun h => h) (fun h => h) rfl hrow (hget.trans hv) hattempts hstatus
      · exact .keeps (hget.trans hsame) rfl Iff.rfl
  case h_13 => cases h

theorem RetryAt.other {db' : RetryDb P} (hq : RetryAt id q point db)
    (hm : Table.Moves p db.logs db'.logs) (hne : q ≠ p) : RetryAt id q point db' := by
  refine ⟨fun v hv => ?_, fun rest hrest => ?_⟩
  · have hv' := (hm.held_other hne).mp hv
    obtain ⟨row, row', hw, hrow, hleaves⟩ := hq.held v hv'
    exact ⟨row, row', hw, (hm.committed_of_held hne hv').trans hrow, hleaves⟩
  · obtain ⟨v, hv⟩ := hq.has rest hrest
    exact ⟨v, (hm.held_other hne).mpr hv⟩

/-! ### Runs -/

variable {s s' : Procs P RetryPoint (RetryDb P)}

/-- What holds of a call in the states of a run. -/
structure RetryInv (id : ℕ) (s : Procs P RetryPoint (RetryDb P)) : Prop where
  at_ : ∀ p, RetryAt id p (s.proc p) s.shared
  one : ∀ p q, (s.proc p).executing id → (s.proc q).executing id → p = q
  row : ∃ row, s.shared.logs.committed.get? id = some row ∧
    (∀ p, (s.proc p).executing id → row.final = false ∧
      row.autoRetryAttempts < maxAutoRetryAttempts ∧
      s.shared.executions id ≤ row.autoRetryAttempts + 1) ∧
    ((∀ p, ¬ (s.proc p).executing id) → s.shared.executions id ≤ row.autoRetryAttempts)
  bound : s.shared.executions id ≤ 5

omit [DecidableEq P] in
theorem RetryGuarded.queue {now : ℤ} {read : ApiCallLog} (h : RetryGuarded id (p, .statement now) s)
    (hp : s.proc p = .queueing id read) : read.retryStatus = some .queued ∨
      ∀ row, s.shared.logs.committed.get? id = some row → row.final = false := by
  unfold RetryGuarded at h
  rw [hp] at h
  exact h rfl

omit [DecidableEq P] in
theorem RetryGuarded.begin {now : ℤ} {loaded : ApiCallLog} {rest : List (ℕ × ApiCallLog)}
    (h : RetryGuarded id (p, .statement now) s) (hp : s.proc p = .sleeping id loaded rest) :
    (∀ q, ¬ (s.proc q).executing id) ∧ ∀ row, s.shared.logs.committed.get? id = some row →
    row.retryable = true := by
  unfold RetryGuarded at h
  rw [hp] at h
  exact h rfl

/-- A process other than the one that moved. -/
theorem executing_move {r : RetryDb P × RetryPoint} {q : P} :
    ((s.move p r).proc q).executing id ↔ if q = p then r.2.executing id
    else (s.proc q).executing id := by
  by_cases hq : q = p
  · subst hq
    simp
  · rw [Procs.move_proc_ne _ _ hq, if_neg hq]

theorem executing_move_of_iff {r : RetryDb P × RetryPoint}
    (h : r.2.executing id ↔ (s.proc p).executing id) (q : P) :
    ((s.move p r).proc q).executing id ↔ (s.proc q).executing id := by
  rw [executing_move]
  by_cases hq : q = p
  · subst hq
    rw [if_pos rfl, h]
  · rw [if_neg hq]

omit [DecidableEq P] in
/-- No one starts or ends an execution, and the row keeps its attempts. -/
theorem RetryInv.unmoved (hI : RetryInv id s) (hat : ∀ q, RetryAt id q (s'.proc q) s'.shared)
    (hmove : ∀ q, (s'.proc q).executing id ↔ (s.proc q).executing id)
    (hexec : s'.shared.executions id = s.shared.executions id) {row row' : ApiCallLog}
    (hrow : s.shared.logs.committed.get? id = some row)
    (hrow' : s'.shared.logs.committed.get? id = some row')
    (hattempts : row'.autoRetryAttempts = row.autoRetryAttempts)
    (hfinal : row.final = false → row'.final = false) :
    RetryInv id s' := by
  obtain ⟨-, hone, ⟨row₀, hrow₀, hbusy, hcalm⟩, hbound⟩ := hI
  have hsame : row₀ = row := Option.some.inj (hrow₀.symm.trans hrow)
  subst hsame
  refine ⟨hat, fun q₁ q₂ h₁ h₂ => hone q₁ q₂ ((hmove q₁).mp h₁) ((hmove q₂).mp h₂),
    ⟨row', hrow', ?_, ?_⟩, ?_⟩
  · intro q hq
    rw [hexec, hattempts]
    obtain ⟨hopen, hlt, hcount⟩ := hbusy q ((hmove q).mp hq)
    exact ⟨hfinal hopen, hlt, hcount⟩
  · intro hno
    rw [hexec, hattempts]
    exact hcalm fun q hq => hno q ((hmove q).mpr hq)
  · rw [hexec]
    exact hbound

omit [DecidableEq P] in
/-- A process starts an execution of a call that can be retried, when no other is under way. -/
theorem RetryInv.began (hI : RetryInv id s) (hat : ∀ q, RetryAt id q (s'.proc q) s'.shared)
    (hno : ∀ q, ¬ (s.proc q).executing id) (hself : ∀ q, (s'.proc q).executing id ↔ q = p)
    (hexec : s'.shared.executions id = s.shared.executions id + 1) {row : ApiCallLog}
    (hrow : s.shared.logs.committed.get? id = some row)
    (hrow' : s'.shared.logs.committed.get? id = some row) (hretryable : row.retryable = true) :
    RetryInv id s' := by
  obtain ⟨-, -, ⟨row₀, hrow₀, -, hcalm⟩, -⟩ := hI
  have hsame : row₀ = row := Option.some.inj (hrow₀.symm.trans hrow)
  subst hsame
  obtain ⟨hopen, hattempts⟩ := ApiCallLog.retryable_spec hretryable
  have hcount : (s.shared.executions id : ℤ) ≤ row₀.autoRetryAttempts := hcalm hno
  have hexec' : (s'.shared.executions id : ℤ) = s.shared.executions id + 1 := by
    rw [hexec]
    push_cast
    rfl
  refine ⟨hat, fun q₁ q₂ h₁ h₂ => ((hself q₁).mp h₁).trans ((hself q₂).mp h₂).symm,
    ⟨row₀, hrow', ?_, ?_⟩, ?_⟩
  · intro q _
    exact ⟨hopen, hattempts, by omega⟩
  · intro hnone
    exact absurd ((hself p).mpr rfl) (hnone p)
  · unfold maxAutoRetryAttempts at hattempts
    omega

omit [DecidableEq P] in
/-- The one execution that is under way ends with one attempt more. -/
theorem RetryInv.marked (hI : RetryInv id s) (hat : ∀ q, RetryAt id q (s'.proc q) s'.shared)
    (hwas : (s.proc p).executing id) (hnone : ∀ q, ¬ (s'.proc q).executing id)
    (hexec : s'.shared.executions id = s.shared.executions id) {row row' : ApiCallLog}
    (hrow : s.shared.logs.committed.get? id = some row)
    (hrow' : s'.shared.logs.committed.get? id = some row')
    (hattempts : row'.autoRetryAttempts = row.autoRetryAttempts + 1) :
    RetryInv id s' ∧ row.final = false := by
  obtain ⟨-, -, ⟨row₀, hrow₀, hbusy, -⟩, hbound⟩ := hI
  have hsame : row₀ = row := Option.some.inj (hrow₀.symm.trans hrow)
  subst hsame
  obtain ⟨hopen, -, hcount⟩ := hbusy p hwas
  refine ⟨⟨hat, fun q _ h => absurd h (hnone q),
    ⟨row', hrow', fun q h => absurd h (hnone q), fun _ => ?_⟩, ?_⟩, hopen⟩
  · rw [hexec, hattempts]
    exact hcount
  · rw [hexec]
    exact hbound

/-- **One step** keeps what holds of the call, and a settled row. -/
theorem RetryInv.step {r : RetryDb P × RetryPoint} (hI : RetryInv id s)
    (hok : RetryGuarded id (p, action) s)
    (hr : retryNext calledAt s.shared p (s.proc p) action = some r) :
    RetryInv id (s.move p r) ∧ ∀ row, s.shared.logs.committed.get? id = some row →
      row.final = true → ∃ row', r.1.logs.committed.get? id = some row' ∧
      row'.retryStatus = row.retryStatus := by
  obtain ⟨row, hrow, -⟩ := hI.row
  have hcrash : action = .crash → ¬ (s.proc p).executing id := by
    intro ha
    subst ha
    exact hok
  obtain ⟨hown, heffect⟩ := retryNext_spec ⟨row, hrow⟩ (hI.at_ p)
    (fun now read ha hp => by subst ha; exact hok.queue hp) hcrash hr
  have hat : ∀ q, RetryAt id q ((s.move p r).proc q) r.1 := by
    intro q
    by_cases hq : q = p
    · subst hq
      rw [Procs.move_proc_self]
      exact hown
    · rw [Procs.move_proc_ne _ _ hq]
      exact (hI.at_ q).other (retryNext_moves hr) hq
  -- the process that moved is the only one whose point has changed
  cases heffect with
  | keeps hcom hexec hiff =>
    refine ⟨hI.unmoved hat (executing_move_of_iff hiff) hexec hrow (hcom.trans hrow) rfl fun h => h,
      ?_⟩
    intro row₁ hrow₁ _
    exact ⟨row₁, hcom.trans hrow₁, rfl⟩
  | begins hcom hexec hnow hsleep =>
    obtain ⟨loaded, rest, now, hpoint, rfl⟩ := hsleep
    obtain ⟨hno, hretryable⟩ := hok.begin hpoint
    have hself : ∀ q, ((s.move p r).proc q).executing id ↔ q = p := by
      intro q
      rw [executing_move]
      by_cases hq : q = p
      · simp [hq, hnow]
      · simp [hq, hno q]
    have hget : r.1.logs.committed.get? id = s.shared.logs.committed.get? id :=
      congrArg (·.get? id) hcom
    refine ⟨hI.began hat hno hself hexec hrow (hget.trans hrow) (hretryable row hrow), ?_⟩
    intro row₁ hrow₁ _
    exact ⟨row₁, hget.trans hrow₁, rfl⟩
  | @marks row₀ row' hwas hdone hexec hrow₀ hrow' hattempts =>
    have hnone : ∀ q, ¬ ((s.move p r).proc q).executing id := by
      intro q hq
      rw [executing_move] at hq
      by_cases hqp : q = p
      · rw [if_pos hqp] at hq
        exact hdone hq
      · rw [if_neg hqp] at hq
        exact hqp (hI.one q p hq hwas)
    obtain ⟨hinv, hopen⟩ := hI.marked hat hwas hnone hexec hrow₀ hrow' hattempts
    refine ⟨hinv, fun row₁ hrow₁ hfinal₁ => ?_⟩
    rw [← Option.some.inj (hrow₀.symm.trans hrow₁), hopen] at hfinal₁
    cases hfinal₁
  | @queues row₀ row' hwas hdone hexec hrow₀ hrow' hattempts hstatus =>
    have hmove := executing_move_of_iff (s := s) (iff_of_false hdone hwas)
    have hfinal : row₀.final = false → row'.final = false := by
      intro hopen
      rcases hstatus with hkept | ⟨-, hqueued⟩
      · rw [ApiCallLog.final_eq_of_status hkept]
        exact hopen
      · simp [ApiCallLog.final, hqueued]
    refine ⟨hI.unmoved hat hmove hexec hrow₀ hrow' hattempts hfinal, fun row₁ hrow₁ hfinal₁ => ?_⟩
    have hsame : row₀ = row₁ := Option.some.inj (hrow₀.symm.trans hrow₁)
    subst hsame
    rcases hstatus with hkept | ⟨hopen, -⟩
    · exact ⟨row', hrow', hkept⟩
    · rw [hopen] at hfinal₁
      cases hfinal₁

omit [DecidableEq P] in
theorem RetryInv.of_start (h : RetryStart id s) : RetryInv id s := by
  have hnone : ∀ p, ¬ (s.proc p).executing id := by
    intro p hp
    rw [h.idle p] at hp
    exact hp
  obtain ⟨row, hrow, hattempts⟩ := h.row
  refine ⟨fun p => ?_, fun p _ hp => absurd hp (hnone p),
    ⟨row, hrow, fun p hp => absurd hp (hnone p), fun _ => ?_⟩, ?_⟩
  · rw [h.idle p]
    refine .of_not_held (fun v hv => ?_) nofun
    rw [h.locks] at hv
    cases hv
  · rw [h.executions]
    exact hattempts
  · rw [h.executions]
    omega

theorem retryInv_of_reach {start : Procs P RetryPoint (RetryDb P) → Prop}
    (h0 : ∀ {s}, start s → RetryInv id s)
    (h : (retryRuns calledAt start).ReachIf (RetryGuarded id) s) : RetryInv id s := by
  refine Lts.ReachIf.invariant h0 ?_ h
  intro s a s' hI hok hstep
  obtain ⟨r, hr, rfl⟩ := Procs.step_iff.mp hstep
  exact (hI.step hok hr).1

/-- **The retries of a call**: it is never sent more than five times, and once it is
resolved or permanent its row keeps that status. -/
theorem retry_of_reach (h : (retryRuns calledAt (RetryStart id)).ReachIf (RetryGuarded id) s) :
    s.shared.executions id ≤ 5 ∧
    ∀ row s', s.shared.logs.committed.get? id = some row → row.final = true →
      (retryRuns calledAt fun t => t = s).ReachIf (RetryGuarded id) s' →
      ∃ row', s'.shared.logs.committed.get? id = some row' ∧
      row'.retryStatus = row.retryStatus := by
  have hI : RetryInv id s := retryInv_of_reach .of_start h
  refine ⟨hI.bound, fun row s' hrow hfinal h' => ?_⟩
  have hinv := h'.and_invariant fun hr => retryInv_of_reach (fun {t} (ht : t = s) => ht ▸ hI) hr
  refine Lts.ReachIf.invariant (I := fun t => ∃ row', t.shared.logs.committed.get? id = some row' ∧
    row'.retryStatus = row.retryStatus) ?_ ?_ hinv
  · intro t ht
    exact ⟨row, ht ▸ hrow, rfl⟩
  · intro t a t' hkept hok hstep
    obtain ⟨row₁, hrow₁, hstatus₁⟩ := hkept
    obtain ⟨r, hr, rfl⟩ := Procs.step_iff.mp hstep
    have hfinal₁ : row₁.final = true := (ApiCallLog.final_eq_of_status hstatus₁).trans hfinal
    obtain ⟨row₂, hrow₂, hstatus₂⟩ := (hok.2.step hok.1 hr).2 row₁ hrow₁ hfinal₁
    exact ⟨row₂, hrow₂, hstatus₂.trans hstatus₁⟩

end Retry

/-! ### Three runs -/

/-- A call of the queue, with id 7. -/
def queuedCall {P : Type} : Procs P RetryPoint (RetryDb P) :=
  ⟨⟨⟨.set .empty 7 (limitedCall.queue 0), .empty⟩, fun _ => 0⟩, fun _ => .idle⟩

theorem retryStart_queuedCall {P : Type} : RetryStart 7 (queuedCall (P := P)) :=
  ⟨fun _ => rfl, rfl, rfl, limitedCall.queue 0, rfl, le_rfl⟩

/-- The job of the scheduler loads the call and is about to send it. -/
def loads {P : Type} (p : P) : List (P × RetryAction) := [(p, .start none 0), (p, .busy false)]

/-- It is sent, and its row marked. -/
def sends {P : Type} (p : P) (result : PostResult) : List (P × RetryAction) :=
  [(p, .statement 0), (p, .answer result), (p, .statement 0), (p, .statement 0)]

def rateLimited : PostResult := .apiError .rateLimited "rate limited" (some 40019) none

def statusOf {P : Type} (s : Procs P RetryPoint (RetryDb P)) : Option (Option RetryStatus) :=
  (s.shared.logs.committed.get? 7).map ApiCallLog.retryStatus

/-- No job is sending, and the row can be retried; no request queues a row, and nothing is
cut off. -/
def quietStep (a : Bool × RetryAction) (s : Procs Bool RetryPoint (RetryDb Bool)) : Bool :=
  match a.2, s.proc a.1 with
  | .statement _, .sleeping _ _ _ => (s.shared.logs.committed.get? 7).all ApiCallLog.retryable &&
      [true, false].all fun q => match s.proc q with
        | .posting _ _ _ | .marking _ _ _ _ | .marked _ _ => false
        | _ => true
  | .statement _, .queueing _ _ | .crash, _ => false
  | _, _ => true

theorem quietStep_spec {a : Bool × RetryAction} {s : Procs Bool RetryPoint (RetryDb Bool)}
    (h : quietStep a s = true) : RetryGuarded 7 a s := by
  unfold quietStep at h
  unfold RetryGuarded
  split at h
  · intro _
    rw [Bool.and_eq_true, List.all_eq_true, Option.all_eq_true] at h
    refine ⟨fun q hq => ?_, h.1⟩
    have hq' := h.2 q (by cases q <;> simp)
    cases hpoint : s.proc q with
    | posting _ _ _ => simp [hpoint] at hq'
    | marking _ _ _ _ => simp [hpoint] at hq'
    | marked _ _ => simp [hpoint] at hq'
    | _ => rw [hpoint] at hq; exact hq
  · cases h
  · cases h
  · trivial

/-- The call is resolved. A request and another job after that leave it so. -/
theorem retry_of_reach_resolved : ∃ s s' : Procs Bool RetryPoint (RetryDb Bool),
    (retryRuns (fun _ => 0) (RetryStart 7)).ReachIf (RetryGuarded 7) s ∧
    statusOf s = some (some .resolved) ∧
    (retryRuns (fun _ => 0) fun t => t = s).ReachIf (RetryGuarded 7) s' ∧
    s'.shared.executions 7 = 2 ∧ s.shared.executions 7 ≤ 5 ∧
    ∃ row', s'.shared.logs.committed.get? 7 = some row' ∧ row'.retryStatus = some .resolved := by
  have hrun : (Procs.execIf (retryNext fun _ => 0) quietStep queuedCall
      (loads true ++ sends true rateLimited ++ [(true, .statement 0)] ++ loads true ++
          sends true .ok)).map (fun s =>
        (statusOf s, (Procs.execIf (retryNext fun _ => 0) quietStep s
          [(false, .request 7), (false, .start none 0), (false, .statement 0)]).map fun s' =>
            s'.shared.executions 7)) =
      some (some (some .resolved), some 2) := by decide +kernel
  obtain ⟨s, hs, hall⟩ := Option.map_eq_some_iff.mp hrun
  obtain ⟨hstatus, hnext⟩ := Prod.mk.inj hall
  obtain ⟨s', hs', hexec⟩ := Option.map_eq_some_iff.mp hnext
  have hreach : (retryRuns (fun _ => 0) (RetryStart 7)).ReachIf (RetryGuarded 7) s :=
    Procs.reach_execIf (.start retryStart_queuedCall) hs fun a _ s hc => quietStep_spec hc
  have hreach' : (retryRuns (fun _ => 0) fun t => t = s).ReachIf (RetryGuarded 7) s' :=
    Procs.reach_execIf (.start rfl) hs' fun a _ s hc => quietStep_spec hc
  obtain ⟨row, hrow, hresolved⟩ := Option.map_eq_some_iff.mp hstatus
  have hfinal : row.final = true := by simp [ApiCallLog.final, hresolved]
  obtain ⟨hbound, hkept⟩ := retry_of_reach hreach
  obtain ⟨row', hrow', hsame⟩ := hkept row s' hrow hfinal hreach'
  exact ⟨s, s', hreach, hstatus, hreach', hexec, hbound, row', hrow', hsame.trans hresolved⟩

/-- Two jobs have loaded the call: one resolves it, and the other puts it back in the
queue. Six jobs have loaded it: it is sent six times. -/
theorem retry_reopened :
    (∃ s s' : Procs Bool RetryPoint (RetryDb Bool),
      (retryRuns (fun _ => 0) (RetryStart 7)).Reach s ∧
      (retryRuns (fun _ => 0) fun t => t = s).Reach s' ∧ statusOf s = some (some .resolved) ∧
      statusOf s' = some (some .queued)) ∧
    ∃ s : Procs (Fin 6) RetryPoint (RetryDb (Fin 6)),
      (retryRuns (fun _ => 0) (RetryStart 7)).Reach s ∧ s.shared.executions 7 = 6 := by
  constructor
  · have hrun : (Procs.exec (retryNext fun _ => 0) queuedCall
      (loads true ++ loads false ++ sends true .ok)).map (fun s =>
          (statusOf s, (Procs.exec (retryNext fun _ => 0) s (sends false rateLimited)).map
            statusOf)) =
        some (some (some .resolved), some (some (some .queued))) := by decide +kernel
    obtain ⟨s, hs, hall⟩ := Option.map_eq_some_iff.mp hrun
    obtain ⟨hstatus, hnext⟩ := Prod.mk.inj hall
    obtain ⟨s', hs', hstatus'⟩ := Option.map_eq_some_iff.mp hnext
    exact ⟨s, s', Procs.reach_exec (.start retryStart_queuedCall) hs fun _ _ _ => trivial,
      Procs.reach_exec (.start rfl) hs' fun _ _ _ => trivial, hstatus, hstatus'⟩
  · have hrun : (Procs.exec (retryNext fun _ => 0) (queuedCall (P := Fin 6))
        ((List.finRange 6).flatMap loads ++ (List.finRange 6).flatMap (sends · rateLimited))).map
            (fun s =>
          s.shared.executions 7) = some 6 := by decide +kernel
    obtain ⟨s, hs, hexec⟩ := Option.map_eq_some_iff.mp hrun
    exact ⟨s, Procs.reach_exec (.start retryStart_queuedCall) hs fun _ _ _ => trivial, hexec⟩

end Restock
