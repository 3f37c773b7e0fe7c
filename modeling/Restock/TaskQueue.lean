/-
# The task queue (`tasks/queue.py`, `tasks/worker.py`, `tasks/reaper.py`, `api/task.py`)

Clients and the scheduler enqueue tasks, workers claim and finish them, the reaper
fails those whose lease has expired, and clients cancel. Each is one or two statements
in a READ COMMITTED transaction, and any number of them run side by side.

All updates of a task but one repeat in the `UPDATE` what they rely on. `cancel_task`
reads the status in one statement and writes by id in the next. As long as that write
finds the task still pending, a task that is done stays as it is, is cancelled only
while it is pending, and is claimed at most once; the index on the active keys leaves
one active task for each (`tasks_of_reach`). Otherwise a finished task becomes a
cancelled one (`cancelled_after_success`).
-/
import Restock.Lib.Processes
import Restock.Lib.ReadCommitted

namespace Restock

open ReadCommitted

/-! ### The table -/

/-- The status of a task. -/
inductive TaskStatus
  | pending | running | success | failed | skipped | cancelled
deriving DecidableEq, Repr

/-- The statuses that the unique index of `dedupe_key` covers. -/
def TaskStatus.active : TaskStatus → Bool
  | .pending | .running => true
  | _ => false

/-- Who enqueues a task. -/
inductive TriggerSource
  | scheduler | manual
deriving DecidableEq, Repr

/-- A row of `task_run`. -/
structure TaskRow where
  jobName : String
  dedupeKey : String
  triggerSource : TriggerSource
  priority : ℤ
  createdAt : ℤ
  status : TaskStatus
  attemptCount : ℕ
  workerId : Option String
  leaseExpiresAt : Option ℤ
deriving DecidableEq, Repr

/-- The arguments of `enqueue_task`, and the time of the insert. -/
structure TaskSpec where
  jobName : String
  triggerSource : TriggerSource
  dedupeKey : Option String
  priority : ℤ
  createdAt : ℤ
deriving DecidableEq, Repr

/-- `dedupe_key or job_name`. -/
def TaskSpec.key (spec : TaskSpec) : String := (spec.dedupeKey.filter (· ≠ "")).getD spec.jobName

/-- The row that `enqueue_task` inserts. -/
def TaskSpec.row (spec : TaskSpec) : TaskRow :=
  ⟨spec.jobName, spec.key, spec.triggerSource, spec.priority, spec.createdAt, .pending,
    0, none, none⟩

/-- The trace of a trigger of the scheduler that found an active task. -/
def TaskSpec.skippedRow (spec : TaskSpec) (existingId : ℕ) : TaskRow :=
  { spec.row with
    dedupeKey := spec.key ++ "#skipped#" ++ toString existingId
    triggerSource := .scheduler
    status := .skipped }

/-- The table of the tasks, with the number that comes next. -/
structure TaskDb (P : Type) where
  tasks : Table P ℕ TaskRow
  nextTask : ℕ

section Queue

variable {P : Type} [DecidableEq P]

/-- The session commits. -/
def TaskDb.commit (db : TaskDb P) (p : P) : TaskDb P := { db with tasks := db.tasks.commit p }

/-- The session rolls back. -/
def TaskDb.rollback (db : TaskDb P) (p : P) : TaskDb P := { db with tasks := db.tasks.abort p }

/-! ### The programs -/

/-- The requests and jobs that use the queue. -/
inductive TaskRequest
  | enqueue (spec : TaskSpec)
  | claim (workerId : String) (now leaseSeconds : ℤ)
  | heartbeat (taskId : ℕ) (workerId : String) (now leaseSeconds : ℤ)
  | progress (taskId : ℕ) (workerId : String)
  | markSuccess (taskId : ℕ) (workerId : String)
  | markFailed (taskId : ℕ) (workerId : String)
  | reap (now : ℤ)
  | cancel (taskId : ℕ)

/-- Where a process stands. -/
inductive TaskPoint
  | idle
  /-- Everything but the commit is done. -/
  | written
  /-- The insert was refused by the index, for the given time. -/
  | refused (spec : TaskSpec) (retryDepth : ℕ)
  | retrying (spec : TaskSpec) (retryDepth : ℕ)
  | skipping (spec : TaskSpec) (existingId : ℕ)
  | reaping (now : ℤ) (todo : List ℕ)
  | cancelRead (taskId : ℕ)

/-- What a process does next. -/
inductive TaskAction
  | request (request : TaskRequest)
  | statement
  | crash

/-- The versions of the rows that are committed or pending. -/
def TaskDb.rows (db : TaskDb P) : List TaskRow :=
  db.tasks.committed.values ++ db.tasks.locks.values.filterMap Prod.snd

/-- No version of a task has the key and is active. -/
def TaskDb.keyFree (db : TaskDb P) (key : String) : Bool :=
  db.rows.all fun row => !(row.status.active && row.dedupeKey = key)

/-- A task that nobody is changing has the key and is active. -/
def TaskDb.keyTaken (db : TaskDb P) (key : String) : Bool :=
  db.tasks.committed.items.any fun e =>
    e.2.status.active && e.2.dedupeKey = key && (db.tasks.locks.get? e.1).isNone

/-- A new row, before its commit. -/
def TaskDb.insert (db : TaskDb P) (p : P) (row : TaskRow) : TaskDb P × TaskPoint :=
  ({ tasks := db.tasks.write p db.nextTask (some row), nextTask := db.nextTask + 1 }, .written)

/-- The insert of `enqueue_task`: the index lets it through, refuses it, or has it wait
for a transaction that is changing a task with the key. -/
def enqueueTask (db : TaskDb P) (p : P) (spec : TaskSpec) (retryDepth : ℕ) :
    Option (TaskDb P × TaskPoint) :=
  if db.keyFree spec.key then some (db.insert p spec.row)
  else if db.keyTaken spec.key then some (db.rollback p, .refused spec retryDepth)
  else none

/-- `ORDER BY priority, created_at`. -/
def claimsBefore (a b : ℕ × TaskRow) : Prop :=
  a.2.priority < b.2.priority ∨ a.2.priority = b.2.priority ∧ a.2.createdAt ≤ b.2.createdAt

instance : DecidableRel claimsBefore := fun _ _ => inferInstanceAs (Decidable (_ ∨ _))

/-- The first pending task that nobody has locked. -/
def TaskDb.nextPending (db : TaskDb P) : Option (ℕ × TaskRow) :=
  ((db.tasks.committed.items.filter fun e =>
    e.2.status = .pending && (db.tasks.locks.get? e.1).isNone).insertionSort claimsBefore).head?

/-- The row once a worker has claimed it. -/
def TaskRow.claimed (row : TaskRow) (workerId : String) (now leaseSeconds : ℤ) : TaskRow :=
  { row with
    status := .running
    workerId := some workerId
    leaseExpiresAt := some (now + leaseSeconds)
    attemptCount := row.attemptCount + 1 }

/-- `status == "running"` and `worker_id == _WORKER_ID`. -/
def TaskRow.runBy (workerId : String) (row : TaskRow) :
    Bool := row.status = .running && row.workerId = some workerId

/-- `status = 'running' AND lease_expires_at < now()`. -/
def TaskRow.expired (now : ℤ) (row : TaskRow) :
    Bool := row.status = .running && row.leaseExpiresAt.any (· < now)

/-- The row with another status. -/
def TaskRow.withStatus (row : TaskRow) (status : TaskStatus) :
    TaskRow := { row with status := status }

/-- An update of one row, before its commit. -/
def TaskDb.updateTask (db : TaskDb P) (p : P) (id : ℕ) (cond : TaskRow → Bool)
    (f : TaskRow → TaskRow) (point : TaskPoint) : Option (TaskDb P × TaskPoint) :=
  (db.tasks.update p id cond fun row => some (f row)).map fun tasks =>
    ({ db with tasks := tasks }, point)

/-- The session commits and the process is free. -/
def TaskDb.finish (db : TaskDb P) (p : P) :
    Option (TaskDb P × TaskPoint) := some (db.commit p, .idle)

/-- The session rolls back and the process is free. -/
def TaskDb.quit (db : TaskDb P) (p : P) :
    Option (TaskDb P × TaskPoint) := some (db.rollback p, .idle)

/-- The first statement of a request. -/
def taskRequestNext (db : TaskDb P) (p : P) : TaskRequest → Option (TaskDb P × TaskPoint)
  | .enqueue spec => enqueueTask db p spec 0
  | .claim workerId now leaseSeconds =>
    match db.nextPending with
    | none => db.finish p
    | some (id, row) =>
      some ({ db with tasks := db.tasks.write p id (some (row.claimed workerId now leaseSeconds)) },
        .written)
  | .heartbeat id workerId now leaseSeconds =>
    db.updateTask p id (TaskRow.runBy workerId)
      (fun row => { row with leaseExpiresAt := some (now + leaseSeconds) }) .written
  | .progress id workerId => db.updateTask p id (TaskRow.runBy workerId) (fun row => row) .written
  | .markSuccess id workerId =>
    db.updateTask p id (TaskRow.runBy workerId) (fun row => row.withStatus .success) .written
  | .markFailed id workerId =>
    db.updateTask p id (TaskRow.runBy workerId) (fun row => row.withStatus .failed) .written
  | .reap now => some (db, .reaping now (db.tasks.select p (TaskRow.expired now)))
  | .cancel id =>
    if (db.tasks.view p id).any fun row => row.status = .pending then some (db, .cancelRead id)
    else db.quit p

/-- One statement of a process. -/
def taskNext (db : TaskDb P) (p : P) : TaskPoint → TaskAction → Option (TaskDb P × TaskPoint)
  | _, .crash => db.quit p
  | .idle, .request request => taskRequestNext db p request
  | .written, .statement => db.finish p
  | .refused spec retryDepth, .statement =>
    match (db.tasks.select p fun row => row.dedupeKey = spec.key && row.status.active).max? with
    | none => if 2 ≤ retryDepth then db.quit p else some (db, .retrying spec (retryDepth + 1))
    | some id => if spec.triggerSource = .scheduler then some (db, .skipping spec id) else db.quit p
  | .retrying spec retryDepth, .statement => enqueueTask db p spec retryDepth
  | .skipping spec id, .statement => some (db.insert p (spec.skippedRow id))
  | .reaping now (id :: todo), .statement =>
    db.updateTask p id (TaskRow.expired now) (fun row => row.withStatus .failed) (.reaping now todo)
  | .reaping _ [], .statement => db.finish p
  -- by id alone
  | .cancelRead id, .statement =>
    db.updateTask p id (fun _ => true) (fun row => row.withStatus .cancelled) .written
  | _, _ => none

/-- The interleavings, from the given states. -/
def taskRuns (start : Procs P TaskPoint (TaskDb P) → Prop) :
    Lts (Procs P TaskPoint (TaskDb P)) (P × TaskAction) :=
  Procs.runs start taskNext

/-! ### What a statement does -/

/-- What one transaction does to a task. -/
inductive TaskChange (row row' : TaskRow) : Prop
  | keep : row'.status = row.status → row'.attemptCount = row.attemptCount →
      row'.dedupeKey = row.dedupeKey → TaskChange row row'
  | claim : row.status = .pending → row'.status = .running →
      row'.attemptCount = row.attemptCount + 1 → row'.dedupeKey = row.dedupeKey →
      TaskChange row row'
  | finish : row.status = .running → row'.status = .success ∨ row'.status = .failed →
      row'.attemptCount = row.attemptCount → row'.dedupeKey = row.dedupeKey → TaskChange row row'
  | cancel : row.status = .pending → row'.status = .cancelled →
      row'.attemptCount = row.attemptCount → row'.dedupeKey = row.dedupeKey → TaskChange row row'

/-- Where a process has no row of the table. -/
def TaskPoint.clean : TaskPoint → Prop
  | .written | .reaping _ _ => False
  | _ => True

/-- What each statement does, with what has to hold for it. -/
inductive TaskStep (db : TaskDb P) (p : P) : TaskPoint → TaskDb P → TaskPoint → Prop
  | quit {point} : TaskStep db p point (db.rollback p) .idle
  | commit {point} : TaskStep db p point (db.commit p) .idle
  | refuse {point spec n} : TaskStep db p point (db.rollback p) (.refused spec n)
  | read {point point'} : point.clean → TaskStep db p point db point'
  | insert {point row} : point.clean → row.status = .pending → row.attemptCount = 0 →
      db.keyFree row.dedupeKey = true → TaskStep db p point (db.insert p row).1 .written
  | skip {point row} : point.clean → row.status = .skipped → row.attemptCount = 0 →
      TaskStep db p point (db.insert p row).1 .written
  | update {point id row row'} : point.clean → db.tasks.free p id = true →
      db.tasks.view p id = some row → TaskChange row row' →
      TaskStep db p point { db with tasks := db.tasks.write p id (some row') } .written
  | reapRow {now id todo row} : db.tasks.free p id = true → db.tasks.view p id = some row →
      row.status = .running → TaskStep db p (.reaping now (id :: todo))
        { db with tasks := db.tasks.write p id (some (row.withStatus .failed)) } (.reaping now todo)
  | reapMiss {now id todo} : TaskStep db p (.reaping now (id :: todo)) db (.reaping now todo)

/-- The write of a cancel request finds the task still pending. -/
def CancelFinds (db : TaskDb P) (p : P) (point : TaskPoint) (action : TaskAction) : Prop :=
  ∀ id, point = .cancelRead id → action = .statement → ∀ row, db.tasks.view p id = some row →
    row.status = .pending

variable {db db' : TaskDb P} {p q : P} {point point' : TaskPoint} {action : TaskAction}
    {r : TaskDb P × TaskPoint}

theorem enqueueTask_step {spec : TaskSpec} {n : ℕ} (hp : point.clean)
    (h : enqueueTask db p spec n = some r) : TaskStep db p point r.1 r.2 := by
  unfold enqueueTask at h
  split_ifs at h with hfree htaken
  · rw [← Option.some.inj h]
    exact .insert hp rfl rfl hfree
  · rw [← Option.some.inj h]
    exact .refuse

/-- An update of one row that is followed by its commit. -/
theorem updateTask_step {id : ℕ} {cond : TaskRow → Bool} {f : TaskRow → TaskRow} (hp : point.clean)
    (hf : ∀ row, db.tasks.view p id = some row → cond row = true → TaskChange row (f row))
    (h : db.updateTask p id cond f .written = some r) : TaskStep db p point r.1 r.2 := by
  obtain ⟨tasks, hu, rfl⟩ := Option.map_eq_some_iff.mp h
  obtain ⟨hfree, ⟨row, hv, hc, rfl⟩ | ⟨-, rfl⟩⟩ := Table.update_cases hu
  · exact .update hp hfree hv (hf row hv hc)
  · exact .read hp

theorem runBy_running {workerId : String} {row : TaskRow} (h : row.runBy workerId = true) :
    row.status = .running := by
  simp only [TaskRow.runBy, Bool.and_eq_true, decide_eq_true_eq] at h
  exact h.1

omit [DecidableEq P] in
theorem nextPending_spec {id : ℕ} {row : TaskRow} (h : db.nextPending = some (id, row)) :
    db.tasks.committed.get? id = some row ∧ row.status = .pending ∧
    db.tasks.locks.get? id = none := by
  have hmem := List.mem_of_mem_head? h
  rw [List.mem_insertionSort, List.mem_filter, Bool.and_eq_true, decide_eq_true_eq] at hmem
  exact ⟨Dict.get?_eq_some_iff.mpr hmem.1, hmem.2.1, Option.isNone_iff_eq_none.mp hmem.2.2⟩

theorem taskRequestNext_step {request : TaskRequest} (h : taskRequestNext db p request = some r) :
    TaskStep db p .idle r.1 r.2 := by
  unfold taskRequestNext at h
  split at h
  · exact enqueueTask_step trivial h
  · split at h
    · rw [← Option.some.inj h]
      exact .commit
    · rename_i id row hid
      obtain ⟨hc, hs, hl⟩ := nextPending_spec hid
      have hno : ∀ v, db.tasks.locks.get? id ≠ some (p, v) := fun v hv => by rw [hl] at hv; cases hv
      rw [← Option.some.inj h]
      refine .update trivial (Table.free_iff.mpr fun q v hv => ?_)
        ((Table.view_of_not_held hno).trans hc)
        (.claim hs rfl rfl rfl)
      rw [hl] at hv
      cases hv
  · refine updateTask_step trivial (fun row _ _ => ?_) h
    exact .keep rfl rfl rfl
  · refine updateTask_step trivial (fun row _ _ => ?_) h
    exact .keep rfl rfl rfl
  · refine updateTask_step trivial (fun row _ hc => ?_) h
    exact .finish (runBy_running hc) (Or.inl rfl) rfl rfl
  · refine updateTask_step trivial (fun row _ hc => ?_) h
    exact .finish (runBy_running hc) (Or.inr rfl) rfl rfl
  · rw [← Option.some.inj h]
    exact .read trivial
  · split_ifs at h
    · rw [← Option.some.inj h]
      exact .read trivial
    · rw [← Option.some.inj h]
      exact .quit

/-- **Every statement** is one of the listed ones, where cancel requests find what they
have read. -/
theorem taskNext_step (hok : CancelFinds db p point action)
    (h : taskNext db p point action = some r) : TaskStep db p point r.1 r.2 := by
  unfold taskNext at h
  split at h
  · rw [← Option.some.inj h]
    exact .quit
  · exact taskRequestNext_step h
  · rw [← Option.some.inj h]
    exact .commit
  · split at h
    · split_ifs at h
      · rw [← Option.some.inj h]
        exact .quit
      · rw [← Option.some.inj h]
        exact .read trivial
    · split_ifs at h
      · rw [← Option.some.inj h]
        exact .read trivial
      · rw [← Option.some.inj h]
        exact .quit
  · exact enqueueTask_step trivial h
  · rw [← Option.some.inj h]
    exact .skip trivial rfl rfl
  · obtain ⟨tasks, hu, rfl⟩ := Option.map_eq_some_iff.mp h
    obtain ⟨hfree, ⟨row, hv, hc, rfl⟩ | ⟨-, rfl⟩⟩ := Table.update_cases hu
    · simp only [TaskRow.expired, Bool.and_eq_true, decide_eq_true_eq] at hc
      exact .reapRow hfree hv hc.1
    · exact .reapMiss
  · rw [← Option.some.inj h]
    exact .commit
  · refine updateTask_step trivial (fun row hv _ => ?_) h
    exact .cancel (hok _ rfl rfl row hv) rfl rfl rfl
  · cases h

/-! ### Versions

A version of a task is its committed row or the one that an open transaction will
leave. -/

/-- Some version of the task. -/
def TaskDb.Version (db : TaskDb P) (id : ℕ) (row : TaskRow) : Prop :=
  db.tasks.committed.get? id = some row ∨ ∃ q, db.tasks.locks.get? id = some (q, some row)

/-- What holds of all versions. -/
structure TaskDb.Sound (db : TaskDb P) : Prop where
  fresh : db.tasks.Fresh db.nextTask
  attempts : ∀ id row, db.Version id row → row.attemptCount ≤ 1 ∧
    (row.status = .pending → row.attemptCount = 0)
  unique : ∀ id id' row row', db.Version id row → db.Version id' row' → row.status.active = true →
    row'.status.active = true → row.dedupeKey = row'.dedupeKey → id = id'

omit [DecidableEq P] in
theorem version_of_keyFree {key : String} (h : db.keyFree key = true) {id : ℕ} {row : TaskRow}
    (hv : db.Version id row) (ha : row.status.active = true) : row.dedupeKey ≠ key := by
  have hmem : row ∈ db.rows := by
    rcases hv with hc | ⟨q, hl⟩
    · exact List.mem_append.mpr
        (Or.inl (List.mem_map.mpr ⟨(id, row), Dict.get?_eq_some_iff.mp hc, rfl⟩))
    · refine List.mem_append.mpr (Or.inr (List.mem_filterMap.mpr ⟨(q, some row), ?_, rfl⟩))
      exact List.mem_map.mpr ⟨(id, q, some row), Dict.get?_eq_some_iff.mp hl, rfl⟩
  have := List.all_eq_true.mp h row hmem
  simpa [ha] using this

theorem version_commit {id : ℕ} {row : TaskRow} (h : (db.commit p).Version id row) :
    db.Version id row := by
  rcases h with hc | ⟨q, hl⟩
  · have hview : db.tasks.view p id = some row := by
      rw [← Table.get?_commit]
      exact hc
    rcases Table.view_cases db.tasks p id with hheld | ⟨-, hsame⟩
    · exact Or.inr ⟨p, hview ▸ hheld⟩
    · exact Or.inl (hsame.symm.trans hview)
  · exact Or.inr ⟨q, ((Table.get?_locks_drop db.tasks p id).mp hl).2⟩

theorem version_rollback {id : ℕ} {row : TaskRow} (h : (db.rollback p).Version id row) :
    db.Version id row := by
  rcases h with hc | ⟨q, hl⟩
  · exact Or.inl hc
  · exact Or.inr ⟨q, ((Table.get?_locks_drop db.tasks p id).mp hl).2⟩

omit [DecidableEq P] in
theorem version_write {id k : ℕ} {row new : TaskRow} {next : ℕ}
    (h : TaskDb.Version ⟨db.tasks.write p k (some new), next⟩ id row) :
    db.Version id row ∨ id = k ∧ row = new := by
  rcases h with hc | ⟨q, hl⟩
  · exact Or.inl (Or.inl hc)
  · have hl' : (db.tasks.write p k (some new)).locks.get? id = some (q, some row) := hl
    rw [Table.get?_locks_write] at hl'
    split_ifs at hl' with hk
    · exact Or.inr ⟨hk, (Option.some.inj (Prod.mk.inj (Option.some.inj hl')).2).symm⟩
    · exact Or.inl (Or.inr ⟨q, hl'⟩)

theorem version_of_view {id : ℕ} {row : TaskRow} (h : db.tasks.view p id = some row) :
    db.Version id row := by
  rcases Table.view_cases db.tasks p id with hheld | ⟨-, hsame⟩
  · exact Or.inr ⟨p, h ▸ hheld⟩
  · exact Or.inl (hsame.symm.trans h)

/-- A change leaves a row active only if it was, and never changes the key. -/
theorem TaskChange.active {row row' : TaskRow} (h : TaskChange row row') :
    (row'.status.active = true → row.status.active = true) ∧ row'.dedupeKey = row.dedupeKey := by
  cases h with
  | keep hs _ hk => exact ⟨fun ha => hs ▸ ha, hk⟩
  | claim hs _ _ hk => exact ⟨fun _ => by rw [hs]; rfl, hk⟩
  | finish hs _ _ hk => exact ⟨fun _ => by rw [hs]; rfl, hk⟩
  | cancel hs _ _ hk => exact ⟨fun _ => by rw [hs]; rfl, hk⟩

theorem TaskChange.attempts {row row' : TaskRow} (h : TaskChange row row')
    (hr : row.attemptCount ≤ 1 ∧ (row.status = .pending → row.attemptCount = 0)) :
    row'.attemptCount ≤ 1 ∧ (row'.status = .pending → row'.attemptCount = 0) := by
  cases h with
  | keep hs ha _ => exact ⟨ha ▸ hr.1, fun hp => ha.trans (hr.2 (hs ▸ hp))⟩
  | claim hs hs' ha _ =>
    have := hr.2 hs
    refine ⟨by omega, fun hp => ?_⟩
    rw [hs'] at hp
    cases hp
  | finish hs hs' ha _ =>
    refine ⟨ha ▸ hr.1, fun hp => ?_⟩
    rcases hs' with h | h <;> rw [h] at hp <;> cases hp
  | cancel hs hs' ha _ =>
    refine ⟨ha ▸ hr.1, fun hp => ?_⟩
    rw [hs'] at hp
    cases hp

/-- A row of a task is changed. -/
theorem TaskDb.Sound.write (h : db.Sound) {id : ℕ} {row row' : TaskRow}
    (hv : db.tasks.view p id = some row) (hc : TaskChange row row') :
    TaskDb.Sound ⟨db.tasks.write p id (some row'), db.nextTask⟩ := by
  have hver := version_of_view hv
  have hold : ∀ {k r}, TaskDb.Version ⟨db.tasks.write p id (some row'), db.nextTask⟩ k r →
      r.status.active = true → ∃ r₀, db.Version k r₀ ∧ r₀.status.active = true ∧
      r₀.dedupeKey = r.dedupeKey := by
    intro k r hr ha
    rcases version_write hr with hr | ⟨rfl, rfl⟩
    · exact ⟨r, hr, ha, rfl⟩
    · exact ⟨row, hver, hc.active.1 ha, hc.active.2.symm⟩
  refine ⟨fun k hk => ⟨(h.fresh k hk).1, ?_⟩, fun k r hr => ?_,
    fun k k' r r' hr hr' ha ha' hkey => ?_⟩
  · have hne : k ≠ id := by
      rintro rfl
      rw [h.fresh.view hk] at hv
      cases hv
    show (db.tasks.write p id (some row')).locks.get? k = none
    rw [Table.get?_locks_write, if_neg hne]
    exact (h.fresh k hk).2
  · rcases version_write hr with hr | ⟨rfl, rfl⟩
    · exact h.attempts k r hr
    · exact hc.attempts (h.attempts k row hver)
  · obtain ⟨r₀, hr₀, ha₀, hk₀⟩ := hold hr ha
    obtain ⟨r₁, hr₁, ha₁, hk₁⟩ := hold hr' ha'
    exact h.unique k k' r₀ r₁ hr₀ hr₁ ha₀ ha₁ (by rw [hk₀, hk₁, hkey])

omit [DecidableEq P] in
/-- A new row: not active, or with a key that no active version has. -/
theorem TaskDb.Sound.insert (h : db.Sound) {row : TaskRow} (ha : row.attemptCount = 0)
    (hk : row.status.active = true → db.keyFree row.dedupeKey = true) :
    (db.insert p row).1.Sound := by
  have hfree : ∀ {k r}, db.Version k r → r.status.active = true → row.status.active = true →
      r.dedupeKey ≠ row.dedupeKey := fun hr hra hrow => version_of_keyFree (hk hrow) hr hra
  refine ⟨h.fresh.insert _, fun k r hr => ?_, fun k k' r r' hr hr' hra hra' hkey => ?_⟩
  · rcases version_write hr with hr | ⟨-, rfl⟩
    · exact h.attempts k r hr
    · exact ⟨by omega, fun _ => ha⟩
  · rcases version_write hr with hr | ⟨hk₁, hr₁⟩
    · rcases version_write hr' with hr' | ⟨-, hr₂⟩
      · exact h.unique k k' r r' hr hr' hra hra' hkey
      · rw [hr₂] at hkey hra'
        exact absurd hkey (hfree hr hra hra')
    · rcases version_write hr' with hr' | ⟨hk₂, -⟩
      · rw [hr₁] at hkey hra
        exact absurd hkey.symm (hfree hr' hra' hra)
      · exact hk₁.trans hk₂.symm

omit [DecidableEq P] in
theorem TaskDb.Sound.mono (h : db.Sound) (hf : db'.tasks.Fresh db'.nextTask)
    (hv : ∀ id row, db'.Version id row → db.Version id row) : db'.Sound :=
  ⟨hf, fun id row hr => h.attempts id row (hv id row hr),
    fun id id' row row' hr hr' => h.unique id id' row row' (hv id row hr) (hv id' row' hr')⟩

theorem TaskStep.sound (hs : db.Sound) (h : TaskStep db p point db' point') : db'.Sound := by
  cases h with
  | quit | refuse => exact hs.mono (hs.fresh.abort p) fun _ _ => version_rollback
  | commit => exact hs.mono (hs.fresh.commit p) fun _ _ => version_commit
  | read _ | reapMiss => exact hs
  | insert _ _ ha hk => exact hs.insert ha fun _ => hk
  | skip _ hst ha => exact hs.insert ha fun h => by rw [hst] at h; cases h
  | update _ _ hv hc => exact hs.write hv hc
  | reapRow _ hv hrun => exact hs.write hv (.finish hrun (Or.inr rfl) rfl rfl)

/-! ### What a transaction leaves -/

/-- What holds of the tasks for a process at a point. -/
structure TaskAt (p : P) (point : TaskPoint) (db : TaskDb P) : Prop where
  unlocked : point.clean → db.tasks.Unlocked p
  pending : ∀ id v, db.tasks.locks.get? id = some (p, v) → ∃ row', v = some row' ∧
    (db.tasks.committed.get? id = none ∧ (row'.status = .pending ∨ row'.status = .skipped) ∨
      ∃ row, db.tasks.committed.get? id = some row ∧ TaskChange row row')
  reaping : ∀ now todo, point = .reaping now todo → ∀ id v, db.tasks.locks.get? id = some (p, v) →
    ∃ row', v = some row' ∧ row'.status = .failed

omit [DecidableEq P] in
theorem TaskAt.of_unlocked (h : db.tasks.Unlocked p) : TaskAt p point db :=
  ⟨fun _ => h, fun id v hl => absurd hl (h id v), fun _ _ _ id v hl => absurd hl (h id v)⟩

theorem TaskStep.moves (hs : db.Sound) (h : TaskStep db p point db' point') :
    Table.Moves p db.tasks db'.tasks := by
  cases h with
  | quit | refuse => exact .abort
  | commit => exact .commit
  | read _ | reapMiss => exact .same
  | insert _ _ _ _ | skip _ _ _ => exact .write hs.fresh.free
  | update _ hfree _ _ | reapRow hfree _ _ => exact .write hfree

theorem TaskAt.other (hq : TaskAt q point' db) (hm : Table.Moves p db.tasks db'.tasks)
    (hne : q ≠ p) : TaskAt q point' db' := by
  refine ⟨fun hc => hm.unlocked_other hne (hq.unlocked hc), fun id v hl => ?_,
    fun now todo hp id v hl => ?_⟩
  · have hl' := (hm.held_other hne).mp hl
    rw [hm.committed_of_held hne hl']
    exact hq.pending id v hl'
  · exact hq.reaping now todo hp id v ((hm.held_other hne).mp hl)

omit [DecidableEq P] in
/-- The single row that a process without rows has written. -/
theorem held_write {t : Table P ℕ TaskRow} {id k : ℕ} {v w : Option TaskRow} (hu : t.Unlocked p)
    (h : (t.write p k w).locks.get? id = some (p, v)) : id = k ∧ v = w := by
  rw [Table.get?_locks_write] at h
  split_ifs at h with hk
  · exact ⟨hk, (Prod.mk.inj (Option.some.inj h)).2.symm⟩
  · exact absurd h (hu id v)

theorem TaskAt.own (hs : db.Sound) (hat : TaskAt p point db) (h : TaskStep db p point db' point') :
    TaskAt p point' db' := by
  cases h with
  | quit | refuse => exact .of_unlocked (Table.unlocked_abort _ p)
  | commit => exact .of_unlocked (Table.unlocked_commit _ p)
  | read hp => exact .of_unlocked (hat.unlocked hp)
  | reapMiss =>
    refine ⟨fun h => absurd h (fun h => h), hat.pending, ?_⟩
    rintro _ _ ⟨⟩
    exact hat.reaping _ _ rfl
  | insert hp hst _ _ =>
    refine ⟨fun h => absurd h (fun h => h), fun id v hl => ?_, nofun⟩
    obtain ⟨rfl, rfl⟩ := held_write (hat.unlocked hp) hl
    exact ⟨_, rfl, Or.inl ⟨(hs.fresh _ le_rfl).1, Or.inl hst⟩⟩
  | skip hp hst _ =>
    refine ⟨fun h => absurd h (fun h => h), fun id v hl => ?_, nofun⟩
    obtain ⟨rfl, rfl⟩ := held_write (hat.unlocked hp) hl
    exact ⟨_, rfl, Or.inl ⟨(hs.fresh _ le_rfl).1, Or.inr hst⟩⟩
  | update hp _ hv hc =>
    have hu := hat.unlocked hp
    refine ⟨fun h => absurd h (fun h => h), fun id v hl => ?_, nofun⟩
    obtain ⟨rfl, rfl⟩ := held_write hu hl
    exact ⟨_, rfl, Or.inr ⟨_, (hu.view _).symm.trans hv, hc⟩⟩
  | @reapRow now k todo row _ hv hrun =>
    -- a row that the reaper has written already is failed, and not written again
    have hcommitted : db.tasks.committed.get? k = some row := by
      rcases Table.view_cases db.tasks p k with hheld | ⟨-, hsame⟩
      · obtain ⟨row', hrow', hfailed⟩ := hat.reaping _ _ rfl k _ hheld
        obtain rfl := Option.some.inj (hv.symm.trans hrow')
        rw [hrun] at hfailed
        cases hfailed
      · exact hsame.symm.trans hv
    refine ⟨fun h => absurd h (fun h => h), fun id v hl => ?_, fun _ _ _ id v hl => ?_⟩
    · rw [Table.get?_locks_write] at hl
      split_ifs at hl with hk
      · subst hk
        obtain ⟨-, rfl⟩ := Prod.mk.inj (Option.some.inj hl)
        exact ⟨_, rfl, Or.inr ⟨row, hcommitted, .finish hrun (Or.inr rfl) rfl rfl⟩⟩
      · exact hat.pending id v hl
    · rw [Table.get?_locks_write] at hl
      split_ifs at hl with hk
      · obtain ⟨-, rfl⟩ := Prod.mk.inj (Option.some.inj hl)
        exact ⟨_, rfl, rfl⟩
      · exact hat.reaping _ _ rfl id v hl

/-- A committed task after a statement: as it was, or changed as one transaction may. -/
theorem TaskAt.committed_next (hat : TaskAt p point db) (hm : Table.Moves p db.tasks db'.tasks)
    {id : ℕ} {row : TaskRow} (hrow : db.tasks.committed.get? id = some row) :
    ∃ row', db'.tasks.committed.get? id = some row' ∧ (row' = row ∨ TaskChange row row') := by
  rcases hm.committed_cases id with h | h
  · exact ⟨row, h.trans hrow, Or.inl rfl⟩
  · obtain ⟨row', hrow', ⟨hnone, -⟩ | ⟨row₀, hrow₀, hc⟩⟩ := hat.pending id _ h
    · rw [hrow] at hnone
      cases hnone
    · obtain rfl := Option.some.inj (hrow.symm.trans hrow₀)
      exact ⟨row', hrow', Or.inr hc⟩

theorem TaskChange.status_of_done {row row' : TaskRow} (h : TaskChange row row')
    (hd : row.status.active = false) : row'.status = row.status := by
  cases h with
  | keep hs _ _ => exact hs
  | claim hs _ _ _ | finish hs _ _ _ | cancel hs _ _ _ =>
    rw [hs] at hd
    cases hd

theorem TaskChange.status_of_cancelled {row row' : TaskRow} (h : TaskChange row row')
    (hc : row'.status = .cancelled) : row.status = .pending ∨ row.status = .cancelled := by
  cases h with
  | keep hs _ _ => exact Or.inr (hs ▸ hc)
  | claim hs _ _ _ | cancel hs _ _ _ => exact Or.inl hs
  | finish _ hs' _ _ => rcases hs' with h | h <;> rw [h] at hc <;> cases hc

/-- A committed task that is cancelled after a statement was pending, or cancelled, before it. -/
theorem TaskAt.committed_of_cancelled (hat : TaskAt p point db)
    (hm : Table.Moves p db.tasks db'.tasks) {id : ℕ} {row' : TaskRow}
    (hrow' : db'.tasks.committed.get? id = some row') (hc : row'.status = .cancelled) :
    ∃ row, db.tasks.committed.get? id = some row ∧
    (row.status = .pending ∨ row.status = .cancelled) := by
  rcases hm.committed_cases id with h | h
  · exact ⟨row', h.symm.trans hrow', Or.inr hc⟩
  · rw [hrow'] at h
    obtain ⟨row₁, hrow₁, ⟨-, hnew⟩ | ⟨row, hrow, hch⟩⟩ := hat.pending id _ h
    · obtain rfl := Option.some.inj hrow₁
      rcases hnew with hn | hn <;> rw [hn] at hc <;> cases hc
    · obtain rfl := Option.some.inj hrow₁
      exact ⟨row, hrow, hch.status_of_cancelled hc⟩

/-! ### Runs -/

/-- Nothing is under way, and the tasks are those of earlier runs (or there are none). -/
structure TaskStart (s : Procs P TaskPoint (TaskDb P)) : Prop where
  idle : ∀ p, s.proc p = .idle
  locks : s.shared.tasks.locks = .empty
  sound : s.shared.Sound

/-- A cancellation finds its task pending still. -/
def CancelsPending (a : P × TaskAction) (s : Procs P TaskPoint (TaskDb P)) : Prop :=
  CancelFinds s.shared a.1 (s.proc a.1) a.2

variable {start : Procs P TaskPoint (TaskDb P) → Prop} {s s' : Procs P TaskPoint (TaskDb P)}

theorem taskAt_of_reach (h0 : ∀ {s}, start s → s.shared.Sound ∧ ∀ p, TaskAt p (s.proc p) s.shared)
    (h : (taskRuns start).ReachIf CancelsPending s) :
    s.shared.Sound ∧ ∀ p, TaskAt p (s.proc p) s.shared := by
  refine Procs.invariant h0 ?_ ?_ h
  · intro s p a r hs hAt hok hr
    have hst := taskNext_step hok hr
    exact ⟨hst.sound hs, (hAt p).own hs hst⟩
  · intro s p a r q hs hAt hok hr hq
    exact (hAt q).other ((taskNext_step hok hr).moves hs) hq

omit [DecidableEq P] in
theorem TaskStart.at (h : TaskStart s) : s.shared.Sound ∧ ∀ p, TaskAt p (s.proc p) s.shared := by
  refine ⟨h.sound, fun p => .of_unlocked fun id v hl => ?_⟩
  rw [h.locks] at hl
  cases hl

/-- A task that is done stays as it is in the runs that follow. -/
theorem status_of_reach (h0 : s.shared.Sound ∧ ∀ p, TaskAt p (s.proc p) s.shared)
    (h : (taskRuns fun t => t = s).ReachIf CancelsPending s') {id : ℕ} {row : TaskRow}
    (hrow : s.shared.tasks.committed.get? id = some row) (hd : row.status.active = false) :
    ∃ row', s'.shared.tasks.committed.get? id = some row' ∧ row'.status = row.status := by
  have h' := h.and_invariant fun hr => taskAt_of_reach (fun {t} (ht : t = s) => ht ▸ h0) hr
  refine Lts.ReachIf.invariant (I := fun t => ∃ row', t.shared.tasks.committed.get? id = some row' ∧
    row'.status = row.status) ?_ ?_ h'
  · rintro t rfl
    exact ⟨row, hrow, rfl⟩
  · rintro t ⟨p, action⟩ t' ⟨row₁, hrow₁, hst₁⟩ ⟨hok, hs, hAt⟩ hstep
    obtain ⟨r, hr, rfl⟩ := Procs.step_iff.mp hstep
    obtain ⟨row₂, hrow₂, hch⟩ := (hAt p).committed_next ((taskNext_step hok hr).moves hs) hrow₁
    refine ⟨row₂, hrow₂, ?_⟩
    rcases hch with rfl | hch
    · exact hst₁
    · exact (hch.status_of_done (hst₁ ▸ hd)).trans hst₁

/-- **The tasks of a run**: no task is claimed twice, no key has two active tasks, a task
that is done keeps its status from then on, and only a pending task becomes a cancelled
one. -/
theorem tasks_of_reach (h : (taskRuns TaskStart).ReachIf CancelsPending s) :
    (∀ id row, s.shared.tasks.committed.get? id = some row → row.attemptCount ≤ 1) ∧
    (∀ id id' row row', s.shared.tasks.committed.get? id = some row →
      s.shared.tasks.committed.get? id' = some row' → row.status.active = true →
      row'.status.active = true → row.dedupeKey = row'.dedupeKey → id = id') ∧
    (∀ s', (taskRuns fun t => t = s).ReachIf CancelsPending s' → ∀ id row,
      s.shared.tasks.committed.get? id = some row → row.status.active = false →
      ∃ row', s'.shared.tasks.committed.get? id = some row' ∧ row'.status = row.status) ∧
    ∀ a s', CancelsPending a s → (taskRuns TaskStart).step s a s' → ∀ id row',
      s'.shared.tasks.committed.get? id = some row' → row'.status = .cancelled →
      ∃ row, s.shared.tasks.committed.get? id = some row ∧
      (row.status = .pending ∨ row.status = .cancelled) := by
  have hall := taskAt_of_reach (fun hs => hs.at) h
  obtain ⟨hs, hAt⟩ := hall
  refine ⟨fun id row hrow => (hs.attempts id row (Or.inl hrow)).1,
    fun id id' row row' hrow hrow' => ?_, fun s' h' id row hrow hd =>
    status_of_reach ⟨hs, hAt⟩ h' hrow hd, ?_⟩
  · exact hs.unique id id' row row' (Or.inl hrow) (Or.inl hrow')
  · rintro ⟨p, action⟩ s' hok hstep id row' hrow' hc
    obtain ⟨r, hr, rfl⟩ := Procs.step_iff.mp hstep
    exact (hAt p).committed_of_cancelled ((taskNext_step hok hr).moves hs) hrow' hc

end Queue

/-! ### Two runs -/

/-- No tasks. -/
def noTasks : Procs Bool TaskPoint (TaskDb Bool) := ⟨⟨⟨.empty, .empty⟩, 1⟩, fun _ => .idle⟩

theorem taskStart_noTasks : TaskStart noTasks where
  idle _ := rfl
  locks := rfl
  sound := by
    refine ⟨fun k _ => ⟨rfl, rfl⟩, fun id row hv => ?_, fun id id' row row' hv => ?_⟩
    · rcases hv with hc | ⟨q, hl⟩
      · cases hc
      · cases hl
    · rcases hv with hc | ⟨q, hl⟩
      · cases hc
      · cases hl

/-- A task for `sync_all`. -/
def syncAllSpec : TaskSpec := ⟨"sync_all", .manual, none, 100, 0⟩

/-- A client enqueues a task and cancels it; a worker claims and finishes it meanwhile,
if `meanwhile` says so. -/
def cancelRun (meanwhile : List (Bool × TaskAction)) : List (Bool × TaskAction) :=
  [(false, .request (.enqueue syncAllSpec)), (false, .statement), (false, .request (.cancel 1))] ++
    meanwhile ++ [(false, .statement), (false, .statement)]

/-- What the worker does meanwhile. -/
def workerRun : List (Bool × TaskAction) :=
  [(true, .request (.claim "worker" 0 300)), (true, .statement),
    (true, .request (.markSuccess 1 "worker")), (true, .statement)]

/-- The task is cancelled while it is pending. -/
theorem tasks_of_reach_cancelled : ∃ s : Procs Bool TaskPoint (TaskDb Bool),
    (taskRuns TaskStart).ReachIf CancelsPending s ∧
    (s.shared.tasks.committed.get? 1).map TaskRow.status = some .cancelled ∧
    ∀ s', (taskRuns fun t => t = s).ReachIf CancelsPending s' →
      (s'.shared.tasks.committed.get? 1).map TaskRow.status = some .cancelled := by
  let check : Bool × TaskAction → Procs Bool TaskPoint (TaskDb Bool) → Bool := fun a s =>
    match s.proc a.1 with
    | .cancelRead id => (s.shared.tasks.view a.1 id).all fun row => row.status = .pending
    | _ => true
  have hrun : (Procs.execIf taskNext check noTasks (cancelRun [])).map (fun s =>
      (s.shared.tasks.committed.get? 1).map TaskRow.status) =
        some (some .cancelled) := by decide +kernel
  obtain ⟨s, hs, hstatus⟩ := Option.map_eq_some_iff.mp hrun
  have hreach : (taskRuns TaskStart).ReachIf CancelsPending s := by
    refine Procs.reach_execIf (.start taskStart_noTasks) hs fun a _ s hc => ?_
    intro id hp _ row hrow
    have hc' : (s.shared.tasks.view a.1 id).all (fun row => row.status = .pending) = true := by
      simpa only [check, hp] using hc
    rw [hrow] at hc'
    exact of_decide_eq_true hc'
  obtain ⟨row, hrow, hst⟩ := Option.map_eq_some_iff.mp hstatus
  refine ⟨s, hreach, hstatus, fun s' h' => ?_⟩
  obtain ⟨row', hrow', hst'⟩ := (tasks_of_reach hreach).2.2.1 s' h' 1 row hrow (by rw [hst]; rfl)
  rw [hrow', Option.map_some, hst', hst]

/-- A worker claims and finishes the task between the read and the write of the cancel
request: the task had succeeded and becomes a cancelled one. -/
theorem cancelled_after_success : ∃ s s' : Procs Bool TaskPoint (TaskDb Bool),
    (taskRuns TaskStart).Reach s ∧ (taskRuns TaskStart).step s (false, .statement) s' ∧
    (s.shared.tasks.committed.get? 1).map TaskRow.status = some .success ∧
    (s'.shared.tasks.committed.get? 1).map TaskRow.status = some .cancelled := by
  have hrun : (Procs.exec taskNext noTasks (cancelRun workerRun).dropLast).map (fun s =>
      ((s.shared.tasks.committed.get? 1).map TaskRow.status,
        (taskNext s.shared false (s.proc false) .statement).map
        fun r => (r.1.tasks.committed.get? 1).map TaskRow.status)) =
      some (some .success, some (some .cancelled)) := by decide +kernel
  obtain ⟨s, hs, hall⟩ := Option.map_eq_some_iff.mp hrun
  obtain ⟨hbefore, hnext⟩ := Prod.mk.inj hall
  obtain ⟨r, hr, hafter⟩ := Option.map_eq_some_iff.mp hnext
  have hreach : (taskRuns TaskStart).Reach s :=
    Procs.reach_exec (.start taskStart_noTasks) hs fun _ _ _ => trivial
  exact ⟨s, s.move false r, hreach, Procs.step_iff.mpr ⟨r, hr, rfl⟩, hbefore, hafter⟩

end Restock
