/-
# The business locks of the sync jobs (`sync/locks.py`, `sync/all.py`)

Tasks with different dedupe keys run side by side, and so do a task whose lease has
expired and the one that takes its place. What keeps two executions of one sync body
apart is an advisory lock of the database for each of the six bodies, taken in a session
of its own. `sync_all` takes all six and tells its children through the payload of the
task that the locks are held.

The payload comes from the client. While no task of one of the six jobs says that it
holds its own lock, no statement on a session that has locks fails and leaves the
connection open, and the connection of a session is not lost while it waits for the body,
one execution of each body is in progress at any time, and a lock that is held is held by
an execution that has not left its block (`sync_exclusive_of_reach`). With the payload of
`sync_all` in two tasks of their own, two executions of the body run side by side
(`two_bodies`), as they do when the lock session of the first one loses its connection.
-/
import Restock.Lib.Processes
import Restock.Lib.SessionLocks
import Restock.TaskQueue

namespace Restock

/-! ### Jobs and payloads -/

/-- The six sync jobs. -/
inductive SyncJob
  | shop | warehouse | productListing | inventory | outRecords | orderList
deriving DecidableEq, Repr

/-- The name of a job. -/
def SyncJob.jobName : SyncJob → String
  | .shop => "sync_shop"
  | .warehouse => "sync_warehouse"
  | .productListing => "sync_product_listing"
  | .inventory => "sync_inventory"
  | .outRecords => "sync_out_records"
  | .orderList => "sync_order_list"

/-- `SYNC_BUSINESS_LOCK_JOBS`. -/
def syncBusinessLockJobs :
    List SyncJob := [.shop, .warehouse, .productListing, .inventory, .outRecords, .orderList]

/-- The steps of `sync_all`. -/
def syncAllSteps : List SyncJob :=
  [.shop, .warehouse, .productListing, .inventory, .outRecords, .orderList]

/-- The first eight bytes of the SHA-256 of `restock_system:sync:` and the name of the
job, without the top bit. -/
def syncBusinessLockKey : SyncJob → ℕ
  | .shop => 8920826688405930157
  | .warehouse => 4432304845778243903
  | .productListing => 4526949995262168580
  | .inventory => 3726264699060272010
  | .outRecords => 1154264621402472731
  | .orderList => 8633817352978475888

theorem syncBusinessLockKey_injective : Function.Injective syncBusinessLockKey := by
  intro a b h
  cases a <;> cases b <;> first | rfl | exact absurd h (by decide)

/-- `sorted(set(job_names), key=sync_business_lock_key)`. -/
def uniqueNames (jobs : List SyncJob) : List SyncJob :=
  jobs.dedup.insertionSort fun a b => syncBusinessLockKey a ≤ syncBusinessLockKey b

theorem nodup_uniqueNames (jobs : List SyncJob) : (uniqueNames jobs).Nodup :=
  (List.perm_insertionSort _ _).nodup_iff.mpr (List.nodup_dedup jobs)

theorem mem_uniqueNames {jobs : List SyncJob} {job : SyncJob} :
    job ∈ uniqueNames jobs ↔ job ∈ jobs := by
  rw [uniqueNames, List.mem_insertionSort, List.mem_dedup]

/-- A value in the payload of a task. -/
inductive Json
  | null
  | bool (b : Bool)
  | num (q : ℚ)
  | str (s : String)
  | arr (l : List Json)
  | obj (l : List (String × Json))

/-- A value that a set can have. -/
def Json.hashable : Json → Bool
  | .arr _ | .obj _ => false
  | _ => true

/-- The value is a text. -/
def Json.isStr : Json → Bool
  | .str _ => true
  | _ => false

/-- The value is the text. -/
def Json.isName (name : String) : Json → Bool
  | .str s => s = name
  | _ => false

/-- `set(ctx.payload.get("_held_sync_business_locks") or [])`, of the value or of null
where there is none. A value that cannot be made a set is a `TypeError`. -/
def heldLocks : Json → Option (List Json)
  | .null | .bool false => some []
  | .bool true => none
  | .num q => if q = 0 then some [] else none
  | .str s => some (s.toList.map fun c => .str (String.singleton c))
  | .arr l => if l.all Json.hashable then some l else none
  | .obj l => some (l.map fun e => .str e.1)

/-- `job_name in held`. -/
def SyncJob.heldIn (job : SyncJob) (held : List Json) : Bool := held.any (Json.isName job.jobName)

/-- The jobs that take business locks. -/
inductive SyncJobName
  | single (job : SyncJob)
  | syncAll
deriving DecidableEq, Repr

/-- The name of a job. -/
def SyncJobName.jobName : SyncJobName → String
  | .single job => job.jobName
  | .syncAll => "sync_all"

/-- What `POST /api/tasks` or the scheduler asks for; of the payload, the value that
the jobs read. -/
structure SyncSpec where
  job : SyncJobName
  dedupeKey : Option String
  held : Json

/-- The key that keeps two tasks apart. -/
def SyncSpec.key (spec : SyncSpec) :
    String := (spec.dedupeKey.filter (· ≠ "")).getD spec.job.jobName

/-- A task of one of the jobs. -/
structure SyncTask where
  spec : SyncSpec
  status : TaskStatus

/-! ### The programs -/

/-- An execution of `sync_business_locks`, for a job that found the given locks in its
payload, or for `sync_all`. -/
inductive SyncRun
  | single (job : SyncJob) (held : List Json)
  | syncAll

/-- The locks that an execution takes, in their order. -/
def SyncRun.locks : SyncRun → List SyncJob
  | .single job _ => uniqueNames [job]
  | .syncAll => uniqueNames syncBusinessLockJobs

/-- Where an execution waits. -/
inductive SyncPoint
  | idle
  | opening (run : SyncRun)
  | locking (run : SyncRun) (conn : ℕ) (acquired todo : List SyncJob)
  /-- In `sync_all`, with the given steps to go. -/
  | between (conn : ℕ) (steps : List SyncJob)
  | body (run : SyncRun) (conn : ℕ) (job : SyncJob) (steps : List SyncJob)
  /-- In the body of a job whose payload says that the lock is held. -/
  | bodyHeld (job : SyncJob)
  | unlocking (conn : ℕ) (todo : List SyncJob)
  /-- In `sync_all`, which does not know yet that its connection is gone. -/
  | betweenLost (steps : List SyncJob)
  /-- In a body, likewise. -/
  | bodyLost (run : SyncRun) (job : SyncJob) (steps : List SyncJob)

/-- The body that is in progress. -/
def SyncPoint.inBody : SyncPoint → Option SyncJob
  | .body _ _ job _ => some job
  | .bodyHeld job => some job
  | .bodyLost _ job _ => some job
  | _ => none

/-- How an `await` ends. -/
inductive SyncAction
  | create (spec : SyncSpec)
  | start (id : ℕ)
  /-- By the worker or by the reaper. -/
  | mark (id : ℕ) (status : TaskStatus)
  | connect (conn : ℕ)
  | returns
  /-- It raises an exception. -/
  | fails
  /-- The connection of the lock session goes. A statement on it raises an exception; to a
  body, which works in other sessions, nothing happens. -/
  | loses
  | cancelled

/-- The tasks, the advisory locks and the connections. -/
structure SyncDb (P : Type) where
  tasks : Dict ℕ SyncTask
  nextTask : ℕ
  locks : SessionLocks ℕ ℕ
  /-- The connections that are in use. -/
  sessions : Dict ℕ P

section Sync

variable {P : Type}

/-- `enqueue_task`: a task with the key that is active is left as it is. -/
def SyncDb.createTask (db : SyncDb P) (spec : SyncSpec) : SyncDb P :=
  if db.tasks.values.any fun task => task.status.active && task.spec.key = spec.key then db
  else { db with tasks := db.tasks.set db.nextTask ⟨spec, .pending⟩, nextTask := db.nextTask + 1 }

/-- An update of one task that has the old status. -/
def SyncDb.setStatus (db : SyncDb P) (id : ℕ) (old new : TaskStatus) : Option (SyncDb P) :=
  match db.tasks.get? id with
  | none => none
  | some task =>
    if task.status = old then some { db with tasks := db.tasks.set id ⟨task.spec, new⟩ } else none

/-- The connection goes back to the pool, with the locks it has. -/
def SyncDb.close (db : SyncDb P) (conn : ℕ) :
    SyncDb P := { db with sessions := db.sessions.filter fun c _ => c ≠ conn }

/-- The connection is closed. -/
def SyncDb.invalidate (db : SyncDb P) (conn : ℕ) :
    SyncDb P := { db.close conn with locks := db.locks.drop conn }

/-- The handler of a task, to its first `await`. -/
def beginRun (spec : SyncSpec) : SyncPoint :=
  match spec.job with
  | .syncAll => .opening .syncAll
  | .single job =>
    match heldLocks spec.held with
    | none => .idle
    | some held => if job.heldIn held then .bodyHeld job else .opening (.single job held)

/-- All locks are taken. A child of `sync_all` finds its name among them, and has no
lock to take. -/
def afterLocks (conn : ℕ) : SyncRun → SyncPoint
  | .single job held =>
    -- `sorted(held | set(acquired))` compares the names with whatever the payload holds
    if held.all Json.isStr then .body (.single job held) conn job []
    else .unlocking conn (uniqueNames [job]).reverse
  | .syncAll => .between conn syncAllSteps

/-- One `await` of an execution. A statement that is cancelled closes its connection, as
does one that loses it. A statement that fails leaves the transaction aborted: the
statements after it fail too, and the session goes back as it is.

While the body runs the session is idle. Where its connection goes then, the database
gives the locks up and the body goes on; the first `pg_advisory_unlock` raises. -/
def syncNext (db : SyncDb P) (p : P) : SyncPoint → SyncAction → Option (SyncDb P × SyncPoint)
  | .idle, .create spec => some (db.createTask spec, .idle)
  | .idle, .mark id status =>
    if status = .success ∨ status = .failed then (db.setStatus id .running status).map fun db =>
      (db, .idle) else none
  | .idle, .start id =>
    match db.tasks.get? id with
    | none => none
    | some task => (db.setStatus id .pending .running).map fun db => (db, beginRun task.spec)
  | .opening run, .connect conn =>
    if (db.sessions.get? conn).isNone then
      some ({ db with sessions := db.sessions.set conn p }, .locking run conn [] run.locks)
    else none
  | .opening _, .fails => some (db, .idle)
  | .opening _, .cancelled => some (db, .idle)
  | .locking run conn acquired (job :: todo), .returns =>
    match db.locks.tryLock conn (syncBusinessLockKey job) with
    | none => some (db, .unlocking conn acquired.reverse)
    | some locks =>
      some ({ db with locks := locks }, if todo = [] then afterLocks conn run
        else .locking run conn (acquired ++ [job]) todo)
  | .locking _ conn _ _, .fails => some (db.close conn, .idle)
  | .locking _ conn _ _, .loses => some (db.invalidate conn, .idle)
  | .locking _ conn _ _, .cancelled => some (db.invalidate conn, .idle)
  | .between conn (job :: steps), .returns => some (db, .body .syncAll conn job steps)
  | .between conn [], .returns => some (db, .unlocking conn SyncRun.syncAll.locks.reverse)
  | .between conn _, .fails => some (db, .unlocking conn SyncRun.syncAll.locks.reverse)
  | .between conn _, .cancelled => some (db, .unlocking conn SyncRun.syncAll.locks.reverse)
  | .body .syncAll conn _ steps, .returns => some (db, .between conn steps)
  | .body (.single job held) conn _ _, .returns =>
    some (db, .unlocking conn (SyncRun.single job held).locks.reverse)
  | .body run conn _ _, .fails => some (db, .unlocking conn run.locks.reverse)
  | .body run conn _ _, .cancelled => some (db, .unlocking conn run.locks.reverse)
  | .bodyHeld _, .returns => some (db, .idle)
  | .bodyHeld _, .fails => some (db, .idle)
  | .bodyHeld _, .cancelled => some (db, .idle)
  | .unlocking conn (job :: todo), .returns =>
    some ({ db with locks := db.locks.unlock conn (syncBusinessLockKey job) }, .unlocking conn todo)
  | .unlocking conn [], .returns => some (db.close conn, .idle)
  | .unlocking conn _, .fails => some (db.close conn, .idle)
  | .unlocking conn _, .loses => some (db.invalidate conn, .idle)
  | .unlocking conn _, .cancelled => some (db.invalidate conn, .idle)
  | .between conn steps, .loses => some (db.invalidate conn, .betweenLost steps)
  | .body run conn job steps, .loses => some (db.invalidate conn, .bodyLost run job steps)
  | .betweenLost (job :: steps), .returns => some (db, .bodyLost .syncAll job steps)
  | .betweenLost [], .returns => some (db, .idle)
  | .betweenLost _, .fails => some (db, .idle)
  | .betweenLost _, .cancelled => some (db, .idle)
  | .bodyLost .syncAll _ steps, .returns => some (db, .betweenLost steps)
  | .bodyLost (.single _ _) _ _, .returns => some (db, .idle)
  | .bodyLost _ _ _, .fails => some (db, .idle)
  | .bodyLost _ _ _, .cancelled => some (db, .idle)
  | _, _ => none

/-- The interleavings, from the given states. -/
def syncRuns [DecidableEq P] (start : Procs P SyncPoint (SyncDb P) → Prop) :
    Lts (Procs P SyncPoint (SyncDb P)) (P × SyncAction) :=
  Procs.runs start syncNext

/-! ### What an `await` does -/

/-- The session of an execution, and the locks it has there. -/
def SyncPoint.session : SyncPoint → Option (ℕ × List SyncJob)
  | .locking _ conn acquired _ => some (conn, acquired)
  | .between conn _ => some (conn, SyncRun.syncAll.locks)
  | .body run conn _ _ => some (conn, run.locks)
  | .unlocking conn todo => some (conn, todo)
  | _ => none

/-- What an execution relies on at a point. -/
def SyncPoint.Sound : SyncPoint → Prop
  | .locking run _ acquired todo => acquired ++ todo = run.locks
  | .body run _ job _ => job ∈ run.locks
  | .bodyHeld _ => False
  | .bodyLost _ _ _ => False
  | .betweenLost _ => False
  | .unlocking _ todo => todo.Nodup
  | _ => True

/-- No task of a job says that its own lock is held. -/
def SyncSpec.Guarded (spec : SyncSpec) : Prop :=
  ∀ job, spec.job = .single job → ∀ held, heldLocks spec.held = some held → job.heldIn held = false

/-- No task claims a lock of its own job. -/
def SyncDb.Guarded (db : SyncDb P) :
    Prop := ∀ id task, db.tasks.get? id = some task → task.spec.Guarded

/-- What one `await` does, with what has to hold for it. -/
inductive SyncStep (db : SyncDb P) (p : P) : SyncPoint → SyncDb P → SyncPoint → Prop
  /-- Outside of a session. -/
  | outside {point point' tasks next} : point.session = none → point'.session = none →
      point'.Sound → SyncDb.Guarded { db with tasks := tasks } →
      SyncStep db p point { db with tasks := tasks, nextTask := next } point'
  | connect {run conn} : db.sessions.get? conn = none →
      SyncStep db p (.opening run) { db with sessions := db.sessions.set conn p }
        (.locking run conn [] run.locks)
  | lock {run conn acquired job todo locks point'} :
      db.locks.tryLock conn (syncBusinessLockKey job) = some locks →
      (acquired ++ job :: todo = run.locks → point'.Sound ∧
        ∃ jobs, point'.session = some (conn, jobs) ∧ ∀ j, j ∈ jobs ↔ j ∈ acquired ++ [job]) →
      SyncStep db p (.locking run conn acquired (job :: todo)) { db with locks := locks } point'
  /-- To another point of the block, with the same locks. -/
  | pass {point point' conn jobs jobs'} : point.session = some (conn, jobs) →
      point'.session = some (conn, jobs') → (∀ j, j ∈ jobs' ↔ j ∈ jobs) →
      (point.Sound → point'.Sound) → SyncStep db p point db point'
  | unlock {conn job todo} : SyncStep db p (.unlocking conn (job :: todo))
      { db with locks := db.locks.unlock conn (syncBusinessLockKey job) } (.unlocking conn todo)
  | close {point conn} : point.session = some (conn, []) → SyncStep db p point (db.close conn) .idle
  | invalidate {point conn jobs} : point.session = some (conn, jobs) →
    SyncStep db p point (db.invalidate conn) .idle

/-- The condition on a step: a task that is created does not claim to hold its own lock,
no statement fails on a session that has locks and stays open, and the connection is not
lost while the session waits for the body. -/
def SyncGuard (point : SyncPoint) : SyncAction → Prop
  | .create spec => spec.Guarded
  | .fails =>
    match point with
    | .locking _ _ acquired _ => acquired = []
    | .unlocking _ todo => todo = []
    | _ => True
  | .loses =>
    match point with
    | .between _ _ | .body _ _ _ _ => False
    | _ => True
  | _ => True

variable {db db' : SyncDb P} {p q : P} {point point' : SyncPoint} {action : SyncAction}
    {r : SyncDb P × SyncPoint}

theorem nodup_locks : ∀ run : SyncRun, run.locks.Nodup
  | .single _ _ => nodup_uniqueNames _
  | .syncAll => nodup_uniqueNames _

theorem mem_syncAll_locks (job : SyncJob) : job ∈ SyncRun.syncAll.locks := by
  refine mem_uniqueNames.mpr ?_
  cases job <;> decide

theorem SyncDb.Guarded.createTask (h : db.Guarded) {spec : SyncSpec} (hs : spec.Guarded) :
    (db.createTask spec).Guarded := by
  unfold SyncDb.createTask
  split_ifs
  · exact h
  · exact Dict.forall_set h hs

theorem setStatus_spec {id : ℕ} {old new : TaskStatus} (hg : db.Guarded)
    (h : db.setStatus id old new = some db') :
    ∃ tasks, db' = { db with tasks := tasks } ∧ SyncDb.Guarded { db with tasks := tasks } := by
  unfold SyncDb.setStatus at h
  split at h
  · cases h
  · rename_i task htask
    split_ifs at h
    refine ⟨_, (Option.some.inj h).symm, ?_⟩
    exact Dict.forall_set hg (hg id task htask)

/-- A job whose payload does not name its lock takes it. -/
theorem beginRun_sound {spec : SyncSpec} (h : spec.Guarded) :
    (beginRun spec).session = none ∧ (beginRun spec).Sound := by
  unfold beginRun
  split
  · exact ⟨rfl, trivial⟩
  · rename_i job hjob
    split
    · exact ⟨rfl, trivial⟩
    · rename_i held hheld
      rw [h job hjob held hheld, if_neg (by decide)]
      exact ⟨rfl, trivial⟩

/-- With all its locks an execution goes on to the body, or gives them up. -/
theorem afterLocks_spec (conn : ℕ) (run : SyncRun) : (afterLocks conn run).Sound ∧
    ∃ jobs, (afterLocks conn run).session = some (conn, jobs) ∧ ∀ j, j ∈ jobs ↔ j ∈ run.locks := by
  cases run with
  | single job held =>
    simp only [afterLocks]
    split_ifs
    · exact ⟨mem_uniqueNames.mpr (List.mem_singleton_self job), _, rfl, fun _ => Iff.rfl⟩
    · exact ⟨List.nodup_reverse.mpr (nodup_uniqueNames _), _, rfl, fun _ => List.mem_reverse⟩
  | syncAll => exact ⟨trivial, _, rfl, fun _ => Iff.rfl⟩

/-- Leaving a block that has all locks of the run. -/
theorem SyncStep.leave {run : SyncRun} {conn : ℕ} (h : point.session = some (conn, run.locks)) :
    SyncStep db p point db (.unlocking conn run.locks.reverse) :=
  .pass h rfl (fun _ => List.mem_reverse) fun _ => List.nodup_reverse.mpr (nodup_locks run)

/-- **Every `await`** is one of the listed ones. -/
theorem syncNext_step (hg : db.Guarded) (hp : point.Sound) (hok : SyncGuard point action)
    (h : syncNext db p point action = some r) : SyncStep db p point r.1 r.2 := by
  unfold syncNext at h
  split at h
  case h_1 spec =>
    rw [← Option.some.inj h]
    have hg' := hg.createTask hok
    unfold SyncDb.createTask at hg' ⊢
    split_ifs at hg' ⊢
    · exact .outside rfl rfl trivial hg
    · exact .outside rfl rfl trivial hg'
  case h_2 id status =>
    split_ifs at h
    obtain ⟨db', hdb', rfl⟩ := Option.map_eq_some_iff.mp h
    obtain ⟨tasks, rfl, hg'⟩ := setStatus_spec hg hdb'
    exact .outside rfl rfl trivial hg'
  case h_3 id =>
    split at h
    · cases h
    · rename_i task htask
      obtain ⟨db', hdb', rfl⟩ := Option.map_eq_some_iff.mp h
      obtain ⟨tasks, rfl, hg'⟩ := setStatus_spec hg hdb'
      have hs := beginRun_sound (hg id task htask)
      exact .outside rfl hs.1 hs.2 hg'
  case h_4 run conn =>
    split_ifs at h with hfree
    rw [← Option.some.inj h]
    exact .connect (Option.isNone_iff_eq_none.mp hfree)
  case h_5 | h_6 =>
    rw [← Option.some.inj h]
    exact .outside rfl rfl trivial hg
  case h_7 run conn acquired job todo =>
    split at h
    · -- another session has the lock
      rw [← Option.some.inj h]
      have hsession : (SyncPoint.locking run conn acquired (job :: todo)).session =
        some (conn, acquired) := rfl
      refine .pass hsession rfl (fun _ => List.mem_reverse) fun hs => ?_
      have hnd : (acquired ++ job :: todo).Nodup := hs ▸ nodup_locks run
      exact List.nodup_reverse.mpr hnd.of_append_left
    · rename_i locks hlock
      rw [← Option.some.inj h]
      refine .lock hlock fun hs => ?_
      show SyncPoint.Sound (if todo = [] then _ else _) ∧ _
      split_ifs with htodo
      · obtain ⟨hsound, jobs, hjobs, hmem⟩ := afterLocks_spec conn run
        rw [htodo] at hs
        exact ⟨hsound, jobs, hjobs, fun j => (hmem j).trans (by rw [hs])⟩
      · refine ⟨(List.append_assoc _ _ _).trans hs, acquired ++ [job], rfl, fun _ => Iff.rfl⟩
  case h_8 run conn acquired todo =>
    rw [← Option.some.inj h]
    have hnil : acquired = [] := hok
    exact .close (by rw [hnil]; rfl)
  case h_9 | h_10 =>
    rw [← Option.some.inj h]
    exact .invalidate rfl
  case h_11 conn job steps =>
    rw [← Option.some.inj h]
    exact .pass rfl rfl (fun _ => Iff.rfl) fun _ => mem_syncAll_locks job
  case h_12 | h_13 | h_14 =>
    rw [← Option.some.inj h]
    exact .leave rfl
  case h_15 =>
    rw [← Option.some.inj h]
    exact .pass rfl rfl (fun _ => Iff.rfl) fun _ => trivial
  case h_16 | h_17 | h_18 =>
    rw [← Option.some.inj h]
    exact .leave rfl
  case h_19 | h_20 | h_21 => exact absurd hp (fun h => h)
  case h_22 =>
    rw [← Option.some.inj h]
    exact .unlock
  case h_23 =>
    rw [← Option.some.inj h]
    exact .close rfl
  case h_24 conn todo =>
    rw [← Option.some.inj h]
    have hnil : todo = [] := hok
    exact .close (by rw [hnil]; rfl)
  case h_25 | h_26 =>
    rw [← Option.some.inj h]
    exact .invalidate rfl
  -- the connection of a session that waits for the body is not lost
  case h_27 | h_28 => exact absurd hok (fun h => h)
  case h_29 | h_30 | h_31 | h_32 | h_33 | h_34 | h_35 | h_36 => exact absurd hp (fun h => h)
  case h_37 => cases h

/-! ### Sessions and locks -/

/-- What holds for an execution at a point. -/
structure SyncAt (p : P) (point : SyncPoint) (db : SyncDb P) : Prop where
  sound : point.Sound
  session : ∀ conn, db.sessions.get? conn = some p ↔ ∃ jobs, point.session = some (conn, jobs)
  own : ∀ conn jobs, point.session = some (conn, jobs) →
    db.locks.Own conn (jobs.map syncBusinessLockKey)

/-- The tasks are guarded, and a lock belongs to a session that is in use. -/
structure SyncDb.Sound (db : SyncDb P) : Prop where
  guarded : db.Guarded
  used : ∀ key conn n, db.locks.owner.get? key = some (conn, n) →
    ∃ p, db.sessions.get? conn = some p

theorem get?_close (db : SyncDb P) (conn c : ℕ) :
    (db.close conn).sessions.get? c = if c = conn then none else db.sessions.get? c := by
  show (db.sessions.filter _).get? c = _
  rw [Dict.get?_filter]
  split_ifs with h
  · subst h
    cases db.sessions.get? c <;> simp [Option.filter]
  · cases db.sessions.get? c <;> simp [Option.filter, h]

theorem mem_map_key {job : SyncJob} {jobs : List SyncJob} :
    syncBusinessLockKey job ∈ jobs.map syncBusinessLockKey ↔ job ∈ jobs :=
  List.mem_map_of_injective syncBusinessLockKey_injective

/-- The execution that moves: its session, and what it leaves to the others. -/
theorem SyncStep.others (hat : SyncAt p point db) (h : SyncStep db p point db' point') :
    (∀ q conn, q ≠ p → (db'.sessions.get? conn = some q ↔ db.sessions.get? conn = some q)) ∧
    ∀ q conn, q ≠ p → db.sessions.get? conn = some q → ∀ ks, db.locks.Own conn ks →
    db'.locks.Own conn ks := by
  have hne : ∀ {q conn c jobs}, q ≠ p → db.sessions.get? c = some q →
      point.session = some (conn, jobs) → c ≠ conn := by
    rintro q conn c jobs hq hc hs rfl
    rw [(hat.session c).mpr ⟨jobs, hs⟩] at hc
    exact hq (Option.some.inj hc).symm
  have hclose : ∀ {q conn c jobs}, q ≠ p → point.session = some (conn, jobs) →
      ((db.close conn).sessions.get? c = some q ↔ db.sessions.get? c = some q) := by
    intro q conn c jobs hq hs
    rw [get?_close]
    split_ifs with he
    · exact ⟨nofun, fun hc => absurd he (hne hq hc hs)⟩
    · rfl
  cases h with
  | outside _ _ _ _ | pass _ _ _ _ => exact ⟨fun _ _ _ => Iff.rfl, fun _ _ _ _ _ h => h⟩
  | @connect run conn hfree =>
    refine ⟨fun q c hq => ?_, fun _ _ _ _ _ h => h⟩
    show (db.sessions.set conn p).get? c = _ ↔ _
    rw [Dict.get?_set]
    split_ifs with he
    · subst he
      rw [hfree]
      exact ⟨fun h => absurd (Option.some.inj h).symm hq, nofun⟩
    · rfl
  | lock hl _ =>
    exact ⟨fun _ _ _ => Iff.rfl,
      fun q c hq hc ks h => h.other (SessionLocks.keeps_tryLock hl) (hne hq hc rfl)⟩
  | unlock =>
    exact ⟨fun _ _ _ => Iff.rfl,
      fun q c hq hc ks h => h.other (SessionLocks.keeps_unlock _ _ _) (hne hq hc rfl)⟩
  | close hs => exact ⟨fun q c hq => hclose hq hs, fun _ _ _ _ _ h => h⟩
  | invalidate hs =>
    exact ⟨fun q c hq => hclose hq hs,
      fun q c hq hc ks h => h.other (SessionLocks.keeps_drop _ _) (hne hq hc hs)⟩

theorem SyncAt.other (hat : SyncAt p point db) (hq : SyncAt q point' db) {point'' : SyncPoint}
    (h : SyncStep db p point db' point'') (hne : q ≠ p) : SyncAt q point' db' := by
  obtain ⟨hsess, hown⟩ := h.others hat
  refine ⟨hq.sound, fun c => (hsess q c hne).trans (hq.session c), fun c jobs hs => ?_⟩
  exact hown q c hne ((hq.session c).mpr ⟨jobs, hs⟩) _ (hq.own c jobs hs)

/-- An execution that has left its session. -/
theorem SyncAt.left (hat : SyncAt p point db) {conn : ℕ} {jobs : List SyncJob}
    (hs : point.session = some (conn, jobs)) (hsess : db'.sessions = (db.close conn).sessions) :
    SyncAt p .idle db' := by
  refine ⟨trivial, fun c => ⟨fun hc => ?_, nofun⟩, nofun⟩
  rw [hsess, get?_close] at hc
  split_ifs at hc with he
  obtain ⟨jobs', hj⟩ := (hat.session c).mp hc
  rw [hs] at hj
  exact absurd (Prod.mk.inj (Option.some.inj hj)).1.symm he

theorem SyncAt.own_step (hdb : db.Sound) (hat : SyncAt p point db)
    (h : SyncStep db p point db' point') : SyncAt p point' db' := by
  cases h with
  | outside hp hp' hs _ =>
    refine ⟨hs, fun c => ?_, fun c jobs hj => absurd hj (by rw [hp']; nofun)⟩
    have hc := hat.session c
    rw [hp] at hc
    rw [hp']
    exact hc
  | @connect run conn hfree =>
    refine ⟨List.nil_append _, fun c => ?_, ?_⟩
    · show (db.sessions.set conn p).get? c = some p ↔ _
      rw [Dict.get?_set]
      split_ifs with he
      · exact ⟨fun _ => ⟨[], by rw [he]; rfl⟩, fun _ => rfl⟩
      · refine ⟨fun hc => ?_, fun ⟨jobs, hj⟩ => absurd (Prod.mk.inj (Option.some.inj hj)).1.symm he⟩
        obtain ⟨jobs, hj⟩ := (hat.session c).mp hc
        cases hj
    · rintro c jobs ⟨⟩
      -- a lock belongs to a session that is in use, and this one was not
      refine SessionLocks.own_nil fun key n hk => ?_
      obtain ⟨q, hq⟩ := hdb.used key conn n hk
      rw [hfree] at hq
      cases hq
  | @lock run conn acquired job todo locks point' hl hp =>
    have hplan : acquired ++ job :: todo = run.locks := hat.sound
    obtain ⟨hsound, jobs, hjobs, hmem⟩ := hp hplan
    have hnew : job ∉ acquired := by
      have hnd : (acquired ++ job :: todo).Nodup := hplan ▸ nodup_locks run
      exact fun h => (List.disjoint_of_nodup_append hnd) h List.mem_cons_self
    refine ⟨hsound, fun c => ?_, fun c jobs' hj => ?_⟩
    · refine (hat.session c).trans ?_
      rw [hjobs]
      exact ⟨fun ⟨_, h⟩ => ⟨jobs, by rw [(Prod.mk.inj (Option.some.inj h)).1]⟩,
        fun ⟨_, h⟩ => ⟨acquired, by rw [← (Prod.mk.inj (Option.some.inj h)).1]; rfl⟩⟩
    · rw [hjobs] at hj
      obtain ⟨rfl, rfl⟩ := Prod.mk.inj (Option.some.inj hj)
      have hown := (hat.own conn acquired rfl).tryLock (fun h => hnew (mem_map_key.mp h)) hl
      refine hown.congr fun key => ?_
      rw [← List.map_singleton, ← List.map_append]
      simp only [List.mem_map, hmem]
  | @pass _ _ conn jobs jobs' hs hs' hmem hsound =>
    refine ⟨hsound hat.sound, fun c => ?_, fun c jobs'' hj => ?_⟩
    · refine (hat.session c).trans ?_
      rw [hs, hs']
      exact ⟨fun ⟨_, h⟩ => ⟨jobs', by rw [(Prod.mk.inj (Option.some.inj h)).1]⟩,
        fun ⟨_, h⟩ => ⟨jobs, by rw [(Prod.mk.inj (Option.some.inj h)).1]⟩⟩
    · rw [hs'] at hj
      obtain ⟨rfl, rfl⟩ := Prod.mk.inj (Option.some.inj hj)
      refine (hat.own conn jobs hs).congr fun key => ?_
      simp only [List.mem_map, hmem]
  | @unlock conn job todo =>
    have hnd : (job :: todo).Nodup := hat.sound
    refine ⟨(List.nodup_cons.mp hnd).2, fun c => ?_, ?_⟩
    · refine (hat.session c).trans ?_
      exact ⟨fun ⟨_, h⟩ => ⟨todo, by rw [← (Prod.mk.inj (Option.some.inj h)).1]; rfl⟩,
        fun ⟨_, h⟩ => ⟨job :: todo, by rw [← (Prod.mk.inj (Option.some.inj h)).1]; rfl⟩⟩
    · rintro c jobs ⟨⟩
      exact (hat.own conn _ rfl).unlock fun h => (List.nodup_cons.mp hnd).1 (mem_map_key.mp h)
  | close hs => exact hat.left hs rfl
  | invalidate hs => exact hat.left hs rfl

/-- A lock that is held after a step belongs to a session that is in use then. -/
theorem SyncStep.sound (hdb : db.Sound) (hat : SyncAt p point db)
    (h : SyncStep db p point db' point') : db'.Sound := by
  have hat' := hat.own_step hdb h
  obtain ⟨hsess, -⟩ := h.others hat
  cases h with
  | outside _ _ _ hg => exact ⟨hg, hdb.used⟩
  | pass _ _ _ _ => exact hdb
  | @connect run conn _ =>
    refine ⟨hdb.guarded, fun key c n hk => ?_⟩
    obtain ⟨q, hq⟩ := hdb.used key c n hk
    by_cases he : q = p
    · subst he
      obtain ⟨jobs, hj⟩ := (hat.session c).mp hq
      cases hj
    · exact ⟨q, (hsess q c he).mpr hq⟩
  | @lock run conn acquired job todo locks _ hl _ =>
    refine ⟨hdb.guarded, fun key c n hk => ?_⟩
    by_cases he : c = conn
    · exact ⟨p, he ▸ (hat.session conn).mpr ⟨acquired, rfl⟩⟩
    · exact hdb.used key c n ((SessionLocks.keeps_tryLock hl c he key n).mp hk)
  | @unlock conn job todo =>
    refine ⟨hdb.guarded, fun key c n hk => ?_⟩
    by_cases he : c = conn
    · exact ⟨p, he ▸ (hat.session conn).mpr ⟨job :: todo, rfl⟩⟩
    · exact hdb.used key c n ((SessionLocks.keeps_unlock _ _ _ c he key n).mp hk)
  | @close point conn hs =>
    refine ⟨hdb.guarded, fun key c n hk => ?_⟩
    obtain ⟨q, hq⟩ := hdb.used key c n hk
    refine ⟨q, ?_⟩
    rw [get?_close, if_neg, hq]
    rintro rfl
    exact absurd ((hat.own c [] hs key n).mp hk).2 List.not_mem_nil
  | @invalidate point conn jobs hs =>
    refine ⟨hdb.guarded, fun key c n hk => ?_⟩
    obtain ⟨hk', hne⟩ := (SessionLocks.get?_drop _ _ _).mp hk
    obtain ⟨q, hq⟩ := hdb.used key c n hk'
    exact ⟨q, (get?_close db conn c).trans ((if_neg hne).trans hq)⟩

/-! ### Runs -/

/-- No tasks, and nothing under way. -/
structure SyncStart (s : Procs P SyncPoint (SyncDb P)) : Prop where
  idle : ∀ p, s.proc p = .idle
  tasks : s.shared.tasks = .empty
  locks : s.shared.locks = .empty
  sessions : s.shared.sessions = .empty

/-- The condition on a step of a run. -/
def SyncGuarded (a : P × SyncAction) (s : Procs P SyncPoint (SyncDb P)) :
    Prop := SyncGuard (s.proc a.1) a.2

theorem SyncStart.at {s : Procs P SyncPoint (SyncDb P)} (h : SyncStart s) :
    s.shared.Sound ∧ ∀ p, SyncAt p (s.proc p) s.shared := by
  refine ⟨⟨fun id task hid => ?_, fun key conn n hk => ?_⟩, fun p => ?_⟩
  · rw [h.tasks] at hid
    cases hid
  · rw [h.locks] at hk
    cases hk
  · rw [h.idle p]
    refine ⟨trivial, fun conn => ⟨fun hc => ?_, nofun⟩, nofun⟩
    rw [h.sessions] at hc
    cases hc

section Runs

variable [DecidableEq P] {s : Procs P SyncPoint (SyncDb P)}

theorem syncAt_of_reach (h : (syncRuns SyncStart).ReachIf SyncGuarded s) :
    s.shared.Sound ∧ ∀ p, SyncAt p (s.proc p) s.shared := by
  refine Procs.invariant SyncStart.at ?_ ?_ h
  · intro s p a r hdb hAt hok hr
    have hst := syncNext_step hdb.guarded (hAt p).sound hok hr
    exact ⟨hst.sound hdb (hAt p), (hAt p).own_step hdb hst⟩
  · intro s p a r q hdb hAt hok hr hne
    exact (hAt p).other (hAt q) (syncNext_step hdb.guarded (hAt p).sound hok hr) hne

omit [DecidableEq P] in
/-- An execution in a body has the lock of the body. -/
theorem SyncAt.lock_of_inBody {p : P} {point : SyncPoint} {db : SyncDb P} (hat : SyncAt p point db)
    {job : SyncJob} (h : point.inBody = some job) :
    ∃ conn, db.sessions.get? conn = some p ∧
    db.locks.owner.get? (syncBusinessLockKey job) = some (conn, 1) := by
  cases point with
  | body run conn job' steps =>
    obtain rfl := Option.some.inj h
    have hmem : job' ∈ run.locks := hat.sound
    exact ⟨conn, (hat.session conn).mpr ⟨_, rfl⟩,
      (hat.own conn _ rfl _ 1).mpr ⟨rfl, mem_map_key.mpr hmem⟩⟩
  | bodyHeld job' => exact absurd hat.sound (fun h => h)
  | bodyLost run job' steps => exact absurd hat.sound (fun h => h)
  | _ => cases h

/-- **One execution of each body** is in progress, and a lock that is held is one of an
execution that is still in its block. -/
theorem sync_exclusive_of_reach (h : (syncRuns SyncStart).ReachIf SyncGuarded s) :
    (∀ p q job, (s.proc p).inBody = some job → (s.proc q).inBody = some job → p = q) ∧
    ∀ key conn n, s.shared.locks.owner.get? key = some (conn, n) →
      ∃ p jobs, (s.proc p).session = some (conn, jobs) ∧ key ∈ jobs.map syncBusinessLockKey := by
  obtain ⟨hdb, hAt⟩ := syncAt_of_reach h
  constructor
  · intro p q job hp hq
    obtain ⟨conn, hconn, hlock⟩ := (hAt p).lock_of_inBody hp
    obtain ⟨conn', hconn', hlock'⟩ := (hAt q).lock_of_inBody hq
    have hsame : conn = conn' := (Prod.mk.inj (Option.some.inj (hlock.symm.trans hlock'))).1
    rw [← hsame, hconn] at hconn'
    exact Option.some.inj hconn'
  · intro key conn n hk
    obtain ⟨p, hp⟩ := hdb.used key conn n hk
    obtain ⟨jobs, hj⟩ := ((hAt p).session conn).mp hp
    exact ⟨p, jobs, hj, (((hAt p).own conn jobs hj key n).mp hk).2⟩

end Runs

end Sync

/-! ### Two runs -/

/-- No task, and everybody idle. -/
def noSync : Procs Bool SyncPoint (SyncDb Bool) := ⟨⟨.empty, 1, .empty, .empty⟩, fun _ => .idle⟩

theorem syncStart_noSync : SyncStart noSync := ⟨fun _ => rfl, rfl, rfl, rfl⟩

/-- A worker takes `sync_all` to the body of its first step; another has taken a task of
the shops, with a key of its own, and finds the lock held. -/
def syncAllRun : List (Bool × SyncAction) :=
  [(false, .create ⟨.syncAll, none, .null⟩), (false, .create ⟨.single .shop, some "again", .null⟩),
    (false, .start 1), (false, .connect 1), (true, .start 2), (true, .connect 2)] ++
    List.replicate 7 (false, .returns) ++ [(true, .returns)]

theorem sync_exclusive_of_reach_syncAll : ∃ s : Procs Bool SyncPoint (SyncDb Bool),
    (syncRuns SyncStart).ReachIf SyncGuarded s ∧ (s.proc false).inBody = some .shop ∧
    (s.proc true).session = some (2, []) ∧ ∀ q, (s.proc q).inBody = some .shop → q = false := by
  have hrun : (Procs.exec syncNext noSync syncAllRun).map
      (fun s => ((s.proc false).inBody, (s.proc true).session)) =
      some (some .shop, some (2, [])) := by decide +kernel
  obtain ⟨s, hs, hall⟩ := Option.map_eq_some_iff.mp hrun
  obtain ⟨hbody, hsession⟩ := Prod.mk.inj hall
  have hreach : (syncRuns SyncStart).ReachIf SyncGuarded s := by
    refine Procs.reach_exec (.start syncStart_noSync) hs fun a ha s => ?_
    simp only [syncAllRun, List.mem_append, List.mem_cons, List.mem_replicate, List.not_mem_nil,
      or_false] at ha
    rcases ha with ((rfl | rfl | rfl | rfl | rfl | rfl) | ⟨-, rfl⟩) | rfl
    · exact fun job hjob => nomatch hjob
    · rintro job - held ⟨⟩
      rfl
    all_goals exact trivial
  exact ⟨s, hreach, hbody, hsession,
    fun q hq => (sync_exclusive_of_reach hreach).1 q false .shop hq hbody⟩

/-- Two tasks with keys of their own, and with the payload that `sync_all` gives its
children: both are in the body. -/
theorem two_bodies : ∃ s : Procs Bool SyncPoint (SyncDb Bool), (syncRuns SyncStart).Reach s ∧
    (s.proc false).inBody = some .shop ∧ (s.proc true).inBody = some .shop := by
  have hrun : (Procs.exec syncNext noSync
      [(false, .create ⟨.single .shop, some "first", .arr [.str "sync_shop"]⟩),
        (false, .create ⟨.single .shop, some "second", .arr [.str "sync_shop"]⟩),
        (false, .start 1), (true, .start 2)]).map (fun s =>
          ((s.proc false).inBody, (s.proc true).inBody)) =
      some (some .shop, some .shop) := by decide +kernel
  obtain ⟨s, hs, hall⟩ := Option.map_eq_some_iff.mp hrun
  obtain ⟨hfirst, hsecond⟩ := Prod.mk.inj hall
  exact ⟨s, Procs.reach_exec (.start syncStart_noSync) hs fun _ _ _ => trivial, hfirst, hsecond⟩

/-- The lock goes with the connection, and the body does not notice. -/
example : (Procs.exec syncNext noSync
    [(false, .create ⟨.single .shop, some "first", .null⟩),
      (false, .create ⟨.single .shop, some "second", .null⟩),
      (false, .start 1), (false, .connect 1), (false, .returns), (false, .loses),
      (true, .start 2), (true, .connect 2), (true, .returns)]).map
      (fun s => ((s.proc false).inBody, (s.proc true).inBody)) = some (some .shop, some .shop) := by
  decide +kernel

end Restock
