/-
# The leases of the workers (`tasks/worker.py`, `tasks/reaper.py`)

A worker that claims a task has a lease on it. While the handler of the task runs, a
second loop of the worker renews the lease (`_heartbeat_loop`); each uses a session of its
own. The reaper fails the running tasks whose lease has expired. `Worker.start` refuses
settings with which a lease would not outlast two heartbeats.

Time passes between the statements. A worker whose heartbeats come at least every two
intervals keeps its task: whatever the others do, and however long their transactions
take, the row stays running with its name, so that its progress and its result are stored
(`beating_task_kept`). A task for which nobody beats any more is failed by the next pass
of the reaper that begins after its lease (`dead_task_reaped`).

Nobody beats for a task either after a single heartbeat has failed: `_heartbeat_loop`
ends with any error, and the handler runs on with the lease it has.
-/
import Restock.TaskQueue

namespace Restock

open ReadCommitted

/-! ### The programs -/

/-- The settings of a worker. -/
structure WorkerSettings where
  workerLeaseMinutes : ℤ
  workerHeartbeatSeconds : ℤ

/-- In microseconds, as all times here. -/
def WorkerSettings.lease (settings : WorkerSettings) :
    ℤ := settings.workerLeaseMinutes * 60 * 1000000

/-- The time between two heartbeats, in microseconds. -/
def WorkerSettings.heartbeat (settings : WorkerSettings) :
    ℤ := settings.workerHeartbeatSeconds * 1000000

/-- The sessions of a process are its main one and that of its heartbeats. -/
structure LeaseState (W : Type) where
  db : TaskDb (W × Bool)
  clock : ℤ

/-- Where the heartbeats of an execution stand. -/
inductive BeatPoint
  | sleeping
  /-- The lease is renewed, but for the commit. -/
  | beating
  /-- `lease_lost` is set. -/
  | lost
  /-- The loop has ended with an error. -/
  | ended
deriving DecidableEq

/-- Where the handler of an execution stands. -/
inductive HandlerPoint
  | running
  /-- The progress is stored, but for the commit. -/
  | progress
  /-- The result is stored, but for the commit. -/
  | marked
deriving DecidableEq

/-- Where a process stands. -/
inductive LeasePoint
  | idle
  /-- A request of a client, the scheduler or the reaper. -/
  | client (point : TaskPoint)
  | polling
  /-- The task was claimed at the time, but for the commit. -/
  | claiming (id : ℕ) (since : ℤ)
  /-- The lease was claimed or renewed at the time. -/
  | executing (id : ℕ) (since : ℤ) (beat : BeatPoint) (handler : HandlerPoint)
  | stopped

/-- The requests of others to the queue. -/
inductive ClientRequest
  | enqueue (spec : TaskSpec)
  | reap
  | cancel (taskId : ℕ)

/-- What happens next. -/
inductive LeaseAction
  | tick (d : ℕ)
  | request (request : ClientRequest)
  | start
  | claim
  | beat
  | beatStatement
  | beatError
  | progress
  /-- The handler has returned, or raised. -/
  | mark (success : Bool)
  | statement
  /-- A statement of the handler, or of its result, raises. -/
  | error
  /-- `_execute` raises. -/
  | raise
  | crash

/-- The request at the time of its first statement. -/
def ClientRequest.at (clock : ℤ) : ClientRequest → TaskRequest
  | .enqueue spec => .enqueue spec
  | .reap => .reap clock
  | .cancel taskId => .cancel taskId

/-- Where a request stands. -/
def LeasePoint.ofTask : TaskPoint → LeasePoint
  | .idle => .idle
  | point => .client point

section Leases

variable {W : Type} [DecidableEq W]

namespace LeaseState

/-- The state with other tables. -/
def withDb (g : LeaseState W) (db : TaskDb (W × Bool)) : LeaseState W := { g with db := db }

/-- Both sessions of a process end. -/
def abandon (g : LeaseState W) (p : W) :
    LeaseState W := g.withDb ((g.db.rollback (p, false)).rollback (p, true))

/-- The handler is done; the heartbeats are cancelled. -/
def finish (g : LeaseState W) (p : W) :
    LeaseState W := g.withDb ((g.db.commit (p, false)).rollback (p, true))

/-- A session writes a task. -/
def writeTask (g : LeaseState W) (session : W × Bool) (id : ℕ) (row : TaskRow) : LeaseState W :=
  g.withDb { g.db with tasks := g.db.tasks.write session id (some row) }

/-- An `UPDATE` of the task of a worker: it waits for the row, and changes it or finds none. -/
def updateOwn (g : LeaseState W) (session : W × Bool) (workerId : String) (id : ℕ)
    (f : TaskRow → TaskRow) (found : LeasePoint) (missed : LeaseState W × LeasePoint) :
    Option (LeaseState W × LeasePoint) :=
  if g.db.tasks.free session id then
    match g.db.tasks.view session id with
    | some row =>
      if row.runBy workerId then some (g.writeTask session id (f row), found) else some missed
    | none => some missed
  else none

end LeaseState

/-- One statement of a process. -/
def leaseNext (settings : WorkerSettings) (workerId : W → String) (g : LeaseState W) (p : W) :
    LeasePoint → LeaseAction → Option (LeaseState W × LeasePoint)
  | point, .tick d => some ({ g with clock := g.clock + d }, point)
  | _, .crash => some (g.abandon p, .stopped)
  | .idle, .request request =>
    (taskRequestNext g.db (p, false) (request.at g.clock)).map fun r => (g.withDb r.1, .ofTask r.2)
  | .client point, .statement =>
    (taskNext g.db (p, false) point .statement).map fun r => (g.withDb r.1, .ofTask r.2)
  | .idle, .start =>
    if settings.lease ≤ settings.heartbeat * 2 then some (g, .idle) else some (g, .polling)
  | .polling, .claim =>
    match g.db.nextPending with
    | none => some (g, .polling)
    | some (id, row) =>
      some (g.writeTask (p, false) id (row.claimed (workerId p) g.clock settings.lease),
        .claiming id g.clock)
  | .claiming id since, .statement =>
    some (g.withDb (g.db.commit (p, false)), .executing id since .sleeping .running)
  | .executing id since .sleeping handler, .beat =>
    g.updateOwn (p, true) (workerId p) id
      (fun row => { row with leaseExpiresAt := some (g.clock + settings.lease) })
      (.executing id g.clock .beating handler) (g, .executing id since .lost handler)
  | .executing id since .beating handler, .beatStatement =>
    some (g.withDb (g.db.commit (p, true)), .executing id since .sleeping handler)
  | .executing id since .sleeping handler, .beatError | .executing id since .beating handler, .beatError =>
    some (g.withDb (g.db.rollback (p, true)), .executing id since .ended handler)
  | .executing id since beat .running, .progress =>
    if beat = .lost then some (g.abandon p, .polling)
    else g.updateOwn (p, false) (workerId p) id (fun row => row)
      (.executing id since beat .progress) (g.abandon p, .polling)
  | .executing id since beat .progress, .statement =>
    some (g.withDb (g.db.commit (p, false)), .executing id since beat .running)
  | .executing id since beat .running, .mark success =>
    g.updateOwn (p, false)
      (workerId p) id (fun row => row.withStatus (if success then .success else .failed))
      (.executing id since beat .marked) (g.abandon p, .polling)
  | .executing _ _ _ .marked, .statement => some (g.finish p, .polling)
  | .executing id since beat .progress, .error | .executing id since beat .marked, .error =>
    some (g.withDb (g.db.rollback (p, false)), .executing id since beat .running)
  | .executing _ _ _ .running, .raise => some (g.abandon p, .polling)
  | _, _ => none

/-- The interleavings, from the given states. -/
def leaseRuns (settings : WorkerSettings) (workerId : W → String)
    (start : Procs W LeasePoint (LeaseState W) → Prop) :
    Lts (Procs W LeasePoint (LeaseState W)) (W × LeaseAction) :=
  Procs.runs start (leaseNext settings workerId)

/-! ### What a statement does -/

variable {settings : WorkerSettings} {workerId : W → String} {g g' : LeaseState W} {p q : W}

/-- What a statement of a client, the scheduler or the reaper does. -/
inductive ClientStep {P : Type} [DecidableEq P] (db : TaskDb P) (p : P) (clock : ℤ) :
    TaskPoint → TaskDb P → TaskPoint → Prop
  | ends {point point'} : point'.clean → (∀ now todo, point = .reaping now todo → todo = []) →
      ClientStep db p clock point (db.commit p) point'
  | drops {point point'} : point'.clean → (∀ now todo, point ≠ .reaping now todo) →
    ClientStep db p clock point (db.rollback p) point'
  | read {point point'} : point.clean → point' ≠ .idle → (∀ now todo, point' = .reaping now todo →
      now = clock ∧ todo = db.tasks.select p (TaskRow.expired now)) →
        ClientStep db p clock point db point'
  | insert {point row} : point.clean → ClientStep db p clock point (db.insert p row).1 .written
  | cancel {id row} : db.tasks.free p id = true → db.tasks.view p id = some row →
      ClientStep db p clock (.cancelRead id)
        { db with tasks := db.tasks.write p id (some (row.withStatus .cancelled)) } .written
  | reap {now id todo row} : db.tasks.free p id = true → db.tasks.view p id = some row →
      row.expired now = true → ClientStep db p clock (.reaping now (id :: todo))
        { db with tasks := db.tasks.write p id (some (row.withStatus .failed)) } (.reaping now todo)
  | reapMiss {now id todo} : (∀ row, db.tasks.view p id = some row → row.expired now = false) →
      db.tasks.free p id = true →
        ClientStep db p clock (.reaping now (id :: todo)) db (.reaping now todo)

section Client

variable {P : Type} [DecidableEq P] {db : TaskDb P} {σ : P} {clock : ℤ} {r : TaskDb P × TaskPoint}

theorem enqueueTask_client {point : TaskPoint} {spec : TaskSpec} {n : ℕ} (hp : point.clean)
    (h : enqueueTask db σ spec n = some r) : ClientStep db σ clock point r.1 r.2 := by
  unfold enqueueTask at h
  split_ifs at h
  · rw [← Option.some.inj h]
    exact .insert hp
  · rw [← Option.some.inj h]
    refine .drops trivial fun now todo he => ?_
    rw [he] at hp
    exact hp

theorem clientRequest_step {request : ClientRequest}
    (h : taskRequestNext db σ (request.at clock) = some r) :
    ClientStep db σ clock .idle r.1 r.2 := by
  cases request with
  | enqueue spec => exact enqueueTask_client trivial h
  | reap =>
    rw [← Option.some.inj h]
    refine .read trivial (fun he => (by cases he)) fun now todo he => ?_
    obtain ⟨rfl, rfl⟩ := TaskPoint.reaping.inj he
    exact ⟨rfl, rfl⟩
  | cancel id =>
    dsimp only [ClientRequest.at, taskRequestNext] at h
    split_ifs at h
    · rw [← Option.some.inj h]
      exact .read trivial (fun he => (by cases he)) fun _ _ he => (by cases he)
    · rw [← Option.some.inj h]
      exact .drops trivial fun _ _ he => (by cases he)

theorem clientNext_step {point : TaskPoint} (h : taskNext db σ point .statement = some r) :
    ClientStep db σ clock point r.1 r.2 := by
  cases point with
  | idle => cases h
  | written =>
    rw [← Option.some.inj h]
    exact .ends trivial fun _ _ he => (by cases he)
  | refused spec n =>
    dsimp only [taskNext] at h
    split at h
    · split_ifs at h
      · rw [← Option.some.inj h]
        exact .drops trivial fun _ _ he => (by cases he)
      · rw [← Option.some.inj h]
        exact .read trivial (fun he => (by cases he)) fun _ _ he => (by cases he)
    · split_ifs at h
      · rw [← Option.some.inj h]
        exact .read trivial (fun he => (by cases he)) fun _ _ he => (by cases he)
      · rw [← Option.some.inj h]
        exact .drops trivial fun _ _ he => (by cases he)
  | retrying spec n => exact enqueueTask_client trivial h
  | skipping spec id =>
    rw [← Option.some.inj h]
    exact .insert trivial
  | reaping now todo =>
    cases todo with
    | nil =>
      rw [← Option.some.inj h]
      refine .ends trivial fun now' todo' he => ?_
      exact (TaskPoint.reaping.inj he).2.symm
    | cons id todo =>
      obtain ⟨tasks, hu, rfl⟩ := Option.map_eq_some_iff.mp h
      obtain ⟨hfree, ⟨row, hv, hc, rfl⟩ | ⟨hmiss, rfl⟩⟩ := Table.update_cases hu
      · exact .reap hfree hv hc
      · exact .reapMiss hmiss hfree
  | cancelRead id =>
    obtain ⟨tasks, hu, rfl⟩ := Option.map_eq_some_iff.mp h
    obtain ⟨hfree, ⟨row, hv, -, rfl⟩ | ⟨-, rfl⟩⟩ := Table.update_cases hu
    · exact .cancel hfree hv
    · exact .read trivial (fun he => (by cases he)) fun _ _ he => (by cases he)

end Client

/-- A row of a worker that its handler changes, and where it then stands. -/
def HandlerPoint.Writes (row row' : TaskRow) : HandlerPoint → Prop
  | .running => False
  | .progress => row' = row
  | .marked => row'.status = .success ∨ row'.status = .failed

/-- What each statement does, with what has to hold for it. -/
inductive LeaseStep (settings : WorkerSettings) (workerId : W → String) (g : LeaseState W) (p : W) :
    LeaseAction → LeasePoint → LeaseState W → LeasePoint → Prop
  | tick {point d} : LeaseStep settings workerId g p (.tick d)
    point { g with clock := g.clock + d } point
  | abandon {action point point'} : point' = .stopped ∧ action = .crash ∨
      point' = .polling ∧ (∃ id since beat handler, point = .executing id since beat handler) →
      LeaseStep settings workerId g p action point (g.abandon p) point'
  | client {action point db pt pt'} : point = .ofTask pt → (pt ≠ .idle → action = .statement) →
      ClientStep g.db (p, false) g.clock pt db pt' →
      LeaseStep settings workerId g p action point (g.withDb db) (.ofTask pt')
  | read {action point point'} : point = .idle ∨ point = .polling → point' = .idle ∨
      point' = .polling → (point' = .polling → point = .polling ∨
      settings.heartbeat * 2 < settings.lease) →
      LeaseStep settings workerId g p action point g point'
  | claim {action id row} : g.db.tasks.committed.get? id = some row → row.status = .pending →
      g.db.tasks.locks.get? id = none → LeaseStep settings workerId g p action .polling
        (g.writeTask (p, false) id (row.claimed (workerId p) g.clock settings.lease))
          (.claiming id g.clock)
  | claimed {action id since} :
      LeaseStep settings workerId g p action (.claiming id since)
      (g.withDb (g.db.commit (p, false)))
      (.executing id since .sleeping .running)
  | beat {action id since handler row} : g.db.tasks.free (p, true) id = true →
      g.db.tasks.view (p, true) id = some row → row.runBy (workerId p) = true →
      LeaseStep settings workerId g p action (.executing id since .sleeping handler)
        (g.writeTask (p, true) id { row with leaseExpiresAt := some (g.clock + settings.lease) })
        (.executing id g.clock .beating handler)
  | beatMiss {action id since handler} :
      (∀ row, g.db.tasks.view (p, true) id = some row → row.runBy (workerId p) = false) →
      LeaseStep settings workerId g p action (.executing id since .sleeping handler) g
        (.executing id since .lost handler)
  | beatCommit {action id since handler} :
      LeaseStep settings workerId g p action (.executing id since .beating handler)
      (g.withDb (g.db.commit (p, true))) (.executing id since .sleeping handler)
  | beatError {id since beat handler} :
      LeaseStep settings workerId g p .beatError (.executing id since beat handler)
      (g.withDb (g.db.rollback (p, true))) (.executing id since .ended handler)
  | own {action id since beat handler row row'} : g.db.tasks.free (p, false) id = true →
      g.db.tasks.view (p, false) id = some row → row.runBy (workerId p) = true →
        HandlerPoint.Writes row row' handler →
      LeaseStep settings workerId g p action (.executing id since beat .running)
        (g.writeTask (p, false) id row')
        (.executing id since beat handler)
  | progressCommit {action id since beat} :
      LeaseStep settings workerId g p action (.executing id since beat .progress)
      (g.withDb (g.db.commit (p, false))) (.executing id since beat .running)
  | error {action id since beat handler} :
      LeaseStep settings workerId g p action (.executing id since beat handler)
      (g.withDb (g.db.rollback (p, false))) (.executing id since beat .running)
  | finish {action id since beat} :
    LeaseStep settings workerId g p action (.executing id since beat .marked) (g.finish p) .polling

/-- An `UPDATE` of the handler. -/
theorem updateOwn_step {action : LeaseAction} {id : ℕ} {since : ℤ} {beat : BeatPoint}
    {handler : HandlerPoint} {f : TaskRow → TaskRow} {r : LeaseState W × LeasePoint}
    (hf : ∀ row, HandlerPoint.Writes row (f row) handler)
    (h : g.updateOwn (p, false) (workerId p) id f (.executing id since beat handler)
    (g.abandon p, .polling) = some r) :
    LeaseStep settings workerId g p action (.executing id since beat .running) r.1 r.2 := by
  unfold LeaseState.updateOwn at h
  split_ifs at h with hfree
  split at h
  · rename_i row hview
    split_ifs at h with hrun
    · rw [← Option.some.inj h]
      exact .own hfree hview hrun (hf row)
    · rw [← Option.some.inj h]
      exact .abandon (Or.inr ⟨rfl, _, _, _, _, rfl⟩)
  · rw [← Option.some.inj h]
    exact .abandon (Or.inr ⟨rfl, _, _, _, _, rfl⟩)

/-- **Every statement** is one of the listed ones. -/
theorem leaseNext_step {point : LeasePoint} {action : LeaseAction} {r : LeaseState W × LeasePoint}
    (h : leaseNext settings workerId g p point action = some r) :
    LeaseStep settings workerId g p action point r.1 r.2 := by
  unfold leaseNext at h
  split at h
  case h_1 =>
    rw [← Option.some.inj h]
    exact .tick
  case h_2 =>
    rw [← Option.some.inj h]
    exact .abandon (Or.inl ⟨rfl, rfl⟩)
  case h_3 =>
    obtain ⟨r', hr', rfl⟩ := Option.map_eq_some_iff.mp h
    exact .client rfl (fun hne => absurd rfl hne) (clientRequest_step hr')
  case h_4 pt =>
    obtain ⟨r', hr', rfl⟩ := Option.map_eq_some_iff.mp h
    cases pt with
    | idle => cases hr'
    | _ => exact .client rfl (fun _ => rfl) (clientNext_step hr')
  case h_5 =>
    split_ifs at h with hcheck
    · rw [← Option.some.inj h]
      exact .read (Or.inl rfl) (Or.inl rfl) fun hp => (by cases hp)
    · rw [← Option.some.inj h]
      exact .read (Or.inl rfl) (Or.inr rfl) fun _ => Or.inr (not_le.mp hcheck)
  case h_6 =>
    split at h
    · rw [← Option.some.inj h]
      exact .read (Or.inr rfl) (Or.inr rfl) fun _ => Or.inl rfl
    · rename_i id row hid
      obtain ⟨hcommitted, hpending, hlocks⟩ := nextPending_spec hid
      rw [← Option.some.inj h]
      exact .claim hcommitted hpending hlocks
  case h_7 =>
    rw [← Option.some.inj h]
    exact .claimed
  case h_8 id since handler =>
    unfold LeaseState.updateOwn at h
    split_ifs at h with hfree
    split at h
    · rename_i row hview
      split_ifs at h with hrun
      · rw [← Option.some.inj h]
        exact .beat hfree hview hrun
      · rw [← Option.some.inj h]
        refine .beatMiss fun row' hrow' => ?_
        obtain rfl := Option.some.inj (hview.symm.trans hrow')
        exact Bool.not_eq_true _ |>.mp hrun
    · rename_i hview
      rw [← Option.some.inj h]
      refine .beatMiss fun row' hrow' => ?_
      rw [hview] at hrow'
      cases hrow'
  case h_9 =>
    rw [← Option.some.inj h]
    exact .beatCommit
  case h_10 | h_11 =>
    rw [← Option.some.inj h]
    exact .beatError
  case h_12 =>
    split_ifs at h
    · rw [← Option.some.inj h]
      exact .abandon (Or.inr ⟨rfl, _, _, _, _, rfl⟩)
    · exact updateOwn_step (fun row => show HandlerPoint.Writes row row .progress from rfl) h
  case h_13 =>
    rw [← Option.some.inj h]
    exact .progressCommit
  case h_14 success =>
    have hmarked : ∀ row : TaskRow,
        HandlerPoint.Writes row (row.withStatus (if success then .success else .failed))
        .marked := by
      intro row
      cases success
      · exact Or.inr rfl
      · exact Or.inl rfl
    exact updateOwn_step hmarked h
  case h_15 =>
    rw [← Option.some.inj h]
    exact .finish
  case h_16 | h_17 =>
    rw [← Option.some.inj h]
    exact .error
  case h_18 =>
    rw [← Option.some.inj h]
    exact .abandon (Or.inr ⟨rfl, _, _, _, _, rfl⟩)
  case h_19 => cases h

/-! ### The sessions of a process -/

/-- What a statement of `p` does to the table, as the others see it. -/
structure Touches (p : W) (t t' : Table (W × Bool) ℕ TaskRow) : Prop where
  held : ∀ σ : W × Bool, σ.1 ≠ p → ∀ k v, t'.locks.get? k = some (σ, v) ↔
    t.locks.get? k = some (σ, v)
  committed : ∀ k, t'.committed.get? k = t.committed.get? k ∨
    ∃ b, t.locks.get? k = some ((p, b), t'.committed.get? k)

theorem touches_of_moves {b : Bool} {t t' : Table (W × Bool) ℕ TaskRow}
    (h : Table.Moves (p, b) t t') : Touches p t t' where
  held := fun _ hσ _ _ => h.held_other fun he => hσ (congrArg Prod.fst he)
  committed := fun k => (h.committed_cases k).imp_right fun hk => ⟨b, hk⟩

/-- A session ends, and the other one of the process is dropped. -/
theorem Touches.abort {t t' : Table (W × Bool) ℕ TaskRow} (h : Touches p t t') (b : Bool) :
    Touches p t (t'.abort (p, b)) where
  held := by
    intro σ hσ k v
    rw [← h.held σ hσ k v]
    exact (Table.Moves.abort (p := (p, b))).held_other fun he => hσ (congrArg Prod.fst he)
  committed := h.committed

omit [DecidableEq W] in
/-- A row that another process has stays as it is committed. -/
theorem Touches.committed_of_held {t t' : Table (W × Bool) ℕ TaskRow} (h : Touches p t t')
    {σ : W × Bool} (hσ : σ.1 ≠ p) {k : ℕ} {v : Option TaskRow} (hk : t.locks.get? k = some (σ, v)) :
    t'.committed.get? k = t.committed.get? k := by
  rcases h.committed k with hsame | ⟨b, hb⟩
  · exact hsame
  · rw [hk] at hb
    exact absurd (congrArg Prod.fst (Prod.mk.inj (Option.some.inj hb)).1) hσ

theorem ClientStep.moves {db db' : TaskDb (W × Bool)} {σ : W × Bool} {clock : ℤ}
    {point point' : TaskPoint} (hf : db.tasks.Fresh db.nextTask)
    (h : ClientStep db σ clock point db' point') : Table.Moves σ db.tasks db'.tasks := by
  cases h with
  | ends => exact .commit
  | drops => exact .abort
  | read | reapMiss => exact .same
  | insert => exact .write hf.free
  | cancel hfree _ | reap hfree _ _ => exact .write hfree

theorem free_of_unlocked {t : Table (W × Bool) ℕ TaskRow} {σ : W × Bool} {k : ℕ}
    (h : t.locks.get? k = none) : t.free σ k = true :=
  Table.free_iff.mpr fun q v hv => absurd hv (by simp [h])

theorem LeaseStep.touches {action : LeaseAction} {point point' : LeasePoint}
    (hf : g.db.tasks.Fresh g.db.nextTask)
    (h : LeaseStep settings workerId g p action point g' point') :
    Touches p g.db.tasks g'.db.tasks := by
  cases h with
  | tick | read | beatMiss => exact touches_of_moves (b := true) .same
  | abandon => exact (touches_of_moves .abort).abort true
  | client _ _ hstep => exact touches_of_moves (hstep.moves hf)
  | claim _ _ hlocks => exact touches_of_moves (.write (free_of_unlocked hlocks))
  | claimed | beatCommit | progressCommit => exact touches_of_moves .commit
  | beat hfree _ _ | own hfree _ _ _ => exact touches_of_moves (.write hfree)
  | beatError | error => exact touches_of_moves .abort
  | finish => exact (touches_of_moves .commit).abort true

/-- Only time moves the clock. -/
theorem LeaseStep.clock_cases {action : LeaseAction} {point point' : LeasePoint}
    (h : LeaseStep settings workerId g p action point g' point') :
    g'.clock = g.clock ∨ ∃ d, action = .tick d ∧ g'.clock = g.clock + d := by
  cases h with
  | tick => exact Or.inr ⟨_, rfl, rfl⟩
  | _ => exact Or.inl rfl

theorem LeaseStep.clock_le {action : LeaseAction} {point point' : LeasePoint}
    (h : LeaseStep settings workerId g p action point g' point') : g.clock ≤ g'.clock := by
  rcases h.clock_cases with hc | ⟨d, -, hc⟩ <;> omega

theorem fresh_write {t : Table (W × Bool) ℕ TaskRow} {n : ℕ} (h : t.Fresh n) {σ : W × Bool} {id : ℕ}
    {row : TaskRow} (hview : t.view σ id = some row) (v : Option TaskRow) :
    (t.write σ id v).Fresh n := by
  intro k hk
  have hne : k ≠ id := by
    intro he
    rw [h.view (he ▸ hk)] at hview
    cases hview
  exact ⟨(h k hk).1, (Table.get?_locks_write t σ id k v).trans ((if_neg hne).trans (h k hk).2)⟩

theorem ClientStep.fresh {db db' : TaskDb (W × Bool)} {σ : W × Bool} {clock : ℤ}
    {point point' : TaskPoint} (hf : db.tasks.Fresh db.nextTask)
    (h : ClientStep db σ clock point db' point') : db'.tasks.Fresh db'.nextTask := by
  cases h with
  | ends => exact hf.commit σ
  | drops => exact hf.abort σ
  | read | reapMiss => exact hf
  | insert => exact hf.insert _
  | cancel _ hview | reap _ hview _ => exact fresh_write hf hview _

theorem LeaseStep.fresh {action : LeaseAction} {point point' : LeasePoint}
    (hf : g.db.tasks.Fresh g.db.nextTask)
    (h : LeaseStep settings workerId g p action point g' point') :
    g'.db.tasks.Fresh g'.db.nextTask := by
  cases h with
  | tick | read | beatMiss => exact hf
  | abandon => exact (hf.abort _).abort _
  | client _ _ hstep => exact hstep.fresh hf
  | @claim _ id row hcommitted _ hlocks =>
    have hno : ∀ v, g.db.tasks.locks.get? id ≠ some ((p, false), v) :=
      fun v hv => absurd hv (by simp [hlocks])
    exact fresh_write hf ((Table.view_of_not_held hno).trans hcommitted) _
  | claimed | beatCommit | progressCommit => exact hf.commit _
  | beat _ hview _ | own _ hview _ _ => exact fresh_write hf hview _
  | beatError | error => exact hf.abort _
  | finish => exact (hf.commit _).abort _

/-! ### What a session leaves -/

/-- What a session does to a row that is committed. -/
inductive Leaves (settings : WorkerSettings) (workerId : W → String) (clock : ℤ) (σ : W × Bool)
    (row : TaskRow) : TaskRow → Prop
  | cancel : Leaves settings workerId clock σ row (row.withStatus .cancelled)
  | reap {now} : now ≤ clock → row.expired now = true →
    Leaves settings workerId clock σ row (row.withStatus .failed)
  | claim {since} : row.status = .pending →
    Leaves settings workerId clock σ row (row.claimed (workerId σ.1) since settings.lease)
  | beat {since} : σ.2 = true → row.runBy (workerId σ.1) = true →
      Leaves settings workerId clock σ row
        { row with leaseExpiresAt := some (since + settings.lease) }
  | own {handler row'} : row.runBy (workerId σ.1) = true → HandlerPoint.Writes row row' handler →
      Leaves settings workerId clock σ row row'

omit [DecidableEq W] in
theorem Leaves.later {clock clock' : ℤ} {σ : W × Bool} {row row' : TaskRow}
    (h : Leaves settings workerId clock σ row row') (hle : clock ≤ clock') :
    Leaves settings workerId clock' σ row row' := by
  cases h with
  | cancel => exact .cancel
  | reap hnow hexp => exact .reap (hnow.trans hle) hexp
  | claim hpending => exact .claim hpending
  | beat hb hrun => exact .beat hb hrun
  | own hrun hw => exact .own hrun hw

/-- The main session has written nothing. -/
def LeasePoint.mainClean : LeasePoint → Prop
  | .client point => point.clean
  | .claiming _ _ | .executing _ _ _ .progress | .executing _ _ _ .marked => False
  | _ => True

/-- The session of the heartbeats has written nothing. -/
def LeasePoint.beatClean : LeasePoint → Prop
  | .executing _ _ .beating _ => False
  | _ => True

/-- What holds of the tasks. -/
structure LeaseState.Sane (settings : WorkerSettings) (workerId : W → String) (g : LeaseState W) :
    Prop where
  fresh : g.db.tasks.Fresh g.db.nextTask
  leaves : ∀ k σ v row, g.db.tasks.locks.get? k = some (σ, v) →
    g.db.tasks.committed.get? k = some row → ∃ row', v = some row' ∧
    Leaves settings workerId g.clock σ row row'

/-- What holds for a process at a point. -/
structure LeaseAt (settings : WorkerSettings) (workerId : W → String) (p : W) (point : LeasePoint)
    (g : LeaseState W) : Prop where
  main : point.mainClean → g.db.tasks.Unlocked (p, false)
  beat : point.beatClean → g.db.tasks.Unlocked (p, true)
  reaping : ∀ now todo, point = .client (.reaping now todo) → now ≤ g.clock ∧
    ∀ k v, g.db.tasks.locks.get? k = some ((p, false), v) → ∃ row, v = some row ∧
      row.status = .failed
  claiming : ∀ id since, point = .claiming id since →
    ∃ row, g.db.tasks.committed.get? id = some row ∧ row.status = .pending ∧
    g.db.tasks.locks.get? id =
    some ((p, false), some (row.claimed (workerId p) since settings.lease))
  beating : ∀ id since handler, point = .executing id since .beating handler →
    (∀ k v, g.db.tasks.locks.get? k = some ((p, true), v) → k = id) ∧
      ∃ row, g.db.tasks.committed.get? id = some row ∧ row.runBy (workerId p) = true ∧
      g.db.tasks.locks.get? id =
        some ((p, true), some { row with leaseExpiresAt := some (since + settings.lease) })
  progress : ∀ id since beat, point = .executing id since beat .progress →
    ∀ k v, g.db.tasks.locks.get? k = some ((p, false), v) → v = g.db.tasks.committed.get? k

/-- What a statement adds to the locks of its process. -/
theorem Touches.sane (h : Touches p g.db.tasks g'.db.tasks) (hs : g.Sane settings workerId)
    (hf : g'.db.tasks.Fresh g'.db.nextTask) (hclock : g.clock ≤ g'.clock)
    (hown : ∀ k b v row, g'.db.tasks.locks.get? k = some ((p, b), v) →
      g'.db.tasks.committed.get? k = some row → g.db.tasks.locks.get? k = some ((p, b), v) ∧
      g.db.tasks.committed.get? k = some row ∨ ∃ row', v = some row' ∧
      Leaves settings workerId g'.clock (p, b) row row') : g'.Sane settings workerId where
  fresh := hf
  leaves := by
    intro k σ v row hk hrow
    have hold : g.db.tasks.locks.get? k = some (σ, v) ∧ g.db.tasks.committed.get? k = some row →
        ∃ row', v = some row' ∧ Leaves settings workerId g'.clock σ row row' := by
      intro ho
      obtain ⟨row', hv, hl⟩ := hs.leaves k σ v row ho.1 ho.2
      exact ⟨row', hv, hl.later hclock⟩
    by_cases hσ : σ.1 = p
    · obtain ⟨q, b⟩ := σ
      obtain rfl : q = p := hσ
      rcases hown k b v row hk hrow with ho | hnew
      · exact hold ho
      · exact hnew
    · have hk' := (h.held σ hσ k v).mp hk
      exact hold ⟨hk', (h.committed_of_held hσ hk').symm.trans hrow⟩

/-- A row that a session has when another one ends. -/
theorem held_of_ends {t : Table (W × Bool) ℕ TaskRow} {σ τ : W × Bool} {k : ℕ} {v : Option TaskRow}
    {row : TaskRow} (hk : (t.commit σ).locks.get? k = some (τ, v))
    (hrow : (t.commit σ).committed.get? k = some row) :
    t.locks.get? k = some (τ, v) ∧ t.committed.get? k = some row := by
  obtain ⟨hne, hk'⟩ := (Table.get?_locks_drop t σ k).mp hk
  exact ⟨hk', ((Table.Moves.commit (p := σ)).committed_of_held hne hk').symm.trans hrow⟩

theorem held_of_drops {t : Table (W × Bool) ℕ TaskRow} {σ τ : W × Bool} {k : ℕ} {v : Option TaskRow}
    (hk : (t.abort σ).locks.get? k = some (τ, v)) :
    t.locks.get? k = some (τ, v) := ((Table.get?_locks_drop t σ k).mp hk).2

/-- What a session without the row sees is what it writes over. -/
theorem committed_of_view {t : Table (W × Bool) ℕ TaskRow} {σ : W × Bool} {k : ℕ}
    {row row' : TaskRow} (hno : ∀ v, t.locks.get? k ≠ some (σ, v)) (hview : t.view σ k = some row)
    (hrow : t.committed.get? k = some row') : row' = row := by
  rw [Table.view_of_not_held hno, hrow] at hview
  exact Option.some.inj hview

omit [DecidableEq W] in
/-- A row that the process has written, where it had none. -/
theorem own_of_write {t : Table (W × Bool) ℕ TaskRow} {σ τ : W × Bool} {id k : ℕ}
    {v : Option TaskRow} {row new : TaskRow} {Q : Prop}
    (hk : (t.write σ id (some new)).locks.get? k = some (τ, v))
    (hrow : t.committed.get? k = some row) (hnew : k = id → τ = σ → v = some new → Q) :
    t.locks.get? k = some (τ, v) ∧ t.committed.get? k = some row ∨ Q := by
  rw [Table.get?_locks_write] at hk
  split_ifs at hk with hkey
  · obtain ⟨hσ, hv⟩ := Prod.mk.inj (Option.some.inj hk)
    exact Or.inr (hnew hkey hσ.symm hv.symm)
  · exact Or.inl ⟨hk, hrow⟩

theorem ofTask_eq_client {pt pt' : TaskPoint} (h : LeasePoint.ofTask pt = .client pt') :
    pt = pt' := by
  cases pt with
  | idle => cases h
  | _ => exact LeasePoint.client.inj h

theorem mainClean_ofTask {pt : TaskPoint} : (LeasePoint.ofTask pt).mainClean ↔ pt.clean := by
  cases pt <;> exact Iff.rfl

theorem beatClean_ofTask (pt : TaskPoint) : (LeasePoint.ofTask pt).beatClean := by
  cases pt <;> trivial

/-- A session that reaps sees no row of its own as expired. -/
theorem not_held_of_expired {point : LeasePoint} (hat : LeaseAt settings workerId p point g)
    {now : ℤ} {todo : List ℕ} (hp : point = .client (.reaping now todo)) {id : ℕ} {row : TaskRow}
    (hview : g.db.tasks.view (p, false) id = some row) (hexp : row.expired now = true)
    (v : Option TaskRow) : g.db.tasks.locks.get? id ≠ some ((p, false), v) := by
  intro hv
  obtain ⟨row', rfl, hfailed⟩ := (hat.reaping now todo hp).2 id v hv
  rw [Table.view_of_held hv] at hview
  obtain rfl := Option.some.inj hview
  simp [TaskRow.expired, hfailed] at hexp

/-- **One statement** leaves the tasks as they may be. -/
theorem LeaseStep.sane {action : LeaseAction} {point point' : LeasePoint}
    (hs : g.Sane settings workerId) (hat : LeaseAt settings workerId p point g)
    (h : LeaseStep settings workerId g p action point g' point') :
    g'.Sane settings workerId := by
  refine (h.touches hs.fresh).sane hs (h.fresh hs.fresh) h.clock_le fun k b v row hk hrow => ?_
  cases h with
  | tick | read | beatMiss => exact Or.inl ⟨hk, hrow⟩
  | abandon => exact Or.inl ⟨held_of_drops (held_of_drops hk), hrow⟩
  | claimed | beatCommit | progressCommit => exact Or.inl (held_of_ends hk hrow)
  | beatError | error => exact Or.inl ⟨held_of_drops hk, hrow⟩
  | finish => exact Or.inl (held_of_ends (held_of_drops hk) hrow)
  | claim hcommitted hpending hlocks =>
    refine own_of_write hk hrow fun hkey hσ hv => ⟨_, hv, ?_⟩
    obtain rfl : b = false := congrArg Prod.snd hσ
    obtain rfl := Option.some.inj ((hkey ▸ hcommitted).symm.trans hrow)
    exact .claim hpending
  | beat _ hview hrun =>
    refine own_of_write hk hrow fun hkey hσ hv => ⟨_, hv, ?_⟩
    obtain rfl : b = true := congrArg Prod.snd hσ
    obtain rfl := committed_of_view (hat.beat trivial k) (hkey ▸ hview) hrow
    exact .beat rfl hrun
  | own _ hview hrun hw =>
    refine own_of_write hk hrow fun hkey hσ hv => ⟨_, hv, ?_⟩
    obtain rfl : b = false := congrArg Prod.snd hσ
    obtain rfl := committed_of_view (hat.main trivial k) (hkey ▸ hview) hrow
    exact .own hrun hw
  | client hpoint _ hstep =>
    cases hstep with
    | ends => exact Or.inl (held_of_ends hk hrow)
    | drops => exact Or.inl ⟨held_of_drops hk, hrow⟩
    | read | reapMiss => exact Or.inl ⟨hk, hrow⟩
    | insert =>
      refine own_of_write hk hrow fun hkey _ _ => ?_
      exact absurd ((hs.fresh k (by omega)).1.symm.trans hrow) (by simp)
    | cancel _ hview =>
      refine own_of_write hk hrow fun hkey hσ hv => ⟨_, hv, ?_⟩
      have hclean : point.mainClean := hpoint ▸ mainClean_ofTask.mpr trivial
      obtain rfl : b = false := congrArg Prod.snd hσ
      obtain rfl := committed_of_view (hat.main hclean k) (hkey ▸ hview) hrow
      exact .cancel
    | reap _ hview hexp =>
      refine own_of_write hk hrow fun hkey hσ hv => ⟨_, hv, ?_⟩
      obtain rfl : b = false := congrArg Prod.snd hσ
      obtain rfl := committed_of_view (not_held_of_expired hat hpoint (hkey ▸ hview) hexp)
        (hkey ▸ hview) hrow
      exact .reap (hat.reaping _ _ hpoint).1 hexp

/-! ### What holds at a point -/

omit [DecidableEq W] in
/-- The others do not disturb a process. -/
theorem LeaseAt.other {point : LeasePoint} (hat : LeaseAt settings workerId q point g)
    (h : Touches p g.db.tasks g'.db.tasks) (hq : q ≠ p) (hclock : g.clock ≤ g'.clock) :
    LeaseAt settings workerId q point g' := by
  have hheld : ∀ b k v, g'.db.tasks.locks.get? k = some ((q, b), v) ↔
      g.db.tasks.locks.get? k = some ((q, b), v) :=
    fun b => h.held (q, b) hq
  have hsame : ∀ {b k v}, g.db.tasks.locks.get? k = some ((q, b), v) →
      g'.db.tasks.committed.get? k = g.db.tasks.committed.get? k := by
    intro b k v hk
    have hne : ((q, b) : W × Bool).1 ≠ p := hq
    exact h.committed_of_held hne hk
  refine ⟨fun hc k v hk => hat.main hc k v ((hheld false k v).mp hk),
    fun hc k v hk => hat.beat hc k v ((hheld true k v).mp hk), fun now todo hp => ?_,
    fun id since hp => ?_, fun id since handler hp => ?_, fun id since beat hp k v hk => ?_⟩
  · obtain ⟨hnow, hfailed⟩ := hat.reaping now todo hp
    exact ⟨hnow.trans hclock, fun k v hk => hfailed k v ((hheld false k v).mp hk)⟩
  · obtain ⟨row, hrow, hpending, hlock⟩ := hat.claiming id since hp
    exact ⟨row, (hsame hlock).trans hrow, hpending, (hheld false id _).mpr hlock⟩
  · obtain ⟨honly, row, hrow, hrun, hlock⟩ := hat.beating id since handler hp
    exact ⟨fun k v hk => honly k v ((hheld true k v).mp hk), row, (hsame hlock).trans hrow, hrun,
      (hheld true id _).mpr hlock⟩
  · have hk' := (hheld false k v).mp hk
    rw [hsame hk']
    exact hat.progress id since beat hp k v hk'

omit [DecidableEq W] in
/-- A process that has no row. -/
theorem LeaseAt.of_unlocked {point : LeasePoint} (hmain : g.db.tasks.Unlocked (p, false))
    (hbeat : g.db.tasks.Unlocked (p, true))
    (hpoint : point = .idle ∨ point = .polling ∨ point = .stopped) :
    LeaseAt settings workerId p point g := by
  rcases hpoint with rfl | rfl | rfl
  all_goals
    exact ⟨fun _ => hmain, fun _ => hbeat, fun _ _ hp => (by cases hp), fun _ _ hp => (by cases hp),
      fun _ _ _ hp => (by cases hp), fun _ _ _ hp => (by cases hp)⟩

omit [DecidableEq W] in
/-- The handler runs. -/
theorem LeaseAt.executing {id : ℕ} {since : ℤ} {beat : BeatPoint} {handler : HandlerPoint}
    (hmain : handler = .running → g.db.tasks.Unlocked (p, false))
    (hbeat : beat ≠ .beating → g.db.tasks.Unlocked (p, true))
      (hbeating : beat = .beating →
        (∀ k v, g.db.tasks.locks.get? k = some ((p, true), v) → k = id) ∧
        ∃ row, g.db.tasks.committed.get? id = some row ∧ row.runBy (workerId p) = true ∧
        g.db.tasks.locks.get? id =
        some ((p, true), some { row with leaseExpiresAt := some (since + settings.lease) }))
    (hprogress : handler = .progress → ∀ k v, g.db.tasks.locks.get? k = some ((p, false), v) →
      v = g.db.tasks.committed.get? k) :
    LeaseAt settings workerId p (.executing id since beat handler) g where
  main := by
    cases handler with
    | running => exact fun _ => hmain rfl
    | _ => exact fun hc => hc.elim
  beat := by
    cases beat with
    | beating => exact fun hc => hc.elim
    | _ => exact fun _ => hbeat (fun he => (by cases he))
  reaping := fun _ _ hp => (by cases hp)
  claiming := fun _ _ hp => (by cases hp)
  beating := by
    intro id' since' handler' hp
    obtain ⟨rfl, rfl, rfl, rfl⟩ := LeasePoint.executing.inj hp
    exact hbeating rfl
  progress := by
    intro id' since' beat' hp
    obtain ⟨rfl, rfl, rfl, rfl⟩ := LeasePoint.executing.inj hp
    exact hprogress rfl

omit [DecidableEq W] in
theorem LeaseAt.main_running {id : ℕ} {since : ℤ} {beat : BeatPoint} {handler : HandlerPoint}
    (hat : LeaseAt settings workerId p (.executing id since beat handler) g)
    (hh : handler = .running) :
    g.db.tasks.Unlocked (p, false) := by
  subst hh
  exact hat.main trivial

omit [DecidableEq W] in
theorem LeaseAt.beat_unlocked {id : ℕ} {since : ℤ} {beat : BeatPoint} {handler : HandlerPoint}
    (hat : LeaseAt settings workerId p (.executing id since beat handler) g)
    (hb : beat ≠ .beating) :
    g.db.tasks.Unlocked (p, true) := by
  cases beat with
  | beating => exact absurd rfl hb
  | _ => exact hat.beat trivial

/-- What a session of a process has is not what the other does. -/
theorem unlocked_twin {b c : Bool} {t t' : Table (W × Bool) ℕ TaskRow} (h : Table.Moves (p, b) t t')
    (hbc : c ≠ b) (hu : t.Unlocked (p, c)) : t'.Unlocked (p, c) :=
  h.unlocked_other (fun he => hbc (congrArg Prod.snd he)) hu

/-- The progress of a handler while its heartbeats go on. -/
theorem progress_twin {t t' : Table (W × Bool) ℕ TaskRow} (h : Table.Moves (p, true) t t')
    (hpr : ∀ k v, t.locks.get? k = some ((p, false), v) → v = t.committed.get? k) :
    ∀ k v, t'.locks.get? k = some ((p, false), v) → v = t'.committed.get? k := by
  have hne : (p, false) ≠ (p, true) := fun he => (by cases congrArg Prod.snd he)
  intro k v hk
  have hk' := (h.held_other hne).mp hk
  rw [h.committed_of_held hne hk']
  exact hpr k v hk'

/-- The heartbeat of a worker while its handler goes on. -/
theorem beating_twin {t t' : Table (W × Bool) ℕ TaskRow} {id : ℕ} {P : TaskRow → Prop}
    {f : TaskRow → TaskRow} (h : Table.Moves (p, false) t t')
    (hb : (∀ k v, t.locks.get? k = some ((p, true), v) → k = id) ∧
      ∃ row, t.committed.get? id = some row ∧ P row ∧
      t.locks.get? id = some ((p, true), some (f row))) :
    (∀ k v, t'.locks.get? k = some ((p, true), v) → k = id) ∧
      ∃ row, t'.committed.get? id = some row ∧ P row ∧
      t'.locks.get? id = some ((p, true), some (f row)) := by
  have hne : (p, true) ≠ (p, false) := fun he => (by cases congrArg Prod.snd he)
  obtain ⟨honly, row, hrow, hP, hlock⟩ := hb
  exact ⟨fun k v hk => honly k v ((h.held_other hne).mp hk), row,
    (h.committed_of_held hne hlock).trans hrow, hP, (h.held_other hne).mpr hlock⟩

/-- A statement of a client, the scheduler or the reaper, for its own process. -/
theorem ClientStep.leaseAt {db : TaskDb (W × Bool)} {pt pt' : TaskPoint}
    (hs : g.Sane settings workerId) (hat : LeaseAt settings workerId p (.ofTask pt) g)
    (h : ClientStep g.db (p, false) g.clock pt db pt') :
    LeaseAt settings workerId p (.ofTask pt') (g.withDb db) where
  main := by
    rw [mainClean_ofTask]
    intro hclean
    cases h with
    | ends => exact Table.unlocked_commit _ _
    | drops => exact Table.unlocked_abort _ _
    | read hc => exact hat.main (mainClean_ofTask.mpr hc)
    | insert | cancel | reap | reapMiss => exact hclean.elim
  beat := fun _ => unlocked_twin (h.moves hs.fresh) (by decide) (hat.beat (beatClean_ofTask pt))
  reaping := by
    intro now todo hp
    have hpt := ofTask_eq_client hp
    cases h with
    | ends hclean | drops hclean =>
      rw [hpt] at hclean
      exact hclean.elim
    | read hc _ hnow =>
      obtain ⟨rfl, -⟩ := hnow now todo hpt
      exact ⟨le_rfl, fun k v hk => absurd hk (hat.main (mainClean_ofTask.mpr hc) k v)⟩
    | insert | cancel => cases hpt
    | reap hfree hview hexp =>
      obtain ⟨rfl, rfl⟩ := TaskPoint.reaping.inj hpt
      obtain ⟨hnow, hfailed⟩ := hat.reaping _ _ rfl
      refine ⟨hnow, fun k v hk => ?_⟩
      replace hk := (Table.get?_locks_write g.db.tasks (p, false) _ k _).symm.trans hk
      split_ifs at hk
      · exact ⟨_, (Prod.mk.inj (Option.some.inj hk)).2.symm, rfl⟩
      · exact hfailed k v hk
    | reapMiss =>
      obtain ⟨rfl, rfl⟩ := TaskPoint.reaping.inj hpt
      exact hat.reaping _ _ rfl
  claiming := by
    intro id since hp
    cases pt' <;> cases hp
  beating := by
    intro id since handler hp
    cases pt' <;> cases hp
  progress := by
    intro id since beat hp
    cases pt' <;> cases hp

/-- **One statement** leaves what holds for its own process. -/
theorem LeaseStep.leaseAt {action : LeaseAction} {point point' : LeasePoint}
    (hs : g.Sane settings workerId) (hat : LeaseAt settings workerId p point g)
    (h : LeaseStep settings workerId g p action point g' point') :
    LeaseAt settings workerId p point' g' := by
  cases h with
  | tick =>
    refine ⟨hat.main, hat.beat, fun now todo hp => ?_, hat.claiming, hat.beating, hat.progress⟩
    obtain ⟨hnow, hfailed⟩ := hat.reaping now todo hp
    exact ⟨hnow.trans (le_add_of_nonneg_right (Int.natCast_nonneg _)), hfailed⟩
  | abandon hp =>
    refine .of_unlocked (fun k v hk => ?_) (Table.unlocked_abort _ _)
      (Or.inr (hp.symm.imp And.left And.left))
    exact Table.unlocked_abort g.db.tasks (p, false) k v (held_of_drops hk)
  | client hpoint _ hstep =>
    subst hpoint
    exact hstep.leaseAt hs hat
  | read hp hp' _ =>
    refine .of_unlocked (hat.main ?_) (hat.beat ?_) (hp'.imp_right Or.inl)
    · rcases hp with rfl | rfl <;> trivial
    · rcases hp with rfl | rfl <;> trivial
  | claim hcommitted hpending hlocks =>
    refine ⟨fun hc => hc.elim, fun _ => ?_, fun _ _ hp => (by cases hp), fun id since hp => ?_,
      fun _ _ _ hp => (by cases hp), fun _ _ _ hp => (by cases hp)⟩
    · exact unlocked_twin (.write (free_of_unlocked hlocks)) (by decide) (hat.beat trivial)
    · obtain ⟨rfl, rfl⟩ := LeasePoint.claiming.inj hp
      exact ⟨_, hcommitted, hpending, (Table.get?_locks_write _ _ _ _ _).trans (if_pos rfl)⟩
  | claimed =>
    exact .executing (fun _ => Table.unlocked_commit _ _)
      (fun _ => unlocked_twin .commit (by decide) (hat.beat trivial))
      (fun he => (by cases he)) (fun he => (by cases he))
  | beat hfree hview hrun =>
    have hu := hat.beat_unlocked (by decide)
    refine .executing (fun hh => unlocked_twin (.write hfree) (by decide) (hat.main_running hh))
      (fun hb => absurd rfl hb)
      (fun _ => ⟨fun k v hk => (held_write hu hk).1, _, (hu.view _).symm.trans hview, hrun, ?_⟩)
        fun hh => ?_
    · exact (Table.get?_locks_write _ _ _ _ _).trans (if_pos rfl)
    · subst hh
      exact progress_twin (.write hfree) (hat.progress _ _ _ rfl)
  | beatMiss =>
    refine .executing hat.main_running (fun _ => hat.beat_unlocked (by decide))
      (fun he => (by cases he)) fun hh => ?_
    subst hh
    exact hat.progress _ _ _ rfl
  | beatCommit =>
    refine .executing (fun hh => unlocked_twin .commit (by decide) (hat.main_running hh))
      (fun _ => Table.unlocked_commit _ _)
      (fun he => (by cases he)) fun hh => ?_
    subst hh
    exact progress_twin .commit (hat.progress _ _ _ rfl)
  | beatError =>
    refine .executing (fun hh => unlocked_twin .abort (by decide) (hat.main_running hh))
      (fun _ => Table.unlocked_abort _ _)
      (fun he => (by cases he)) fun hh => ?_
    subst hh
    exact progress_twin .abort (hat.progress _ _ _ rfl)
  | @own _ id since beat handler row row' hfree hview hrun hw =>
    have hu := hat.main_running rfl
    refine .executing (fun hh => ?_)
      (fun hb => unlocked_twin (.write hfree) (by decide) (hat.beat_unlocked hb)) (fun hb => ?_)
      fun hh k v hk => ?_
    · subst hh
      exact hw.elim
    · subst hb
      exact beating_twin (.write hfree) (hat.beating _ _ _ rfl)
    · subst hh
      obtain ⟨rfl, rfl⟩ := held_write hu hk
      obtain rfl : row' = row := hw
      exact hview.symm.trans (hu.view k)
  | progressCommit =>
    refine .executing (fun _ => Table.unlocked_commit _ _)
      (fun hb => unlocked_twin .commit (by decide) (hat.beat_unlocked hb))
      (fun hb => ?_) fun hh => (by cases hh)
    subst hb
    exact beating_twin .commit (hat.beating _ _ _ rfl)
  | error =>
    refine .executing (fun _ => Table.unlocked_abort _ _)
      (fun hb => unlocked_twin .abort (by decide) (hat.beat_unlocked hb))
      (fun hb => ?_) fun hh => (by cases hh)
    subst hb
    exact beating_twin .abort (hat.beating _ _ _ rfl)
  | finish =>
    refine .of_unlocked (fun k v hk => ?_) (Table.unlocked_abort _ _) (Or.inr (Or.inl rfl))
    exact Table.unlocked_commit g.db.tasks (p, false) k v (held_of_drops hk)

/-! ### A worker that beats in time -/

/-- Time passes only while the lease of `w` is less than two intervals old, the heartbeats
of `w` do not fail, and no cancel request that has read the task as pending writes while
`w` has it. -/
def BeatsInTime (settings : WorkerSettings) (w : W) (a : W × LeaseAction)
    (s : Procs W LeasePoint (LeaseState W)) : Prop :=
  (∀ d, a.2 = .tick d → ∀ id since,
    (s.proc w = .claiming id since ∨ ∃ beat handler, s.proc w = .executing id since beat handler) →
    s.shared.clock + d ≤ since + settings.heartbeat * 2) ∧
  a ≠ (w, .beatError) ∧
  ∀ id since beat handler, s.proc w = .executing id since beat handler → a.2 = .statement →
    s.proc a.1 ≠ .client (.cancelRead id)

/-- What holds of the task of a worker that beats in time. -/
structure Kept (settings : WorkerSettings) (workerId : W → String) (w : W) (g : LeaseState W)
    (id : ℕ) (since : ℤ) (beat : BeatPoint) : Prop where
  clock : g.clock ≤ since + settings.heartbeat * 2
  held : ∀ σ v, g.db.tasks.locks.get? id = some (σ, v) → σ.1 = w
  beats : beat = .sleeping ∨ beat = .beating
  row : ∃ row lease, g.db.tasks.committed.get? id = some row ∧ row.runBy (workerId w) = true ∧
    row.leaseExpiresAt = some lease ∧ (beat = .sleeping → since + settings.lease ≤ lease)

/-- What holds of a worker that beats in time. -/
structure WorkerAt (settings : WorkerSettings) (workerId : W → String) (w : W) (point : LeasePoint)
    (g : LeaseState W) : Prop where
  checked : (point = .polling ∨ (∃ id since, point = .claiming id since) ∨
    ∃ id since beat handler, point = .executing id since beat handler) →
      settings.heartbeat * 2 < settings.lease
  claiming : ∀ id since, point = .claiming id since → g.clock ≤ since + settings.heartbeat * 2
  executing : ∀ id since beat handler, point = .executing id since beat handler →
    Kept settings workerId w g id since beat

section InTime

variable {w : W} {id : ℕ} {since : ℤ} {beat : BeatPoint}

omit [DecidableEq W] in
/-- Others that do not take the row leave it. -/
theorem Kept.touched (hk : Kept settings workerId w g id since beat)
    (h : Touches p g.db.tasks g'.db.tasks) (hp : w ≠ p)
    (hclock : g'.clock ≤ since + settings.heartbeat * 2)
    (hno : ∀ b v, g'.db.tasks.locks.get? id ≠ some ((p, b), v)) :
    Kept settings workerId w g' id since beat where
  clock := hclock
  held := by
    intro σ v hv
    by_cases hσ : σ.1 = p
    · obtain ⟨q, b⟩ := σ
      obtain rfl : q = p := hσ
      exact absurd hv (hno b v)
    · exact hk.held σ v ((h.held σ hσ id v).mp hv)
  beats := hk.beats
  row := by
    rcases h.committed id with hsame | ⟨b, hb⟩
    · rw [hsame]
      exact hk.row
    · exact absurd (hk.held _ _ hb).symm hp

/-- A session of another process does not have the row. -/
theorem Kept.view (hk : Kept settings workerId w g id since beat) (hp : w ≠ p) (b : Bool) :
    g.db.tasks.view (p, b) id = g.db.tasks.committed.get? id :=
  Table.view_of_not_held fun v hv => absurd (hk.held _ v hv).symm hp

omit [DecidableEq W] in
theorem Kept.no_lock (hk : Kept settings workerId w g id since beat) (hp : w ≠ p) (b : Bool)
    (v : Option TaskRow) : g.db.tasks.locks.get? id ≠ some ((p, b), v) :=
  fun hv => absurd (hk.held _ v hv).symm hp

omit [DecidableEq W] in
/-- A write of another row. -/
theorem Kept.write_ne (hk : Kept settings workerId w g id since beat) (hp : w ≠ p) {k : ℕ}
    (hne : k ≠ id) (σ : W × Bool) (new : Option TaskRow) (b : Bool) (v : Option TaskRow) :
    (g.db.tasks.write σ k new).locks.get? id ≠ some ((p, b), v) := by
  rw [Table.get?_locks_write, if_neg hne.symm]
  exact hk.no_lock hp b v

/-- A worker has no row of another. -/
theorem Kept.not_runBy (hid : Function.Injective workerId)
    (hk : Kept settings workerId w g id since beat) (hp : w ≠ p) {b : Bool} {row : TaskRow}
    (hview : g.db.tasks.view (p, b) id = some row) (hrun : row.runBy (workerId p) = true) :
    False := by
  obtain ⟨row', lease, hrow, hrun', -, -⟩ := hk.row
  rw [hk.view hp] at hview
  obtain rfl := Option.some.inj (hrow.symm.trans hview)
  simp only [TaskRow.runBy, Bool.and_eq_true, decide_eq_true_eq] at hrun hrun'
  exact hp (hid (Option.some.inj (hrun'.2.symm.trans hrun.2)))

/-- The reaper does not find the row expired. -/
theorem Kept.not_expired (hlt : settings.heartbeat * 2 < settings.lease)
    (hk : Kept settings workerId w g id since beat) (hp : w ≠ p)
    (hbeating : beat = .beating → ∃ v, g.db.tasks.locks.get? id = some ((w, true), v)) {now : ℤ}
    (hnow : now ≤ g.clock) {row : TaskRow} (hfree : g.db.tasks.free (p, false) id = true)
    (hview : g.db.tasks.view (p, false) id = some row) (hexp : row.expired now = true) : False := by
  obtain ⟨row', lease, hrow, -, hlease, hsleeping⟩ := hk.row
  rw [hk.view hp] at hview
  obtain rfl := Option.some.inj (hrow.symm.trans hview)
  rcases hk.beats with hb | hb
  · have hle := hsleeping hb
    have hclock := hk.clock
    simp only [TaskRow.expired, hlease, Option.any_some, Bool.and_eq_true,
      decide_eq_true_eq] at hexp
    omega
  · obtain ⟨v, hv⟩ := hbeating hb
    exact hp (congrArg Prod.fst (Table.free_iff.mp hfree _ _ hv))

/-- **A statement of another process** leaves a worker its task. -/
theorem LeaseStep.kept {action : LeaseAction} {point point' : LeasePoint}
    (hid : Function.Injective workerId) (hlt : settings.heartbeat * 2 < settings.lease)
    (hs : g.Sane settings workerId) (hat : LeaseAt settings workerId p point g) (hp : w ≠ p)
    (hk : Kept settings workerId w g id since beat)
    (hbeating : beat = .beating → ∃ v, g.db.tasks.locks.get? id = some ((w, true), v))
    (htick : ∀ d, action = .tick d → g.clock + d ≤ since + settings.heartbeat * 2)
    (hcancel : action = .statement → point ≠ .client (.cancelRead id))
    (h : LeaseStep settings workerId g p action point g' point') :
    Kept settings workerId w g' id since beat := by
  have htouch := h.touches hs.fresh
  have hdrop : ∀ {t : Table (W × Bool) ℕ TaskRow} {σ : W × Bool},
      (∀ b v, t.locks.get? id ≠ some ((p, b), v)) →
      ∀ b v, (t.abort σ).locks.get? id ≠ some ((p, b), v) :=
      fun hno b v hv => hno b v (held_of_drops hv)
  have hno := hk.no_lock hp
  cases h with
  | tick => exact hk.touched htouch hp (htick _ rfl) hno
  | read | beatMiss => exact hk
  | abandon => exact hk.touched htouch hp hk.clock (hdrop (hdrop hno))
  | claimed | beatCommit | progressCommit | beatError | error =>
    exact hk.touched htouch hp hk.clock (hdrop hno)
  | finish =>
    exact hk.touched htouch hp hk.clock (hdrop (t := g.db.tasks.commit (p, false)) (hdrop hno))
  | @claim _ k row hcommitted hpending hlocks =>
    refine hk.touched htouch hp hk.clock (hk.write_ne hp ?_ _ _)
    rintro rfl
    obtain ⟨row', lease, hrow, hrun, -, -⟩ := hk.row
    obtain rfl := Option.some.inj (hrow.symm.trans hcommitted)
    have hrunning := runBy_running hrun
    rw [hpending] at hrunning
    cases hrunning
  | @beat _ k _ _ row _ hview hrun =>
    refine hk.touched htouch hp hk.clock (hk.write_ne hp ?_ _ _)
    rintro rfl
    exact hk.not_runBy hid hp hview hrun
  | @own _ k _ _ _ row _ _ hview hrun =>
    refine hk.touched htouch hp hk.clock (hk.write_ne hp ?_ _ _)
    rintro rfl
    exact hk.not_runBy hid hp hview hrun
  | client hpoint hstatement hstep =>
    cases hstep with
    | ends | drops => exact hk.touched htouch hp hk.clock (hdrop hno)
    | read | reapMiss => exact hk.touched htouch hp hk.clock hno
    | insert =>
      refine hk.touched htouch hp hk.clock (hk.write_ne hp ?_ _ _)
      rintro rfl
      obtain ⟨row', lease, hrow, -⟩ := hk.row
      rw [(hs.fresh _ le_rfl).1] at hrow
      cases hrow
    | cancel =>
      refine hk.touched htouch hp hk.clock (hk.write_ne hp ?_ _ _)
      rintro rfl
      exact hcancel (hstatement (fun he => (by cases he))) hpoint
    | @reap now k todo row hfree hview hexp =>
      refine hk.touched htouch hp hk.clock (hk.write_ne hp ?_ _ _)
      rintro rfl
      exact hk.not_expired hlt hp hbeating (hat.reaping _ _ hpoint).1 hfree hview hexp

end InTime

omit [DecidableEq W] in
/-- A point of a client. -/
theorem workerAt_of_client {w : W} (pt : TaskPoint) :
    WorkerAt settings workerId w (.ofTask pt) g := by
  refine ⟨fun hp => ?_, fun _ _ hp => ?_, fun _ _ _ _ hp => ?_⟩
  · rcases hp with hp | ⟨_, _, hp⟩ | ⟨_, _, _, _, hp⟩ <;> cases pt <;> cases hp
  · cases pt <;> cases hp
  · cases pt <;> cases hp

omit [DecidableEq W] in
theorem workerAt_of_polling {w : W} {point : LeasePoint}
    (hp : point = .idle ∨ point = .stopped ∨ point = .polling)
    (hcheck : point = .polling → settings.heartbeat * 2 < settings.lease) :
    WorkerAt settings workerId w point g := by
  rcases hp with rfl | rfl | rfl
  · exact workerAt_of_client .idle
  · refine ⟨fun hp => ?_, fun _ _ hp => (by cases hp), fun _ _ _ _ hp => (by cases hp)⟩
    rcases hp with hp | ⟨_, _, hp⟩ | ⟨_, _, _, _, hp⟩ <;> cases hp
  · exact ⟨fun _ => hcheck rfl, fun _ _ hp => (by cases hp), fun _ _ _ _ hp => (by cases hp)⟩

omit [DecidableEq W] in
theorem workerAt_of_kept {w : W} {id : ℕ} {since : ℤ} {beat : BeatPoint} {handler : HandlerPoint}
    (hcheck : settings.heartbeat * 2 < settings.lease)
    (hk : Kept settings workerId w g id since beat) :
    WorkerAt settings workerId w (.executing id since beat handler) g := by
  refine ⟨fun _ => hcheck, fun _ _ hp => (by cases hp), fun _ _ _ _ hp => ?_⟩
  obtain ⟨rfl, rfl, rfl, rfl⟩ := LeasePoint.executing.inj hp
  exact hk

/-- **A statement of the worker** itself. -/
theorem LeaseStep.workerAt {action : LeaseAction} {point point' : LeasePoint}
    (h0 : 0 ≤ settings.heartbeat) (hat : LeaseAt settings workerId p point g)
    (hw : WorkerAt settings workerId p point g)
      (htick : ∀ d, action = .tick d →
      ∀ id since, (point = .claiming id since ∨
      ∃ beat handler, point = .executing id since beat handler) →
      g.clock + d ≤ since + settings.heartbeat * 2)
    (herror : action ≠ .beatError) (h : LeaseStep settings workerId g p action point g' point') :
    WorkerAt settings workerId p point' g' := by
  cases h with
  | tick =>
    refine ⟨hw.checked, fun id since hp => htick _ rfl id since (Or.inl hp),
      fun id since beat handler hp => ?_⟩
    have hk := hw.executing id since beat handler hp
    exact ⟨htick _ rfl id since (Or.inr ⟨beat, handler, hp⟩), hk.held, hk.beats, hk.row⟩
  | abandon hp =>
    rcases hp with ⟨hp, -⟩ | ⟨hp, hex⟩
    · exact workerAt_of_polling (Or.inr (Or.inl hp)) fun he => (by cases hp.symm.trans he)
    · exact workerAt_of_polling (Or.inr (Or.inr hp)) fun _ => hw.checked (Or.inr (Or.inr hex))
  | client => exact workerAt_of_client _
  | read _ hp' hcheck =>
    exact workerAt_of_polling (hp'.imp_right Or.inr) fun hpolling =>
      (hcheck hpolling).elim (fun hp => hw.checked (Or.inl hp)) fun hc => hc
  | @claim _ id row hcommitted hpending hlocks =>
    refine ⟨fun _ => hw.checked (Or.inl rfl), fun id' since' hp => ?_,
      fun _ _ _ _ hp => (by cases hp)⟩
    obtain ⟨-, rfl⟩ := LeasePoint.claiming.inj hp
    show g.clock ≤ g.clock + settings.heartbeat * 2
    omega
  | @claimed _ id since =>
    obtain ⟨row, hrow, hpending, hlock⟩ := hat.claiming id since rfl
    refine workerAt_of_kept (hw.checked (Or.inr (Or.inl ⟨id, since, rfl⟩)))
      ⟨hw.claiming id since rfl, fun σ v hv => ?_, Or.inl rfl, ?_⟩
    · obtain ⟨hne, hv'⟩ := (Table.get?_locks_drop g.db.tasks (p, false) id).mp hv
      rw [hlock] at hv'
      exact absurd (Prod.mk.inj (Option.some.inj hv')).1.symm hne
    · refine ⟨row.claimed (workerId p) since settings.lease, since + settings.lease, ?_, ?_, rfl,
        fun _ => le_rfl⟩
      · exact (Table.get?_commit g.db.tasks (p, false) id).trans (Table.view_of_held hlock)
      · simp [TaskRow.runBy, TaskRow.claimed]
  | @beat _ id since handler row hfree hview hrun =>
    have hk := hw.executing id since .sleeping handler rfl
    refine workerAt_of_kept (hw.checked (Or.inr (Or.inr ⟨_, _, _, _, rfl⟩)))
      ⟨?_, fun σ v hv => ?_, Or.inr rfl, ?_⟩
    · show g.clock ≤ g.clock + settings.heartbeat * 2
      omega
    · replace hv := (Table.get?_locks_write g.db.tasks (p, true) id id _).symm.trans hv
      rw [if_pos rfl] at hv
      rw [← (Prod.mk.inj (Option.some.inj hv)).1]
    · obtain ⟨row', lease, hrow, hrun', hlease, -⟩ := hk.row
      exact ⟨row', lease, hrow, hrun', hlease, fun he => (by cases he)⟩
  | @beatMiss _ id since handler hmiss =>
    obtain ⟨row, lease, hrow, hrun, -, -⟩ := (hw.executing id since .sleeping handler rfl).row
    have hview := ((hat.beat_unlocked (by decide)).view id).trans hrow
    have hnot := hmiss row hview
    rw [hrun] at hnot
    cases hnot
  | @beatCommit _ id since handler =>
    have hk := hw.executing id since .beating handler rfl
    obtain ⟨-, row, hrow, hrun, hlock⟩ := hat.beating id since handler rfl
    refine workerAt_of_kept (hw.checked (Or.inr (Or.inr ⟨_, _, _, _, rfl⟩)))
      ⟨hk.clock, fun σ v hv => hk.held σ v (held_of_drops hv), Or.inl rfl,
      { row with leaseExpiresAt := some (since + settings.lease) }, since + settings.lease, ?_, ?_,
      rfl, fun _ => le_rfl⟩
    · exact (Table.get?_commit g.db.tasks (p, true) id).trans (Table.view_of_held hlock)
    · simpa [TaskRow.runBy] using hrun
  | beatError => exact absurd rfl herror
  | @own _ id since beat handler row row' hfree hview hrun hwrites =>
    have hk := hw.executing id since beat .running rfl
    refine workerAt_of_kept (hw.checked (Or.inr (Or.inr ⟨_, _, _, _, rfl⟩)))
      ⟨hk.clock, fun σ v hv => ?_, hk.beats, hk.row⟩
    replace hv := (Table.get?_locks_write g.db.tasks (p, false) id id _).symm.trans hv
    rw [if_pos rfl] at hv
    rw [← (Prod.mk.inj (Option.some.inj hv)).1]
  | @progressCommit _ id since beat =>
    have hk := hw.executing id since beat .progress rfl
    refine workerAt_of_kept (hw.checked (Or.inr (Or.inr ⟨_, _, _, _, rfl⟩)))
      ⟨hk.clock, fun σ v hv => hk.held σ v (held_of_drops hv), hk.beats, ?_⟩
    have hsame : (g.db.tasks.commit (p, false)).committed.get? id =
        g.db.tasks.committed.get? id := by
      rw [Table.get?_commit]
      rcases Table.view_cases g.db.tasks (p, false) id with hlock | ⟨-, hsame⟩
      · exact hat.progress id since beat rfl id _ hlock
      · exact hsame
    obtain ⟨row, lease, hrow, hrest⟩ := hk.row
    exact ⟨row, lease, hsame.trans hrow, hrest⟩
  | @error _ id since beat handler =>
    have hk := hw.executing id since beat handler rfl
    exact workerAt_of_kept (hw.checked (Or.inr (Or.inr ⟨_, _, _, _, rfl⟩)))
      ⟨hk.clock, fun σ v hv => hk.held σ v (held_of_drops hv), hk.beats, hk.row⟩
  | finish =>
    exact workerAt_of_polling (Or.inr (Or.inr rfl)) fun _ =>
      hw.checked (Or.inr (Or.inr ⟨_, _, _, _, rfl⟩))

/-! ### Runs -/

/-- Nobody has begun. -/
structure LeaseStart (s : Procs W LeasePoint (LeaseState W)) : Prop where
  idle : ∀ p, s.proc p = .idle
  unlocked : ∀ k, s.shared.db.tasks.locks.get? k = none
  fresh : s.shared.db.tasks.Fresh s.shared.db.nextTask

omit [DecidableEq W] in
theorem LeaseStart.sane {s : Procs W LeasePoint (LeaseState W)} (h : LeaseStart s) :
    s.shared.Sane settings workerId :=
  ⟨h.fresh, fun k σ v row hk => absurd hk (by simp [h.unlocked k])⟩

omit [DecidableEq W] in
theorem LeaseStart.leaseAt {s : Procs W LeasePoint (LeaseState W)} (h : LeaseStart s) (p : W) :
    LeaseAt settings workerId p (s.proc p) s.shared :=
  .of_unlocked (fun k v hk => absurd hk (by simp [h.unlocked k]))
    (fun k v hk => absurd hk (by simp [h.unlocked k])) (Or.inl (h.idle p))

/-- **A worker that beats in time keeps its task**: whatever the others do, the row is
running with the name of the worker for as long as the handler runs. -/
theorem beating_task_kept (hid : Function.Injective workerId) (h0 : 0 ≤ settings.heartbeat) {w : W}
    {s : Procs W LeasePoint (LeaseState W)}
    (h : (leaseRuns settings workerId LeaseStart).ReachIf (BeatsInTime settings w) s) {id : ℕ}
    {since : ℤ} {beat : BeatPoint} {handler : HandlerPoint}
    (hw : s.proc w = .executing id since beat handler) :
    (beat = .sleeping ∨ beat = .beating) ∧
      ∃ row, s.shared.db.tasks.committed.get? id = some row ∧ row.status = .running ∧
      row.workerId = some (workerId w) := by
  have hinv := Procs.invariant (I := LeaseState.Sane settings workerId)
    (Q := fun p point g => LeaseAt settings workerId p point g ∧
      (p = w → WorkerAt settings workerId p point g))
    (fun hs => ⟨hs.sane, fun p =>
        ⟨hs.leaseAt p, fun _ => workerAt_of_polling (Or.inl (hs.idle p)) fun he => (by
      cases (hs.idle p).symm.trans he)⟩⟩) ?_ ?_ h
  · have hk := ((hinv.2 w).2 rfl).executing id since beat handler hw
    obtain ⟨row, lease, hrow, hrun, -⟩ := hk.row
    simp only [TaskRow.runBy, Bool.and_eq_true, decide_eq_true_eq] at hrun
    exact ⟨hk.beats, row, hrow, hrun⟩
  · intro s p a r hs hat hok hr
    have hstep := leaseNext_step hr
    refine ⟨hstep.sane hs (hat p).1, hstep.leaseAt hs (hat p).1, fun hp => ?_⟩
    subst hp
    exact hstep.workerAt h0 (hat p).1 ((hat p).2 rfl) hok.1 (fun he => hok.2.1 (Prod.ext rfl he))
  · intro s p a r q hs hat hok hr hq
    have hstep := leaseNext_step hr
    refine ⟨(hat q).1.other (hstep.touches hs.fresh) hq hstep.clock_le, fun hqw => ?_⟩
    subst hqw
    have hworker := (hat q).2 rfl
    refine ⟨hworker.checked, fun id since hp => ?_, fun id since beat handler hp => ?_⟩
    · rcases hstep.clock_cases with hclock | ⟨d, hd, hclock⟩
      · rw [hclock]
        exact hworker.claiming id since hp
      · rw [hclock]
        exact hok.1 d hd id since (Or.inl hp)
    · refine hstep.kept hid (hworker.checked (Or.inr (Or.inr ⟨id, since, beat, handler, hp⟩))) hs
        (hat p).1 hq
        (hworker.executing id since beat handler hp) (fun hb => ?_)
          (fun d hd => hok.1 d hd id since (Or.inr ⟨beat, handler, hp⟩))
        fun ha => hok.2.2 id since beat handler hp ha
      subst hb
      obtain ⟨-, row, -, -, hlock⟩ := (hat q).1.beating id since handler hp
      exact ⟨_, hlock⟩

/-- `BeatsInTime`, as one can compute it. -/
def beatsInTime (settings : WorkerSettings) (w : W) (a : W × LeaseAction)
    (s : Procs W LeasePoint (LeaseState W)) : Bool :=
  match a.2 with
  | .tick d =>
    match s.proc w with
    | .claiming _ since | .executing _ since _ _ =>
      s.shared.clock + d ≤ since + settings.heartbeat * 2
    | _ => true
  | .beatError => false
  | .statement =>
    match s.proc a.1 with
    | .client (.cancelRead _) => false
    | _ => true
  | _ => true

omit [DecidableEq W] in
theorem beatsInTime_sound {w : W} {a : W × LeaseAction} {s : Procs W LeasePoint (LeaseState W)}
    (h : beatsInTime settings w a s = true) : BeatsInTime settings w a s := by
  obtain ⟨p, action⟩ := a
  refine ⟨fun d hd id since hw => ?_, fun he => ?_, fun id since beat handler _ ha hp => ?_⟩
  · obtain rfl : action = .tick d := hd
    unfold beatsInTime at h
    rcases hw with hw | ⟨beat, handler, hw⟩
    · simpa [hw] using h
    · simpa [hw] using h
  · obtain rfl : action = .beatError := congrArg Prod.snd he
    cases h
  · obtain rfl : action = .statement := ha
    have hp' : s.proc p = .client (.cancelRead id) := hp
    simp [beatsInTime, hp'] at h

/-- The process executes the task. -/
def LeasePoint.executes (id : ℕ) : LeasePoint → Bool
  | .executing id' _ _ .running => id' = id
  | _ => false

theorem executing_of_executes {point : LeasePoint} {id : ℕ} (h : point.executes id = true) :
    ∃ since beat, point = .executing id since beat .running := by
  cases point with
  | executing id' since beat handler =>
    cases handler with
    | running =>
      obtain rfl : id' = id := of_decide_eq_true h
      exact ⟨since, beat, rfl⟩
    | _ => cases h
  | _ => cases h

/-- No task, a worker and one that enqueues and reaps. -/
def noTask : Procs Bool LeasePoint (LeaseState Bool) := ⟨⟨⟨⟨.empty, .empty⟩, 0⟩, 0⟩, fun _ => .idle⟩

theorem leaseStart_noTask : LeaseStart noTask := ⟨fun _ => rfl, fun _ => rfl, fun _ _ => ⟨rfl, rfl⟩⟩

/-- Two workers. -/
def twoNames (p : Bool) : String := if p then "a" else "b"

/-- A lease of a minute, and a heartbeat every ten seconds. -/
def shortLease : WorkerSettings := ⟨1, 10⟩

/-- The worker `true` claims the task that the other has enqueued. -/
def claimOne : List (Bool × LeaseAction) :=
  [(false, .request (.enqueue ⟨"sync_order", .manual, none, 100, 0⟩)), (false, .statement),
    (true, .start), (true, .claim), (true, .statement)]

/-- The lease would have expired but for the heartbeat. -/
def beatThenReap : List (Bool × LeaseAction) :=
  [(true, .tick 20000000), (true, .beat), (true, .beatStatement), (true, .tick 20000000),
    (true, .beat), (true, .beatStatement), (true, .tick 20000000), (true, .beat), (true, .tick 1),
    (false, .request .reap), (true, .beatStatement), (false, .statement)]

theorem beating_task_kept_reap :
    ∃ s : Procs Bool LeasePoint (LeaseState Bool), s.shared.clock = 60000001 ∧
    ∃ row, s.shared.db.tasks.committed.get? 0 = some row ∧ row.status = .running ∧
    row.workerId = some "a" := by
  have hrun : (Procs.execIf (leaseNext shortLease twoNames) (beatsInTime shortLease true) noTask
      (claimOne ++ beatThenReap)).map
      (fun s => (s.shared.clock, (s.proc true).executes 0)) =
        some (60000001, true) := by decide +kernel
  obtain ⟨s, hs, hall⟩ := Option.map_eq_some_iff.mp hrun
  obtain ⟨hclock, hexecutes⟩ := Prod.mk.inj hall
  obtain ⟨since, beat, hw⟩ := executing_of_executes hexecutes
  have hid : Function.Injective twoNames := by decide
  exact ⟨s, hclock, (beating_task_kept hid (by decide)
    (Procs.reach_execIf (.start leaseStart_noTask) hs
    fun _ _ _ h => beatsInTime_sound h) hw).2⟩

/-! ### A task for which nobody beats -/

/-- The process neither is about to have the task nor renews its lease. -/
structure Unattended (id : ℕ) (point : LeasePoint) : Prop where
  claiming : ∀ since, point ≠ .claiming id since
  beats : ∀ since beat handler, point = .executing id since beat handler → beat = .lost ∨
    beat = .ended

/-- The task was expired at the time, or is done. -/
def TaskRow.Past (now : ℤ) (row : TaskRow) :
    Prop := row.expired now = true ∨ row.status.active = false

theorem TaskRow.Past.not_pending {now : ℤ} {row : TaskRow} (h : row.Past now) :
    row.status ≠ .pending := by
  intro hp
  rcases h with h | h
  · simp [TaskRow.expired, hp] at h
  · simp [TaskStatus.active, hp] at h

section Pass

variable {r : W} {id : ℕ} {now : ℤ}

omit [DecidableEq W] in
/-- What is done stays done, and nobody but a heartbeat renews a lease. -/
theorem Leaves.past {σ : W × Bool} {clock : ℤ} {row row' : TaskRow}
    (h : Leaves settings workerId clock σ row row') (hp : row.Past now) :
    (row.status.active = false → row'.status.active = false) ∧ (σ.2 = false → row'.Past now) := by
  cases h with
  | cancel | reap => exact ⟨fun _ => rfl, fun _ => Or.inr rfl⟩
  | claim hpending => exact absurd hpending hp.not_pending
  | beat hb _ => exact ⟨fun hi => hi, fun hmain => absurd (hb.symm.trans hmain) (by decide)⟩
  | @own handler _ _ hw =>
    cases handler with
    | running => exact hw.elim
    | progress =>
      obtain rfl : row' = row := hw
      exact ⟨fun hi => hi, fun _ => hp⟩
    | marked =>
      have hdone : row'.status.active = false := by
        rcases hw with hw | hw <;> rw [hw] <;> rfl
      exact ⟨fun _ => hdone, fun _ => Or.inr hdone⟩

omit [DecidableEq W] in
/-- Nobody has the row for a heartbeat. -/
theorem Unattended.no_beat {point : LeasePoint} (hu : Unattended id point)
    (hat : LeaseAt settings workerId p point g) (v : Option TaskRow) :
    g.db.tasks.locks.get? id ≠ some ((p, true), v) := by
  intro hv
  cases point with
  | executing id' since beat handler =>
    cases beat with
    | beating =>
      obtain rfl := (hat.beating id' since handler rfl).1 id v hv
      rcases hu.beats since .beating handler rfl with hb | hb <;> cases hb
    | _ => exact hat.beat trivial id v hv
  | _ => exact hat.beat trivial id v hv

/-- **What a statement does to the row** of a task for which nobody beats. -/
theorem LeaseStep.past {action : LeaseAction} {point point' : LeasePoint} {row : TaskRow}
    (hs : g.Sane settings workerId) (hat : LeaseAt settings workerId p point g)
    (hu : Unattended id point) (hrow : g.db.tasks.committed.get? id = some row) (hp : row.Past now)
    (h : LeaseStep settings workerId g p action point g' point') :
    ∃ row', g'.db.tasks.committed.get? id = some row' ∧ row'.Past now ∧
    (row.status.active = false → row'.status.active = false) := by
  rcases (h.touches hs.fresh).committed id with hsame | ⟨b, hb⟩
  · exact ⟨row, hsame.trans hrow, hp, fun hi => hi⟩
  · cases b with
    | true => exact absurd hb (hu.no_beat hat _)
    | false =>
      obtain ⟨row', hrow', hl⟩ := hs.leaves id (p, false) _ row hb hrow
      exact ⟨row', hrow', (hl.past hp).2 rfl, (hl.past hp).1⟩

/-- Nobody comes to have the task. -/
theorem LeaseStep.unattended {action : LeaseAction} {point point' : LeasePoint} {row : TaskRow}
    (hu : Unattended id point) (hrow : g.db.tasks.committed.get? id = some row) (hp : row.Past now)
    (h : LeaseStep settings workerId g p action point g' point') : Unattended id point' := by
  cases h with
  | tick => exact hu
  | abandon hpoint =>
    rcases hpoint with ⟨rfl, -⟩ | ⟨rfl, -⟩ <;>
      exact ⟨fun _ he => (by cases he), fun _ _ _ he => (by cases he)⟩
  | @client _ _ _ _ pt' =>
    cases pt' <;> exact ⟨fun _ he => (by cases he), fun _ _ _ he => (by cases he)⟩
  | read _ hpoint _ =>
    rcases hpoint with rfl | rfl <;>
      exact ⟨fun _ he => (by cases he), fun _ _ _ he => (by cases he)⟩
  | claim hcommitted hpending _ =>
    refine ⟨fun since he => ?_, fun _ _ _ he => (by cases he)⟩
    obtain ⟨rfl, -⟩ := LeasePoint.claiming.inj he
    obtain rfl := Option.some.inj (hrow.symm.trans hcommitted)
    exact hp.not_pending hpending
  | claimed =>
    refine ⟨fun _ he => (by cases he), fun since beat handler he => ?_⟩
    obtain ⟨rfl, -⟩ := LeasePoint.executing.inj he
    exact absurd rfl (hu.claiming _)
  | beat | beatCommit =>
    refine ⟨fun _ he => (by cases he), fun since beat handler he => ?_⟩
    obtain ⟨rfl, -⟩ := LeasePoint.executing.inj he
    rcases hu.beats _ _ _ rfl with hb | hb <;> cases hb
  | beatMiss =>
    refine ⟨fun _ he => (by cases he), fun since beat handler he => ?_⟩
    obtain ⟨-, -, rfl, -⟩ := LeasePoint.executing.inj he
    exact Or.inl rfl
  | beatError =>
    refine ⟨fun _ he => (by cases he), fun since beat handler he => ?_⟩
    obtain ⟨-, -, rfl, -⟩ := LeasePoint.executing.inj he
    exact Or.inr rfl
  | own | progressCommit | error =>
    refine ⟨fun _ he => (by cases he), fun since beat handler he => ?_⟩
    obtain ⟨rfl, rfl, rfl, -⟩ := LeasePoint.executing.inj he
    exact hu.beats _ _ _ rfl
  | finish => exact ⟨fun _ he => (by cases he), fun _ _ _ he => (by cases he)⟩

/-- The pass of the reaper `r` has the task still before it, has failed it, or the task is done. -/
def PassAt (r : W) (now : ℤ) (id : ℕ) (point : LeasePoint) (g : LeaseState W) : Prop :=
  (∃ todo, point = .client (.reaping now todo) ∧
    (id ∈ todo ∨ ∃ v, g.db.tasks.locks.get? id = some ((r, false), v))) ∨
  ∀ row, g.db.tasks.committed.get? id = some row → row.status.active = false

/-- **A statement of the reaper** in its pass. -/
theorem LeaseStep.pass {action : LeaseAction} {point point' : LeasePoint} {row : TaskRow}
    (hs : g.Sane settings workerId) (hat : LeaseAt settings workerId r point g)
    (hu : Unattended id point) (hrow : g.db.tasks.committed.get? id = some row) (hp : row.Past now)
    (hcrash : action ≠ .crash) (hpass : PassAt r now id point g)
    (h : LeaseStep settings workerId g r action point g' point') : PassAt r now id point' g' := by
  rcases hpass with ⟨todo, rfl, htodo⟩ | hdone
  · cases h with
    | tick => exact Or.inl ⟨todo, rfl, htodo⟩
    | abandon hpoint =>
      rcases hpoint with ⟨-, ha⟩ | ⟨-, _, _, _, _, he⟩
      · exact absurd ha hcrash
      · cases he
    | read he _ _ => rcases he with he | he <;> cases he
    | client hpoint _ hstep =>
      obtain rfl := ofTask_eq_client hpoint.symm
      cases hstep with
      | ends _ hempty =>
        obtain rfl := hempty now todo rfl
        obtain ⟨v, hv⟩ := htodo.resolve_left (by simp)
        obtain ⟨failed, rfl, hfailed⟩ := (hat.reaping now [] rfl).2 id v hv
        refine Or.inr fun row' hrow' => ?_
        replace hrow' := (Table.get?_commit g.db.tasks (r, false) id).symm.trans hrow'
        rw [Table.view_of_held hv] at hrow'
        rw [← Option.some.inj hrow', hfailed]
        rfl
      | drops _ hne => exact absurd rfl (hne now todo)
      | read hclean => exact hclean.elim
      | insert hclean => exact hclean.elim
      | @reap _ k todo row' =>
        refine Or.inl ⟨todo, rfl, ?_⟩
        by_cases hk : id = k
        · exact Or.inr ⟨_, (Table.get?_locks_write _ _ _ _ _).trans (if_pos hk)⟩
        · rcases htodo with hmem | ⟨v, hv⟩
          · exact Or.inl ((List.mem_cons.mp hmem).resolve_left hk)
          · exact Or.inr ⟨v, ((Table.get?_locks_write _ _ _ _ _).trans (if_neg hk)).trans hv⟩
      | @reapMiss _ k todo hmiss =>
        rcases htodo with hmem | hlock
        · rcases List.mem_cons.mp hmem with rfl | hmem
          · -- a row that the pass has found is missed only when it is done, or failed by the pass itself
            by_cases hlock : ∃ v, g.db.tasks.locks.get? id = some ((r, false), v)
            · exact Or.inl ⟨todo, rfl, Or.inr hlock⟩
            · push Not at hlock
              have hnot := hmiss row ((Table.view_of_not_held hlock).trans hrow)
              refine Or.inr fun row' hrow' => ?_
              obtain rfl := Option.some.inj (hrow.symm.trans hrow')
              exact hp.resolve_left (by simp [hnot])
          · exact Or.inl ⟨todo, rfl, Or.inl hmem⟩
        · exact Or.inl ⟨todo, rfl, Or.inr hlock⟩
  · refine Or.inr fun row' hrow' => ?_
    obtain ⟨row'', hrow'', -, hstays⟩ := h.past hs hat hu hrow hp
    obtain rfl := Option.some.inj (hrow''.symm.trans hrow')
    exact hstays (hdone row hrow)

end Pass

/-- What holds in every state that the runs reach. -/
theorem lease_of_reach {ok : W × LeaseAction → Procs W LeasePoint (LeaseState W) → Prop}
    {s : Procs W LeasePoint (LeaseState W)}
    (h : (leaseRuns settings workerId LeaseStart).ReachIf ok s) :
    s.shared.Sane settings workerId ∧ ∀ p, LeaseAt settings workerId p (s.proc p) s.shared := by
  refine Procs.invariant (Q := LeaseAt settings workerId) (fun hs => ⟨hs.sane, hs.leaseAt⟩) ?_ ?_ h
  · intro s p a r hs hat _ hr
    exact ⟨(leaseNext_step hr).sane hs (hat p), (leaseNext_step hr).leaseAt hs (hat p)⟩
  · intro s p a r q hs hat _ hr hq
    exact (hat q).other ((leaseNext_step hr).touches hs.fresh) hq (leaseNext_step hr).clock_le

/-- **A task for which nobody beats is failed**: if its lease has expired when a pass of the
reaper begins, and the reaper gets to the end of the pass, the task is done by then,
whatever the others do meanwhile. -/
theorem dead_task_reaped {s₀ s : Procs W LeasePoint (LeaseState W)}
    (h : (leaseRuns settings workerId LeaseStart).Reach s₀) {r : W} (hr : s₀.proc r = .idle)
    {x : LeaseState W × LeasePoint}
    (hx : leaseNext settings workerId s₀.shared r .idle (.request .reap) = some x) {id : ℕ}
    {row : TaskRow} (hrow : s₀.shared.db.tasks.committed.get? id = some row)
    (hexp : row.expired s₀.shared.clock = true) (hdead : ∀ p, Unattended id (s₀.proc p))
    (hs : (leaseRuns settings workerId (· = s₀.move r x)).ReachIf (fun a _ => a ≠ (r, .crash)) s)
    (hend : s.proc r = .idle) :
    ∃ row', s.shared.db.tasks.committed.get? id = some row' ∧ row'.status.active = false := by
  obtain ⟨hsane, hat⟩ := lease_of_reach h
  have hx' := Option.some.inj hx
  have hu : s₀.shared.db.tasks.Unlocked (r, false) := by
    have hmain := (hat r).main
    rw [hr] at hmain
    exact hmain trivial
  have hmem : id ∈ s₀.shared.db.tasks.select (r, false) (TaskRow.expired s₀.shared.clock) :=
    Table.mem_select.mpr ⟨row, (hu.view id).trans hrow, hexp⟩
  have hstart := leaseNext_step hx
  have hinv := Procs.invariant
    (I := fun g => g.Sane settings workerId ∧ ∃ row, g.db.tasks.committed.get? id = some row ∧
      row.Past s₀.shared.clock)
    (Q := fun p point g => LeaseAt settings workerId p point g ∧ Unattended id point ∧
      (p = r → PassAt r s₀.shared.clock id point g)) ?_ ?_ ?_ hs
  · obtain ⟨⟨-, row', hrow', -⟩, hpoints⟩ := hinv
    rcases (hpoints r).2.2 rfl with ⟨todo, hpoint, -⟩ | hdone
    · cases hend.symm.trans hpoint
    · exact ⟨row', hrow', hdone row' hrow'⟩
  · -- the pass has begun
    rintro s rfl
    have hsame : x.1 = s₀.shared := by rw [← hx']; rfl
    refine ⟨⟨?_, row, ?_, Or.inl hexp⟩, fun p => ?_⟩
    · show x.1.Sane settings workerId
      rw [hsame]
      exact hsane
    · show x.1.db.tasks.committed.get? id = some row
      rw [hsame]
      exact hrow
    · show LeaseAt settings workerId p _ x.1 ∧ _
      by_cases hp : p = r
      · subst hp
        rw [Procs.move_proc_self]
        have hidle : LeaseAt settings workerId p .idle s₀.shared := hr ▸ hat p
        refine ⟨hstart.leaseAt hsane hidle, ?_, fun _ => Or.inl ⟨_, ?_, Or.inl hmem⟩⟩
        · rw [← hx']
          exact ⟨fun _ he => (by cases he), fun _ _ _ he => (by cases he)⟩
        · rw [← hx']
          rfl
      · rw [Procs.move_proc_ne _ _ hp, hsame]
        exact ⟨hat p, hdead p, fun he => absurd he hp⟩
  · rintro s p a z ⟨hsane, row, hrow, hpast⟩ hat hok hz
    have hstep := leaseNext_step hz
    obtain ⟨hp, hup, hpass⟩ := hat p
    obtain ⟨row', hrow', hpast', -⟩ := hstep.past hsane hp hup hrow hpast
    refine ⟨⟨hstep.sane hsane hp, row', hrow', hpast'⟩, hstep.leaseAt hsane hp,
      hstep.unattended hup hrow hpast, fun he => ?_⟩
    subst he
    exact hstep.pass hsane hp hup hrow hpast (fun ha => hok (Prod.ext rfl ha)) (hpass rfl)
  · rintro s p a z q ⟨hsane, row, hrow, hpast⟩ hat hok hz hq
    have hstep := leaseNext_step hz
    have htouch := hstep.touches hsane.fresh
    obtain ⟨hp, hup, -⟩ := hat p
    obtain ⟨hq', huq, hpass⟩ := hat q
    refine ⟨hq'.other htouch hq hstep.clock_le, huq, fun he => ?_⟩
    subst he
    rcases hpass rfl with ⟨todo, hpoint, htodo⟩ | hdone
    · refine Or.inl ⟨todo, hpoint, htodo.imp_right fun hlock => ?_⟩
      obtain ⟨v, hv⟩ := hlock
      exact ⟨v, (htouch.held (q, false) hq id v).mpr hv⟩
    · refine Or.inr fun row' hrow' => ?_
      obtain ⟨row'', hrow'', -, hstays⟩ := hstep.past hsane hp hup hrow hpast
      obtain rfl := Option.some.inj (hrow''.symm.trans hrow')
      exact hstays (hdone row hrow)

/-- The worker is gone, and its lease has run out. -/
def crashOne : List (Bool × LeaseAction) := claimOne ++ [(true, .crash), (false, .tick 60000001)]

/-- The process has stopped. -/
def LeasePoint.isStopped : LeasePoint → Bool
  | .stopped => true
  | _ => false

/-- The process does nothing. -/
def LeasePoint.isIdle : LeasePoint → Bool
  | .idle => true
  | _ => false

theorem dead_task_reaped_crash : ∃ s : Procs Bool LeasePoint (LeaseState Bool),
    ∃ row, s.shared.db.tasks.committed.get? 0 = some row ∧ row.status.active = false := by
  have hrun : (Procs.exec (leaseNext shortLease twoNames) noTask crashOne).any (fun s₀ =>
      (s₀.proc false).isIdle && (s₀.proc true).isStopped &&
      (s₀.shared.db.tasks.committed.get? 0).any (TaskRow.expired s₀.shared.clock) &&
      (leaseNext shortLease twoNames s₀.shared false .idle (.request .reap)).any fun x =>
        (Procs.exec (leaseNext shortLease twoNames) (s₀.move false x)
            [(false, .statement), (false, .statement)]).any fun s =>
          (s.proc false).isIdle) = true := by decide +kernel
  have hidle : ∀ {point : LeasePoint}, point.isIdle = true → point = .idle := by
    intro point h
    cases point <;> first | rfl | cases h
  have hstopped : ∀ {point : LeasePoint}, point.isStopped = true → point = .stopped := by
    intro point h
    cases point <;> first | rfl | cases h
  obtain ⟨s₀, hs₀, hall⟩ := (Option.any_eq_true _ _).mp hrun
  simp only [Bool.and_eq_true] at hall
  obtain ⟨⟨⟨hclient, hworker⟩, hexp⟩, hpass⟩ := hall
  obtain ⟨row, hrow, hexp⟩ := (Option.any_eq_true _ _).mp hexp
  obtain ⟨x, hx, hrest⟩ := (Option.any_eq_true _ _).mp hpass
  obtain ⟨s, hs, hend⟩ := (Option.any_eq_true _ _).mp hrest
  have hdead : ∀ p, Unattended 0 (s₀.proc p) := by
    rw [Bool.forall_bool, hidle hclient, hstopped hworker]
    exact ⟨⟨fun _ he => (by cases he), fun _ _ _ he => (by cases he)⟩,
      ⟨fun _ he => (by cases he), fun _ _ _ he => (by cases he)⟩⟩
  refine ⟨s, dead_task_reaped (Procs.reach_exec (.start leaseStart_noTask) hs₀ fun _ _ _ => trivial)
    (hidle hclient) hx hrow hexp
    hdead (Procs.reach_exec (.start rfl) hs ?_) (hidle hend)⟩
  intro a ha _ he
  simp only [List.mem_cons, List.not_mem_nil, or_false, or_self] at ha
  rw [ha] at he
  cases he

end Leases

end Restock
