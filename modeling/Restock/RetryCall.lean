/-
# Enqueueing in the session of the caller (`tasks/queue.py`, `api/monitor.py`)

`enqueue_task` inserts a task in the session it is given and commits. If an active task
has the key already, it rolls the session back, with what the caller has written before,
and answers with the task that is there; if that task is gone meanwhile it tries again, up
to two times. `retry_call` marks the row of a failed call as queued and then enqueues.

What the other sessions do is in the states of the task table that the statements find,
one after the other. What the caller has written is stored when `enqueue_task` returns
exactly if the first insert is not refused, or the tries run out, which is an error
(`enqueueTask_keeps_iff`).
-/
import Restock.Lib.Session
import Restock.TaskQueue

namespace Restock

/-! ### Enqueueing -/

/-- The committed tasks when a statement runs. -/
structure TaskTable where
  rows : Dict ℕ TaskRow
  nextTask : ℕ

/-- The index on active keys lets an insert through. -/
def TaskTable.keyFree (table : TaskTable) (key : String) : Bool :=
  table.rows.values.all fun row => !(row.status.active && row.dedupeKey = key)

/-- The active task with the key; of several the last. -/
def TaskTable.existing (table : TaskTable) (key : String) : Option ℕ :=
  (table.rows.filter fun _ row => row.dedupeKey = key && row.status.active).keys.max?

/-- What a session can write: the data of its caller, and tasks. -/
structure Written (σ : Type) where
  data : σ
  tasks : List TaskRow

def Written.addTask {σ : Type} (w : Written σ) (row : TaskRow) :
    Written σ := { w with tasks := w.tasks ++ [row] }

section Enqueue

variable {σ : Type}

/-- `enqueue_task`, with the number of tries that are left. Each try has an `INSERT`, which
finds the first state of `seen`, and a `SELECT`, which finds the second. -/
def enqueueTaskIn (spec : TaskSpec) : (left : ℕ) → (seen : ℕ → TaskTable) → Session (Written σ) →
    Except String (ℕ × Bool) × Session (Written σ)
  | left, seen, s =>
    if (seen 0).keyFree spec.key then
      (.ok ((seen 0).nextTask, false), (s.write (·.addTask spec.row)).commit)
    else
      match (seen 1).existing spec.key with
      | some id =>
        -- a trigger of the scheduler leaves a trace
        if spec.triggerSource = .scheduler then
          (.ok (id, true), (s.rollback.write (·.addTask (spec.skippedRow id))).commit)
        else (.ok (id, true), s.rollback)
      | none =>
        match left with
        | 0 => (.error s!"enqueue_task: 去重竞态重试耗尽 (job={spec.jobName}, key={spec.key})", s.rollback)
        | left + 1 => enqueueTaskIn spec left (fun n => seen (n + 2)) s.rollback

/-- Every try finds the key taken, and then no task that has it. -/
def RunsOut (spec : TaskSpec) (left : ℕ) (seen : ℕ → TaskTable) : Prop :=
  ∀ n ≤ left, (seen (2 * n)).keyFree spec.key = false ∧ (seen (2 * n + 1)).existing spec.key = none

theorem runsOut_succ {spec : TaskSpec} {left : ℕ} {seen : ℕ → TaskTable}
    (hfree : (seen 0).keyFree spec.key = false) (hnone : (seen 1).existing spec.key = none) :
    RunsOut spec (left + 1) seen ↔ RunsOut spec left fun n => seen (n + 2) := by
  constructor
  · intro h n hn
    have hnext := h (n + 1) (by omega)
    rw [show 2 * (n + 1) = 2 * n + 2 by omega, show 2 * n + 2 + 1 = 2 * n + 1 + 2 by omega] at hnext
    exact hnext
  · intro h n hn
    cases n with
    | zero => exact ⟨hfree, hnone⟩
    | succ n =>
      have hprev := h n (by omega)
      rw [show 2 * (n + 1) = 2 * n + 2 by omega, show 2 * n + 2 + 1 = 2 * n + 1 + 2 by omega]
      exact hprev

/-- After a refusal: the writes are gone, and the call fails exactly if the tries run out. -/
theorem enqueueTask_refused (spec : TaskSpec) :
    ∀ (left : ℕ) (seen : ℕ → TaskTable) (s : Session (Written σ)), s.current = s.stored →
      (enqueueTaskIn spec left seen s).2.stored.data = s.stored.data ∧
      (enqueueTaskIn spec left seen s).2.current.data = s.stored.data ∧
      ((∃ e, (enqueueTaskIn spec left seen s).1 = .error e) ↔ RunsOut spec left seen)
  | left, seen, s, hs => by
    unfold enqueueTaskIn
    by_cases hfree : (seen 0).keyFree spec.key = true
    · rw [if_pos hfree]
      have hdata : (s.current.addTask spec.row).data = s.stored.data := by rw [hs]; rfl
      refine ⟨hdata, hdata, by simp, fun h => ?_⟩
      have hfirst := (h 0 (Nat.zero_le _)).1
      rw [Nat.mul_zero, hfree] at hfirst
      cases hfirst
    · rw [if_neg hfree]
      cases hfound : (seen 1).existing spec.key with
      | some id =>
        have hno : ¬ RunsOut spec left seen := fun h => by
          have hfirst := (h 0 (Nat.zero_le _)).2
          rw [Nat.mul_zero, Nat.zero_add, hfound] at hfirst
          cases hfirst
        simp only
        split_ifs
        · exact ⟨rfl, rfl, by simp [hno]⟩
        · exact ⟨rfl, rfl, by simp [hno]⟩
      | none =>
        have hfalse := Bool.eq_false_iff.mpr hfree
        cases left with
        | zero =>
          refine ⟨rfl, rfl, fun _ n hn => ?_, fun _ => ⟨_, rfl⟩⟩
          obtain rfl := Nat.le_zero.mp hn
          exact ⟨hfalse, hfound⟩
        | succ left =>
          have ih := enqueueTask_refused spec left (fun n => seen (n + 2)) s.rollback rfl
          refine ⟨ih.1, ih.2.1, ?_⟩
          rw [runsOut_succ hfalse hfound]
          exact ih.2.2

/-- If the call returns, what the caller had written is stored when the request ends. -/
def EnqueueKeeps (spec : TaskSpec) (seen : ℕ → TaskTable) (s : Session (Written σ)) : Prop :=
  ∀ result, (enqueueTaskIn spec 2 seen s).1 = .ok result →
    (Session.close (enqueueTaskIn spec 2 seen s)).stored.data = s.current.data

/-- The first insert is not refused, or the tries run out. -/
def KeepsCaller (spec : TaskSpec) (seen : ℕ → TaskTable) :
    Prop := (seen 0).keyFree spec.key = true ∨ RunsOut spec 2 seen

/-- What is left of the data of the caller. -/
theorem enqueueTaskIn_data (spec : TaskSpec) (seen : ℕ → TaskTable) (s : Session (Written σ)) :
    (Session.close (enqueueTaskIn spec 2 seen s)).stored.data =
      if (seen 0).keyFree spec.key then s.current.data else s.stored.data := by
  by_cases hfree : (seen 0).keyFree spec.key = true
  · unfold enqueueTaskIn
    rw [if_pos hfree, if_pos hfree]
    rfl
  · -- from the rollback on it is as if the caller had written nothing
    have hback : enqueueTaskIn spec 2 seen s = enqueueTaskIn spec 2 seen s.rollback := by
      unfold enqueueTaskIn
      rw [if_neg hfree, if_neg hfree]
      rfl
    obtain ⟨hstored, hcurrent, -⟩ := enqueueTask_refused spec 2 seen s.rollback rfl
    rw [if_neg hfree, hback]
    cases hr : enqueueTaskIn spec 2 seen s.rollback with
    | mk result s' =>
      rw [hr] at hstored hcurrent
      cases result with
      | ok a => exact hcurrent
      | error e => exact hstored

/-- The call fails exactly if the tries run out. -/
theorem enqueueTaskIn_error (spec : TaskSpec) (seen : ℕ → TaskTable) (s : Session (Written σ)) :
    (∃ e, (enqueueTaskIn spec 2 seen s).1 = .error e) ↔ RunsOut spec 2 seen := by
  have hresult : (enqueueTaskIn spec 2 seen s).1 = (enqueueTaskIn spec 2 seen s.rollback).1 := by
    unfold enqueueTaskIn
    by_cases hfree : (seen 0).keyFree spec.key = true
    · rw [if_pos hfree, if_pos hfree]
    · rw [if_neg hfree, if_neg hfree]
      rfl
  rw [hresult]
  exact (enqueueTask_refused spec 2 seen s.rollback rfl).2.2

theorem enqueueKeeps_iff {spec : TaskSpec} {seen : ℕ → TaskTable} {s : Session (Written σ)}
    (hwrote : s.current.data ≠ s.stored.data) :
    EnqueueKeeps spec seen s ↔ KeepsCaller spec seen := by
  unfold EnqueueKeeps KeepsCaller
  rw [enqueueTaskIn_data]
  by_cases hfree : (seen 0).keyFree spec.key = true
  · simp [hfree]
  · simp only [hfree, Bool.false_eq_true, if_false, false_or, ← enqueueTaskIn_error spec seen s]
    cases (enqueueTaskIn spec 2 seen s).1 with
    | ok a => simp [Ne.symm hwrote]
    | error e => simp

end Enqueue

/-! ### Retrying a call -/

inductive RetryStatus
  | queued | resolved | permanent | unsupported
deriving DecidableEq, Repr

/-- A stored request body: an object, or something else. -/
inductive RequestPayload
  | object (body : String)
  | other (body : String)
deriving DecidableEq, Repr

structure ApiCallLog where
  endpoint : String
  saihuCode : Option ℤ
  requestPayload : Option RequestPayload
  retryStatus : Option RetryStatus
  autoRetryAttempts : ℤ
  nextRetryAt : Option ℤ
  resolvedAt : Option ℤ
  lastRetryError : Option String
  retrySourceLogId : Option ℕ
deriving DecidableEq, Repr

def maxAutoRetryAttempts : ℤ := 5

/-- The checks of `retry_call`, in their order. -/
def ApiCallLog.retryRefusal (row : ApiCallLog) : Option String :=
  if row.retryStatus = some .resolved then some "该失败调用已经解决，无需重试"
  else if row.retryStatus = some .permanent then some "该失败调用已达到重试上限或失败类型不可恢复"
  else if row.retryStatus = some .unsupported ∨ row.requestPayload = none then
    some "该调用日志缺少原始请求参数，无法精确重试"
  else if row.saihuCode ≠ some 40019 then some "仅支持重试赛狐返回码 40019 的失败调用"
  else if row.retrySourceLogId ≠ none then some "自动重试产生的子日志不能再次作为重试源"
  else if maxAutoRetryAttempts ≤ row.autoRetryAttempts then some "该失败调用已达到最多 5 次重试上限"
  else none

def ApiCallLog.queue (row : ApiCallLog) (now : ℤ) : ApiCallLog :=
  { row with retryStatus := some .queued, nextRetryAt := some now }

/-- The task of `retry_call`. -/
def retrySpec (now : ℤ) : TaskSpec := ⟨"retry_failed_api_calls", .manual, none, 50, now⟩

/-- The rows of the call log. -/
abbrev CallLogs := Dict ℕ ApiCallLog

def retryCall (seen : ℕ → TaskTable) (callId : ℕ) (now : ℤ) (s : Session (Written CallLogs)) :
    Except String (ℕ × Bool) × Session (Written CallLogs) :=
  match s.current.data.get? callId with
  | none => (.error s!"调用记录 {callId} 不存在", s)
  | some row =>
    match row.retryRefusal with
    | some message => (.error message, s)
    | none => enqueueTaskIn (retrySpec now) 2 seen
        (s.write fun w => { w with data := w.data.set callId (row.queue now) })

/-- If the request answers, the row of the call is stored as queued when it ends. -/
def RetryQueues (seen : ℕ → TaskTable) (callId : ℕ) (now : ℤ) (logs : CallLogs) : Prop :=
  ∀ result, (retryCall seen callId now (.opened ⟨logs, []⟩)).1 = .ok result →
    ∃ row, (Session.close (retryCall seen callId now (.opened ⟨logs, []⟩))).stored.data.get?
      callId = some row ∧ row.retryStatus = some .queued

/-- The request is refused, or the row is queued already. -/
def RefusedOrQueued (callId : ℕ) (logs : CallLogs) : Prop :=
  ∀ row, logs.get? callId = some row → row.retryRefusal = none → row.retryStatus = some .queued

theorem retryQueues_iff (seen : ℕ → TaskTable) (callId : ℕ) (now : ℤ) (logs : CallLogs) :
    RetryQueues seen callId now logs ↔ RefusedOrQueued callId logs ∨
    KeepsCaller (retrySpec now) seen := by
  unfold RetryQueues RefusedOrQueued KeepsCaller retryCall
  cases hget : logs.get? callId with
  | none => simp [hget]
  | some row =>
    cases hrefusal : row.retryRefusal with
    | some message => simp [hget, hrefusal]
    | none =>
      simp only [Session.current_opened, hget, hrefusal]
      rw [enqueueTaskIn_data, ← enqueueTaskIn_error (retrySpec now) seen
        ((Session.opened (⟨logs, []⟩ : Written CallLogs)).write
          fun w => { w with data := w.data.set callId (row.queue now) })]
      by_cases hfree : (seen 0).keyFree (retrySpec now).key = true
      · simp [hfree, ApiCallLog.queue]
      · simp only [hfree, Bool.false_eq_true, if_false, Session.stored_write, Session.stored_opened,
          hget, false_or]
        cases (enqueueTaskIn (retrySpec now) 2 seen
          ((Session.opened (⟨logs, []⟩ : Written CallLogs)).write
              fun w => { w with data := w.data.set callId (row.queue now) })).1 with
        | ok a => simp [hrefusal]
        | error e => simp

/-- **Enqueueing keeps the writes of its caller** exactly if its first insert is not
refused or its tries run out; and a successful `retry_call` leaves the row queued exactly
then, or where the row is refused or was queued before. -/
theorem enqueueTask_keeps_iff {σ : Type} (spec : TaskSpec) (seen : ℕ → TaskTable)
    (s : Session (Written σ)) (hwrote : s.current.data ≠ s.stored.data) (callId : ℕ) (now : ℤ)
    (logs : CallLogs) :
    (EnqueueKeeps spec seen s ↔ KeepsCaller spec seen) ∧
      (RetryQueues seen callId now logs ↔ RefusedOrQueued callId logs ∨
        KeepsCaller (retrySpec now) seen) :=
  ⟨enqueueKeeps_iff hwrote, retryQueues_iff seen callId now logs⟩

/-- A call that failed with the rate limit. -/
def limitedCall : ApiCallLog :=
  ⟨"/api/shop/pageList.json", some 40019, some (.object ""), none, 0, none, none, none, none⟩

def oneCall : CallLogs := .set .empty 7 limitedCall

/-- No task is active. -/
def idleQueue : ℕ → TaskTable := fun _ => ⟨.empty, 1⟩

/-- The task of the scheduler is active. -/
def busyQueue : ℕ → TaskTable := fun _ => ⟨.set .empty 1 ((retrySpec 0).row), 2⟩

theorem retryCall_queued : RetryQueues idleQueue 7 0 oneCall ∧
    (Session.close (retryCall idleQueue 7 0 (.opened ⟨oneCall, []⟩))).stored.data.get? 7 =
    some (limitedCall.queue 0) ∧
    EnqueueKeeps (retrySpec 0) idleQueue (⟨⟨0, []⟩, ⟨1, []⟩⟩ : Session (Written ℕ)) := by
  have hfree : KeepsCaller (retrySpec 0) idleQueue := Or.inl (by decide)
  have h := enqueueTask_keeps_iff (retrySpec 0) idleQueue (⟨⟨0, []⟩, ⟨1, []⟩⟩ : Session (Written ℕ))
    Nat.one_ne_zero 7 0 oneCall
  exact ⟨h.2.mpr (Or.inr hfree), by decide, h.1.mpr hfree⟩

/-- The task of the scheduler is active: the request answers with it, and the row of the
call is as it was. -/
theorem retryCall_not_queued :
    (retryCall busyQueue 7 0 (.opened ⟨oneCall, []⟩)).1.toOption = some (1, true) ∧
    (Session.close (retryCall busyQueue 7 0 (.opened ⟨oneCall, []⟩))).stored.data.get? 7 =
    some limitedCall ∧ ¬ RetryQueues busyQueue 7 0 oneCall ∧
    ¬ EnqueueKeeps (retrySpec 0) busyQueue (⟨⟨0, []⟩, ⟨1, []⟩⟩ : Session (Written ℕ)) := by
  have hrun : (retryCall busyQueue 7 0 (.opened ⟨oneCall, []⟩)).1.toOption = some (1, true) ∧
      (Session.close (retryCall busyQueue 7 0 (.opened ⟨oneCall, []⟩))).stored.data.get? 7 =
          some limitedCall := by
    decide +kernel
  have hkeeps : (enqueueTaskIn (retrySpec 0) 2 busyQueue
      (⟨⟨0, []⟩, ⟨1, []⟩⟩ : Session (Written ℕ))).1.toOption = some (1, true) ∧
      (Session.close (enqueueTaskIn (retrySpec 0) 2 busyQueue
          (⟨⟨0, []⟩, ⟨1, []⟩⟩ : Session (Written ℕ)))).stored.data = 0 := by
    decide +kernel
  have hok : ∀ {α : Type} {x : Except String α} {a : α}, x.toOption = some a → x = .ok a := by
    intro α x a hx
    cases x with
    | error e => cases hx
    | ok b => exact congrArg _ (Option.some.inj hx)
  refine ⟨hrun.1, hrun.2, fun h => ?_, fun h => ?_⟩
  · obtain ⟨row, hrow, hqueued⟩ := h (1, true) (hok hrun.1)
    rw [hrun.2] at hrow
    rw [← Option.some.inj hrow] at hqueued
    cases hqueued
  · have hstored := h (1, true) (hok hkeeps.1)
    rw [hkeeps.2] at hstored
    cases hstored

end Restock
