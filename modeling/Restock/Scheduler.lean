/-
# The scheduler (`tasks/scheduler.py`, `api/sync.py`, `api/config.py`)

A process has one scheduler that enqueues the periodic jobs, in `_scheduler`. A change of
the intervals or of the switch is committed and then `reload_scheduler` builds a new
scheduler from the configuration, reads the configuration again and starts the scheduler
if it is to run. `scheduler_status`, which the readiness check calls too, builds one as
well if the intervals are not those of `_scheduler`, and never starts it. Coroutines
alternate wherever they wait for the database.

Where nobody builds a scheduler while a reload has one that is not started yet, and nobody
commits a change between the read of the configuration and its use, the scheduler is the
one that the configuration asks for as soon as no change is under way, and no other runs
(`scheduler_of_reach`). Otherwise a scheduler can run that nobody can stop
(`scheduler_left`).
-/
import Restock.Lib.Processes

namespace Restock

/-! ### The schedulers -/

/-- What the scheduler reads of the configuration. -/
structure SchedulerRuntimeConfig where
  enabled : Bool
  syncIntervalMinutes : ℤ
  orderSyncIntervalMinutes : ℤ
deriving DecidableEq, Repr

/-- The intervals. -/
def SchedulerRuntimeConfig.signature (config : SchedulerRuntimeConfig) : ℤ × ℤ :=
  (config.syncIntervalMinutes, config.orderSyncIntervalMinutes)

/-- When a job is enqueued. -/
inductive SchedulerTrigger
  | cron (hour minute : ℕ)
  | interval (minutes : ℤ)
deriving DecidableEq, Repr

/-- A job of a scheduler. -/
structure SchedulerJob where
  jobName : String
  trigger : SchedulerTrigger
deriving DecidableEq, Repr

/-- The jobs of a scheduler, with the id `trigger_` and the name. -/
def registerJobs (signature : ℤ × ℤ) : List SchedulerJob :=
  [⟨"sync_shop", .cron 3 0⟩, ⟨"sync_product_listing", .interval signature.1⟩,
    ⟨"sync_inventory", .interval signature.1⟩, ⟨"sync_out_records", .interval signature.1⟩,
    ⟨"sync_order_list", .interval signature.2⟩, ⟨"sync_warehouse", .cron 3 30⟩,
    ⟨"daily_archive", .cron 2 0⟩, ⟨"retention_purge", .cron 4 0⟩,
      ⟨"retry_failed_api_calls", .interval 5⟩]

/-- A scheduler that was built. -/
structure AsyncScheduler where
  jobs : List SchedulerJob
  running : Bool
deriving DecidableEq, Repr

/-- What the coroutines share. -/
structure SchedulerState where
  /-- The row of `global_config`. -/
  stored : Option SchedulerRuntimeConfig
  /-- All schedulers that were built. -/
  schedulers : List AsyncScheduler
  /-- `_scheduler` and `_scheduler_signature`. -/
  current : Option ℕ
  signature : Option (ℤ × ℤ)
deriving DecidableEq, Repr

/-- `default_sync_interval_minutes` and `default_order_sync_interval_minutes`. -/
structure SchedulerDefaults where
  syncIntervalMinutes : ℤ
  orderSyncIntervalMinutes : ℤ

namespace SchedulerState

/-- `_load_scheduler_config`. -/
def loadConfig (defaults : SchedulerDefaults) (g : SchedulerState) : SchedulerRuntimeConfig :=
  g.stored.getD ⟨true, defaults.syncIntervalMinutes, defaults.orderSyncIntervalMinutes⟩

/-- The scheduler of a number runs. -/
def isRunning (g : SchedulerState) (i : ℕ) : Bool := (g.schedulers[i]?).any AsyncScheduler.running

/-- The scheduler of a number is started or stopped. -/
def setRunning (g : SchedulerState) (i : ℕ) (running : Bool) : SchedulerState :=
  { g with schedulers := g.schedulers.modify i fun scheduler => { scheduler with
    running := running } }

/-- `shutdown_scheduler`. -/
def shutdownScheduler (g : SchedulerState) (clear : Bool) : SchedulerState :=
  let g := match g.current with
    | some i => if g.isRunning i then g.setRunning i false else g
    | none => g
  if clear then { g with current := none, signature := none } else g

/-- A new scheduler, with its number. -/
def build (g : SchedulerState) (signature : ℤ × ℤ) : SchedulerState × ℕ :=
  ({ g with
      schedulers := g.schedulers ++ [⟨registerJobs signature, false⟩]
      current := some g.schedulers.length
      signature := some signature }, g.schedulers.length)

/-- `setup_scheduler` once it has the configuration. -/
def setupScheduler (g : SchedulerState) (forceReload : Bool) (config : SchedulerRuntimeConfig) :
    SchedulerState × ℕ :=
  match g.current with
  | some i =>
    if !forceReload && g.signature = some config.signature then (g, i)
    else (g.shutdownScheduler true).build config.signature
  | none => g.build config.signature

end SchedulerState

/-! ### The programs -/

/-- What the configuration is read for. -/
inductive SchedulerLoad
  /-- `setup_scheduler(force_reload=True)` of `reload_scheduler`. -/
  | reload
  /-- `reload_scheduler` may start the scheduler that it has. -/
  | start (scheduler : ℕ)
  /-- `setup_scheduler()` of `scheduler_status`. -/
  | status
  | answer (scheduler : ℕ)
deriving DecidableEq, Repr

/-- The answer to a request for the status. -/
structure SchedulerStatusOut where
  enabled : Bool
  running : Bool
  syncIntervalMinutes : ℤ
  orderSyncIntervalMinutes : ℤ
  jobs : List String
deriving DecidableEq, Repr

/-- Where a coroutine waits. -/
inductive SchedulerPoint
  | idle
  /-- The read of the configuration is under way. -/
  | load (use : SchedulerLoad)
  | loaded (use : SchedulerLoad) (config : SchedulerRuntimeConfig)
  | answered (status : SchedulerStatusOut)
deriving DecidableEq, Repr

/-- What `patch_global` may set of it. -/
structure SchedulerPatch where
  enabled : Option Bool
  syncIntervalMinutes : Option ℤ
  orderSyncIntervalMinutes : Option ℤ

/-- What a coroutine does next. -/
inductive SchedulerAction
  /-- The application starts. -/
  | startup
  | setSchedulerStatus (enabled : Bool)
  | patchGlobal (patch : SchedulerPatch)
  | schedulerStatus
  | statement
  /-- What is awaited raises. -/
  | fail

/-- The patch sets nothing of it, and so does not reload. -/
def SchedulerPatch.isEmpty (patch : SchedulerPatch) : Bool :=
  patch.enabled.isNone && patch.syncIntervalMinutes.isNone && patch.orderSyncIntervalMinutes.isNone

/-- The configuration after the patch. -/
def SchedulerPatch.apply (patch : SchedulerPatch) (config : SchedulerRuntimeConfig) :
    SchedulerRuntimeConfig :=
  ⟨patch.enabled.getD config.enabled, patch.syncIntervalMinutes.getD config.syncIntervalMinutes,
    patch.orderSyncIntervalMinutes.getD config.orderSyncIntervalMinutes⟩

namespace SchedulerState

/-- The answer of `scheduler_status`, with the names of the jobs as they were registered; a
scheduler that runs lists them by their next run times, which are no part of the state. -/
def status (g : SchedulerState) (scheduler : ℕ) (config : SchedulerRuntimeConfig) :
    SchedulerStatusOut where
  enabled := config.enabled
  running := g.isRunning scheduler
  syncIntervalMinutes := config.syncIntervalMinutes
  orderSyncIntervalMinutes := config.orderSyncIntervalMinutes
  jobs := ((g.schedulers[scheduler]?).map fun s => s.jobs.map SchedulerJob.jobName).getD []

/-- What a coroutine does with the configuration, up to where it waits again. -/
def use (g : SchedulerState) (config : SchedulerRuntimeConfig) :
    SchedulerLoad → SchedulerState × SchedulerPoint
  | .reload =>
    let r := g.setupScheduler true config
    (r.1, .load (.start r.2))
  | .start scheduler =>
    (if config.enabled && !g.isRunning scheduler then g.setRunning scheduler true else g,
      .load .status)
  | .status =>
    let r := g.setupScheduler false config
    (r.1, .load (.answer r.2))
  | .answer scheduler => (g, .answered (g.status scheduler config))

end SchedulerState

/-- A coroutine goes on until it waits. -/
def schedulerNext {P : Type} (defaults : SchedulerDefaults) (g : SchedulerState) (_ : P) :
    SchedulerPoint → SchedulerAction → Option (SchedulerState × SchedulerPoint)
  | .idle, .startup => some (g, .load .reload)
  | .idle, .setSchedulerStatus enabled =>
    some ({ g with stored := g.stored.map fun config => { config with enabled := enabled } },
      .load .reload)
  | .idle, .patchGlobal patch =>
    match g.stored with
    | none => some (g, .idle)
    | some config =>
      if patch.isEmpty then some (g, .idle)
      else some ({ g with stored := some (patch.apply config) }, .load .reload)
  | .idle, .schedulerStatus => some (g, .load .status)
  | .load use, .statement => some (g, .loaded use (g.loadConfig defaults))
  | .loaded use config, .statement => some (g.use config use)
  | .load _, .fail => some (g, .idle)
  | .answered _, .statement => some (g, .idle)
  | _, _ => none

/-- The orders in which the coroutines may go on. -/
def schedulerRuns {P : Type} [DecidableEq P] (defaults : SchedulerDefaults)
    (start : Procs P SchedulerPoint SchedulerState → Prop) :
    Lts (Procs P SchedulerPoint SchedulerState) (P × SchedulerAction) :=
  Procs.runs start (schedulerNext defaults)

/-! ### What `setup_scheduler` leaves -/

namespace SchedulerState

variable {g g' : SchedulerState} {i j : ℕ} {scheduler : AsyncScheduler}
    {config : SchedulerRuntimeConfig}

/-- No scheduler runs but the one in `_scheduler`, and that has the jobs of its signature. -/
structure Tidy (g : SchedulerState) : Prop where
  running : ∀ i, g.isRunning i = true → g.current = some i
  jobs : ∀ i, g.current = some i → ∃ scheduler signature, g.schedulers[i]? = some scheduler ∧
    g.signature = some signature ∧ scheduler.jobs = registerJobs signature

theorem isRunning_setRunning (g : SchedulerState) (i j : ℕ) (running : Bool) :
    (g.setRunning i running).isRunning j = if i = j then (g.schedulers[j]?).isSome && running
    else g.isRunning j := by
  unfold isRunning setRunning
  rw [List.getElem?_modify]
  split_ifs
  · cases g.schedulers[j]? <;> rfl
  · cases g.schedulers[j]? <;> rfl

/-- Nobody runs after a shutdown. -/
theorem isRunning_shutdown (h : g.Tidy) (clear : Bool) (i : ℕ) :
    (g.shutdownScheduler clear).isRunning i = false := by
  have hsame : (g.shutdownScheduler clear).isRunning i =
      (g.shutdownScheduler false).isRunning i := by
    unfold shutdownScheduler
    cases clear <;> rfl
  rw [hsame, ← Bool.not_eq_true]
  intro hrun
  unfold shutdownScheduler at hrun
  cases hcurrent : g.current with
  | none =>
    simp only [hcurrent] at hrun
    exact absurd ((h.running i hrun).symm.trans hcurrent) (by simp)
  | some k =>
    simp only [hcurrent, Bool.false_eq_true, if_false] at hrun
    split_ifs at hrun with hk
    · rw [isRunning_setRunning] at hrun
      split_ifs at hrun with hki
      · simp at hrun
      · exact hki (Option.some.inj (hcurrent.symm.trans (h.running i hrun)))
    · have hki := Option.some.inj (hcurrent.symm.trans (h.running i hrun))
      exact hk (hki ▸ hrun)

/-- A new scheduler, where none runs. -/
theorem tidy_build (h : ∀ i, g.isRunning i = false) (signature : ℤ × ℤ) :
    (g.build signature).1.Tidy ∧ ∀ i, (g.build signature).1.isRunning i = false := by
  have hnone : ∀ i, (g.build signature).1.isRunning i = false := by
    intro i
    show ((g.schedulers ++ [_])[i]?).any AsyncScheduler.running = false
    rw [List.getElem?_append]
    split_ifs
    · exact h i
    · cases i - g.schedulers.length <;> rfl
  refine ⟨⟨fun i hi => absurd hi (by simp [hnone i]), fun i hi => ?_⟩, hnone⟩
  obtain rfl := Option.some.inj hi
  exact ⟨⟨registerJobs signature, false⟩, signature, by simp [build], rfl, rfl⟩

/-- What `setup_scheduler` has done: it kept the scheduler, or built one. -/
theorem setupScheduler_cases (h : g.Tidy) (forceReload : Bool) (config : SchedulerRuntimeConfig) :
    (forceReload = false ∧ g.current = some (g.setupScheduler forceReload config).2 ∧
      g.signature = some config.signature ∧ (g.setupScheduler forceReload config).1 = g) ∨
    ((forceReload = true ∨ g.current = none ∨ g.signature ≠ some config.signature) ∧
      (g.setupScheduler forceReload config).1.Tidy ∧
      (g.setupScheduler forceReload config).1.current =
      some (g.setupScheduler forceReload config).2 ∧
      (g.setupScheduler forceReload config).1.signature = some config.signature ∧
      (g.setupScheduler forceReload config).1.stored = g.stored ∧
      ∀ i, (g.setupScheduler forceReload config).1.isRunning i = false) := by
  unfold setupScheduler
  cases hcurrent : g.current with
  | none =>
    have hnone : ∀ i, g.isRunning i = false := by
      intro i
      rw [← Bool.not_eq_true]
      exact fun hi => absurd ((h.running i hi).symm.trans hcurrent) (by simp)
    obtain ⟨htidy, hrun⟩ := tidy_build hnone config.signature
    exact Or.inr ⟨Or.inr (Or.inl rfl), htidy, rfl, rfl, rfl, hrun⟩
  | some i =>
    dsimp only
    split_ifs with hkeep
    · simp only [Bool.and_eq_true, Bool.not_eq_true', decide_eq_true_eq] at hkeep
      exact Or.inl ⟨hkeep.1, rfl, hkeep.2, rfl⟩
    · obtain ⟨htidy, hrun⟩ := tidy_build (isRunning_shutdown h true) config.signature
      refine Or.inr ⟨?_, htidy, rfl, rfl, ?_, hrun⟩
      · cases forceReload
        · exact Or.inr (Or.inr fun hs => hkeep (by simp [hs]))
        · exact Or.inl rfl
      · show (g.shutdownScheduler true).stored = g.stored
        unfold shutdownScheduler
        rw [hcurrent]
        dsimp only
        split_ifs <;> rfl

end SchedulerState

/-! ### What the coroutines keep -/

/-- A change is committed, or the application starts, and the scheduler is not built yet. -/
def SchedulerPoint.beforeBuild : SchedulerPoint → Prop
  | .load .reload | .loaded .reload _ => True
  | _ => False

/-- The scheduler that a reload has built and not started. -/
def SchedulerPoint.window : SchedulerPoint → Option ℕ
  | .load (.start i) | .loaded (.start i) _ => some i
  | _ => none

/-- The configuration that was read and not used. -/
def SchedulerPoint.config : SchedulerPoint → Option SchedulerRuntimeConfig
  | .loaded _ config => some config
  | _ => none

/-- The configuration makes the coroutine build a scheduler. -/
def SchedulerState.builds (g : SchedulerState) (config : SchedulerRuntimeConfig) :
    SchedulerLoad → Prop
  | .reload => True
  | .status => g.current = none ∨ g.signature ≠ some config.signature
  | _ => False

/-- The action commits a change. -/
def SchedulerAction.commits : SchedulerAction → Prop
  | .setSchedulerStatus _ | .patchGlobal _ => True
  | _ => False

section Runs

variable {P : Type} [DecidableEq P] {defaults : SchedulerDefaults}
    {s : Procs P SchedulerPoint SchedulerState} {p q : P}

/-- Nobody builds a scheduler while another has one that is not started, no change is
committed while another has a configuration that is not used, and a reload does not fail. -/
structure Undisturbed (a : P × SchedulerAction) (s : Procs P SchedulerPoint SchedulerState) :
    Prop where
  build : ∀ use config, s.proc a.1 = .loaded use config → s.shared.builds config use →
    ∀ q, q ≠ a.1 → (s.proc q).window = none
  commit : a.2.commits → ∀ q, (s.proc q).config = none
  fail : a.2 = .fail → ¬ (s.proc a.1).beforeBuild ∧ (s.proc a.1).window = none

/-- The scheduler is the one that the configuration asks for, or somebody is about to see to it. -/
structure Scheduled (defaults : SchedulerDefaults) (s : Procs P SchedulerPoint SchedulerState) :
    Prop where
  tidy : s.shared.Tidy
  loaded : ∀ p config, (s.proc p).config = some config → config = s.shared.loadConfig defaults
  window : ∀ p i, (s.proc p).window = some i → s.shared.current = some i ∧
    s.shared.isRunning i = false
  alone : ∀ p q, (s.proc p).window ≠ none → (s.proc q).window ≠ none → p = q
  signature : s.shared.current ≠ none ∧
    s.shared.signature = some (s.shared.loadConfig defaults).signature ∨ ∃ p, (s.proc p).beforeBuild
  state : (∃ i, s.shared.current = some i ∧
    s.shared.isRunning i = (s.shared.loadConfig defaults).enabled) ∨ ∃ p, (s.proc p).beforeBuild ∨
    (s.proc p).window ≠ none

/-- A coroutine goes on without touching the schedulers. -/
theorem Scheduled.goes (h : Scheduled defaults s) {point : SchedulerPoint}
    (hconfig : ∀ config, point.config = some config → config = s.shared.loadConfig defaults)
    (hwindow : point.window = (s.proc p).window)
    (hbefore : (s.proc p).beforeBuild → point.beforeBuild) :
    Scheduled defaults (s.move p (s.shared, point)) := by
  have hsame : ∀ q, ((s.move p (s.shared, point)).proc q).window = (s.proc q).window := by
    intro q
    by_cases hq : q = p
    · subst hq
      rw [Procs.move_proc_self, hwindow]
    · rw [Procs.move_proc_ne _ _ hq]
  have hkeep : ∀ q, (s.proc q).beforeBuild → ((s.move p (s.shared, point)).proc q).beforeBuild := by
    intro q hb
    by_cases hq : q = p
    · subst hq
      rw [Procs.move_proc_self]
      exact hbefore hb
    · rw [Procs.move_proc_ne _ _ hq]
      exact hb
  refine ⟨h.tidy, fun q config hc => ?_, fun q i hi => h.window q i ((hsame q).symm.trans hi),
    fun q q' hq hq' => ?_, ?_, ?_⟩
  · by_cases hq : q = p
    · subst hq
      rw [Procs.move_proc_self] at hc
      exact hconfig config hc
    · rw [Procs.move_proc_ne _ _ hq] at hc
      exact h.loaded q config hc
  · rw [hsame] at hq hq'
    exact h.alone q q' hq hq'
  · exact h.signature.imp_right fun ⟨q, hb⟩ => ⟨q, hkeep q hb⟩
  · refine h.state.imp_right fun ⟨q, hb⟩ => ⟨q, ?_⟩
    rw [hsame]
    exact hb.imp_left (hkeep q)

/-- A change is committed. -/
theorem Scheduled.committed (h : Scheduled defaults s) (hok : ∀ q, (s.proc q).config = none)
    {g : SchedulerState} (hg : g.schedulers = s.shared.schedulers ∧ g.current = s.shared.current ∧
    g.signature = s.shared.signature)
    (hp : (s.proc p).window = none) : Scheduled defaults (s.move p (g, .load .reload)) := by
  obtain ⟨hschedulers, hcurrent, hsignature⟩ := hg
  have hrunning : ∀ i, g.isRunning i = s.shared.isRunning i :=
    fun i => by unfold SchedulerState.isRunning; rw [hschedulers]
  have hsame : ∀ q, ((s.move p (g, .load .reload)).proc q).window = (s.proc q).window := by
    intro q
    by_cases hq : q = p
    · subst hq
      rw [Procs.move_proc_self, hp]
      rfl
    · rw [Procs.move_proc_ne _ _ hq]
  have hbefore : ∃ q, ((s.move p (g, .load .reload)).proc q).beforeBuild := by
    refine ⟨p, ?_⟩
    rw [Procs.move_proc_self]
    trivial
  refine ⟨⟨fun i hi => ?_, fun i hi => ?_⟩, fun q config hc => ?_, fun q i hi => ?_,
    fun q q' hq hq' => ?_, Or.inr hbefore, ?_⟩
  · show g.current = some i
    rw [hcurrent]
    exact h.tidy.running i ((hrunning i).symm.trans hi)
  · obtain ⟨scheduler, signature, hsch, hsig, hjobs⟩ := h.tidy.jobs i (hcurrent.symm.trans hi)
    exact ⟨scheduler, signature, (congrArg (·[i]?) hschedulers).trans hsch,
      hsignature.trans hsig, hjobs⟩
  · by_cases hq : q = p
    · subst hq
      rw [Procs.move_proc_self] at hc
      cases hc
    · rw [Procs.move_proc_ne _ _ hq, hok q] at hc
      cases hc
  · obtain ⟨hi, hrun⟩ := h.window q i ((hsame q).symm.trans hi)
    exact ⟨hcurrent.trans hi, (hrunning i).trans hrun⟩
  · rw [hsame] at hq hq'
    exact h.alone q q' hq hq'
  · obtain ⟨q, hb⟩ := hbefore
    exact Or.inr ⟨q, Or.inl hb⟩

/-- A scheduler is built while nobody else waits to start one. -/
theorem Scheduled.built (h : Scheduled defaults s) {g : SchedulerState} {point : SchedulerPoint}
    {i : ℕ} (htidy : g.Tidy) (hcurrent : g.current = some i)
    (hsignature : g.signature = some (s.shared.loadConfig defaults).signature)
    (hstored : g.stored = s.shared.stored) (hrun : ∀ j, g.isRunning j = false)
    (hconfig : point.config = none) (hothers : ∀ q, q ≠ p → (s.proc q).window = none)
    (hwindow : ∀ j, point.window = some j → j = i)
    (hdue : point.window ≠ none ∨ ∃ q, q ≠ p ∧ (s.proc q).beforeBuild) :
    Scheduled defaults (s.move p (g, point)) := by
  have hload : g.loadConfig defaults =
    s.shared.loadConfig defaults := by unfold SchedulerState.loadConfig; rw [hstored]
  have halone : ∀ q, ((s.move p (g, point)).proc q).window ≠ none → q = p := by
    intro q hq
    by_contra hne
    rw [Procs.move_proc_ne _ _ hne, hothers q hne] at hq
    exact hq rfl
  refine ⟨htidy, fun q config hc => ?_, fun q j hj => ?_,
    fun q q' hq hq' => (halone q hq).trans (halone q' hq').symm, Or.inl ?_, Or.inr ?_⟩
  · show config = g.loadConfig defaults
    rw [hload]
    by_cases hq : q = p
    · subst hq
      rw [Procs.move_proc_self] at hc
      exact absurd (hconfig.symm.trans hc) (by simp)
    · rw [Procs.move_proc_ne _ _ hq] at hc
      exact h.loaded q config hc
  · have hq : q = p := halone q (by rw [hj]; simp)
    subst hq
    rw [Procs.move_proc_self] at hj
    obtain rfl := hwindow j hj
    exact ⟨hcurrent, hrun j⟩
  · show g.current ≠ none ∧ g.signature = some (g.loadConfig defaults).signature
    rw [hload]
    exact ⟨by simp [hcurrent], hsignature⟩
  · rcases hdue with hp | ⟨q, hq, hb⟩
    · refine ⟨p, Or.inr ?_⟩
      rw [Procs.move_proc_self]
      exact hp
    · refine ⟨q, Or.inl ?_⟩
      rw [Procs.move_proc_ne _ _ hq]
      exact hb

/-- The reload starts the scheduler that it has built, or leaves it if it is not to run. -/
theorem Scheduled.started (h : Scheduled defaults s) {i : ℕ} {config : SchedulerRuntimeConfig}
    (hp : s.proc p = .loaded (.start i) config) :
    Scheduled defaults (s.move p (s.shared.use config (.start i))) := by
  have hwin : (s.proc p).window = some i := by rw [hp]; rfl
  obtain ⟨hcurrent, hstopped⟩ := h.window p i hwin
  obtain rfl := h.loaded p config (by rw [hp]; rfl)
  obtain ⟨scheduler, signature, hscheduler, hsignature, hjobs⟩ := h.tidy.jobs i hcurrent
  set config := s.shared.loadConfig defaults with hconfig
  set g := (s.shared.use config (.start i)).1 with hg
  have hgdef : g = if config.enabled && !s.shared.isRunning i then s.shared.setRunning i true
    else s.shared := rfl
  have hsame : g.stored = s.shared.stored ∧ g.current = s.shared.current ∧
      g.signature = s.shared.signature := by
    rw [hgdef]
    split_ifs <;> exact ⟨rfl, rfl, rfl⟩
  have hload : g.loadConfig defaults = config := by
    unfold SchedulerState.loadConfig
    rw [hsame.1]
    rfl
  -- the scheduler runs if it is to, and nothing else changes
  have hrun : ∀ j, g.isRunning j = if j = i then config.enabled else s.shared.isRunning j := by
    intro j
    rw [hgdef]
    cases henabled : config.enabled
    · simp only [Bool.false_and, Bool.false_eq_true, if_false]
      split_ifs with hj
      · rw [hj, hstopped]
      · rfl
    · simp only [hstopped, Bool.not_false, Bool.and_self, if_true,
        SchedulerState.isRunning_setRunning]
      by_cases hj : j = i
      · subst hj
        simp [hscheduler]
      · rw [if_neg (fun he => hj he.symm), if_neg hj]
  have hnone : ∀ q, ((s.move p (g, .load .status)).proc q).window = none := by
    intro q
    by_cases hq : q = p
    · subst hq
      rw [Procs.move_proc_self]
      rfl
    · rw [Procs.move_proc_ne _ _ hq]
      by_contra hne
      exact hq (h.alone q p hne (by simp [hwin]))
  refine ⟨⟨fun j hj => ?_, fun j hj => ?_⟩, fun q c hc => ?_, fun q j hj => ?_,
    fun q q' hq => absurd (hnone q) hq, ?_, Or.inl ⟨i, ?_, ?_⟩⟩
  · show g.current = some j
    rw [hsame.2.1]
    replace hj := (hrun j).symm.trans hj
    split_ifs at hj with hji
    · exact hji ▸ hcurrent
    · exact h.tidy.running j hj
  · obtain rfl : i = j := Option.some.inj (hcurrent.symm.trans (hsame.2.1.symm.trans hj))
    refine ⟨{ scheduler with running := config.enabled }, signature, ?_,
      hsame.2.2.trans hsignature, hjobs⟩
    show g.schedulers[i]? = _
    rw [hgdef]
    have hstop : scheduler.running =
      false := by simpa [SchedulerState.isRunning, hscheduler] using hstopped
    cases henabled : config.enabled
    · simp only [Bool.false_and, Bool.false_eq_true, if_false, hscheduler]
      rw [← hstop]
    · simp [hstopped, SchedulerState.setRunning, hscheduler]
  · show c = g.loadConfig defaults
    rw [hload]
    by_cases hq : q = p
    · subst hq
      replace hc : (SchedulerPoint.load .status).config =
        some c := by rwa [Procs.move_proc_self] at hc
      cases hc
    · rw [Procs.move_proc_ne _ _ hq] at hc
      exact h.loaded q c hc
  · exact absurd ((hnone q).symm.trans hj) (by simp)
  · show g.current ≠ none ∧ g.signature = some (g.loadConfig defaults).signature ∨ _
    rw [hload, hsame.2.1, hsame.2.2]
    refine h.signature.imp_right fun ⟨q, hb⟩ => ⟨q, ?_⟩
    have hq : q ≠ p := by
      rintro rfl
      rw [hp] at hb
      exact hb
    rw [Procs.move_proc_ne _ _ hq]
    exact hb
  · exact hsame.2.1.trans hcurrent
  · show g.isRunning i = (g.loadConfig defaults).enabled
    rw [hload, hrun i, if_pos rfl]

/-- **One step** keeps the scheduler as the configuration asks for it. -/
theorem Scheduled.step (h : Scheduled defaults s) {action : SchedulerAction}
    (hok : Undisturbed (p, action) s) {r : SchedulerState × SchedulerPoint}
    (hr : schedulerNext defaults s.shared p (s.proc p) action = some r) :
    Scheduled defaults (s.move p r) := by
  generalize hpoint : s.proc p = point at hr
  unfold schedulerNext at hr
  split at hr
  case h_1 =>
    rw [← Option.some.inj hr]
    exact h.goes (fun _ hc => (by cases hc)) (congrArg SchedulerPoint.window hpoint).symm
      fun _ => trivial
  case h_2 =>
    rw [← Option.some.inj hr]
    exact h.committed (hok.commit trivial) ⟨rfl, rfl, rfl⟩ (congrArg SchedulerPoint.window hpoint)
  case h_3 patch =>
    split at hr
    · rw [← Option.some.inj hr]
      exact h.goes (fun _ hc => (by cases hc)) (congrArg SchedulerPoint.window hpoint).symm
        fun hb => (by rw [hpoint] at hb; exact hb.elim)
    · split_ifs at hr
      · rw [← Option.some.inj hr]
        exact h.goes (fun _ hc => (by cases hc)) (congrArg SchedulerPoint.window hpoint).symm
          fun hb => (by rw [hpoint] at hb; exact hb.elim)
      · rw [← Option.some.inj hr]
        exact h.committed (hok.commit trivial) ⟨rfl, rfl, rfl⟩
          (congrArg SchedulerPoint.window hpoint)
  case h_4 =>
    rw [← Option.some.inj hr]
    exact h.goes (fun _ hc => (by cases hc)) (congrArg SchedulerPoint.window hpoint).symm fun hb =>
      (by rw [hpoint] at hb; exact hb.elim)
  case h_5 use =>
    rw [← Option.some.inj hr]
    refine h.goes (fun config hc => (Option.some.inj hc).symm) ?_ fun hb => ?_
    · rw [hpoint]
      cases use <;> rfl
    · rw [hpoint] at hb
      cases use <;> first | exact trivial | exact hb.elim
  case h_6 use config =>
    rw [← Option.some.inj hr]
    obtain rfl := h.loaded p config (by rw [hpoint]; rfl)
    cases use with
    | reload =>
      have hothers := hok.build .reload _ hpoint trivial
      rcases SchedulerState.setupScheduler_cases h.tidy true (s.shared.loadConfig defaults) with
        ⟨hforce, -⟩ | hbuilt
      · cases hforce
      · obtain ⟨-, htidy, hcurrent, hsignature, hstored, hrun⟩ := hbuilt
        exact h.built htidy hcurrent hsignature hstored hrun rfl hothers
          (fun j hj => (Option.some.inj hj).symm)
          (Or.inl (by simp [SchedulerPoint.window]))
    | start i => exact h.started hpoint
    | status =>
      rcases SchedulerState.setupScheduler_cases h.tidy false (s.shared.loadConfig defaults) with
        ⟨-, -, -, hkept⟩ | hbuilt
      · show Scheduled defaults (s.move p ((s.shared.setupScheduler false _).1, _))
        rw [hkept]
        exact h.goes (fun _ hc => (by cases hc)) (congrArg SchedulerPoint.window hpoint).symm
          fun hb => (by rw [hpoint] at hb; exact hb.elim)
      · obtain ⟨hdiffers, htidy, hcurrent, hsignature, hstored, hrun⟩ := hbuilt
        have hbuilds := hdiffers.resolve_left (by simp)
        have hothers := hok.build .status _ hpoint hbuilds
        refine h.built htidy hcurrent hsignature hstored hrun rfl hothers
          (fun j hj => (by cases hj)) (Or.inr ?_)
        -- a scheduler with other intervals is one that a reload is about to replace
        rcases h.signature with ⟨hsome, hsig⟩ | ⟨q, hb⟩
        · rcases hbuilds with hnone | hne
          · exact absurd hnone hsome
          · exact absurd hsig hne
        · refine ⟨q, ?_, hb⟩
          rintro rfl
          rw [hpoint] at hb
          exact hb
    | answer i =>
      exact h.goes (fun _ hc => (by cases hc)) (congrArg SchedulerPoint.window hpoint).symm
        fun hb => (by rw [hpoint] at hb; exact hb.elim)
  case h_7 =>
    obtain ⟨hbefore, hwindow⟩ := hok.fail rfl
    rw [← Option.some.inj hr]
    exact h.goes (fun _ hc => (by cases hc)) hwindow.symm fun hb => absurd hb hbefore
  case h_8 =>
    rw [← Option.some.inj hr]
    exact h.goes (fun _ hc => (by cases hc)) (congrArg SchedulerPoint.window hpoint).symm fun hb =>
      (by rw [hpoint] at hb; exact hb.elim)
  case h_9 => cases hr

/-! ### Runs -/

/-- The application starts. -/
structure SchedulerStart (s : Procs P SchedulerPoint SchedulerState) : Prop where
  unbuilt : s.shared.current = none
  empty : s.shared.schedulers = []
  starting : ∃ p, s.proc p = .load .reload
  others : ∀ p, s.proc p = .idle ∨ s.proc p = .load .reload

omit [DecidableEq P] in
theorem SchedulerStart.scheduled (h : SchedulerStart s) : Scheduled defaults s := by
  have hrun : ∀ i, s.shared.isRunning i = false :=
    fun i => by simp [SchedulerState.isRunning, h.empty]
  have hwindow : ∀ p, (s.proc p).window = none := by
    intro p
    rcases h.others p with hp | hp <;> rw [hp] <;> rfl
  have hbefore : ∃ p, (s.proc p).beforeBuild := by
    obtain ⟨p, hp⟩ := h.starting
    exact ⟨p, by rw [hp]; trivial⟩
  refine ⟨⟨fun i hi => absurd hi (by simp [hrun i]), fun i hi => absurd hi (by simp [h.unbuilt])⟩,
    fun p config hc => ?_, fun p i hi => absurd hi (by simp [hwindow p]), fun p _ hp =>
    absurd (hwindow p) hp, Or.inr hbefore, ?_⟩
  · rcases h.others p with hp | hp <;> rw [hp] at hc <;> cases hc
  · obtain ⟨p, hb⟩ := hbefore
    exact Or.inr ⟨p, Or.inl hb⟩

theorem scheduled_of_reach (h : (schedulerRuns defaults SchedulerStart).ReachIf Undisturbed s) :
    Scheduled defaults s := by
  refine Lts.ReachIf.invariant (I := Scheduled defaults)
    (fun {s} (hs : SchedulerStart s) => hs.scheduled) ?_ h
  rintro s ⟨p, action⟩ s' hI hok hst
  obtain ⟨r, hr, rfl⟩ := Procs.step_iff.mp hst
  exact hI.step hok hr

/-- **The scheduler is the one that the configuration asks for** as soon as no change is
under way: it has the jobs of the intervals, it runs if and only if it is enabled, and no
other runs. -/
theorem scheduler_of_reach (h : (schedulerRuns defaults SchedulerStart).ReachIf Undisturbed s)
    (hq : ∀ p, ¬ (s.proc p).beforeBuild ∧ (s.proc p).window = none) :
    ∃ i scheduler, s.shared.current = some i ∧ s.shared.schedulers[i]? = some scheduler ∧
      scheduler.jobs = registerJobs (s.shared.loadConfig defaults).signature ∧
      scheduler.running = (s.shared.loadConfig defaults).enabled ∧
      ∀ j, s.shared.isRunning j = true → j = i := by
  have hI := scheduled_of_reach h
  obtain ⟨-, hsignature⟩ := hI.signature.resolve_right fun ⟨p, hp⟩ => (hq p).1 hp
  obtain ⟨i, hcurrent, hrun⟩ := hI.state.resolve_right fun ⟨p, hp⟩ =>
    hp.elim (hq p).1 fun hw => hw (hq p).2
  obtain ⟨scheduler, signature, hscheduler, hsig, hjobs⟩ := hI.tidy.jobs i hcurrent
  obtain rfl := Option.some.inj (hsignature.symm.trans hsig)
  refine ⟨i, scheduler, hcurrent, hscheduler, hjobs, ?_, fun j hj => ?_⟩
  · simpa [SchedulerState.isRunning, hscheduler] using hrun
  · exact Option.some.inj ((hI.tidy.running j hj).symm.trans hcurrent)

end Runs

/-- The application starts with the process `true`. -/
def firstReload : Procs Bool SchedulerPoint SchedulerState :=
  ⟨⟨some ⟨true, 60, 120⟩, [], none, none⟩, fun p => if p then .load .reload else .idle⟩

theorem schedulerStart_firstReload : SchedulerStart firstReload :=
  ⟨rfl, rfl, ⟨true, rfl⟩, Bool.forall_bool.mpr ⟨Or.inl rfl, Or.inr rfl⟩⟩

/-- The defaults of the settings. -/
def syncDefaults : SchedulerDefaults := ⟨60, 120⟩

/-- The other process rests. -/
def calm (a : Bool × SchedulerAction) (s : Procs Bool SchedulerPoint SchedulerState) : Bool :=
  decide (s.proc (!a.1) = .idle) && match a.2 with
    | .setSchedulerStatus _ | .patchGlobal _ => decide (s.proc a.1 = .idle)
    | .fail => false
    | _ => true

theorem calm_sound {a : Bool × SchedulerAction} {s : Procs Bool SchedulerPoint SchedulerState}
    (h : calm a s = true) : Undisturbed a s := by
  obtain ⟨p, action⟩ := a
  obtain ⟨hother, haction⟩ := (Bool.and_eq_true _ _).mp h
  have hidle : ∀ q, q ≠ p → s.proc q = .idle := by
    intro q hq
    rw [Bool.eq_not_of_ne hq]
    exact of_decide_eq_true hother
  refine ⟨fun use config _ _ q hq => ?_, fun hcommits q => ?_, fun hfail => ?_⟩
  · rw [hidle q hq]
    rfl
  · have hp : s.proc p = .idle := by
      cases action with
      | setSchedulerStatus | patchGlobal => exact of_decide_eq_true haction
      | _ => exact hcommits.elim
    by_cases hq : q = p
    · rw [hq, hp]
      rfl
    · rw [hidle q hq]
      rfl
  · obtain rfl : action = .fail := hfail
    cases haction

/-- One after the other: the start, and a request that switches the scheduler off. -/
def startThenOff : List (Bool × SchedulerAction) :=
  List.replicate 9 (true, .statement) ++ (false, .setSchedulerStatus false) :: List.replicate 9
    (false, .statement)

theorem scheduler_of_reach_off : ∃ s : Procs Bool SchedulerPoint SchedulerState,
    (s.shared.loadConfig syncDefaults).enabled = false ∧ ∃ i scheduler, s.shared.current = some i ∧
      s.shared.schedulers[i]? = some scheduler ∧
      scheduler.jobs = registerJobs (s.shared.loadConfig syncDefaults).signature ∧
      scheduler.running = (s.shared.loadConfig syncDefaults).enabled ∧
      ∀ j, s.shared.isRunning j = true → j = i := by
  have hrun : (Procs.execIf (schedulerNext syncDefaults) calm firstReload startThenOff).map
      (fun s =>
      (s.proc true, s.proc false, (s.shared.loadConfig syncDefaults).enabled)) =
        some (.idle, .idle, false) := by decide +kernel
  obtain ⟨s, hs, hall⟩ := Option.map_eq_some_iff.mp hrun
  obtain ⟨htrue, hrest⟩ := Prod.mk.inj hall
  obtain ⟨hfalse, henabled⟩ := Prod.mk.inj hrest
  have hidle : ∀ p, s.proc p = .idle := Bool.forall_bool.mpr ⟨hfalse, htrue⟩
  refine ⟨s, henabled, scheduler_of_reach
    (Procs.reach_execIf (.start schedulerStart_firstReload) hs fun _ _ _ h => calm_sound h)
    fun p => ?_⟩
  rw [hidle p]
  exact ⟨fun hb => hb, rfl⟩

/-- A second reload builds its scheduler while the first one has one that is not started. -/
def reloadTwice : List (Bool × SchedulerAction) :=
  List.replicate 2 (true, .statement) ++ (false, .setSchedulerStatus true) :: List.replicate 2
    (false, .statement) ++ List.replicate 7 (true, .statement) ++ List.replicate 7
    (false, .statement) ++
    (false, .setSchedulerStatus false) :: List.replicate 9 (false, .statement)

/-- The scheduler is switched off, and the one that the first reload has started goes on. -/
theorem scheduler_left :
    ∃ s : Procs Bool SchedulerPoint SchedulerState,
    (schedulerRuns syncDefaults SchedulerStart).Reach s ∧
    (s.shared.loadConfig syncDefaults).enabled = false ∧ s.shared.isRunning 0 = true ∧
    s.shared.current = some 2 := by
  have hrun : (Procs.exec (schedulerNext syncDefaults) firstReload reloadTwice).map (fun s =>
      ((s.shared.loadConfig syncDefaults).enabled, s.shared.isRunning 0, s.shared.current)) =
          some (false, true, some 2) := by
    decide +kernel
  obtain ⟨s, hs, hall⟩ := Option.map_eq_some_iff.mp hrun
  obtain ⟨henabled, hrest⟩ := Prod.mk.inj hall
  obtain ⟨hrunning, hcurrent⟩ := Prod.mk.inj hrest
  exact ⟨s, Procs.reach_exec (.start schedulerStart_firstReload) hs fun _ _ _ => trivial, henabled,
    hrunning, hcurrent⟩

end Restock
