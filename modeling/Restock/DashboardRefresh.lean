/-
# Refreshing the dashboard (`tasks/jobs/dashboard_snapshot.py`, `api/config.py`)

The payload of the dashboard is stored in a single row and computed by a job. The job
marks the row as refreshing, reads the configuration and computes, and stores the payload
as ready and not stale, each in a transaction of its own. `patch_global` changes the
configuration, and in the same transaction marks the row as stale if one of the sensitive
fields is set to another value than it has read.

Committed changes of sensitive fields are counted (`DashboardTables.version`), and a
payload has the number it was computed from. A row that is ready and not stale has the
payload of the last change as long as no change is committed between the reading of a job
and its writing, every patch that changes a field knows that it does, and no patch that
found no row to mark is committed once there is a payload (`current_of_reach`). A change
between the reading and the writing of a job is lost (`change_lost`).
-/
import Restock.Lib.Processes
import Restock.Lib.ReadCommitted

namespace Restock

open ReadCommitted

/-! ### The configuration -/

/-- The row of `global_config`. -/
structure GlobalConfigRow where
  bufferDays : ℤ
  targetDays : ℤ
  leadTimeDays : ℤ
  safetyStockDays : ℤ
  restockRegions : List String
  euCountries : List String
  syncIntervalMinutes : ℤ
  orderSyncIntervalMinutes : ℤ
  schedulerEnabled : Bool
  shopSyncMode : String
deriving DecidableEq, Repr

/-- A request, after its validators. -/
structure GlobalConfigPatch where
  bufferDays : Option ℤ
  targetDays : Option ℤ
  leadTimeDays : Option ℤ
  safetyStockDays : Option ℤ
  restockRegions : Option (List String)
  euCountries : Option (List String)
  syncIntervalMinutes : Option ℤ
  orderSyncIntervalMinutes : Option ℤ
  schedulerEnabled : Option Bool
  shopSyncMode : Option String
deriving DecidableEq, Repr

/-- The fields of `GLOBAL_CONFIG_SENSITIVE_FIELDS`. -/
structure SensitiveConfig where
  restockRegions : List String
  euCountries : List String
  targetDays : ℤ
  leadTimeDays : ℤ
  bufferDays : ℤ
  safetyStockDays : ℤ
deriving DecidableEq, Repr

/-- The fields whose change makes the snapshot stale. -/
def GlobalConfigRow.sensitive (row : GlobalConfigRow) : SensitiveConfig :=
  ⟨row.restockRegions, row.euCountries, row.targetDays, row.leadTimeDays, row.bufferDays,
    row.safetyStockDays⟩

namespace GlobalConfigPatch

variable (patch : GlobalConfigPatch) (row : GlobalConfigRow)

/-- Nothing is to be updated. -/
def isEmpty : Bool :=
  patch.bufferDays.isNone && patch.targetDays.isNone && patch.leadTimeDays.isNone &&
    patch.safetyStockDays.isNone && patch.restockRegions.isNone && patch.euCountries.isNone &&
    patch.syncIntervalMinutes.isNone &&
    patch.orderSyncIntervalMinutes.isNone && patch.schedulerEnabled.isNone &&
      patch.shopSyncMode.isNone

/-- The target would be less than the lead time. -/
def refused : Bool := patch.targetDays.getD row.targetDays <
    patch.leadTimeDays.getD row.leadTimeDays

def apply : GlobalConfigRow where
  bufferDays := patch.bufferDays.getD row.bufferDays
  targetDays := patch.targetDays.getD row.targetDays
  leadTimeDays := patch.leadTimeDays.getD row.leadTimeDays
  safetyStockDays := patch.safetyStockDays.getD row.safetyStockDays
  restockRegions := patch.restockRegions.getD row.restockRegions
  euCountries := patch.euCountries.getD row.euCountries
  syncIntervalMinutes := patch.syncIntervalMinutes.getD row.syncIntervalMinutes
  orderSyncIntervalMinutes := patch.orderSyncIntervalMinutes.getD row.orderSyncIntervalMinutes
  schedulerEnabled := patch.schedulerEnabled.getD row.schedulerEnabled
  shopSyncMode := patch.shopSyncMode.getD row.shopSyncMode

/-- A sensitive field is set to another value than it has in the row. -/
def changes : Bool :=
  patch.restockRegions.any (row.restockRegions ≠ ·) || patch.euCountries.any
    (row.euCountries ≠ ·) || patch.targetDays.any (row.targetDays ≠ ·) || patch.leadTimeDays.any
    (row.leadTimeDays ≠ ·) ||
    patch.bufferDays.any (row.bufferDays ≠ ·) || patch.safetyStockDays.any (row.safetyStockDays ≠ ·)

variable {patch row}

theorem getD_eq_of_not_any {α : Type} [DecidableEq α] {new : Option α} {old : α}
    (h : (new.any (old ≠ ·)) = false) : new.getD old = old := by
  cases new with
  | none => rfl
  | some v => simpa using (by simpa using h : old = v).symm

/-- A patch that sets no sensitive field to another value leaves them all. -/
theorem sensitive_apply (h : patch.changes row = false) :
    (patch.apply row).sensitive = row.sensitive := by
  simp only [changes, Bool.or_eq_false_iff] at h
  obtain ⟨⟨⟨⟨⟨hregions, heu⟩, htarget⟩, hlead⟩, hbuffer⟩, hsafety⟩ := h
  simp only [GlobalConfigRow.sensitive, apply, getD_eq_of_not_any hregions, getD_eq_of_not_any heu,
    getD_eq_of_not_any htarget, getD_eq_of_not_any hlead, getD_eq_of_not_any hbuffer,
      getD_eq_of_not_any hsafety]

end GlobalConfigPatch

/-! ### The program -/

/-- The status of the dashboard snapshot. -/
inductive SnapshotStatus
  | empty | ready | refreshing | failed
deriving DecidableEq, Repr

/-- A payload is known by the configuration it was computed from, and the number of that. -/
structure StoredPayload where
  config : Option GlobalConfigRow
  asOf : ℕ
deriving DecidableEq, Repr

/-- The row of the dashboard snapshot. -/
structure DashboardSnapshot where
  status : SnapshotStatus
  payload : Option StoredPayload
  stale : Bool
deriving DecidableEq, Repr

/-- The two tables, of one row each, and the number of committed sensitive changes. -/
structure DashboardTables (P : Type) where
  config : Table P Unit GlobalConfigRow
  snapshot : Table P Unit DashboardSnapshot
  version : ℕ

/-- Where a process stands. -/
inductive DashboardPoint
  | idle
  /-- `patch_global` has read the row. -/
  | updating (patch : GlobalConfigPatch) (read : GlobalConfigRow)
  | flagging (patch : GlobalConfigPatch) (read : GlobalConfigRow)
  /-- Before the commit; `missed` if there was no row to be marked. -/
  | patched (missed : Bool)
  /-- `_mark_refreshing`. -/
  | marking
  | marked
  | computing
  /-- `_mark_ready`, with the payload. -/
  | computed (payload : StoredPayload)
  | written
  | finished
  /-- `_mark_failed`. -/
  | failing
  | failed (hasPayload : Bool)
  | failedWritten

/-- An exception goes to `_mark_failed`. -/
def DashboardPoint.tries : DashboardPoint → Bool
  | .computing | .computed _ | .written | .finished => true
  | _ => false

/-- What a process does next. -/
inductive DashboardAction
  | patch (patch : GlobalConfigPatch)
  | refresh
  | statement
  | raise
  | crash

section Refresh

variable {P : Type} [DecidableEq P]

namespace DashboardTables

variable (db : DashboardTables P) (p : P)

/-- The committed sensitive fields. -/
def sensitiveNow : Option SensitiveConfig :=
  (db.config.committed.get? ()).map GlobalConfigRow.sensitive

/-- The payload was computed after the last committed change, from the fields as they are. -/
def Current (payload : StoredPayload) : Prop :=
  payload.asOf = db.version ∧ payload.config.map GlobalConfigRow.sensitive = db.sensitiveNow

/-- A commit counts if it changes a sensitive field. -/
def commit : DashboardTables P where
  config := db.config.commit p
  snapshot := db.snapshot.commit p
  version :=
    if ((db.config.commit p).committed.get? ()).map GlobalConfigRow.sensitive = db.sensitiveNow then
      db.version
    else db.version + 1

def rollback : DashboardTables P :=
  { db with config := db.config.abort p, snapshot := db.snapshot.abort p }

/-- `INSERT … ON CONFLICT (id) DO UPDATE`. -/
def upsert (new : DashboardSnapshot) (set : DashboardSnapshot → DashboardSnapshot) :
    Option (DashboardTables P) :=
  if db.snapshot.free p () then
    some { db with snapshot := db.snapshot.write p () (some (match db.snapshot.view p () with
      | some row => set row
      | none => new)) }
  else none

end DashboardTables

/-- One statement of a patch or of a job. -/
def dashboardNext (db : DashboardTables P) (p : P) (point : DashboardPoint)
    (action : DashboardAction) : Option (DashboardTables P × DashboardPoint) :=
  match action, point with
  | .crash, _ => some (db.rollback p, .idle)
  | .patch patch, .idle =>
    match db.config.view p () with
    | some row =>
      some (db, if patch.isEmpty || patch.refused row then .idle else .updating patch row)
    | none => some (db, .idle)
  | .statement, .updating patch read =>
    (db.config.update p () (fun _ => true) fun row => some (patch.apply row)).map fun config =>
      ({ db with config := config }, .flagging patch read)
  | .statement, .flagging patch read =>
    if patch.changes read then
      -- a row that is not committed yet is not seen
      match db.snapshot.view p () with
      | none => some (db, .patched true)
      | some _ => (db.snapshot.update p () (fun _ => true) fun row => some { row with stale := true }).map fun snapshot =>
          ({ db with snapshot := snapshot }, .patched false)
    else some (db, .patched false)
  | .statement, .patched _ => some (db.commit p, .idle)
  | .refresh, .idle => some (db, .marking)
  | .statement, .marking =>
    (db.upsert p ⟨.refreshing, none, false⟩ fun row => { row with status := .refreshing }).map
      fun db => (db, .marked)
  | .statement, .marked => some (db.commit p, .computing)
  | .statement, .computing => some (db, .computed ⟨db.config.view p (), db.version⟩)
  | .statement, .computed payload =>
    (db.upsert p ⟨.ready, some payload, false⟩ fun _ => ⟨.ready, some payload, false⟩).map fun db =>
      (db, .written)
  | .statement, .written => some (db.commit p, .finished)
  | .statement, .finished => some (db, .idle)
  | .raise, point => if point.tries then some (db.rollback p, .failing) else none
  | .statement, .failing => some (db, .failed ((db.snapshot.view p ()).any (·.payload.isSome)))
  | .statement, .failed hasPayload =>
    (db.upsert p ⟨if hasPayload then .ready else .failed, none, false⟩ fun row =>
      { row with status := if hasPayload then .ready else .failed }).map fun db =>
        (db, .failedWritten)
  | .statement, .failedWritten => some (db.commit p, .idle)
  | _, _ => none

/-- What holds of the committed rows: a payload that is not stale is of the last change. -/
structure DashboardInv (db : DashboardTables P) : Prop where
  config : ∃ row, db.config.committed.get? () = some row
  ready : ∀ row, db.snapshot.committed.get? () = some row → row.status = .ready →
    row.payload.isSome = true
  current : ∀ row payload, db.snapshot.committed.get? () = some row → row.payload = some payload →
    row.stale = false → db.Current payload

/-- Nothing is under way. -/
structure DashboardStart (s : Procs P DashboardPoint (DashboardTables P)) : Prop where
  idle : ∀ p, s.proc p = .idle
  config : s.shared.config.locks = .empty
  snapshot : s.shared.snapshot.locks = .empty
  inv : DashboardInv s.shared

variable (P) in
/-- The orders in which processes may alternate. -/
def dashboardRuns : Lts (Procs P DashboardPoint (DashboardTables P)) (P × DashboardAction) :=
  Procs.runs DashboardStart dashboardNext

/-- The condition on the steps of a run. -/
def DashboardGuarded (a : P × DashboardAction) (s : Procs P DashboardPoint (DashboardTables P)) :
    Prop :=
  match a.2, s.proc a.1 with
  | .statement, .updating patch read =>
    ∀ row, s.shared.config.committed.get? () = some row → patch.changes row = true →
      patch.changes read = true
  | .statement, .patched true =>
    (∀ row, s.shared.snapshot.committed.get? () = some row → row.payload = none) ∧
      ∀ q, s.proc q ≠ .written
  | .statement, .computed payload => payload.asOf = s.shared.version
  | _, _ => True

/-! ### What a statement does -/

variable {db db' : DashboardTables P} {p q : P} {point point' : DashboardPoint}
    {action : DashboardAction}

/-- The points at which the row of the configuration is held. -/
def DashboardPoint.patches : DashboardPoint → Bool
  | .flagging _ _ | .patched _ => true
  | _ => false

/-- The points at which the row of the snapshot may be held. -/
def DashboardPoint.writes : DashboardPoint → Bool
  | .patched _ | .marked | .written | .failedWritten => true
  | _ => false

/-- The points at which nothing is known of the rows. -/
def DashboardPoint.plain : DashboardPoint → Bool
  | .idle | .updating _ _ | .marking | .computing | .finished | .failing => true
  | _ => false

/-- What holds of the snapshot that one at the point will leave. -/
structure DashboardTables.Leaves (db : DashboardTables P) (point : DashboardPoint)
    (row' : DashboardSnapshot) : Prop where
  ready : row'.status = .ready → row'.payload.isSome = true
  keeps : ∀ row, db.snapshot.committed.get? () = some row → row.payload.isSome = true →
    row'.payload.isSome = true
  current : ∀ payload, row'.payload = some payload → row'.stale = false →
    (∃ row, db.snapshot.committed.get? () = some row ∧ row.payload = some payload ∧
      row.stale = false) ∨ (point = .written ∧ db.Current payload)

/-- What holds for a patch or a job at a point. -/
structure DashboardAt (p : P) (point : DashboardPoint) (db : DashboardTables P) : Prop where
  noConfig : point.patches = false → db.config.Unlocked p
  noSnapshot : point.writes = false → db.snapshot.Unlocked p
  leaves : ∀ v, db.snapshot.locks.get? () = some (p, v) → ∃ row', v = some row' ∧
    db.Leaves point row'
  flagging : ∀ patch read, point = .flagging patch read →
    ∃ row, db.config.committed.get? () = some row ∧
    db.config.locks.get? () = some (p, some (patch.apply row)) ∧
    (patch.changes row = true → patch.changes read = true)
  patched : ∀ missed, point = .patched missed → ∃ row row', db.config.committed.get? () = some row ∧
    db.config.locks.get? () = some (p, some row') ∧
      (row'.sensitive ≠ row.sensitive → missed = true ∨
      ∃ snapshot, db.snapshot.locks.get? () = some (p, some snapshot) ∧ snapshot.stale = true) ∧
    (missed = true → db.snapshot.Unlocked p)
  computed : ∀ payload, point = .computed payload → payload.asOf ≤ db.version ∧
    (payload.asOf = db.version → db.Current payload)
  failed : point = .failed true → ∃ row, db.snapshot.committed.get? () = some row ∧
    row.payload.isSome = true

omit [DecidableEq P] in
/-- One who has no row, at a point that says nothing of the rows. -/
theorem DashboardAt.of_unlocked (hc : db.config.Unlocked p) (hs : db.snapshot.Unlocked p)
    (hp : point.patches = false)
      (hcomputed : ∀ payload, point = .computed payload → payload.asOf ≤ db.version ∧
      (payload.asOf = db.version → db.Current payload))
      (hfailed : point = .failed true → ∃ row, db.snapshot.committed.get? () = some row ∧
      row.payload.isSome = true) :
    DashboardAt p point db := by
  refine ⟨fun _ => hc, fun _ => hs, fun v hv => absurd hv (hs () v), fun patch read h => ?_,
    fun missed h => ?_, hcomputed, hfailed⟩
  · rw [h] at hp
    cases hp
  · rw [h] at hp
    cases hp

omit [DecidableEq P] in
theorem DashboardAt.of_plain (hc : db.config.Unlocked p) (hs : db.snapshot.Unlocked p)
    (hp : point.plain = true) : DashboardAt p point db := by
  refine .of_unlocked hc hs ?_ (fun payload h => ?_) fun h => ?_
  · cases point <;> first | rfl | cases hp
  · rw [h] at hp
    cases hp
  · rw [h] at hp
    cases hp

/-- A statement counts a change, or leaves the sensitive fields. -/
inductive DashboardTables.Counts (db db' : DashboardTables P) : Prop
  | same : db'.version = db.version → db'.sensitiveNow = db.sensitiveNow → Counts db db'
  | change : db'.version = db.version + 1 → Counts db db'

omit [DecidableEq P] in
theorem DashboardTables.Counts.computed (h : db.Counts db') {payload : StoredPayload}
    (hle : payload.asOf ≤ db.version) (hcur : payload.asOf = db.version → db.Current payload) :
    payload.asOf ≤ db'.version ∧ (payload.asOf = db'.version → db'.Current payload) := by
  cases h with
  | same hv hs =>
    rw [hv]
    refine ⟨hle, fun he => ⟨he.trans hv.symm, ?_⟩⟩
    rw [hs]
    exact (hcur he).2
  | change hv =>
    refine ⟨by omega, fun he => ?_⟩
    omega

theorem DashboardTables.counts_commit (db : DashboardTables P) (p : P) :
    db.Counts (db.commit p) := by
  by_cases h : ((db.config.commit p).committed.get? ()).map GlobalConfigRow.sensitive =
    db.sensitiveNow
  · exact .same (if_pos h) h
  · exact .change (if_neg h)

/-- The rows that others hold, and what they know. -/
theorem DashboardAt.other (hq : DashboardAt q point db) (hne : q ≠ p)
    (hc : Table.Moves p db.config db'.config) (hs : Table.Moves p db.snapshot db'.snapshot)
    (hcounts : db.Counts db')
    (hwritten : ∀ v, point = .written → db.snapshot.locks.get? () = some (q, v) →
      db'.version = db.version)
      (hkeeps : ∀ row, db.snapshot.committed.get? () = some row → row.payload.isSome = true →
      ∃ row', db'.snapshot.committed.get? () = some row' ∧ row'.payload.isSome = true) : DashboardAt
      q point db' where
  noConfig h := hc.unlocked_other hne (hq.noConfig h)
  noSnapshot h := hs.unlocked_other hne (hq.noSnapshot h)
  leaves v hv := by
    have hv' := (hs.held_other hne).mp hv
    have hcom := hs.committed_of_held hne hv'
    obtain ⟨row', hrow', hleaves⟩ := hq.leaves v hv'
    refine ⟨row', hrow', hleaves.ready, fun row hrow => hleaves.keeps row (hcom ▸ hrow),
      fun payload hp hst => ?_⟩
    rcases hleaves.current payload hp hst with ⟨row, hrow, hsame⟩ | ⟨hpoint, hcur⟩
    · exact Or.inl ⟨row, hcom.trans hrow, hsame⟩
    · have hver := hwritten v hpoint hv'
      refine Or.inr ⟨hpoint, hcur.1.trans hver.symm, ?_⟩
      cases hcounts with
      | same _ hsens => exact hcur.2.trans hsens.symm
      | change hchange => omega
  flagging patch read h := by
    obtain ⟨row, hrow, hlock, hknows⟩ := hq.flagging patch read h
    exact ⟨row, (hc.committed_of_held hne hlock).trans hrow, (hc.held_other hne).mpr hlock, hknows⟩
  patched missed h := by
    obtain ⟨row, row', hrow, hlock, hmarks, hmissed⟩ := hq.patched missed h
    refine ⟨row, row', (hc.committed_of_held hne hlock).trans hrow, (hc.held_other hne).mpr hlock,
      fun hd => ?_, fun hm => hs.unlocked_other hne (hmissed hm)⟩
    rcases hmarks hd with hm | ⟨snapshot, hsnap, hstale⟩
    · exact Or.inl hm
    · exact Or.inr ⟨snapshot, (hs.held_other hne).mpr hsnap, hstale⟩
  computed payload h := hcounts.computed (hq.computed payload h).1 (hq.computed payload h).2
  failed h := by
    obtain ⟨row, hrow, hsome⟩ := hq.failed h
    exact hkeeps row hrow hsome

/-! ### Committing -/

/-- A commit that changes a sensitive field has marked the snapshot, or found none. -/
theorem DashboardAt.commit_change (hat : DashboardAt p point db)
    (hp : ∀ patch read, point ≠ .flagging patch read)
      (hchange : (db.commit p).version = db.version + 1) : point = .patched true ∨
      ∃ snapshot, db.snapshot.locks.get? () = some (p, some snapshot) ∧ snapshot.stale = true := by
  have hdiff : ((db.config.commit p).committed.get? ()).map GlobalConfigRow.sensitive ≠
      db.sensitiveNow := by
    intro h
    have hsame : (db.commit p).version = db.version := if_pos h
    omega
  cases hpatches : point.patches with
  | false =>
    rw [Table.commit_eq_self (hat.noConfig hpatches)] at hdiff
    exact absurd rfl hdiff
  | true =>
    cases point with
    | flagging patch read => exact absurd rfl (hp patch read)
    | patched missed =>
      obtain ⟨row, row', hrow, hlock, hmarks, -⟩ := hat.patched missed rfl
      rw [Table.get?_commit, Table.view_of_held hlock, DashboardTables.sensitiveNow, hrow] at hdiff
      rcases hmarks fun h => hdiff (congrArg some h) with hm | hm
      · exact Or.inl (congrArg _ hm)
      · exact Or.inr hm
    | _ => cases hpatches

/-- A commit keeps what holds of the rows. -/
theorem DashboardAt.commit_inv (hat : DashboardAt p point db) (hI : DashboardInv db)
    (hp : ∀ patch read, point ≠ .flagging patch read)
    (hmissed : point = .patched true → ∀ row, db.snapshot.committed.get? () = some row →
      row.payload = none) :
    DashboardInv (db.commit p) where
  config := by
    have hget : (db.config.commit p).committed.get? () = db.config.view p () :=
      Table.get?_commit _ _ _
    show ∃ row, (db.config.commit p).committed.get? () = some row
    rw [hget]
    rcases Table.view_cases db.config p () with hheld | ⟨-, hsame⟩
    · cases hpatches : point.patches with
      | false => exact absurd hheld (hat.noConfig hpatches () _)
      | true =>
        cases point with
        | flagging patch read => exact absurd rfl (hp patch read)
        | patched missed =>
          obtain ⟨-, row', -, hlock, -⟩ := hat.patched missed rfl
          exact ⟨row', Table.view_of_held hlock⟩
        | _ => cases hpatches
    · rw [hsame]
      exact hI.config
  ready row hrow := by
    have hrow' : db.snapshot.view p () = some row := (Table.get?_commit _ _ _).symm.trans hrow
    rcases Table.view_cases db.snapshot p () with hheld | ⟨-, hsame⟩
    · rw [hrow'] at hheld
      obtain ⟨row', he, hleaves⟩ := hat.leaves _ hheld
      rw [Option.some.inj he]
      exact hleaves.ready
    · exact hI.ready row (hsame.symm.trans hrow')
  current row payload hrow hpayload hstale := by
    have hrow' : db.snapshot.view p () = some row := (Table.get?_commit _ _ _).symm.trans hrow
    rcases db.counts_commit p with ⟨hver, hsens⟩ | hchange
    · have htransfer : db.Current payload → (db.commit p).Current payload :=
        fun h => ⟨h.1.trans hver.symm, h.2.trans hsens.symm⟩
      apply htransfer
      rcases Table.view_cases db.snapshot p () with hheld | ⟨-, hsame⟩
      · rw [hrow'] at hheld
        obtain ⟨row', he, hleaves⟩ := hat.leaves _ hheld
        obtain rfl := Option.some.inj he
        rcases hleaves.current payload hpayload hstale with
          ⟨row₀, hrow₀, hpayload₀, hstale₀⟩ | ⟨-, hcur⟩
        · exact hI.current row₀ payload hrow₀ hpayload₀ hstale₀
        · exact hcur
      · exact hI.current row payload (hsame.symm.trans hrow') hpayload hstale
    · rcases hat.commit_change hp hchange with hpoint | ⟨snapshot, hlock, hst⟩
      · -- there is no payload yet
        obtain ⟨-, -, -, -, -, hnone⟩ := hat.patched true hpoint
        rw [(hnone rfl).view] at hrow'
        rw [hmissed hpoint row hrow'] at hpayload
        cases hpayload
      · -- the snapshot is marked
        rw [Table.view_of_held hlock] at hrow'
        rw [← Option.some.inj hrow', hst] at hstale
        cases hstale

theorem DashboardAt.commit_keeps (hat : DashboardAt p point db) {row : DashboardSnapshot}
    (hrow : db.snapshot.committed.get? () = some row) (hsome : row.payload.isSome = true) :
    ∃ row', (db.commit p).snapshot.committed.get? () = some row' ∧ row'.payload.isSome = true := by
  have hget : (db.commit p).snapshot.committed.get? () = db.snapshot.view p () :=
    Table.get?_commit _ _ _
  rw [hget]
  rcases Table.view_cases db.snapshot p () with hheld | ⟨-, hsame⟩
  · obtain ⟨row', hv, hleaves⟩ := hat.leaves _ hheld
    exact ⟨row', hv, hleaves.keeps row hrow hsome⟩
  · exact ⟨row, hsame.trans hrow, hsome⟩

/-! ### Every statement -/

/-- The effect of a statement on the tables: a commit, or the committed rows stay. -/
inductive DashboardEffect (db : DashboardTables P) (p : P) (point : DashboardPoint)
    (action : DashboardAction) (db' : DashboardTables P) : Prop
  | commit : action = .statement → db' = db.commit p →
      (∀ patch read, point ≠ .flagging patch read) → DashboardEffect db p point action db'
  | keeps : Table.Moves p db.config db'.config → Table.Moves p db.snapshot db'.snapshot →
      db'.config.committed = db.config.committed → db'.snapshot.committed = db.snapshot.committed →
      db'.version = db.version → DashboardEffect db p point action db'

/-- An upsert by one who does not have the row. -/
theorem upsert_cases {new : DashboardSnapshot} {set : DashboardSnapshot → DashboardSnapshot}
    (hs : db.snapshot.Unlocked p) (h : db.upsert p new set = some db') :
    ∃ row', db' = { db with snapshot := db.snapshot.write p () (some row') } ∧
      db.snapshot.free p () = true ∧
        ((∃ row, db.snapshot.committed.get? () = some row ∧ row' = set row) ∨
        (db.snapshot.committed.get? () = none ∧ row' = new)) := by
  unfold DashboardTables.upsert at h
  split_ifs at h with hfree
  rw [hs.view] at h
  cases hcom : db.snapshot.committed.get? () with
  | some row =>
    rw [hcom] at h
    exact ⟨set row, (Option.some.inj h).symm, hfree, Or.inl ⟨row, rfl, rfl⟩⟩
  | none =>
    rw [hcom] at h
    exact ⟨new, (Option.some.inj h).symm, hfree, Or.inr ⟨rfl, rfl⟩⟩

omit [DecidableEq P] in
/-- After the row of the snapshot is written by a job. -/
theorem DashboardAt.wrote {row' : DashboardSnapshot} (hc : db.config.Unlocked p)
    (hp : point'.patches = false) (hw : point'.writes = true) (hleaves : db.Leaves point' row') :
    DashboardAt p point' { db with snapshot := db.snapshot.write p () (some row') } where
  noConfig _ := hc
  noSnapshot h := by
    rw [hw] at h
    cases h
  leaves v hv := by
    have hlock : (db.snapshot.write p () (some row')).locks.get? () = some (p, v) := hv
    rw [Table.get?_locks_write, if_pos rfl] at hlock
    exact ⟨row', (Prod.mk.inj (Option.some.inj hlock)).2.symm, hleaves.ready, hleaves.keeps,
      hleaves.current⟩
  flagging patch read h := by
    rw [h] at hp
    cases hp
  patched missed h := by
    rw [h] at hp
    cases hp
  computed payload h := by
    rw [h] at hw
    cases hw
  failed h := by
    rw [h] at hw
    cases hw

omit [DecidableEq P] in
/-- A status that is set beside the payload and the mark that are there. -/
theorem leaves_status {row' : DashboardSnapshot} {status : SnapshotStatus}
    (hrow : (∃ row, db.snapshot.committed.get? () = some row ∧
      row' = { row with status := status }) ∨
      (db.snapshot.committed.get? () = none ∧ row' = ⟨status, none, false⟩))
      (hready : status = .ready → ∃ row, db.snapshot.committed.get? () = some row ∧
      row.payload.isSome = true) :
    db.Leaves point' row' := by
  rcases hrow with ⟨row, hrow, rfl⟩ | ⟨hnone, rfl⟩
  · refine ⟨fun h => ?_, fun row₁ hrow₁ h => ?_, fun payload hp hst => Or.inl ⟨row, hrow, hp, hst⟩⟩
    · obtain ⟨row₁, hrow₁, hsome⟩ := hready h
      obtain rfl := Option.some.inj (hrow.symm.trans hrow₁)
      exact hsome
    · obtain rfl := Option.some.inj (hrow.symm.trans hrow₁)
      exact h
  · refine ⟨fun h => ?_, fun row₁ hrow₁ => ?_, fun payload hp => ?_⟩
    · obtain ⟨row₁, hrow₁, -⟩ := hready h
      rw [hnone] at hrow₁
      cases hrow₁
    · rw [hnone] at hrow₁
      cases hrow₁
    · cases hp

theorem DashboardEffect.pass : DashboardEffect db p point action db :=
  .keeps .same .same rfl rfl rfl

theorem DashboardEffect.quit : DashboardEffect db p point action (db.rollback p) :=
  .keeps .abort .abort rfl rfl rfl

theorem DashboardEffect.wrote {row' : DashboardSnapshot} (hfree : db.snapshot.free p () = true) :
    DashboardEffect db p point action { db with snapshot := db.snapshot.write p () (some row') } :=
  .keeps .same (.write hfree) rfl rfl rfl

/-- The `UPDATE` of the configuration. -/
theorem DashboardAt.updated {patch : GlobalConfigPatch} {read : GlobalConfigRow}
    {config : Table P Unit GlobalConfigRow} (hI : DashboardInv db)
    (hat : DashboardAt p (.updating patch read) db)
    (hknows : ∀ row, db.config.committed.get? () = some row → patch.changes row = true →
    patch.changes read = true)
    (hu : db.config.update p () (fun _ => true) (fun row => some (patch.apply row)) = some config) :
    DashboardAt p (.flagging patch read) { db with config := config } ∧
      DashboardEffect db p (.updating patch read) action { db with config := config } := by
  obtain ⟨row, hrow⟩ := hI.config
  have hview : db.config.view p () = some row := ((hat.noConfig rfl).view ()).trans hrow
  have hs := hat.noSnapshot rfl
  obtain ⟨hfree, ⟨row₁, hrow₁, -, rfl⟩ | ⟨hnone, -⟩⟩ := Table.update_cases hu
  · obtain rfl := Option.some.inj (hview.symm.trans hrow₁)
    refine ⟨⟨(nomatch ·), fun _ => hs, fun v hv => absurd hv (hs () v), fun patch' read' h => ?_,
      (fun _ h => nomatch h), (fun _ h => nomatch h), (nomatch ·)⟩,
      .keeps (.write hfree) .same rfl rfl rfl⟩
    obtain ⟨rfl, rfl⟩ := DashboardPoint.flagging.inj h
    refine ⟨row, hrow, ?_, hknows row hrow⟩
    show (db.config.write p () (some (patch.apply row))).locks.get? () = _
    rw [Table.get?_locks_write, if_pos rfl]
  · cases hnone row hview

omit [DecidableEq P] in
/-- A patch before its commit. -/
theorem DashboardAt.of_patched {missed : Bool}
    (hleaves : ∀ v, db.snapshot.locks.get? () = some (p, v) → ∃ row', v = some row' ∧
      db.Leaves (.patched missed) row')
    (hpatched : ∃ row row', db.config.committed.get? () = some row ∧
      db.config.locks.get? () = some (p, some row') ∧
        (row'.sensitive ≠ row.sensitive → missed = true ∨
        ∃ snapshot, db.snapshot.locks.get? () = some (p, some snapshot) ∧ snapshot.stale = true) ∧
      (missed = true → db.snapshot.Unlocked p)) : DashboardAt p (.patched missed) db := by
  refine ⟨(nomatch ·), (nomatch ·), hleaves, (fun _ _ h => nomatch h), fun missed' h => ?_,
    (fun _ h => nomatch h), (nomatch ·)⟩
  obtain rfl := DashboardPoint.patched.inj h
  exact hpatched

/-- The mark on the snapshot, where one is due. -/
theorem DashboardAt.flagged {patch : GlobalConfigPatch} {read : GlobalConfigRow}
    {r : DashboardTables P × DashboardPoint} (hat : DashboardAt p (.flagging patch read) db)
    (hI : DashboardInv db) (h : dashboardNext db p (.flagging patch read) .statement = some r) :
    DashboardAt p r.2 r.1 ∧ DashboardEffect db p (.flagging patch read) .statement r.1 := by
  obtain ⟨row, hrow, hlock, hknows⟩ := hat.flagging patch read rfl
  have hs : db.snapshot.Unlocked p := hat.noSnapshot rfl
  simp only [dashboardNext] at h
  split at h
  · split at h
    · -- no snapshot to be marked
      rw [← Option.some.inj h]
      refine ⟨.of_patched (fun v hv => absurd hv (hs () v)) ?_, .pass⟩
      exact ⟨row, _, hrow, hlock, fun _ => Or.inl rfl, fun _ => hs⟩
    · rename_i row₁ hview
      obtain ⟨snapshot, hu, rfl⟩ := Option.map_eq_some_iff.mp h
      rw [hs.view] at hview
      obtain ⟨hfree, ⟨row₂, hrow₂, -, rfl⟩ | ⟨hnone, -⟩⟩ := Table.update_cases hu
      · rw [hs.view, hview] at hrow₂
        obtain rfl := Option.some.inj hrow₂
        have hmine : (db.snapshot.write p () (some { row₁ with stale := true })).locks.get? () =
            some (p, some { row₁ with stale := true }) := by rw [Table.get?_locks_write, if_pos rfl]
        refine ⟨.of_patched (fun v hv => ?_) ?_, .keeps .same (.write hfree) rfl rfl rfl⟩
        · refine ⟨_, (Prod.mk.inj (Option.some.inj (hmine.symm.trans hv))).2.symm, ?_, ?_,
            fun _ _ hst => ?_⟩
          · exact hI.ready row₁ hview
          · intro row₃ hrow₃ hsome
            obtain rfl := Option.some.inj (hview.symm.trans hrow₃)
            exact hsome
          · cases hst
        · exact ⟨row, _, hrow, hlock, fun _ => Or.inr ⟨_, hmine, rfl⟩, fun h => by cases h⟩
      · cases hnone row₁ ((hs.view ()).trans hview)
  · rename_i hsame
    rw [← Option.some.inj h]
    refine ⟨.of_patched (fun v hv => absurd hv (hs () v)) ?_, .pass⟩
    have hkept : patch.changes row = false := by
      rw [Bool.eq_false_iff]
      exact fun hc => hsame (hknows hc)
    exact ⟨row, _, hrow, hlock, fun hd => absurd (GlobalConfigPatch.sensitive_apply hkept) hd,
      fun _ => hs⟩

/-- **Every statement**: what holds after it for the one who ran it, and what it does to
the tables. -/
theorem dashboardNext_spec {r : DashboardTables P × DashboardPoint} (hI : DashboardInv db)
    (hat : DashboardAt p point db)
      (hknows : ∀ patch read, point = .updating patch read → action = .statement →
      ∀ row, db.config.committed.get? () = some row → patch.changes row = true →
      patch.changes read = true)
    (hfresh : ∀ payload, point = .computed payload → action = .statement →
      payload.asOf = db.version)
    (h : dashboardNext db p point action = some r) : DashboardAt p r.2 r.1 ∧
    DashboardEffect db p point action r.1 := by
  have hidle : ∀ {point' : DashboardPoint}, point.patches = false → point.writes = false →
      point'.plain = true → DashboardAt p point' db :=
      fun hp hw hp' => .of_plain (hat.noConfig hp) (hat.noSnapshot hw) hp'
  unfold dashboardNext at h
  split at h
  case h_1 =>
    rw [← Option.some.inj h]
    exact ⟨.of_plain (Table.unlocked_abort _ p) (Table.unlocked_abort _ p) rfl, .quit⟩
  case h_2 patch =>
    split at h
    · rw [← Option.some.inj h]
      split
      · exact ⟨hidle rfl rfl rfl, .pass⟩
      · exact ⟨hidle rfl rfl rfl, .pass⟩
    · rw [← Option.some.inj h]
      exact ⟨hidle rfl rfl rfl, .pass⟩
  case h_3 patch read =>
    obtain ⟨config, hu, rfl⟩ := Option.map_eq_some_iff.mp h
    exact hat.updated hI (hknows patch read rfl rfl) hu
  case h_4 patch read => exact hat.flagged hI h
  case h_5 missed =>
    rw [← Option.some.inj h]
    exact ⟨.of_plain (Table.unlocked_commit _ p) (Table.unlocked_commit _ p) rfl,
      .commit rfl rfl fun _ _ h => nomatch h⟩
  case h_6 =>
    rw [← Option.some.inj h]
    exact ⟨hidle rfl rfl rfl, .pass⟩
  case h_7 =>
    obtain ⟨db', hu, rfl⟩ := Option.map_eq_some_iff.mp h
    obtain ⟨row', rfl, hfree, hrow⟩ := upsert_cases (hat.noSnapshot rfl) hu
    exact ⟨.wrote (hat.noConfig rfl) rfl rfl (leaves_status hrow (nomatch ·)), .wrote hfree⟩
  case h_8 =>
    rw [← Option.some.inj h]
    exact ⟨.of_plain (Table.unlocked_commit _ p) (Table.unlocked_commit _ p) rfl,
      .commit rfl rfl fun _ _ h => nomatch h⟩
  case h_9 =>
    rw [← Option.some.inj h]
    refine ⟨.of_unlocked (hat.noConfig rfl) (hat.noSnapshot rfl) rfl (fun payload hp => ?_)
      (fun h => nomatch h), .pass⟩
    obtain rfl := DashboardPoint.computed.inj hp
    refine ⟨le_rfl, fun _ => ⟨rfl, ?_⟩⟩
    show (db.config.view p ()).map GlobalConfigRow.sensitive = _
    rw [(hat.noConfig rfl).view]
    rfl
  case h_10 payload =>
    obtain ⟨db', hu, rfl⟩ := Option.map_eq_some_iff.mp h
    obtain ⟨row', rfl, hfree, hrow⟩ := upsert_cases (hat.noSnapshot rfl) hu
    have hnew : row' = ⟨.ready, some payload, false⟩ := by
      rcases hrow with ⟨-, -, he⟩ | ⟨-, he⟩
      · exact he
      · exact he
    subst hnew
    have hcur : db.Current payload := (hat.computed payload rfl).2 (hfresh payload rfl rfl)
    refine ⟨.wrote (hat.noConfig rfl) rfl rfl
      ⟨fun _ => rfl, fun _ _ _ => rfl, fun payload' hp _ => ?_⟩, .wrote hfree⟩
    rw [← Option.some.inj hp]
    exact Or.inr ⟨rfl, hcur⟩
  case h_11 =>
    rw [← Option.some.inj h]
    exact ⟨.of_plain (Table.unlocked_commit _ p) (Table.unlocked_commit _ p) rfl,
      .commit rfl rfl fun _ _ h => nomatch h⟩
  case h_12 =>
    rw [← Option.some.inj h]
    exact ⟨hidle rfl rfl rfl, .pass⟩
  case h_13 =>
    split_ifs at h
    rw [← Option.some.inj h]
    exact ⟨.of_plain (Table.unlocked_abort _ p) (Table.unlocked_abort _ p) rfl, .quit⟩
  case h_14 =>
    rw [← Option.some.inj h]
    refine ⟨.of_unlocked (hat.noConfig rfl) (hat.noSnapshot rfl) rfl (fun _ h => nomatch h)
      fun hf => ?_, .pass⟩
    have hany := DashboardPoint.failed.inj hf
    rw [(hat.noSnapshot rfl).view, Option.any_eq_true] at hany
    exact hany
  case h_15 hasPayload =>
    obtain ⟨db', hu, rfl⟩ := Option.map_eq_some_iff.mp h
    obtain ⟨row', rfl, hfree, hrow⟩ := upsert_cases (hat.noSnapshot rfl) hu
    refine ⟨.wrote (hat.noConfig rfl) rfl rfl (leaves_status hrow fun hs => ?_), .wrote hfree⟩
    cases hasPayload with
    | true => exact hat.failed rfl
    | false => cases hs
  case h_16 =>
    rw [← Option.some.inj h]
    exact ⟨.of_plain (Table.unlocked_commit _ p) (Table.unlocked_commit _ p) rfl,
      .commit rfl rfl fun _ _ h => nomatch h⟩
  case h_17 => cases h

/-! ### Runs -/

variable {s : Procs P DashboardPoint (DashboardTables P)}

omit [DecidableEq P] in
theorem DashboardGuarded.knows (h : DashboardGuarded (p, action) s) {patch : GlobalConfigPatch}
    {read : GlobalConfigRow} (hp : s.proc p = .updating patch read) (ha : action = .statement) :
    ∀ row, s.shared.config.committed.get? () = some row → patch.changes row = true →
    patch.changes read = true := by
  unfold DashboardGuarded at h
  rw [hp, ha] at h
  exact h

omit [DecidableEq P] in
theorem DashboardGuarded.fresh (h : DashboardGuarded (p, action) s) {payload : StoredPayload}
    (hp : s.proc p = .computed payload) (ha : action = .statement) :
    payload.asOf = s.shared.version := by
  unfold DashboardGuarded at h
  rw [hp, ha] at h
  exact h

omit [DecidableEq P] in
theorem DashboardGuarded.missed (h : DashboardGuarded (p, action) s) (hp : s.proc p = .patched true)
    (ha : action = .statement) :
    (∀ row, s.shared.snapshot.committed.get? () = some row → row.payload = none) ∧
    ∀ q, s.proc q ≠ .written := by
  unfold DashboardGuarded at h
  rw [hp, ha] at h
  exact h

theorem dashboardNext_own {a : DashboardAction} {r : DashboardTables P × DashboardPoint}
    (hI : DashboardInv s.shared) (hat : DashboardAt p (s.proc p) s.shared)
    (hok : DashboardGuarded (p, a) s) (h : dashboardNext s.shared p (s.proc p) a = some r) :
    DashboardInv r.1 ∧ DashboardAt p r.2 r.1 := by
  obtain ⟨hat', heffect⟩ := dashboardNext_spec hI hat (fun patch read hp ha => hok.knows hp ha)
    (fun payload hp ha => hok.fresh hp ha) h
  refine ⟨?_, hat'⟩
  cases heffect with
  | commit ha hdb hflag =>
    rw [hdb]
    exact hat.commit_inv hI hflag fun hp => (hok.missed hp ha).1
  | keeps _ _ hc hs hv =>
    have hsens : r.1.sensitiveNow =
      s.shared.sensitiveNow := by simp only [DashboardTables.sensitiveNow, hc]
    refine ⟨hc ▸ hI.config, hs ▸ hI.ready, fun row payload hrow hp hst => ?_⟩
    have hcur := hI.current row payload (hs ▸ hrow) hp hst
    exact ⟨hcur.1.trans hv.symm, hcur.2.trans hsens.symm⟩

theorem dashboardNext_other {a : DashboardAction} {r : DashboardTables P × DashboardPoint}
    (hI : DashboardInv s.shared) (hAt : ∀ q, DashboardAt q (s.proc q) s.shared)
    (hok : DashboardGuarded (p, a) s) (h : dashboardNext s.shared p (s.proc p) a = some r)
    (hne : q ≠ p) : DashboardAt q (s.proc q) r.1 := by
  obtain ⟨-, heffect⟩ := dashboardNext_spec hI (hAt p) (fun patch read hp ha => hok.knows hp ha)
    (fun payload hp ha => hok.fresh hp ha) h
  cases heffect with
  | commit ha hdb hflag =>
    rw [hdb]
    refine (hAt q).other hne .commit .commit (s.shared.counts_commit p) (fun v hwritten hlock => ?_)
      fun row hrow hsome => (hAt p).commit_keeps hrow hsome
    rcases s.shared.counts_commit p with ⟨hver, -⟩ | hchange
    · exact hver
    · -- the one who commits has the snapshot, or there is no one about to write a payload
      rcases (hAt p).commit_change hflag hchange with hmissed | ⟨snapshot, hmine, -⟩
      · exact absurd hwritten ((hok.missed hmissed ha).2 q)
      · rw [hlock] at hmine
        exact absurd (Prod.mk.inj (Option.some.inj hmine)).1 hne
  | keeps hc hs hcom hsnap hver =>
    have hsens : r.1.sensitiveNow =
      s.shared.sensitiveNow := by simp only [DashboardTables.sensitiveNow, hcom]
    exact (hAt q).other hne hc hs (.same hver hsens) (fun _ _ _ => hver) fun row hrow hsome =>
      ⟨row, hsnap ▸ hrow, hsome⟩

/-- **No invalidation is lost**: in every state reached a snapshot that is ready and not
stale has a payload that was computed after the last committed change of a sensitive
field, from the values those fields still have. -/
theorem current_of_reach (h : (dashboardRuns P).ReachIf DashboardGuarded s)
    {row : DashboardSnapshot} (hrow : s.shared.snapshot.committed.get? () = some row)
    (hready : row.status = .ready) (hstale : row.stale = false) :
    ∃ payload, row.payload = some payload ∧ payload.asOf = s.shared.version ∧
      payload.config.map GlobalConfigRow.sensitive = s.shared.sensitiveNow := by
  have hinv := Procs.invariant (I := DashboardInv) (Q := DashboardAt)
    (fun {t} (h0 : DashboardStart t) => ⟨h0.inv, fun p => by
      rw [h0.idle p]
      refine .of_plain (fun k v hv => ?_) (fun k v hv => ?_) rfl
      · rw [h0.config] at hv
        cases hv
      · rw [h0.snapshot] at hv
        cases hv⟩)
    (fun hI hAt hok hr => dashboardNext_own hI (hAt _) hok hr)
    (fun hI hAt hok hr hne => dashboardNext_other hI hAt hok hr hne) h
  obtain ⟨payload, hpayload⟩ := Option.isSome_iff_exists.mp (hinv.1.ready row hrow hready)
  exact ⟨payload, hpayload, hinv.1.current row payload hrow hpayload hstale⟩

end Refresh

/-! ### Two runs -/

def defaultConfig : GlobalConfigRow := ⟨30, 60, 50, 15, [], [], 60, 120, true, "all"⟩

/-- The target is set to ninety days. -/
def longerTarget : GlobalConfigPatch :=
  ⟨none, some 90, none, none, none, none, none, none, none, none⟩

/-- The configuration of a fresh installation, without a snapshot. -/
def freshTables : Procs Bool DashboardPoint (DashboardTables Bool) :=
  ⟨⟨⟨.set .empty () defaultConfig, .empty⟩, ⟨.empty, .empty⟩, 0⟩, fun _ => .idle⟩

theorem dashboardStart_freshTables : DashboardStart freshTables :=
  ⟨fun _ => rfl, rfl, rfl, ⟨defaultConfig, rfl⟩, (fun _ h => nomatch h), (fun _ _ h => nomatch h)⟩

/-- A patch that sets the target, with nothing between its statements. -/
def patches (p : Bool) : List (Bool × DashboardAction) :=
  [(p, .patch longerTarget), (p, .statement), (p, .statement), (p, .statement)]

/-- A patch finds its row as it has read it and marks a snapshot, and a payload is of the
last change. -/
def freshStep (a : Bool × DashboardAction) (s : Procs Bool DashboardPoint (DashboardTables Bool)) :
    Bool :=
  match s.proc a.1 with
  | .updating _ read => s.shared.config.committed.get? () = some read
  | .patched true => false
  | .computed payload => payload.asOf = s.shared.version
  | _ => true

theorem freshStep_spec {a : Bool × DashboardAction}
    {s : Procs Bool DashboardPoint (DashboardTables Bool)} (h : freshStep a s = true) :
    DashboardGuarded a s := by
  unfold freshStep at h
  unfold DashboardGuarded
  split
  · rename_i patch read _ hp
    rw [hp] at h
    intro row hrow hc
    rw [of_decide_eq_true h] at hrow
    rw [Option.some.inj hrow]
    exact hc
  · rename_i hp
    rw [hp] at h
    cases h
  · rename_i payload _ hp
    rw [hp] at h
    exact of_decide_eq_true h
  · trivial

/-- A refresh, a patch and another refresh: the snapshot has the new target. -/
theorem current_of_reach_refreshed :
    ∃ (s : Procs Bool DashboardPoint (DashboardTables Bool)) (row : DashboardSnapshot),
    (dashboardRuns Bool).ReachIf DashboardGuarded s ∧ s.shared.version = 1 ∧
    s.shared.snapshot.committed.get? () = some row ∧ row.status = .ready ∧ row.stale = false ∧
      ∃ payload, row.payload = some payload ∧ payload.asOf = 1 ∧
      payload.config.map GlobalConfigRow.sensitive = s.shared.sensitiveNow := by
  have hrun : (Procs.execIf dashboardNext freshStep freshTables
      ([(true, DashboardAction.refresh)] ++ List.replicate 6 (true, DashboardAction.statement) ++
        patches false ++ [(true, DashboardAction.refresh)] ++ List.replicate 6
        (true, DashboardAction.statement))).map (fun s =>
        (s.shared.version, s.shared.snapshot.committed.get? ())) =
      some (1, some ⟨.ready, some ⟨some (longerTarget.apply defaultConfig), 1⟩, false⟩) := by
        decide +kernel
  obtain ⟨s, hs, hall⟩ := Option.map_eq_some_iff.mp hrun
  obtain ⟨hversion, hrow⟩ := Prod.mk.inj hall
  have hreach : (dashboardRuns Bool).ReachIf DashboardGuarded s :=
    Procs.reach_execIf (.start dashboardStart_freshTables) hs fun a _ s hc => freshStep_spec hc
  obtain ⟨payload, hpayload, hasOf, hvalues⟩ := current_of_reach hreach hrow rfl rfl
  exact ⟨s, _, hreach, hversion, hrow, rfl, rfl, payload, hpayload, hasOf.trans hversion, hvalues⟩

/-- The target is changed while a job computes: the job stores its payload as not stale. -/
theorem change_lost : ∃ (s : Procs Bool DashboardPoint (DashboardTables Bool)) (row : DashboardSnapshot)
    (payload : StoredPayload), (dashboardRuns Bool).Reach s ∧
    s.shared.snapshot.committed.get? () = some row ∧ row.status = .ready ∧ row.stale = false ∧
    row.payload = some payload ∧ payload.asOf = 0 ∧ s.shared.version = 1 ∧
    payload.config.map GlobalConfigRow.sensitive ≠ s.shared.sensitiveNow := by
  have hrun : (Procs.exec dashboardNext freshTables
      ([(true, DashboardAction.refresh)] ++ List.replicate 3 (true, DashboardAction.statement) ++
        patches false ++ List.replicate 3 (true, DashboardAction.statement))).map (fun s =>
        (s.shared.version, s.shared.snapshot.committed.get? (), s.shared.sensitiveNow)) =
      some (1, some ⟨.ready, some ⟨some defaultConfig, 0⟩, false⟩,
          some (longerTarget.apply defaultConfig).sensitive) := by
    decide +kernel
  obtain ⟨s, hs, hall⟩ := Option.map_eq_some_iff.mp hrun
  obtain ⟨hversion, hrest⟩ := Prod.mk.inj hall
  obtain ⟨hrow, hsens⟩ := Prod.mk.inj hrest
  refine ⟨s, _, _, Procs.reach_exec (.start dashboardStart_freshTables) hs fun _ _ _ => trivial,
    hrow, rfl, rfl, rfl, rfl, hversion, ?_⟩
  rw [hsens]
  decide

end Restock
