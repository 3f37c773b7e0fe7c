/-
# Lockouts of logins (`api/auth.py`)

A login is checked against the failures of its address and of its user name, each a row
that may be locked until some time. A login that fails adds to both rows and locks them
when the count is reached; one that succeeds clears them. The check and the recording
are separate statements, and any number of logins run side by side.

The recording reads the row again and takes its lock, but the session already has the
row from the check: the values of the check stay, and of the new values only those that
differ from them are written. So a login that passed the check before the row was
locked, and records its failure after, writes over the lock unless what it has read says
otherwise (`Harmless`). As long as every recording that finds its row locked is of the
harmless kind, a lock stays for its time (`lockout_of_reach`). Otherwise it goes with
the first straggler (`lockout_lost`).
-/
import Restock.Lib.Processes
import Restock.Lib.ReadCommitted

namespace Restock

open ReadCommitted

/-! ### Rows and requests -/

/-- `ip:` with the address of the client, or `user:` with the name. -/
inductive SourceKey
  | ip (client : String)
  | user (username : String)
deriving DecidableEq, Repr

/-- A row of `login_attempt`. -/
structure LoginAttempt where
  failedCount : ℤ
  lockedUntil : Option ℤ
deriving DecidableEq, Repr

/-- The settings of the lockout. -/
structure LoginSettings where
  loginFailedMax : ℤ
  loginLockMinutes : ℤ

/-- Times are in microseconds. -/
def LoginSettings.lockTime (settings : LoginSettings) : ℤ := settings.loginLockMinutes * 60000000

/-- A login: where it comes from, the user and the password. -/
structure LoginRequest where
  client : String
  username : String
  password : String

/-- The row of the user, with what `login` looks at. -/
structure LoginUser where
  passwordHash : String
  isActive : Bool

/-- A login past its checks, with the time it began at and the rows it has read. -/
structure LoginCall where
  req : LoginRequest
  start : ℤ
  ipAttempt : Option LoginAttempt
  userAttempt : Option LoginAttempt

/-- The table of the attempts, and the time. -/
structure LoginDb (P : Type) where
  attempts : Table P SourceKey LoginAttempt
  now : ℤ

/-! ### The program -/

/-- Where a login stands. -/
inductive LoginPoint
  | idle
  | checkIp (req : LoginRequest) (start : ℤ)
  | checkUser (req : LoginRequest) (start : ℤ) (ipAttempt : Option LoginAttempt)
  | lookup (call : LoginCall)
  | recordIp (call : LoginCall)
  | recordUser (call : LoginCall) (inserts : List (SourceKey × LoginAttempt))
  /-- The rows that are still to be inserted, before the commit. -/
  | flush (inserts : List (SourceKey × LoginAttempt))
  | clearIp (call : LoginCall)
  | clearUser (call : LoginCall)
  /-- The password is right, and the rows are cleared. -/
  | granted

/-- What a login does next. -/
inductive LoginAction
  | request (req : LoginRequest)
  /-- The user is looked up, with the row that is found. -/
  | found (user : Option LoginUser)
  | statement
  | crash
  | tick (now : ℤ)

/-- `attempt.locked_until is not None and attempt.locked_until > now`. -/
def LoginAttempt.lockedAt (attempt : LoginAttempt) (now : ℤ) :
    Bool := attempt.lockedUntil.any (now < ·)

/-- There is something to clear. -/
def LoginAttempt.dirty (attempt : LoginAttempt) :
    Bool := attempt.failedCount ≠ 0 || attempt.lockedUntil.isSome

/-- The values of `_record_failure` after the given count. -/
def LoginSettings.failure (settings : LoginSettings) (count start : ℤ) : LoginAttempt :=
  if settings.loginFailedMax ≤ count + 1 then ⟨0, some (start + settings.lockTime)⟩
  else ⟨count + 1, none⟩

/-- The row after the values of `new` are set on a session that has loaded `loaded`:
columns that do not change are not written. -/
def LoginAttempt.patch (row loaded new : LoginAttempt) : LoginAttempt where
  failedCount := if new.failedCount = loaded.failedCount then row.failedCount else new.failedCount
  lockedUntil := if new.lockedUntil = loaded.lockedUntil then row.lockedUntil else new.lockedUntil

section Login

variable {P : Type} [DecidableEq P] (settings : LoginSettings)
    (verifyPassword : String → String → Bool)

/-- The session commits. -/
def LoginDb.commit (db : LoginDb P) (p : P) :
    LoginDb P := { db with attempts := db.attempts.commit p }

/-- The session rolls back. -/
def LoginDb.rollback (db : LoginDb P) (p : P) :
    LoginDb P := { db with attempts := db.attempts.abort p }

/-- The session writes a row. -/
def LoginDb.write (db : LoginDb P) (p : P) (key : SourceKey) (row : LoginAttempt) : LoginDb P :=
  { db with attempts := db.attempts.write p key (some row) }

/-- `_record_failure`: the row is taken and changed, or a row is to be inserted. -/
def recordFailure (db : LoginDb P) (p : P) (key : SourceKey) (attempt : Option LoginAttempt)
    (start : ℤ) : Option (LoginDb P × List (SourceKey × LoginAttempt)) :=
  if db.attempts.free p key then
    some (match db.attempts.view p key with
      | none => (db, [(key, settings.failure 0 start)])
      | some row =>
        (db.write p key (row.patch (attempt.getD row)
          (settings.failure (attempt.getD row).failedCount start)), []))
  else none

/-- `_clear_attempts`, where the row that was read has something to clear. -/
def clearAttempts (db : LoginDb P) (p : P) (key : SourceKey) (attempt : Option LoginAttempt) :
    Option (LoginDb P) :=
  if attempt.any LoginAttempt.dirty then
    (db.attempts.update p key (fun _ => true) fun _ => some ⟨0, none⟩).map fun attempts =>
      { db with attempts := attempts }
  else some db

/-- What follows the lookup of the user. -/
def LoginCall.verified (call : LoginCall) : Option LoginUser → LoginPoint
  | none => .recordIp call
  | some user =>
    if user.isActive && verifyPassword call.req.password user.passwordHash then .clearIp call
    else .recordIp call

/-- One statement of a login, or a step of the clock. -/
def loginNext (db : LoginDb P) (p : P) : LoginPoint → LoginAction → Option (LoginDb P × LoginPoint)
  | point, .tick now => if db.now ≤ now then some ({ db with now := now }, point) else none
  | _, .crash => some (db.rollback p, .idle)
  | .idle, .request req => some (db, .checkIp req db.now)
  | .checkIp req start, .statement =>
    if (db.attempts.view p (.ip req.client)).any (·.lockedAt start) then some (db.rollback p, .idle)
    else some (db, .checkUser req start (db.attempts.view p (.ip req.client)))
  | .checkUser req start ipAttempt, .statement =>
    if (db.attempts.view p (.user req.username)).any (·.lockedAt start) then
      some (db.rollback p, .idle)
    else some (db, .lookup ⟨req, start, ipAttempt, db.attempts.view p (.user req.username)⟩)
  | .lookup call, .found user => some (db, call.verified verifyPassword user)
  | .recordIp call, .statement =>
    (recordFailure settings db p (.ip call.req.client) call.ipAttempt call.start).map fun r =>
      (r.1, .recordUser call r.2)
  | .recordUser call inserts, .statement =>
    (recordFailure settings db p (.user call.req.username) call.userAttempt call.start).map fun r =>
      (r.1, .flush (inserts ++ r.2))
  | .flush ((key, row) :: inserts), .statement =>
    if db.attempts.free p key then
      if (db.attempts.view p key).isNone then some (db.write p key row, .flush inserts)
      -- the key was inserted meanwhile
      else some (db.rollback p, .idle)
    else none
  | .flush [], .statement => some (db.commit p, .idle)
  | .clearIp call, .statement =>
    (clearAttempts db p (.ip call.req.client) call.ipAttempt).map fun db => (db, .clearUser call)
  | .clearUser call, .statement =>
    (clearAttempts db p (.user call.req.username) call.userAttempt).map fun db => (db, .granted)
  | .granted, .statement => some (db.commit p, .idle)
  | _, _ => none

/-- The interleavings, from the given states. -/
def loginRuns (start : Procs P LoginPoint (LoginDb P) → Prop) :
    Lts (Procs P LoginPoint (LoginDb P)) (P × LoginAction) :=
  Procs.runs start (loginNext settings verifyPassword)

/-! ### What a statement does -/

/-- A lock that has not run out is kept, or made longer. -/
def LoginAttempt.KeptBy (now : ℤ) (row row' : LoginAttempt) : Prop :=
  ∀ T, row.lockedUntil = some T → now < T → ∃ T', row'.lockedUntil = some T' ∧ T ≤ T'

/-- What a login that finds the row locked until `T` must have read: it locks the row
itself, for as long; or it had read a row that was not locked, below the count. -/
def Harmless (attempt : Option LoginAttempt) (row : LoginAttempt) (start T : ℤ) : Prop :=
  (settings.loginFailedMax ≤ (attempt.getD row).failedCount + 1 ∧ T ≤ start + settings.lockTime) ∨
    ((attempt.getD row).failedCount + 1 < settings.loginFailedMax ∧ ∃ read, attempt = some read ∧
      read.lockedUntil = none)

/-- A recording that finds the row locked is harmless. -/
def LoginDb.RecordsHarmless (db : LoginDb P) (key : SourceKey) (attempt : Option LoginAttempt)
    (start : ℤ) : Prop :=
  ∀ row T, db.attempts.committed.get? key = some row → row.lockedUntil = some T → db.now < T →
    Harmless settings attempt row start T

/-- The condition on a statement. -/
def LoginGuard (db : LoginDb P) : LoginPoint → LoginAction → Prop
  | .recordIp call, .statement =>
    db.RecordsHarmless settings (.ip call.req.client) call.ipAttempt call.start
  | .recordUser call _, .statement =>
    db.RecordsHarmless settings (.user call.req.username) call.userAttempt call.start
  | _, _ => True

/-- The rows that a login may have taken. -/
def LoginPoint.mayHold : LoginPoint → SourceKey → Prop
  | .recordUser call _, key | .clearUser call, key => key = .ip call.req.client
  | .flush _, _ | .granted, _ => True
  | _, _ => False

/-- The password was right. -/
def LoginPoint.clears : LoginPoint → Bool
  | .clearIp _ | .clearUser _ | .granted => true
  | _ => false

/-- What each statement does, with what has to hold for it. -/
inductive LoginStep (db : LoginDb P) (p : P) (action : LoginAction) :
    LoginPoint → LoginDb P → LoginPoint → Prop
  | tick {point now} : db.now ≤ now → LoginStep db p action point { db with now := now } point
  | quit {point} : LoginStep db p action point (db.rollback p) .idle
  | commit {point} : (point.clears = true → point = .granted ∧ action = .statement) →
      LoginStep db p action point (db.commit p) .idle
  | pass {point point'} : (∀ key, point.mayHold key → point'.mayHold key) →
      (point'.clears = false → point.clears = false) → LoginStep db p action point db point'
  | record {point point' key row row'} : db.attempts.free p key = true →
      (∀ k, point.mayHold k → point'.mayHold k) → ¬ point.mayHold key → point'.mayHold key →
      point.clears = false → db.attempts.committed.get? key = some row →
      row.KeptBy db.now row' → LoginStep db p action point (db.write p key row') point'
  | insert {key row inserts} : db.attempts.free p key = true → db.attempts.view p key = none →
      LoginStep db p action (.flush ((key, row) :: inserts)) (db.write p key row) (.flush inserts)
  | clear {point point' key row} : db.attempts.free p key = true →
      (∀ k, point.mayHold k → point'.mayHold k) → point'.mayHold key → point'.clears = true →
      LoginStep db p action point (db.write p key row) point'

variable {settings} {verifyPassword} {db db' : LoginDb P} {p q : P} {point point' : LoginPoint}
    {action : LoginAction}
  {r : LoginDb P × LoginPoint}

theorem patch_keptBy {row : LoginAttempt} {attempt : Option LoginAttempt} {start now : ℤ}
    (h : ∀ T, row.lockedUntil = some T → now < T → Harmless settings attempt row start T) :
    row.KeptBy now (row.patch (attempt.getD row)
      (settings.failure (attempt.getD row).failedCount start)) := by
  intro T hT hnow
  rcases h T hT hnow with ⟨hmax, hlong⟩ | ⟨hbelow, read, rfl, hnone⟩
  · have hnew : settings.failure (attempt.getD row).failedCount start =
      ⟨0, some (start + settings.lockTime)⟩ := if_pos hmax
    rw [hnew]
    by_cases hsame : some (start + settings.lockTime) = (attempt.getD row).lockedUntil
    · exact ⟨T, (if_pos hsame).trans hT, le_rfl⟩
    · exact ⟨_, if_neg hsame, hlong⟩
  · rw [Option.getD_some] at hbelow ⊢
    have hnew : settings.failure read.failedCount start = ⟨read.failedCount + 1, none⟩ :=
      if_neg (by omega)
    rw [hnew]
    exact ⟨T, (if_pos hnone.symm).trans hT, le_rfl⟩

/-- What holds of the rows for a login at a point. -/
structure LoginAt (p : P) (point : LoginPoint) (db : LoginDb P) : Prop where
  held : ∀ key v, db.attempts.locks.get? key = some (p, v) → point.mayHold key
  pending : point.clears = false → ∀ key v, db.attempts.locks.get? key = some (p, v) →
    ∃ row', v = some row' ∧ ∀ row, db.attempts.committed.get? key = some row →
    row.KeptBy db.now row'

theorem LoginAt.view (hat : LoginAt p point db) {key : SourceKey} (hk : ¬ point.mayHold key) :
    db.attempts.view p key = db.attempts.committed.get? key :=
  Table.view_of_not_held fun v hv => hk (hat.held key v hv)

/-- A recording takes the row, or leaves it to be inserted. -/
theorem recordFailure_step (hat : LoginAt p point db) {key : SourceKey}
    {attempt : Option LoginAttempt} {start : ℤ} {r : LoginDb P × List (SourceKey × LoginAttempt)}
    (hok : db.RecordsHarmless settings key attempt start)
    (hmono : ∀ k, point.mayHold k → point'.mayHold k) (hkey : ¬ point.mayHold key)
    (hkey' : point'.mayHold key) (hc : point.clears = false)
    (hr : recordFailure settings db p key attempt start = some r) :
    LoginStep db p action point r.1 point' := by
  unfold recordFailure at hr
  split_ifs at hr with hfree
  rw [← Option.some.inj hr]
  split
  · exact .pass hmono fun _ => hc
  · rename_i row hview
    have hrow : db.attempts.committed.get? key = some row := (hat.view hkey).symm.trans hview
    exact .record hfree hmono hkey hkey' hc hrow
      (patch_keptBy fun T hT hnow => hok row T hrow hT hnow)

theorem clearAttempts_step {key : SourceKey} {attempt : Option LoginAttempt}
    (hmono : ∀ k, point.mayHold k → point'.mayHold k) (hkey' : point'.mayHold key)
    (hc' : point'.clears = true) (hr : clearAttempts db p key attempt = some db') :
    LoginStep db p action point db' point' := by
  have hpass : point'.clears = false → point.clears = false := fun h => by rw [hc'] at h; cases h
  unfold clearAttempts at hr
  split_ifs at hr
  · obtain ⟨attempts, hu, rfl⟩ := Option.map_eq_some_iff.mp hr
    obtain ⟨hfree, ⟨row, -, -, rfl⟩ | ⟨-, rfl⟩⟩ := Table.update_cases hu
    · exact .clear hfree hmono hkey' hc'
    · exact .pass hmono hpass
  · rw [← Option.some.inj hr]
    exact .pass hmono hpass

/-- **Every statement** is one of the listed ones. -/
theorem loginNext_step (hat : LoginAt p point db) (hok : LoginGuard settings db point action)
    (h : loginNext settings verifyPassword db p point action = some r) :
    LoginStep db p action point r.1 r.2 := by
  unfold loginNext at h
  split at h
  case h_1 =>
    split_ifs at h with hnow
    rw [← Option.some.inj h]
    exact .tick hnow
  case h_2 =>
    rw [← Option.some.inj h]
    exact .quit
  case h_3 =>
    rw [← Option.some.inj h]
    exact .pass (fun _ h => h) fun _ => rfl
  case h_4 | h_5 =>
    split_ifs at h
    · rw [← Option.some.inj h]
      exact .quit
    · rw [← Option.some.inj h]
      exact .pass (fun _ h => h) fun _ => rfl
  case h_6 call user =>
    rw [← Option.some.inj h]
    exact .pass (fun _ h => h.elim) fun _ => rfl
  case h_7 call =>
    obtain ⟨r', hr', rfl⟩ := Option.map_eq_some_iff.mp h
    exact recordFailure_step hat hok (fun _ h => h.elim) (fun h => h) rfl rfl hr'
  case h_8 call inserts =>
    obtain ⟨r', hr', rfl⟩ := Option.map_eq_some_iff.mp h
    exact recordFailure_step hat hok (fun _ _ => trivial) (fun h => by cases h) trivial rfl hr'
  case h_9 key row inserts =>
    split_ifs at h with hfree hnone
    · rw [← Option.some.inj h]
      exact .insert hfree (Option.isNone_iff_eq_none.mp hnone)
    · rw [← Option.some.inj h]
      exact .quit
  case h_10 =>
    rw [← Option.some.inj h]
    exact .commit fun h => by cases h
  case h_11 call =>
    obtain ⟨db', hdb', rfl⟩ := Option.map_eq_some_iff.mp h
    exact clearAttempts_step (fun _ h => h.elim) rfl rfl hdb'
  case h_12 call =>
    obtain ⟨db', hdb', rfl⟩ := Option.map_eq_some_iff.mp h
    exact clearAttempts_step (fun _ _ => trivial) trivial rfl hdb'
  case h_13 =>
    rw [← Option.some.inj h]
    exact .commit fun _ => ⟨rfl, rfl⟩
  case h_14 => cases h

/-! ### What a login leaves -/

theorem LoginAttempt.KeptBy.mono {row row' : LoginAttempt} {now now' : ℤ} (h : row.KeptBy now row')
    (hn : now ≤ now') : row.KeptBy now' row' :=
  fun T hT hlt => h T hT (by omega)

omit [DecidableEq P] in
theorem LoginAt.of_unlocked (h : db.attempts.Unlocked p) : LoginAt p point db :=
  ⟨fun key v hl => absurd hl (h key v), fun _ key v hl => absurd hl (h key v)⟩

theorem LoginStep.moves (h : LoginStep db p action point db' point') :
    Table.Moves p db.attempts db'.attempts ∧ db.now ≤ db'.now := by
  cases h with
  | tick hn => exact ⟨.same, hn⟩
  | quit => exact ⟨.abort, le_rfl⟩
  | commit _ => exact ⟨.commit, le_rfl⟩
  | pass _ _ => exact ⟨.same, le_rfl⟩
  | record hfree _ _ _ _ _ _ => exact ⟨.write hfree, le_rfl⟩
  | insert hfree _ => exact ⟨.write hfree, le_rfl⟩
  | clear hfree _ _ _ => exact ⟨.write hfree, le_rfl⟩

theorem LoginAt.other (hq : LoginAt q point' db) (hm : Table.Moves p db.attempts db'.attempts)
    (hn : db.now ≤ db'.now) (hne : q ≠ p) : LoginAt q point' db' := by
  refine ⟨fun key v hl => hq.held key v ((hm.held_other hne).mp hl), fun hc key v hl => ?_⟩
  have hl' := (hm.held_other hne).mp hl
  obtain ⟨row', hv, hkept⟩ := hq.pending hc key v hl'
  refine ⟨row', hv, fun row hrow => (hkept row ?_).mono hn⟩
  exact (hm.committed_of_held hne hl').symm.trans hrow

omit [DecidableEq P] in
/-- A row that is written besides those that are held. -/
theorem LoginAt.written (hat : LoginAt p point db) {key : SourceKey} {new : LoginAttempt}
    (hmono : ∀ k, point.mayHold k → point'.mayHold k) (hkey : point'.mayHold key)
    (hnew : point'.clears = false → point.clears = false ∧
      ∀ row, db.attempts.committed.get? key = some row → row.KeptBy db.now new) : LoginAt p point'
      (db.write p key new) := by
  have hget : ∀ k, (db.write p key new).attempts.locks.get? k =
      if k = key then some (p, some new) else db.attempts.locks.get? k :=
        fun k => Table.get?_locks_write _ _ _ _ _
  refine ⟨fun k v hl => ?_, fun hc k v hl => ?_⟩
  · rw [hget] at hl
    split_ifs at hl with hk
    · exact hk ▸ hkey
    · exact hmono k (hat.held k v hl)
  · rw [hget] at hl
    split_ifs at hl with hk
    · obtain ⟨-, rfl⟩ := Prod.mk.inj (Option.some.inj hl)
      exact ⟨new, rfl, fun row hrow => (hnew hc).2 row (hk ▸ hrow)⟩
    · exact hat.pending (hnew hc).1 k v hl

theorem LoginAt.own (hat : LoginAt p point db) (h : LoginStep db p action point db' point') :
    LoginAt p point' db' := by
  cases h with
  | tick hn =>
    refine ⟨hat.held, fun hc key v hl => ?_⟩
    obtain ⟨row', hv, hkept⟩ := hat.pending hc key v hl
    exact ⟨row', hv, fun row hrow => (hkept row hrow).mono hn⟩
  | quit => exact .of_unlocked (Table.unlocked_abort _ p)
  | commit _ => exact .of_unlocked (Table.unlocked_commit _ p)
  | pass hmono hc =>
    exact ⟨fun key v hl => hmono key (hat.held key v hl), fun h => hat.pending (hc h)⟩
  | record _ hmono _ hkey' hc hrow hkept =>
    refine hat.written hmono hkey' fun _ => ⟨hc, fun row₁ hrow₁ => ?_⟩
    rw [← Option.some.inj (hrow.symm.trans hrow₁)]
    exact hkept
  | @insert key new inserts _ hview =>
    refine hat.written (fun _ h => h) trivial fun _ => ⟨rfl, fun row hrow => ?_⟩
    -- the login does not have the key, and it is not committed
    rcases Table.view_cases db.attempts p key with hheld | ⟨-, hsame⟩
    · obtain ⟨row', hv, -⟩ := hat.pending rfl key _ hheld
      rw [hview] at hv
      cases hv
    · rw [← hsame, hview] at hrow
      cases hrow
  | clear _ hmono hkey' hc' =>
    refine hat.written hmono hkey' fun hc => ?_
    rw [hc'] at hc
    cases hc

/-- A committed row after a statement keeps its lock, unless a login with the right
password has cleared it. -/
theorem LoginAt.committed_next (hat : LoginAt p point db)
    (h : LoginStep db p action point db' point') {key : SourceKey}
    (hno : point = .granted → action = .statement → ∀ v, db.attempts.locks.get? key ≠ some (p, v))
    {row : LoginAttempt} {T : ℤ} (hrow : db.attempts.committed.get? key = some row)
    (hT : row.lockedUntil = some T) (hnow : db.now < T) :
    ∃ row' T', db'.attempts.committed.get? key = some row' ∧ row'.lockedUntil = some T' ∧
    T ≤ T' := by
  rcases h.moves.1.committed_cases key with hsame | hheld
  · exact ⟨row, T, hsame.trans hrow, hT, le_rfl⟩
  · have hkept : point.clears = false → ∃ row' T', db'.attempts.committed.get? key = some row' ∧
        row'.lockedUntil = some T' ∧ T ≤ T' := by
      intro hc
      obtain ⟨row', hv, hk⟩ := hat.pending hc key _ hheld
      obtain ⟨T', hT', hle⟩ := hk row hrow T hT hnow
      exact ⟨row', T', hv, hT', hle⟩
    cases h with
    | commit hc =>
      by_cases hcl : point.clears = true
      · obtain ⟨hg, ha⟩ := hc hcl
        exact absurd hheld (hno hg ha _)
      · exact hkept (Bool.eq_false_iff.mpr hcl)
    | _ => exact ⟨row, T, hrow, hT, le_rfl⟩

/-! ### Runs -/

/-- No login is under way. -/
structure LoginStart (s : Procs P LoginPoint (LoginDb P)) : Prop where
  idle : ∀ p, s.proc p = .idle
  locks : s.shared.attempts.locks = .empty

variable (settings) in
/-- The condition on the steps of a run. -/
def LoginGuarded (a : P × LoginAction) (s : Procs P LoginPoint (LoginDb P)) : Prop :=
  LoginGuard settings s.shared (s.proc a.1) a.2

/-- The step is not the commit of a login with the right password that has cleared the key. -/
def NotCleared (key : SourceKey) (a : P × LoginAction) (s : Procs P LoginPoint (LoginDb P)) :
    Prop :=
  s.proc a.1 = .granted → a.2 = .statement → ∀ v, s.shared.attempts.locks.get? key ≠ some (a.1, v)

variable {start : Procs P LoginPoint (LoginDb P) → Prop} {s s' : Procs P LoginPoint (LoginDb P)}

theorem loginAt_of_reach (h0 : ∀ {s}, start s → ∀ p, LoginAt p (s.proc p) s.shared)
    (h : (loginRuns settings verifyPassword start).ReachIf (LoginGuarded settings) s) :
    ∀ p, LoginAt p (s.proc p) s.shared := by
  refine (Procs.invariant (I := fun _ => True) (fun hs => ⟨trivial, h0 hs⟩) ?_ ?_ h).2
  · intro s p a r _ hAt hok hr
    exact ⟨trivial, (hAt p).own (loginNext_step (hAt p) hok hr)⟩
  · intro s p a r q _ hAt hok hr hq
    have hm := (loginNext_step (hAt p) hok hr).moves
    exact (hAt q).other hm.1 hm.2 hq

/-- **Lockouts hold**: a key that is locked until `T` stays locked, at least until `T`,
in all later states before `T`, whatever logins run, unless one with the right password
clears it. -/
theorem lockout_of_reach
    (h : (loginRuns settings verifyPassword LoginStart).ReachIf (LoginGuarded settings) s)
    {key : SourceKey} {row : LoginAttempt} {T : ℤ}
    (hrow : s.shared.attempts.committed.get? key = some row) (hT : row.lockedUntil = some T)
    (h' : (loginRuns settings verifyPassword fun t => t = s).ReachIf
      (fun a t => LoginGuarded settings a t ∧ NotCleared key a t) s')
    (hnow : s'.shared.now < T) :
    ∃ row' T', s'.shared.attempts.committed.get? key = some row' ∧ row'.lockedUntil = some T' ∧
    T ≤ T' := by
  have h0 : ∀ p, LoginAt p (s.proc p) s.shared := by
    refine loginAt_of_reach (fun hs p => .of_unlocked fun key v hl => ?_) h
    rw [hs.locks] at hl
    cases hl
  have hinv := h'.and_invariant fun hr =>
    loginAt_of_reach (fun {t} (ht : t = s) => ht ▸ h0) (hr.mono fun ha => ha.1)
  refine Lts.ReachIf.invariant
    (I := fun t => t.shared.now < T → ∃ row' T', t.shared.attempts.committed.get? key = some row' ∧
    row'.lockedUntil = some T' ∧ T ≤ T') ?_ ?_ hinv hnow
  · rintro t rfl -
    exact ⟨row, T, hrow, hT, le_rfl⟩
  · rintro t ⟨p, action⟩ t' hI ⟨⟨hok, hno⟩, hAt⟩ hstep hlt
    obtain ⟨r, hr, rfl⟩ := Procs.step_iff.mp hstep
    have hst := loginNext_step (hAt p) hok hr
    have hle : t.shared.now ≤ r.1.now := hst.moves.2
    have hlt' : r.1.now < T := hlt
    obtain ⟨row₁, T₁, hrow₁, hT₁, hle₁⟩ := hI (by omega)
    obtain ⟨row₂, T₂, hrow₂, hT₂, hle₂⟩ := (hAt p).committed_next hst hno hrow₁ hT₁ (by omega)
    exact ⟨row₂, T₂, hrow₂, hT₂, hle₁.trans hle₂⟩

end Login

/-! ### Two runs -/

def noAttempts : Procs Bool LoginPoint (LoginDb Bool) := ⟨⟨⟨.empty, .empty⟩, 0⟩, fun _ => .idle⟩

theorem loginStart_noAttempts : LoginStart noAttempts := ⟨fun _ => rfl, rfl⟩

def adminRequest : LoginRequest := ⟨"8.8.8.8", "admin", "guess"⟩

/-- A login with an unknown user that inserts the given number of rows. -/
def failedLogin (p : Bool) (inserts : ℕ) : List (Bool × LoginAction) :=
  [(p, .request adminRequest), (p, .statement), (p, .statement), (p, .found none)] ++
    List.replicate (3 + inserts) (p, .statement)

/-- Five failures lock the user. -/
def fiveFailures : List (Bool × LoginAction) :=
  failedLogin false 2 ++ (List.replicate 4 (failedLogin false 0)).flatten

def noPassword : String → String → Bool := fun _ _ => false

/-- No recording finds its row locked, and no login has the right password. -/
def calmStep (a : Bool × LoginAction) (s : Procs Bool LoginPoint (LoginDb Bool)) : Bool :=
  match s.proc a.1 with
  | .recordIp call =>
    (s.shared.attempts.committed.get? (.ip call.req.client)).all fun row =>
      !row.lockedAt s.shared.now
  | .recordUser call _ =>
    (s.shared.attempts.committed.get? (.user call.req.username)).all fun row =>
      !row.lockedAt s.shared.now
  | .granted => false
  | _ => true

theorem calmStep_spec {settings : LoginSettings} {a : Bool × LoginAction}
    {s : Procs Bool LoginPoint (LoginDb Bool)} (h : calmStep a s = true) (key : SourceKey) :
    LoginGuarded settings a s ∧ NotCleared key a s := by
  have hfree : ∀ {k : SourceKey} {attempt : Option LoginAttempt} {start : ℤ},
      (s.shared.attempts.committed.get? k).all (fun row => !row.lockedAt s.shared.now) = true →
      s.shared.RecordsHarmless settings k attempt start := by
    intro k attempt start hk row T hrow hT hnow
    rw [hrow] at hk
    simp [LoginAttempt.lockedAt, hT, hnow] at hk
  unfold calmStep at h
  refine ⟨?_, fun hg => by rw [hg] at h; cases h⟩
  unfold LoginGuarded LoginGuard
  split
  · rename_i call hp _
    rw [hp] at h
    exact hfree h
  · rename_i call inserts hp _
    rw [hp] at h
    exact hfree h
  · trivial

/-- A lock of the user is there a minute later. -/
theorem lockout_of_reach_fiveFailures : ∃ s s' : Procs Bool LoginPoint (LoginDb Bool),
    (loginRuns ⟨5, 10⟩ noPassword LoginStart).ReachIf (LoginGuarded ⟨5, 10⟩) s ∧
    (s.shared.attempts.committed.get? (.user "admin")) = some ⟨0, some 600000000⟩ ∧
    s'.shared.now = 60000000 ∧ s'.proc true = .idle ∧
    ∃ row' T', s'.shared.attempts.committed.get? (.user "admin") = some row' ∧
      row'.lockedUntil = some T' ∧ 600000000 ≤ T' := by
  have hrun : (Procs.execIf (loginNext ⟨5, 10⟩ noPassword) calmStep noAttempts fiveFailures).map
      (fun s =>
      (s.shared.attempts.committed.get? (.user "admin"),
        (Procs.execIf (loginNext ⟨5, 10⟩ noPassword) calmStep s
        [(true, .tick 60000000), (true, .request adminRequest), (true, .statement)]).map fun s' =>
        (s'.shared.now, match s'.proc true with | .idle => true | _ => false))) =
      some (some ⟨0, some 600000000⟩, some (60000000, true)) := by decide +kernel
  obtain ⟨s, hs, hall⟩ := Option.map_eq_some_iff.mp hrun
  obtain ⟨hrow, hnext⟩ := Prod.mk.inj hall
  obtain ⟨s', hs', hafter⟩ := Option.map_eq_some_iff.mp hnext
  obtain ⟨hnow, hidle⟩ := Prod.mk.inj hafter
  have hreach : (loginRuns ⟨5, 10⟩ noPassword LoginStart).ReachIf (LoginGuarded ⟨5, 10⟩) s :=
    Procs.reach_execIf (.start loginStart_noAttempts) hs fun a _ s hc =>
      (calmStep_spec hc (.user "admin")).1
  have hreach' : (loginRuns ⟨5, 10⟩ noPassword fun t => t = s).ReachIf
      (fun a t => LoginGuarded ⟨5, 10⟩ a t ∧ NotCleared (.user "admin") a t) s' :=
    Procs.reach_execIf (.start rfl) hs' fun a _ s hc => calmStep_spec hc (.user "admin")
  have hbefore : s'.shared.now < 600000000 := by
    rw [hnow]
    decide
  refine ⟨s, s', hreach, hrow, hnow, ?_, lockout_of_reach hreach hrow rfl hreach' hbefore⟩
  split at hidle
  · assumption
  · cases hidle

/-- A login that passed the check before five others failed records its failure last: the
user is no longer locked. -/
theorem lockout_lost :
    ∃ s s' : Procs Bool LoginPoint (LoginDb Bool),
    (loginRuns ⟨5, 10⟩ noPassword LoginStart).Reach s ∧
    (loginRuns ⟨5, 10⟩ noPassword LoginStart).step s (true, .statement) s' ∧
    s.proc true = .flush [] ∧
    s.shared.attempts.committed.get? (.user "admin") = some ⟨0, some 600000000⟩ ∧
    s'.shared.now < 600000000 ∧
    s'.shared.attempts.committed.get? (.user "admin") = some ⟨1, none⟩ := by
  have hrun : (Procs.exec (loginNext ⟨5, 10⟩ noPassword) noAttempts
      ([(true, LoginAction.request adminRequest), (true, LoginAction.statement),
        (true, LoginAction.statement)] ++ fiveFailures ++
        [(true, LoginAction.found none), (true, LoginAction.statement),
        (true, LoginAction.statement)])).map (fun s =>
      ((match s.proc true with | .flush [] => true | _ => false),
        s.shared.attempts.committed.get? (.user "admin"),
        (loginNext ⟨5, 10⟩ noPassword s.shared true (s.proc true) .statement).map fun r =>
          (r.1.now, r.1.attempts.committed.get? (.user "admin")))) =
      some (true, some ⟨0, some 600000000⟩, some (0, some ⟨1, none⟩)) := by decide +kernel
  obtain ⟨s, hs, hall⟩ := Option.map_eq_some_iff.mp hrun
  obtain ⟨hpoint, hrest⟩ := Prod.mk.inj hall
  obtain ⟨hrow, hnext⟩ := Prod.mk.inj hrest
  obtain ⟨r, hr, hafter⟩ := Option.map_eq_some_iff.mp hnext
  obtain ⟨hnow, hrow'⟩ := Prod.mk.inj hafter
  have hreach : (loginRuns ⟨5, 10⟩ noPassword LoginStart).Reach s :=
    Procs.reach_exec (.start loginStart_noAttempts) hs fun _ _ _ => trivial
  have hbefore : r.1.now < 600000000 := by
    rw [hnow]
    decide
  refine ⟨s, s.move true r, hreach, Procs.step_iff.mpr ⟨r, hr, rfl⟩, ?_, hrow, hbefore, hrow'⟩
  split at hpoint
  · assumption
  · cases hpoint

end Restock
