/-
# Counting the failures of logins (`api/auth.py`)

Beside the rows of the logins stands how many failures of one key were committed since
the last reset, the reset being the failure that reaches `login_failed_max` (`CountedDb`).
For a key that has its row already, the count of the row should be this number.

The recording of a failure takes the lock of the row, but adds to the count that the
check has read before, without the lock. The two agree as long as the row still has the
count that was read, or both counts are so high that one more locks (`ReadsCount`). Then
no failure is lost in any interleaving, and the one that reaches the maximum locks the
row (`counted_of_reach`). Two guesses that are checked side by side count as one
(`failure_lost`).
-/
import Restock.LoginLockout

namespace Restock

open ReadCommitted

/-- The rows, with the failures of the key that were committed since the last reset and
the times at which the logins began. -/
structure CountedDb (P : Type) where
  db : LoginDb P
  failures : ℕ
  started : P → ℤ

/-- The rows that a login has still to insert. -/
def LoginPoint.inserts : LoginPoint → List (SourceKey × LoginAttempt)
  | .recordUser _ inserts | .flush inserts => inserts
  | _ => []

/-- The time at which the login began, as long as it is needed. -/
def LoginPoint.began : LoginPoint → Option ℤ
  | .checkIp _ start | .checkUser _ start _ => some start
  | .lookup call | .recordIp call | .recordUser call _ => some call.start
  | _ => none

section Counts

variable {P : Type} [DecidableEq P] (settings : LoginSettings)
    (verifyPassword : String → String → Bool) (key : SourceKey)

/-- The number of failures after one more. -/
def LoginSettings.counted (n : ℕ) : ℕ := if settings.loginFailedMax ≤ n + 1 then 0 else n + 1

/-- The statement commits a failure of the key. -/
def CountedDb.commits (g : CountedDb P) (p : P) (point : LoginPoint) (action : LoginAction) :
    Bool :=
  match action, point with
  | .statement, .flush [] => (g.db.attempts.locks.get? key).any fun lock => lock.1 = p
  | _, _ => false

def CountedDb.failuresAfter (g : CountedDb P) (p : P) (point : LoginPoint) (action : LoginAction) :
    ℕ :=
  if g.commits key p point action then settings.counted g.failures else g.failures

def CountedDb.startedAfter (g : CountedDb P) (p : P) (point : LoginPoint) (action : LoginAction) :
    P → ℤ :=
  match action, point with
  | .request _, .idle => Function.update g.started p g.db.now
  | _, _ => g.started

/-- A statement of a login, counted. -/
def countedNext (g : CountedDb P) (p : P) (point : LoginPoint) (action : LoginAction) :
    Option (CountedDb P × LoginPoint) :=
  (loginNext settings verifyPassword g.db p point action).map fun r =>
    (⟨r.1, g.failuresAfter settings key p point action, g.startedAfter p point action⟩, r.2)

/-- No login is under way, and the key has its row. -/
structure CountStart (s : Procs P LoginPoint (CountedDb P)) : Prop where
  idle : ∀ p, s.proc p = .idle
  locks : s.shared.db.attempts.locks = .empty
  row : ∃ row, s.shared.db.attempts.committed.get? key = some row ∧
    row.failedCount = s.shared.failures

def countedRuns : Lts (Procs P LoginPoint (CountedDb P)) (P × LoginAction) :=
  Procs.runs (CountStart key) (countedNext settings verifyPassword key)

/-! ### The condition -/

/-- What the recording of a failure must have read of the row it finds. -/
structure ReadsCount (attempt : Option LoginAttempt) (row : LoginAttempt) (start : ℤ) : Prop where
  count : (attempt.getD row).failedCount = row.failedCount ∨
    (settings.loginFailedMax ≤ (attempt.getD row).failedCount + 1 ∧
    settings.loginFailedMax ≤ row.failedCount + 1 ∧ (attempt.getD row).failedCount ≠ 0)
  /-- A time that is not written, because it was read, is still there. -/
  lock : settings.loginFailedMax ≤ row.failedCount + 1 →
    (attempt.getD row).lockedUntil = some (start + settings.lockTime) →
    row.lockedUntil = some (start + settings.lockTime)

/-- A recording for the key finds the count that was read. -/
def LoginDb.RecordsCount (db : LoginDb P) (source : SourceKey) (attempt : Option LoginAttempt)
    (start : ℤ) : Prop :=
  source = key → ∀ row, db.attempts.committed.get? key = some row →
    ReadsCount settings attempt row start

/-- The condition on a statement. -/
def CountGuard (db : LoginDb P) : LoginPoint → LoginAction → Prop
  | .recordIp call, .statement =>
    db.RecordsCount settings key (.ip call.req.client) call.ipAttempt call.start
  | .recordUser call _, .statement =>
    db.RecordsCount settings key (.user call.req.username) call.userAttempt call.start
  | _, _ => True

def CountGuarded (a : P × LoginAction) (s : Procs P LoginPoint (CountedDb P)) : Prop :=
  CountGuard settings key s.shared.db (s.proc a.1) a.2

/-- The login has no user, one that is not active, or a wrong password. -/
def LoginFails : LoginPoint → LoginAction → Prop
  | .lookup call, .found user => call.verified verifyPassword user = .recordIp call
  | _, _ => True

def FailedLogin (a : P × LoginAction) (s : Procs P LoginPoint (CountedDb P)) : Prop :=
  LoginFails verifyPassword (s.proc a.1) a.2

/-! ### What a statement does -/

variable {settings} {verifyPassword} {key} {g : CountedDb P} {db : LoginDb P} {p q : P}
    {point point' : LoginPoint}
  {action : LoginAction}

/-- A recording takes the row, or leaves it to be inserted. -/
theorem recordFailure_cases {source : SourceKey} {attempt : Option LoginAttempt} {start : ℤ}
    {r : LoginDb P × List (SourceKey × LoginAttempt)}
    (h : recordFailure settings db p source attempt start = some r) :
    (db.attempts.view p source = none ∧ r = (db, [(source, settings.failure 0 start)])) ∨
      (db.attempts.free p source = true ∧ ∃ row, db.attempts.view p source = some row ∧
        r = (db.write p source
        (row.patch (attempt.getD row) (settings.failure (attempt.getD row).failedCount start)),
        [])) := by
  unfold recordFailure at h
  split_ifs at h with hfree
  have hr := Option.some.inj h
  cases hview : db.attempts.view p source with
  | none =>
    rw [hview] at hr
    exact Or.inl ⟨rfl, hr.symm⟩
  | some row =>
    rw [hview] at hr
    exact Or.inr ⟨hfree, row, rfl, hr.symm⟩

theorem recordFailure_moves {source : SourceKey} {attempt : Option LoginAttempt} {start : ℤ}
    {r : LoginDb P × List (SourceKey × LoginAttempt)}
    (h : recordFailure settings db p source attempt start = some r) :
    Table.Moves p db.attempts r.1.attempts := by
  obtain ⟨-, rfl⟩ | ⟨hfree, row, -, rfl⟩ := recordFailure_cases h
  · exact .same
  · exact .write hfree

theorem clearAttempts_moves {source : SourceKey} {attempt : Option LoginAttempt} {db' : LoginDb P}
    (h : clearAttempts db p source attempt = some db') :
    Table.Moves p db.attempts db'.attempts := by
  unfold clearAttempts at h
  split_ifs at h
  · obtain ⟨attempts, hu, rfl⟩ := Option.map_eq_some_iff.mp h
    exact Table.moves_update hu
  · rw [← Option.some.inj h]
    exact .same

theorem loginNext_moves {r : LoginDb P × LoginPoint}
    (h : loginNext settings verifyPassword db p point action = some r) :
    Table.Moves p db.attempts r.1.attempts := by
  unfold loginNext at h
  split at h
  case h_1 =>
    split_ifs at h
    rw [← Option.some.inj h]
    exact .same
  case h_2 =>
    rw [← Option.some.inj h]
    exact .abort
  case h_3 | h_6 =>
    rw [← Option.some.inj h]
    exact .same
  case h_4 | h_5 =>
    split_ifs at h
    · rw [← Option.some.inj h]
      exact .abort
    · rw [← Option.some.inj h]
      exact .same
  case h_7 | h_8 =>
    obtain ⟨r', hr', rfl⟩ := Option.map_eq_some_iff.mp h
    exact recordFailure_moves hr'
  case h_9 =>
    split_ifs at h with hfree
    · rw [← Option.some.inj h]
      exact .write hfree
    · rw [← Option.some.inj h]
      exact .abort
  case h_10 | h_13 =>
    rw [← Option.some.inj h]
    exact .commit
  case h_11 | h_12 =>
    obtain ⟨db', hdb', rfl⟩ := Option.map_eq_some_iff.mp h
    exact clearAttempts_moves hdb'
  case h_14 => cases h

/-- A row that is written by a recording with the count that was read. -/
theorem ReadsCount.patch {attempt : Option LoginAttempt} {row : LoginAttempt} {start : ℤ} {n : ℕ}
    (h : ReadsCount settings attempt row start) (hn : row.failedCount = n) :
    (row.patch (attempt.getD row)
        (settings.failure (attempt.getD row).failedCount start)).failedCount = settings.counted n ∧
      (settings.loginFailedMax ≤ n + 1 →
        (row.patch (attempt.getD row)
          (settings.failure (attempt.getD row).failedCount start)).lockedUntil =
          some (start + settings.lockTime)) := by
  obtain ⟨hcount, hlock⟩ := h
  rw [hn] at hcount hlock
  have hlimit : settings.loginFailedMax ≤ (attempt.getD row).failedCount + 1 ↔
      settings.loginFailedMax ≤ n + 1 := by
    rcases hcount with hsame | ⟨hread, hrow, -⟩
    · rw [hsame]
    · exact iff_of_true hread hrow
  by_cases hmax : settings.loginFailedMax ≤ n + 1
  · have hnew : settings.failure (attempt.getD row).failedCount start =
      ⟨0, some (start + settings.lockTime)⟩ :=
      if_pos (hlimit.mpr hmax)
    have hcounted : settings.counted n = 0 := if_pos hmax
    rw [hnew, hcounted]
    refine ⟨?_, fun _ => ?_⟩
    · show (if (0 : ℤ) = (attempt.getD row).failedCount then row.failedCount else 0) = ((0 : ℕ) : ℤ)
      split_ifs with hz
      · rw [hn]
        rcases hcount with hsame | ⟨-, -, hne⟩
        · omega
        · exact absurd hz.symm hne
      · rfl
    · show (if some (start + settings.lockTime) = (attempt.getD row).lockedUntil then
        row.lockedUntil
        else some (start + settings.lockTime)) = some (start + settings.lockTime)
      split_ifs with hsame
      · exact hlock hmax hsame.symm
      · rfl
  · have hnew : settings.failure (attempt.getD row).failedCount start =
      ⟨(attempt.getD row).failedCount + 1, none⟩ :=
      if_neg fun h => hmax (hlimit.mp h)
    have hcounted : settings.counted n = n + 1 := if_neg hmax
    rw [hnew, hcounted]
    refine ⟨?_, fun h => absurd h hmax⟩
    rcases hcount with hsame | ⟨-, hrow, -⟩
    · show (if (attempt.getD row).failedCount + 1 = (attempt.getD row).failedCount then
        row.failedCount
        else (attempt.getD row).failedCount + 1) = ((n + 1 : ℕ) : ℤ)
      rw [if_neg (by omega), hsame]
      push_cast
      rfl
    · exact absurd hrow hmax

/-- The row that a login leaves. -/
def CountedDb.Leaves (settings : LoginSettings) (g : CountedDb P) (p : P) (row : LoginAttempt) :
    Prop :=
  row.failedCount = settings.counted g.failures ∧
    (settings.loginFailedMax ≤ g.failures + 1 →
      row.lockedUntil = some (g.started p + settings.lockTime))

/-- What holds for a login at a point. -/
structure CountAt (settings : LoginSettings) (key : SourceKey) (p : P) (point : LoginPoint)
    (g : CountedDb P) : Prop where
  fails : point.clears = false
  inserts : ∀ e ∈ point.inserts, e.1 ≠ key
  began : ∀ t, point.began = some t → t = g.started p
  held : ∀ v, g.db.attempts.locks.get? key = some (p, v) → point.mayHold key ∧ ∃ row, v = some row ∧
    g.Leaves settings p row

/-- What holds of the row of the key. -/
def CountedDb.Agrees (g : CountedDb P) (key : SourceKey) : Prop :=
  ∃ row, g.db.attempts.committed.get? key = some row ∧ row.failedCount = g.failures

theorem CountAt.view (hat : CountAt settings key p point g) (hk : ¬ point.mayHold key) :
    g.db.attempts.view p key = g.db.attempts.committed.get? key :=
  Table.view_of_not_held fun v hv => hk (hat.held v hv).1

omit [DecidableEq P] in
theorem CountAt.idle (h : g.db.attempts.Unlocked p) : CountAt settings key p .idle g :=
  ⟨rfl, nofun, nofun, fun v hv => absurd hv (h key v)⟩

omit [DecidableEq P] in
/-- The point after a statement that leaves the rows and the number. -/
theorem CountAt.pass (hat : CountAt settings key p point g) (hc : point'.clears = false)
    (hins : ∀ e ∈ point'.inserts, e.1 ≠ key) (hbegan : ∀ t, point'.began = some t → t = g.started p)
    (hmono : point.mayHold key → point'.mayHold key) : CountAt settings key p point' g :=
  ⟨hc, hins, hbegan, fun v hv => ⟨hmono (hat.held v hv).1, (hat.held v hv).2⟩⟩

omit [DecidableEq P] in
/-- The point after a row is written. -/
theorem CountAt.written (hat : CountAt settings key p point g) {source : SourceKey}
    {new : LoginAttempt} (hc : point'.clears = false) (hins : ∀ e ∈ point'.inserts, e.1 ≠ key)
    (hbegan : ∀ t, point'.began = some t → t = g.started p)
    (hmono : point.mayHold key → point'.mayHold key)
    (hnew : source = key → point'.mayHold key ∧ g.Leaves settings p new) :
    CountAt settings key p point' { g with db := g.db.write p source new } := by
  refine ⟨hc, hins, hbegan, fun v hv => ?_⟩
  have hlock : (g.db.attempts.write p source (some new)).locks.get? key = some (p, v) := hv
  rw [Table.get?_locks_write] at hlock
  split_ifs at hlock with hk
  · obtain ⟨-, rfl⟩ := Prod.mk.inj (Option.some.inj hlock)
    exact ⟨(hnew hk.symm).1, new, rfl, (hnew hk.symm).2⟩
  · exact ⟨hmono (hat.held v hlock).1, (hat.held v hlock).2⟩

/-- The recording of a failure, with the rows to be inserted after it. -/
theorem CountAt.recorded (hat : CountAt settings key p point g) (hI : g.Agrees key)
    {source : SourceKey} {attempt : Option LoginAttempt} {start : ℤ}
    {r : LoginDb P × List (SourceKey × LoginAttempt)}
    (hok : g.db.RecordsCount settings key source attempt start) (hsource : ¬ point.mayHold source)
    (hsource' : point'.mayHold source) (hmono : point.mayHold key → point'.mayHold key)
    (hstart : start = g.started p) (hc : point'.clears = false)
    (hins : ∀ e ∈ point'.inserts, e ∈ point.inserts ∨ e ∈ r.2)
    (hbegan : ∀ t, point'.began = some t → t = g.started p)
    (hr : recordFailure settings g.db p source attempt start = some r) :
    r.1.attempts.committed = g.db.attempts.committed ∧
    CountAt settings key p point' { g with db := r.1 } := by
  obtain ⟨row₀, hrow₀, hcount₀⟩ := hI
  have hview : source = key → g.db.attempts.view p source = some row₀ := by
    intro hs
    have hk : ¬ point.mayHold key := hs ▸ hsource
    rw [hs, hat.view hk, hrow₀]
  rcases recordFailure_cases hr with ⟨hnone, rfl⟩ | ⟨-, row, hrow, rfl⟩
  · -- the row of the key is there, so it is another one
    have hne : source ≠ key := fun hs => by rw [hview hs] at hnone; cases hnone
    refine ⟨rfl, hat.pass hc (fun e he => ?_) hbegan hmono⟩
    rcases hins e he with hold | hnew
    · exact hat.inserts e hold
    · rw [List.mem_singleton.mp hnew]
      exact hne
  · refine ⟨rfl, hat.written hc (fun e he => ?_) hbegan hmono fun hs => ⟨hs ▸ hsource', ?_⟩⟩
    · rcases hins e he with hold | hnew
      · exact hat.inserts e hold
      · cases hnew
    · have hsame : row = row₀ := Option.some.inj (hrow.symm.trans (hview hs))
      subst hsame
      have hpatch := (hok hs row hrow₀).patch hcount₀
      exact ⟨hpatch.1, fun hmax => hstart ▸ hpatch.2 hmax⟩

/-- The commit of a failed login. -/
theorem CountAt.committed (hat : CountAt settings key p point g) (hI : g.Agrees key) :
    ∃ row, (g.db.commit p).attempts.committed.get? key = some row ∧
      if (g.db.attempts.locks.get? key).any (fun lock => lock.1 = p) then g.Leaves settings p row
      else row.failedCount = g.failures := by
  have hget : (g.db.commit p).attempts.committed.get? key = g.db.attempts.view p key :=
    Table.get?_commit _ _ _
  rw [hget]
  rcases Table.view_cases g.db.attempts p key with hheld | ⟨hno, hsame⟩
  · obtain ⟨-, row, hv, hleaves⟩ := hat.held _ hheld
    refine ⟨row, hv, ?_⟩
    rw [if_pos (by rw [hheld]; simp)]
    exact hleaves
  · obtain ⟨row, hrow, hcount⟩ := hI
    refine ⟨row, hsame.trans hrow, ?_⟩
    rw [if_neg ?_]
    · exact hcount
    · intro hany
      rw [Option.any_eq_true] at hany
      obtain ⟨⟨q, v⟩, hlock, hq⟩ := hany
      have hqp : q = p := of_decide_eq_true hq
      exact hno v (hqp ▸ hlock)

/-- **Every statement** of a failed login keeps the count. -/
theorem countedNext_own {r : CountedDb P × LoginPoint} (hI : g.Agrees key)
    (hat : CountAt settings key p point g) (hfails : LoginFails verifyPassword point action)
    (hok : CountGuard settings key g.db point action)
    (h : countedNext settings verifyPassword key g p point action = some r) :
    r.1.Agrees key ∧ CountAt settings key p r.2 r.1 := by
  obtain ⟨r, hr, rfl⟩ := Option.map_eq_some_iff.mp h
  clear h
  unfold loginNext at hr
  split at hr
  case h_1 now =>
    split_ifs at hr
    rw [← Option.some.inj hr]
    exact ⟨hI, hat.fails, hat.inserts, hat.began, hat.held⟩
  case h_2 =>
    rw [← Option.some.inj hr]
    exact ⟨hI, .idle (Table.unlocked_abort _ p)⟩
  case h_3 req =>
    rw [← Option.some.inj hr]
    refine ⟨hI, rfl, (fun e he => by cases he), fun t ht => ?_, fun v hv => (hat.held v hv).1.elim⟩
    rw [← Option.some.inj ht]
    exact (Function.update_self p g.db.now g.started).symm
  case h_4 req start =>
    split_ifs at hr
    · rw [← Option.some.inj hr]
      exact ⟨hI, .idle (Table.unlocked_abort _ p)⟩
    · rw [← Option.some.inj hr]
      exact ⟨hI, hat.pass rfl (fun e he => by cases he) hat.began fun h => h⟩
  case h_5 req start ipAttempt =>
    split_ifs at hr
    · rw [← Option.some.inj hr]
      exact ⟨hI, .idle (Table.unlocked_abort _ p)⟩
    · rw [← Option.some.inj hr]
      exact ⟨hI, hat.pass rfl (fun e he => by cases he) hat.began fun h => h⟩
  case h_6 call user =>
    have hfail : call.verified verifyPassword user = .recordIp call := hfails
    rw [← Option.some.inj hr, hfail]
    exact ⟨hI, hat.pass rfl (fun e he => by cases he) hat.began fun h => h⟩
  case h_7 call =>
    obtain ⟨r', hr', rfl⟩ := Option.map_eq_some_iff.mp hr
    have hrecorded : r'.1.attempts.committed = g.db.attempts.committed ∧
        CountAt settings key p (.recordUser call r'.2) { g with db := r'.1 } :=
      hat.recorded hI hok (fun h => h) rfl (fun h => h.elim)
        (hat.began _ rfl) rfl (fun e he => Or.inr he) hat.began hr'
    obtain ⟨hcom, hat'⟩ := hrecorded
    obtain ⟨row, hrow, hcount⟩ := hI
    exact ⟨⟨row, (congrArg (·.get? key) hcom).trans hrow, hcount⟩, hat'⟩
  case h_8 call inserts =>
    obtain ⟨r', hr', rfl⟩ := Option.map_eq_some_iff.mp hr
    have hrecorded : r'.1.attempts.committed = g.db.attempts.committed ∧
        CountAt settings key p (.flush (inserts ++ r'.2)) { g with db := r'.1 } :=
      hat.recorded hI hok (fun h => by cases h) trivial (fun _ => trivial) (hat.began _ rfl) rfl
        (fun e he => List.mem_append.mp he) (fun _ hc => by cases hc) hr'
    obtain ⟨hcom, hat'⟩ := hrecorded
    obtain ⟨row, hrow, hcount⟩ := hI
    exact ⟨⟨row, (congrArg (·.get? key) hcom).trans hrow, hcount⟩, hat'⟩
  case h_9 source row inserts =>
    split_ifs at hr with hfree hnone
    · rw [← Option.some.inj hr]
      have hne : source ≠ key := hat.inserts (source, row) List.mem_cons_self
      exact ⟨hI, hat.written rfl (fun e he => hat.inserts e (List.mem_cons_of_mem _ he))
        (fun _ hc => by cases hc) (fun _ => trivial)
        fun hs => absurd hs hne⟩
    · rw [← Option.some.inj hr]
      exact ⟨hI, .idle (Table.unlocked_abort _ p)⟩
  case h_10 =>
    rw [← Option.some.inj hr]
    obtain ⟨row, hrow, hleft⟩ := hat.committed hI
    refine ⟨⟨row, hrow, ?_⟩, .idle (Table.unlocked_commit _ p)⟩
    show row.failedCount = ((if (g.db.attempts.locks.get? key).any (fun lock => lock.1 = p) then
      settings.counted g.failures else g.failures : ℕ) : ℤ)
    split_ifs at hleft ⊢ with hany
    · exact hleft.1
    · exact hleft
  case h_11 => cases hat.fails
  case h_12 => cases hat.fails
  case h_13 => cases hat.fails
  case h_14 => cases hr

/-- The statements of others. -/
theorem countedNext_other {r : CountedDb P × LoginPoint} (hq : CountAt settings key q point' g)
    (hne : q ≠ p) (h : countedNext settings verifyPassword key g p point action = some r) :
    CountAt settings key q point' r.1 := by
  obtain ⟨r, hr, rfl⟩ := Option.map_eq_some_iff.mp h
  have hmoves := loginNext_moves hr
  have hstarted : g.startedAfter p point action q = g.started q := by
    unfold CountedDb.startedAfter
    split
    · exact Function.update_of_ne hne _ _
    · rfl
  refine ⟨hq.fails, hq.inserts, fun t ht => (hq.began t ht).trans hstarted.symm, fun v hv => ?_⟩
  have hv' : g.db.attempts.locks.get? key = some (q, v) := (hmoves.held_other hne).mp hv
  -- who has the row is the only one to change the number
  have hcommits : g.commits key p point action = false := by
    unfold CountedDb.commits
    split
    · rw [hv']
      simp [hne]
    · rfl
  have hfailures : g.failuresAfter settings key p point action = g.failures := by
    simp [CountedDb.failuresAfter, hcommits]
  obtain ⟨hhold, row, hrow, hcount, hlock⟩ := hq.held v hv'
  refine ⟨hhold, row, hrow, ?_, ?_⟩
  · show row.failedCount = settings.counted (g.failuresAfter settings key p point action)
    rw [hfailures]
    exact hcount
  · show settings.loginFailedMax ≤ (g.failuresAfter settings key p point action : ℤ) + 1 →
      row.lockedUntil = some (g.startedAfter p point action q + settings.lockTime)
    rw [hfailures, hstarted]
    exact hlock

/-! ### Runs -/

variable {s : Procs P LoginPoint (CountedDb P)}

/-- **No failure is lost**: in every state reached the row of the key has as its count the
failures committed since the last reset, and the commit of the failure that reaches the
maximum locks the row from when that login began. -/
theorem counted_of_reach (h : (countedRuns settings verifyPassword key).ReachIf
      (fun a s => FailedLogin verifyPassword a s ∧ CountGuarded settings key a s) s) :
    (∃ row, s.shared.db.attempts.committed.get? key = some row ∧
      row.failedCount = s.shared.failures) ∧
      ∀ p s', (countedRuns settings verifyPassword key).step s (p, .statement) s' →
      s.shared.commits key p (s.proc p) .statement = true →
        settings.loginFailedMax ≤ s.shared.failures + 1 →
        ∃ row', s'.shared.db.attempts.committed.get? key = some row' ∧
        row'.lockedUntil = some (s.shared.started p + settings.lockTime) := by
  have hinv := Procs.invariant (I := fun g => g.Agrees key) (Q := CountAt settings key)
    (fun {t} (h0 : CountStart key t) => ⟨h0.row, fun p => by
      rw [h0.idle p]
      exact .idle fun k v hl => by rw [h0.locks] at hl; cases hl⟩)
    (fun hI hAt hok hr => countedNext_own hI (hAt _) hok.1 hok.2 hr)
    (fun _ hAt _ hr hne => countedNext_other (hAt _) hne hr) h
  refine ⟨hinv.1, fun p s' hstep hcommits hmax => ?_⟩
  obtain ⟨counted, hcounted, rfl⟩ := Procs.step_iff.mp hstep
  obtain ⟨r, hr, rfl⟩ := Option.map_eq_some_iff.mp hcounted
  obtain ⟨row, hrow, hleft⟩ := (hinv.2 p).committed hinv.1
  unfold CountedDb.commits at hcommits
  split at hcommits
  · rename_i hpoint
    rw [if_pos hcommits] at hleft
    have hnext : r = (s.shared.db.commit p, .idle) := by
      have hr' : loginNext settings verifyPassword s.shared.db p (s.proc p) .statement = some r :=
        hr
      rw [hpoint] at hr'
      exact (Option.some.inj hr').symm
    subst hnext
    exact ⟨row, hrow, hleft.2 hmax⟩
  · cases hcommits

end Counts

/-! ### Two runs -/

def countedKey : SourceKey := .user "admin"

/-- The address and the user have failed before, and both counts were reset. -/
def resetAttempts : Procs Bool LoginPoint (CountedDb Bool) :=
  ⟨⟨⟨⟨⟨[(.ip "8.8.8.8", ⟨0, none⟩), (.user "admin", ⟨0, none⟩)], by decide⟩, .empty⟩, 0⟩, 0,
    fun _ => 0⟩, fun _ => .idle⟩

theorem countStart_resetAttempts : CountStart countedKey resetAttempts :=
  ⟨fun _ => rfl, rfl, ⟨0, none⟩, rfl, rfl⟩

theorem failedLogin_noPassword (a : Bool × LoginAction)
    (s : Procs Bool LoginPoint (CountedDb Bool)) : FailedLogin noPassword a s := by
  unfold FailedLogin LoginFails
  split
  · rename_i call user _ _
    cases user with
    | none => rfl
    | some user => simp [LoginCall.verified, noPassword]
  · trivial

/-- A recording for the user finds the row as it was read. -/
def countStep (a : Bool × LoginAction) (s : Procs Bool LoginPoint (CountedDb Bool)) : Bool :=
  match s.proc a.1 with
  | .recordUser call _ => call.userAttempt = s.shared.db.attempts.committed.get? countedKey
  | _ => true

theorem countStep_spec {settings : LoginSettings} {a : Bool × LoginAction}
    {s : Procs Bool LoginPoint (CountedDb Bool)} (h : countStep a s = true) :
    FailedLogin noPassword a s ∧ CountGuarded settings countedKey a s := by
  refine ⟨failedLogin_noPassword a s, ?_⟩
  unfold countStep at h
  unfold CountGuarded CountGuard
  split
  · exact fun he => nomatch he
  · rename_i call inserts hp _
    rw [hp] at h
    intro _ row hrow
    rw [of_decide_eq_true h, hrow]
    exact ⟨Or.inl rfl, fun _ ht => ht⟩
  · trivial

/-- Four failures one after the other count, and the fifth locks the user. -/
theorem counted_of_reach_five : ∃ s s' : Procs Bool LoginPoint (CountedDb Bool),
    (countedRuns ⟨5, 10⟩ noPassword countedKey).ReachIf
      (fun a s => FailedLogin noPassword a s ∧ CountGuarded ⟨5, 10⟩ countedKey a s) s ∧
    s.shared.failures = 4 ∧
    (∃ row, s.shared.db.attempts.committed.get? countedKey = some row ∧ row.failedCount = 4) ∧
    (countedRuns ⟨5, 10⟩ noPassword countedKey).step s (true, .statement) s' ∧
    ∃ row', s'.shared.db.attempts.committed.get? countedKey = some row' ∧
    row'.lockedUntil = some 600000000 := by
  have hrun : (Procs.execIf (countedNext ⟨5, 10⟩ noPassword countedKey) countStep resetAttempts
      ((List.replicate 4 (failedLogin false 0)).flatten ++ (failedLogin true 0).dropLast)).map
          (fun s =>
        (s.shared.failures, s.shared.started true,
          s.shared.commits countedKey true (s.proc true) .statement,
          (countedNext ⟨5, 10⟩ noPassword countedKey s.shared true (s.proc true)
          .statement).isSome)) =
      some (4, 0, true, true) := by decide +kernel
  obtain ⟨s, hs, hall⟩ := Option.map_eq_some_iff.mp hrun
  obtain ⟨hfailures, hrest⟩ := Prod.mk.inj hall
  obtain ⟨hstarted, hrest⟩ := Prod.mk.inj hrest
  obtain ⟨hcommits, hnext⟩ := Prod.mk.inj hrest
  obtain ⟨r, hr⟩ := Option.isSome_iff_exists.mp hnext
  have hreach : (countedRuns ⟨5, 10⟩ noPassword countedKey).ReachIf
      (fun a s => FailedLogin noPassword a s ∧ CountGuarded ⟨5, 10⟩ countedKey a s) s :=
    Procs.reach_execIf (.start countStart_resetAttempts) hs fun a _ s hc => countStep_spec hc
  have hstep : (countedRuns ⟨5, 10⟩ noPassword countedKey).step s (true, .statement)
      (s.move true r) :=
    Procs.step_iff.mpr ⟨r, hr, rfl⟩
  obtain ⟨⟨row, hrow, hcount⟩, hlocks⟩ := counted_of_reach hreach
  rw [hfailures] at hcount
  obtain ⟨row', hrow', hlock⟩ := hlocks true _ hstep hcommits (by rw [hfailures]; decide)
  rw [hstarted] at hlock
  exact ⟨s, s.move true r, hreach, hfailures, ⟨row, hrow, hcount⟩, hstep, row', hrow', hlock⟩

/-- Two guesses are both checked before either is recorded: the second to be recorded waits
for the first, and still writes a count of one. -/
theorem failure_lost : ∃ s : Procs Bool LoginPoint (CountedDb Bool),
    (countedRuns ⟨5, 10⟩ noPassword countedKey).ReachIf (FailedLogin noPassword) s ∧
    s.shared.failures = 2 ∧ s.shared.db.attempts.committed.get? countedKey = some ⟨1, none⟩ := by
  have hrun : (Procs.exec (countedNext ⟨5, 10⟩ noPassword countedKey) resetAttempts
      ((failedLogin false 0).take 3 ++ (failedLogin true 0).take 3 ++
        (failedLogin false 0).drop 3 ++ (failedLogin true 0).drop 3)).map (fun s =>
      (s.shared.failures, s.shared.db.attempts.committed.get? countedKey)) =
        some (2, some ⟨1, none⟩) := by decide +kernel
  obtain ⟨s, hs, hall⟩ := Option.map_eq_some_iff.mp hrun
  obtain ⟨hfailures, hrow⟩ := Prod.mk.inj hall
  exact ⟨s, Procs.reach_exec (.start countStart_resetAttempts) hs
    fun a _ t => failedLogin_noPassword a t, hfailures, hrow⟩

end Restock
