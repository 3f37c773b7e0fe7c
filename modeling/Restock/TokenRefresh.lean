/-
# The access token (`saihu/token.py`)

Callers that find no token share one refresh: the first of them starts a background
task with a future, and all of them wait for the future, outside the lock. The task
settles the future and then forgets it, under the lock.

A caller that is cancelled while it waits cancels the future it waits for. As long as
that does not happen, and the row of the token can be read, one refresh runs at a time,
and every caller gets a token that is still good, or what a refresh ended with that was
running when the caller began to wait (`token_of_reach`). Otherwise the others that wait
are cancelled with it, and the next caller starts a second refresh beside the first
(`two_refreshes`).
-/
import Restock.Lib.Processes
import Restock.Lib.Dict

namespace Restock

/-! ### The refresh -/

/-- What the call of the token service leads to. -/
inductive TokenResponse
  | networkError (exc : String)
  | status (code : ℕ)
  | notJson
  /-- An answer, with the fields of `data`; `expires_in` may be no number. -/
  | body (code : ℤ) (msg accessToken : String) (expiresIn : Except String ℤ)

/-- The token and the milliseconds it is good for, or the text of the exception. -/
def TokenResponse.result : TokenResponse → Except String (String × ℤ)
  | .networkError exc => .error ("获取 access_token 网络错误: " ++ exc)
  | .status code => .error ("获取 access_token HTTP 失败: " ++ toString code)
  | .notJson => .error "获取 access_token 返回非 JSON"
  | .body code msg accessToken expiresIn =>
    if code ≠ 0 then .error ("获取 access_token 业务错误: " ++ msg)
    else
      match expiresIn with
      | .error exc => .error exc
      | .ok ms =>
        if accessToken = "" ∨ ms ≤ 0 then .error "赛狐返回 token 字段缺失" else .ok (accessToken, ms)

/-- How a call, or a future, ends. -/
inductive TokenOutcome
  | token (token : String)
  | raised (exc : String)
  | cancelled
deriving DecidableEq, Repr

/-- What a waiter gets of a refresh. -/
def TokenOutcome.ofResult : Except String String → TokenOutcome
  | .ok t => .token t
  | .error exc => .raised exc

/-- Where `_run_refresh` waits. -/
inductive RefreshPoint
  | fetching
  | persisting (token : String) (expiresAt : ℤ)
  /-- `_refresh` has ended; the future is still to be forgotten. -/
  | cleaning (result : Except String String)
  | ended (result : Except String String)

/-- The refresh is not over. -/
def RefreshPoint.running : RefreshPoint → Bool
  | .fetching | .persisting _ _ => true
  | _ => false

/-- What `_refresh` has ended with. -/
def RefreshPoint.outcome : RefreshPoint → Option TokenOutcome
  | .cleaning result | .ended result => some (.ofResult result)
  | _ => none

/-- What a refresh waits for. -/
inductive RefreshEvent
  | response (response : TokenResponse)
  | persisted
  | persistFails (exc : String)
  | cleanup

/-- The manager, the row of the table and the clock, in milliseconds. -/
structure TokenState (C : Type) where
  /-- `_token` and `_expires_at`, which are set together. -/
  cached : Option (String × ℤ)
  lock : Option C
  refreshFuture : Option ℕ
  /-- Each future with its outcome, once it is done. -/
  futures : Dict ℕ (Option TokenOutcome)
  refreshes : Dict ℕ RefreshPoint
  nextFuture : ℕ
  stored : Option (String × ℤ)
  now : ℤ

section Token

variable {C : Type}

/-- The future is not settled. -/
def TokenState.pending (st : TokenState C) (f : ℕ) : Bool := (st.futures.get? f).any Option.isNone

/-- A future is settled once. -/
def TokenState.settle (st : TokenState C) (f : ℕ) (outcome : TokenOutcome) : TokenState C :=
  if st.pending f then { st with futures := st.futures.set f (some outcome) } else st

/-- `_refresh` ends: the future is settled, and waits to be forgotten. -/
def TokenState.finishRefresh (st : TokenState C) (f : ℕ) (result : Except String String) :
    TokenState C :=
  { st.settle f (.ofResult result) with refreshes := st.refreshes.set f (.cleaning result) }

/-- `_run_refresh`, from one `await` to the next. -/
def refreshNext (st : TokenState C) (f : ℕ) (event : RefreshEvent) : Option (TokenState C) :=
  match st.refreshes.get? f, event with
  | some .fetching, .response response =>
    match response.result with
    | .error exc => some (st.finishRefresh f (.error exc))
    | .ok (token, ms) =>
      some { st with
        cached := some (token, st.now + ms)
        refreshes := st.refreshes.set f (.persisting token (st.now + ms)) }
  | some (.persisting token expiresAt), .persisted =>
    some { st.finishRefresh f (.ok token) with stored := some (token, expiresAt) }
  | some (.persisting _ _), .persistFails exc => some (st.finishRefresh f (.error exc))
  | some (.cleaning result), .cleanup =>
    if st.lock.isNone then
      some { st with
        refreshFuture := if st.refreshFuture = some f then none else st.refreshFuture
        refreshes := st.refreshes.set f (.ended result) }
    else none
  | _, _ => none

/-! ### The callers -/

/-- Where a caller stands. -/
inductive TokenPoint
  | idle
  | acquiring (force : Bool)
  /-- In `_load_from_db`, with the lock. -/
  | loading
  | waiting (f : ℕ)
  | done (outcome : TokenOutcome)
deriving DecidableEq, Repr

/-- What a caller does next. -/
inductive TokenAction
  | call (force : Bool)
  | acquire
  | loaded
  | loadFails (exc : String)
  | resume
  | cancel
  | refresh (f : ℕ) (event : RefreshEvent)
  | tick (now : ℤ)

/-- The token in memory, if it is good for longer than the time ahead of which it is
refreshed. -/
def TokenState.goodToken (ahead : ℤ) (st : TokenState C) : Option String :=
  match st.cached with
  | none => none
  | some (token, expiresAt) => if token ≠ "" ∧ ahead < expiresAt - st.now then some token else none

/-- A refresh begins, with a new future. -/
def TokenState.startRefresh (st : TokenState C) : TokenState C :=
  { st with
    refreshFuture := some st.nextFuture
    futures := st.futures.set st.nextFuture none
    refreshes := st.refreshes.set st.nextFuture .fetching
    nextFuture := st.nextFuture + 1 }

/-- `_get_or_start_refresh_locked`. -/
def getOrStartRefreshLocked (st : TokenState C) : TokenState C × ℕ :=
  match st.refreshFuture with
  | some f => if st.pending f then (st, f) else (st.startRefresh, st.nextFuture)
  | none => (st.startRefresh, st.nextFuture)

/-- The caller waits for the future. -/
def TokenState.await (st : TokenState C) : TokenState C × TokenPoint :=
  ((getOrStartRefreshLocked st).1, .waiting (getOrStartRefreshLocked st).2)

/-- `_load_from_db` has read the row, if there is one. The lock is given back with the
answer, or with the future. -/
def TokenState.loadFromDb (st : TokenState C) : TokenState C :=
  { st with lock := none, cached := st.stored.or st.cached }

/-- A caller from one `await` to the next, or a step of a refresh or of the clock. -/
def tokenNext (ahead : ℤ) (st : TokenState C) (p : C) :
    TokenPoint → TokenAction → Option (TokenState C × TokenPoint)
  | .idle, .call force => some (st, .acquiring force)
  | .done _, .call force => some (st, .acquiring force)
  | .acquiring force, .acquire =>
    if st.lock.isNone then
      if force then some st.await
      else
        match st.goodToken ahead with
        | some token => some (st, .done (.token token))
        | none =>
          if st.cached.isNone then some ({ st with lock := some p }, .loading) else some st.await
    else none
  | .loading, .loaded =>
    match st.loadFromDb.goodToken ahead with
    | some token => some (st.loadFromDb, .done (.token token))
    | none => some st.loadFromDb.await
  | .loading, .loadFails exc => some ({ st with lock := none }, .done (.raised exc))
  | .waiting f, .resume =>
    match st.futures.get? f with
    | some (some outcome) => some (st, .done outcome)
    | _ => none
  | .acquiring _, .cancel => some (st, .done .cancelled)
  | .loading, .cancel => some ({ st with lock := none }, .done .cancelled)
  -- cancelling a task that waits for a future cancels the future
  | .waiting f, .cancel => some (st.settle f .cancelled, .done .cancelled)
  | point, .refresh f event => (refreshNext st f event).map fun st => (st, point)
  | point, .tick now => if st.now ≤ now then some ({ st with now := now }, point) else none
  | _, _ => none

/-- The interleavings, from the given states. -/
def tokenRuns [DecidableEq C] (ahead : ℤ) (start : Procs C TokenPoint (TokenState C) → Prop) :
    Lts (Procs C TokenPoint (TokenState C)) (C × TokenAction) :=
  Procs.runs start (tokenNext ahead)

/-! ### What a step does -/

/-- A refresh is running. -/
def TokenState.Running (st : TokenState C) (f : ℕ) :
    Prop := ∃ point, st.refreshes.get? f = some point ∧ point.running = true

/-- The futures are those of the refreshes, and the one that runs is the one that is
handed out. -/
structure TokenState.Sound (st : TokenState C) : Prop where
  future : ∀ f, st.futures.get? f = (st.refreshes.get? f).map RefreshPoint.outcome
  current : ∀ f, st.Running f → st.refreshFuture = some f
  fresh : ∀ f, st.nextFuture ≤ f → st.refreshes.get? f = none

variable {st st' : TokenState C} {p : C} {f : ℕ}

theorem outcome_eq_none {point : RefreshPoint} : point.outcome = none ↔ point.running = true := by
  cases point <;> simp [RefreshPoint.outcome, RefreshPoint.running]

theorem TokenState.Sound.running_iff (h : st.Sound) : st.Running f ↔ st.pending f = true := by
  unfold TokenState.pending
  rw [h.future f]
  cases hf : st.refreshes.get? f with
  | none => exact ⟨fun ⟨point, hp, _⟩ => (by rw [hf] at hp; cases hp), nofun⟩
  | some point =>
    show _ ↔ point.outcome.isNone = true
    rw [Option.isNone_iff_eq_none, outcome_eq_none]
    refine ⟨fun ⟨point', hp, hr⟩ => ?_, fun hr => ⟨point, hf, hr⟩⟩
    obtain rfl := Option.some.inj (hf.symm.trans hp)
    exact hr

/-- A refresh moves on, and its future with it. -/
theorem TokenState.Sound.advance (h : st.Sound) {point point' : RefreshPoint}
    (hf : st.refreshes.get? f = some point) (hrefreshes : st'.refreshes = st.refreshes.set f point')
    (hr : point'.running = true → point.running = true)
    (hfutures : ∀ g, st'.futures.get? g = if g = f then some point'.outcome else st.futures.get? g)
    (hcurrent : ∀ g, st.refreshFuture = some g → (g = f → point'.running = true) →
    st'.refreshFuture = some g) (hnext : st'.nextFuture = st.nextFuture) : st'.Sound := by
  refine ⟨fun g => ?_, fun g ⟨point₁, hg, hrun⟩ => ?_, fun g hg => ?_⟩
  · rw [hfutures g, hrefreshes, Dict.get?_set]
    split_ifs
    · rfl
    · exact h.future g
  · rw [hrefreshes, Dict.get?_set] at hg
    split_ifs at hg with he
    · obtain rfl := Option.some.inj hg
      exact hcurrent g (h.current g ⟨point, he ▸ hf, hr hrun⟩) fun _ => hrun
    · exact hcurrent g (h.current g ⟨point₁, hg, hrun⟩) fun e => absurd e he
  · rw [hrefreshes, Dict.get?_set, if_neg]
    · exact h.fresh g (hnext ▸ hg)
    · rintro rfl
      rw [h.fresh g (hnext ▸ hg)] at hf
      cases hf

/-- The future of a refresh that has not ended yet, or that had ended before. -/
theorem TokenState.Sound.same_future (h : st.Sound) {point point' : RefreshPoint}
    (hf : st.refreshes.get? f = some point) (ho : point'.outcome = point.outcome) (g : ℕ) :
    st.futures.get? g = if g = f then some point'.outcome else st.futures.get? g := by
  split_ifs with he
  · rw [he, h.future f, hf, ho]
    rfl
  · rfl

theorem TokenState.Sound.finishRefresh (h : st.Sound) {point : RefreshPoint}
    (hf : st.refreshes.get? f = some point) (hr : point.running = true)
    (result : Except String String) : (st.finishRefresh f result).Sound := by
  have hp : st.pending f = true := h.running_iff.mp ⟨point, hf, hr⟩
  have heq : st.finishRefresh f result = { st with
      futures := st.futures.set f (some (.ofResult result)), refreshes :=
        st.refreshes.set f (.cleaning result) } := by
    unfold TokenState.finishRefresh TokenState.settle
    rw [if_pos hp]
  rw [heq]
  exact h.advance hf rfl (fun hr => absurd hr Bool.false_ne_true) (fun g => Dict.get?_set _ _ _ _)
    (fun g hg _ => hg) rfl

/-- The background task of a refresh. -/
theorem refreshNext_sound (h : st.Sound) {event : RefreshEvent}
    (hst : refreshNext st f event = some st') : st'.Sound := by
  unfold refreshNext at hst
  split at hst
  · rename_i response hf
    split at hst
    · rw [← Option.some.inj hst]
      exact h.finishRefresh hf rfl _
    · rw [← Option.some.inj hst]
      exact h.advance hf rfl (fun _ => rfl) (h.same_future hf rfl) (fun g hg _ => hg) rfl
  · rename_i token expiresAt hf
    rw [← Option.some.inj hst]
    have hs := h.finishRefresh hf rfl (.ok token)
    exact ⟨hs.future, hs.current, hs.fresh⟩
  · rename_i token expiresAt exc hf
    rw [← Option.some.inj hst]
    exact h.finishRefresh hf rfl _
  · rename_i result hf
    by_cases hlock : st.lock.isNone = true
    · rw [if_pos hlock] at hst
      rw [← Option.some.inj hst]
      refine h.advance hf rfl (fun hr => absurd hr Bool.false_ne_true) (h.same_future hf rfl)
        (fun g hg hne => ?_) rfl
      -- the future of another refresh is not the one that is forgotten
      have hgf : g ≠ f := fun he => absurd (hne he) Bool.false_ne_true
      show (if st.refreshFuture = some f then none else st.refreshFuture) = some g
      rw [hg, if_neg fun he => hgf (Option.some.inj he)]
    · rw [if_neg hlock] at hst
      cases hst
  · cases hst

/-- A caller that has to wait: for the refresh that runs, or for a new one. -/
theorem TokenState.Sound.await (h : st.Sound) :
    st.await.1.Sound ∧ ∃ f, st.await.2 = .waiting f ∧ st.await.1.Running f := by
  have hstart : (∀ g, st.Running g → False) → st.startRefresh.Sound := by
    intro hnone
    refine ⟨fun g => ?_, fun g ⟨point, hg, hrun⟩ => ?_, fun g hg => ?_⟩
    · show (st.futures.set _ _).get? g = ((st.refreshes.set _ _).get? g).map _
      rw [Dict.get?_set, Dict.get?_set]
      split_ifs
      · rfl
      · exact h.future g
    · have hg' : (st.refreshes.set st.nextFuture .fetching).get? g = some point := hg
      rw [Dict.get?_set] at hg'
      split_ifs at hg' with he
      · rw [he]
        rfl
      · exact (hnone g ⟨point, hg', hrun⟩).elim
    · have hg' : st.nextFuture + 1 ≤ g := hg
      show (st.refreshes.set _ _).get? g = none
      rw [Dict.get?_set, if_neg (by omega)]
      exact h.fresh g (by omega)
  have hnew : st.startRefresh.Running st.nextFuture := ⟨.fetching, Dict.get?_set_self _ _ _, rfl⟩
  unfold TokenState.await getOrStartRefreshLocked
  split
  · rename_i f hf
    split_ifs with hp
    · exact ⟨h, f, rfl, h.running_iff.mpr hp⟩
    · refine ⟨hstart fun g hg => ?_, _, rfl, hnew⟩
      -- the one that runs would be the one that is handed out
      have hfg := h.current g hg
      rw [hf] at hfg
      exact hp (Option.some.inj hfg ▸ h.running_iff.mp hg)
  · rename_i hf
    refine ⟨hstart fun g hg => ?_, _, rfl, hnew⟩
    have hfg := h.current g hg
    rw [hf] at hfg
    cases hfg

/-- No caller is cancelled while the future it waits for is pending, and the row of the
token can be read. -/
def TokenGuard (st : TokenState C) (point : TokenPoint) : TokenAction → Prop
  | .cancel => ∀ f, point = .waiting f → st.pending f = false
  | .loadFails _ => False
  | _ => True

/-- The point a caller comes to, with what it has got there. -/
inductive TokenGets (ahead : ℤ) (st : TokenState C) (point : TokenPoint) (action : TokenAction)
    (st' : TokenState C) :
    TokenPoint → Prop
  | same : TokenGets ahead st point action st' point
  | acquiring {force} : TokenGets ahead st point action st' (.acquiring force)
  | loading : TokenGets ahead st point action st' .loading
  | waits {g} : st'.Running g → TokenGets ahead st point action st' (.waiting g)
  | cancelled : action = .cancel → TokenGets ahead st point action st' (.done .cancelled)
  | good {token expiresAt} : st'.cached = some (token, expiresAt) → st'.now + ahead < expiresAt →
      TokenGets ahead st point action st' (.done (.token token))
  | refreshed {g result} : point = .waiting g →
      st.refreshes.get? g = some (.cleaning result) ∨ st.refreshes.get? g = some (.ended result) →
      TokenGets ahead st point action st' (.done (.ofResult result))

variable {ahead : ℤ} {point : TokenPoint} {action : TokenAction} {r : TokenState C × TokenPoint}

theorem goodToken_spec {token : String} (h : st.goodToken ahead = some token) :
    ∃ expiresAt, st.cached = some (token, expiresAt) ∧ st.now + ahead < expiresAt := by
  unfold TokenState.goodToken at h
  split at h
  · cases h
  · rename_i token' expiresAt hcached
    split_ifs at h with hgood
    obtain rfl := Option.some.inj h
    exact ⟨expiresAt, hcached, by omega⟩

/-- An outcome of a future is what its refresh has ended with. -/
theorem TokenState.Sound.ended (h : st.Sound) {outcome : TokenOutcome}
    (hf : st.futures.get? f = some (some outcome)) :
    ∃ result, outcome = .ofResult result ∧
      (st.refreshes.get? f = some (.cleaning result) ∨
        st.refreshes.get? f = some (.ended result)) := by
  rw [h.future f] at hf
  obtain ⟨rp, hrp, ho⟩ := Option.map_eq_some_iff.mp hf
  cases rp with
  | fetching | persisting _ _ => cases ho
  | cleaning result => exact ⟨result, (Option.some.inj ho).symm, Or.inl hrp⟩
  | ended result => exact ⟨result, (Option.some.inj ho).symm, Or.inr hrp⟩

/-- **Every step**: the refreshes stay in order, and the caller comes to one of the
listed points. -/
theorem tokenNext_spec (h : st.Sound) (hok : TokenGuard st point action)
    (hr : tokenNext ahead st p point action = some r) :
    r.1.Sound ∧ TokenGets ahead st point action r.1 r.2 := by
  have hawait : ∀ {st₁ : TokenState C}, st₁.Sound → st₁.await.1.Sound ∧
      TokenGets ahead st point action st₁.await.1 st₁.await.2 := by
    intro st₁ h₁
    obtain ⟨hs, f, hf, hrun⟩ := h₁.await
    rw [hf]
    exact ⟨hs, .waits hrun⟩
  unfold tokenNext at hr
  split at hr
  case h_1 | h_2 =>
    rw [← Option.some.inj hr]
    exact ⟨h, .acquiring⟩
  case h_3 force =>
    split at hr
    · split at hr
      · rw [← Option.some.inj hr]
        exact hawait h
      · split at hr
        · rename_i token htoken
          rw [← Option.some.inj hr]
          obtain ⟨expiresAt, hcached, hgood⟩ := goodToken_spec htoken
          exact ⟨h, .good hcached hgood⟩
        · split at hr
          · rw [← Option.some.inj hr]
            exact ⟨⟨h.future, h.current, h.fresh⟩, .loading⟩
          · rw [← Option.some.inj hr]
            exact hawait h
    · cases hr
  case h_4 =>
    have hload : st.loadFromDb.Sound := ⟨h.future, h.current, h.fresh⟩
    split at hr
    · rename_i token htoken
      rw [← Option.some.inj hr]
      obtain ⟨expiresAt, hcached, hgood⟩ := goodToken_spec htoken
      exact ⟨hload, .good hcached hgood⟩
    · rw [← Option.some.inj hr]
      exact hawait hload
  case h_5 => exact absurd hok (fun h => h)
  case h_6 f =>
    split at hr
    · rename_i outcome hf
      rw [← Option.some.inj hr]
      obtain ⟨result, rfl, hend⟩ := h.ended hf
      exact ⟨h, .refreshed rfl hend⟩
    · cases hr
  case h_7 =>
    rw [← Option.some.inj hr]
    exact ⟨h, .cancelled rfl⟩
  case h_8 =>
    rw [← Option.some.inj hr]
    exact ⟨⟨h.future, h.current, h.fresh⟩, .cancelled rfl⟩
  case h_9 f =>
    have hdone : st.settle f .cancelled = st := by
      unfold TokenState.settle
      rw [hok f rfl, if_neg Bool.false_ne_true]
    rw [← Option.some.inj hr, hdone]
    exact ⟨h, .cancelled rfl⟩
  case h_10 =>
    obtain ⟨st', hst', rfl⟩ := Option.map_eq_some_iff.mp hr
    exact ⟨refreshNext_sound h hst', .same⟩
  case h_11 =>
    split at hr
    · rw [← Option.some.inj hr]
      exact ⟨⟨h.future, h.current, h.fresh⟩, .same⟩
    · cases hr
  case h_12 => cases hr

/-! ### Runs -/

/-- Nobody waits, and no refresh was started. -/
structure TokenStart (s : Procs C TokenPoint (TokenState C)) : Prop where
  idle : ∀ p, s.proc p = .idle
  lock : s.shared.lock = none
  refreshFuture : s.shared.refreshFuture = none
  futures : s.shared.futures = .empty
  refreshes : s.shared.refreshes = .empty

/-- The condition on a step of a run. -/
def TokenGuarded (a : C × TokenAction) (s : Procs C TokenPoint (TokenState C)) : Prop :=
  TokenGuard s.shared (s.proc a.1) a.2

variable [DecidableEq C] {s : Procs C TokenPoint (TokenState C)}

theorem tokenSound_of_reach (h : (tokenRuns ahead TokenStart).ReachIf TokenGuarded s) :
    s.shared.Sound := by
  refine Lts.ReachIf.invariant (I := fun s => s.shared.Sound) (fun hs => ?_) ?_ h
  · refine ⟨fun f => ?_, fun f ⟨rp, hrp, _⟩ => ?_, fun f _ => ?_⟩
    · rw [hs.futures, hs.refreshes]
      rfl
    · rw [hs.refreshes] at hrp
      cases hrp
    · rw [hs.refreshes]
      rfl
  · rintro s ⟨p, a⟩ s' hs hok hst
    obtain ⟨r, hr, rfl⟩ := Procs.step_iff.mp hst
    exact (tokenNext_spec hs hok hr).1

/-- **One refresh at a time, and an answer for every caller**: a caller that begins to
wait waits for a refresh that runs; and what a caller gets is a cancellation of its own,
a token that is still good, or what the refresh it waited for has ended with. -/
theorem token_of_reach (h : (tokenRuns ahead TokenStart).ReachIf TokenGuarded s) :
    (∀ f g, s.shared.Running f → s.shared.Running g → f = g) ∧
    ∀ p a s', TokenGuarded (p, a) s → (tokenRuns ahead TokenStart).step s (p, a) s' →
      s'.proc p ≠ s.proc p → (∀ f, s'.proc p = .waiting f → s'.shared.Running f) ∧
      ∀ outcome, s'.proc p = .done outcome →
        (a = .cancel ∧ outcome = .cancelled) ∨
        (∃ token expiresAt, outcome = .token token ∧ s'.shared.cached = some (token, expiresAt) ∧
          s'.shared.now + ahead < expiresAt) ∨
        ∃ f result, s.proc p = .waiting f ∧ outcome = .ofResult result ∧
          (s.shared.refreshes.get? f = some (.cleaning result) ∨
            s.shared.refreshes.get? f = some (.ended result)) := by
  have hs := tokenSound_of_reach h
  refine ⟨fun f g hf hg => Option.some.inj ((hs.current f hf).symm.trans (hs.current g hg)), ?_⟩
  intro p a s' hok hst hne
  obtain ⟨r, hr, rfl⟩ := Procs.step_iff.mp hst
  obtain ⟨-, hgets⟩ := tokenNext_spec hs hok hr
  rw [Procs.move_proc_self] at hne
  rw [Procs.move_proc_self]
  show (∀ f, r.2 = .waiting f → r.1.Running f) ∧ ∀ outcome, r.2 = .done outcome → _ ∨
    (∃ token expiresAt, _ ∧ r.1.cached = some (token, expiresAt) ∧ r.1.now + ahead < expiresAt) ∨ _
  generalize r.2 = point' at hgets hne
  cases hgets with
  | same => exact absurd rfl hne
  | acquiring | loading => exact ⟨nofun, nofun⟩
  | waits hrun =>
    refine ⟨?_, nofun⟩
    rintro f ⟨⟩
    exact hrun
  | cancelled ha =>
    refine ⟨nofun, ?_⟩
    rintro outcome ⟨⟩
    exact Or.inl ⟨ha, rfl⟩
  | good hcached hgood =>
    refine ⟨nofun, ?_⟩
    rintro outcome ⟨⟩
    exact Or.inr (Or.inl ⟨_, _, rfl, hcached, hgood⟩)
  | refreshed hp hend =>
    refine ⟨nofun, ?_⟩
    rintro outcome ⟨⟩
    exact Or.inr (Or.inr ⟨_, _, hp, rfl, hend⟩)

end Token

/-! ### Two runs -/

def noToken : Procs Bool TokenPoint (TokenState Bool) :=
  ⟨⟨none, none, none, .empty, .empty, 1, none, 0⟩, fun _ => .idle⟩

theorem tokenStart_noToken : TokenStart noToken := ⟨fun _ => rfl, rfl, rfl, rfl, rfl⟩

/-- Two callers that share the first refresh. -/
def sharedRun : List (Bool × TokenAction) :=
  [(false, .call false), (true, .call true), (false, .acquire), (false, .loaded), (true, .acquire)]

/-- The refresh ends with a token, and the second caller gets it. -/
theorem token_of_reach_shared : ∃ s s' : Procs Bool TokenPoint (TokenState Bool),
    (tokenRuns 300000 TokenStart).ReachIf TokenGuarded s ∧
    (tokenRuns 300000 TokenStart).step s (true, .resume) s' ∧ s'.proc true = .done (.token "t") ∧
    s'.proc true ≠ s.proc true ∧ ∃ f result, s.proc true = .waiting f ∧
    TokenOutcome.token "t" = .ofResult result := by
  have hrun : (Procs.exec (tokenNext 300000) noToken (sharedRun ++
      [(false, .refresh 1 (.response (.body 0 "" "t" (.ok 1000)))),
          (false, .refresh 1 .persisted)])).map (fun s =>
      (s.proc true, (tokenNext 300000 s.shared true (s.proc true) .resume).map
        fun r => (r.1.cached, r.1.now, r.2))) =
      some (.waiting 1, some (some ("t", 1000), 0, .done (.token "t"))) := by decide +kernel
  obtain ⟨s, hs, hall⟩ := Option.map_eq_some_iff.mp hrun
  obtain ⟨hwait, hnext⟩ := Prod.mk.inj hall
  obtain ⟨r, hr, hafter⟩ := Option.map_eq_some_iff.mp hnext
  obtain ⟨hcached, hrest⟩ := Prod.mk.inj hafter
  obtain ⟨hnow, hdone⟩ := Prod.mk.inj hrest
  have hreach : (tokenRuns 300000 TokenStart).ReachIf TokenGuarded s := by
    refine Procs.reach_exec (.start tokenStart_noToken) hs fun a ha s => ?_
    simp only [sharedRun, List.mem_append, List.mem_cons, List.not_mem_nil, or_false] at ha
    rcases ha with (rfl | rfl | rfl | rfl | rfl) | rfl | rfl
    all_goals exact trivial
  have hst : (tokenRuns 300000 TokenStart).step s (true, .resume) (s.move true r) :=
    Procs.step_iff.mpr ⟨r, hr, rfl⟩
  have hself : (s.move true r).proc true = .done (.token "t") := by rw [Procs.move_proc_self, hdone]
  have hne : (s.move true r).proc true ≠ s.proc true := by
    rw [hself, hwait]
    nofun
  refine ⟨s, _, hreach, hst, hself, hne, ?_⟩
  rcases ((token_of_reach hreach).2 true .resume _ trivial hst hne).2 _ hself with
    ⟨ha, -⟩ | ⟨token, e, -, hc, hgood⟩ |
    ⟨f, result, hf, ho, -⟩
  · cases ha
  · -- the token is good for a second only
    have hc' : r.1.cached = some (token, e) := hc
    have hgood' : r.1.now + 300000 < e := hgood
    rw [hcached] at hc'
    rw [hnow] at hgood'
    obtain ⟨-, rfl⟩ := Prod.mk.inj (Option.some.inj hc')
    omega
  · exact ⟨f, result, hf, ho⟩

/-- The first of two callers that wait is cancelled and calls again: a second refresh
runs beside the first, and the other caller, whom nobody cancelled, gets a cancellation. -/
theorem two_refreshes :
    ∃ s s' : Procs Bool TokenPoint (TokenState Bool), (tokenRuns 300000 TokenStart).Reach s ∧
    s.shared.Running 1 ∧ s.shared.Running 2 ∧
    (tokenRuns 300000 TokenStart).step s (true, .resume) s' ∧ s'.proc true = .done .cancelled := by
  have hrun : (Procs.exec (tokenNext 300000) noToken (sharedRun ++
      [(false, .cancel), (false, .call true), (false, .acquire)])).map (fun s =>
      (((s.shared.refreshes.get? 1).map RefreshPoint.running,
        (s.shared.refreshes.get? 2).map RefreshPoint.running),
        (tokenNext 300000 s.shared true (s.proc true) .resume).map Prod.snd)) =
      some ((some true, some true), some (.done .cancelled)) := by decide +kernel
  obtain ⟨s, hs, hall⟩ := Option.map_eq_some_iff.mp hrun
  obtain ⟨hrunning, hnext⟩ := Prod.mk.inj hall
  obtain ⟨hfirst, hsecond⟩ := Prod.mk.inj hrunning
  obtain ⟨r, hr, hdone⟩ := Option.map_eq_some_iff.mp hnext
  have hreach : (tokenRuns 300000 TokenStart).Reach s :=
    Procs.reach_exec (.start tokenStart_noToken) hs fun _ _ _ => trivial
  refine ⟨s, s.move true r, hreach, ?_, ?_, Procs.step_iff.mpr ⟨r, hr, rfl⟩, ?_⟩
  · exact Option.map_eq_some_iff.mp hfirst
  · exact Option.map_eq_some_iff.mp hsecond
  · rw [Procs.move_proc_self, hdone]

end Restock
