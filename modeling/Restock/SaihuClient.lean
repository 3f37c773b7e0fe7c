/-
# The client of the Saihu API (`saihu/client.py`)

A call is tried up to `saihu_max_retries` times (`retryingCall`), and once more in full if
its token had run out (`saihuPost`). Every attempt writes a row of the call log
(`doRequest_spec`). Whether the call is queued to be sent again later is settled in that
row, by the number of the attempt alone (`logRow`): the attempt that is the last one and
rate limited is the only one that asks for it, and its error is the error of the call. So
exactly one row is queued if the call ends rate limited, and none otherwise
(`saihuPost_queues`); and what is queued there can be queued again by hand (`queued_refusal`).
-/
import Restock.ApiCallRetry
import Restock.Lib.Retrying

namespace Restock

open Transaction

/-! ### Attempts -/

/-- What an answer says. -/
structure SaihuPayload where
  code : Option ℤ
  msg : Option String
  requestId : Option String
deriving DecidableEq, Repr

/-- What comes of one request: `httpx.RequestError`, a body that is no JSON, or an object. -/
inductive SaihuReply
  | requestError (text : String)
  | invalidJson (httpStatus : ℤ) (text : String)
  | payload (httpStatus : ℤ) (payload : SaihuPayload)
deriving DecidableEq, Repr

/-- An answer, and when it comes. -/
structure SaihuExchange where
  reply : SaihuReply
  now : ℤ
deriving DecidableEq, Repr

/-- What a call fails with. -/
structure SaihuError where
  kind : SaihuErrorKind
  message : String
  code : Option ℤ
  requestId : Option String
deriving DecidableEq, Repr

/-- The `error_type` of a row. -/
inductive CallErrorType
  | network | bizError | authFail | rateLimit
deriving DecidableEq, Repr

/-- A row of the call log as `_log` inserts it. -/
structure LoggedCall where
  endpoint : String
  httpStatus : Option ℤ
  saihuCode : Option ℤ
  saihuMsg : Option String
  requestId : Option String
  errorType : Option CallErrorType
  retryCount : ℤ
  requestPayload : Option RequestPayload
  retryStatus : Option RetryStatus
  nextRetryAt : Option ℤ
  retrySourceLogId : Option ℕ
deriving DecidableEq, Repr

/-- The row as the retries read it; the columns that `_log` does not fill have their defaults. -/
def LoggedCall.stored (row : LoggedCall) : ApiCallLog :=
  ⟨row.endpoint, row.saihuCode, row.requestPayload, row.retryStatus, 0, row.nextRetryAt, none, none,
    row.retrySourceLogId⟩

/-- The arguments of `post`; the body is the text of an object. -/
structure SaihuCall where
  endpointPath : String
  body : Option String
  retryNetworkErrors : Bool
  retrySourceLogId : Option ℕ
  queueRateLimitRetry : Bool
deriving DecidableEq, Repr

/-- The requests that are still to come, how many were made, and the log. -/
structure CallState where
  exchanges : ℕ → SaihuExchange
  asked : ℕ
  log : List LoggedCall

namespace SaihuCall

/-- `body or {}`. -/
def requestPayload (call : SaihuCall) :
    Option RequestPayload := some (.object (call.body.getD "\x7b\x7d"))

/-- `should_queue_retry` of `_log`: a rate limit at the last attempt. -/
def shouldQueueRetry (maxRetries : ℕ) (call : SaihuCall) (attemptNo : ℕ) (saihuCode : Option ℤ) :
    Bool :=
  call.queueRateLimitRetry && call.retrySourceLogId.isNone && saihuCode = some 40019 &&
    call.requestPayload.isSome && decide (maxRetries ≤ attemptNo)

/-- The row that an attempt leaves in the log. -/
def logRow (maxRetries : ℕ) (call : SaihuCall) (attemptNo : ℕ) (now : ℤ) (httpStatus : Option ℤ)
    (saihuCode : Option ℤ) (saihuMsg requestId : Option String) (errorType : Option CallErrorType) :
    LoggedCall where
  endpoint := call.endpointPath
  httpStatus := httpStatus
  saihuCode := saihuCode
  saihuMsg := saihuMsg
  requestId := requestId
  errorType := errorType
  retryCount := attemptNo - 1
  requestPayload := call.requestPayload
  retryStatus := if call.shouldQueueRetry maxRetries attemptNo saihuCode then some .queued else none
  nextRetryAt := if call.shouldQueueRetry maxRetries attemptNo saihuCode then some now else none
  retrySourceLogId := call.retrySourceLogId

end SaihuCall

/-- The remote is asked once more. -/
def nextExchange : Transaction CallState SaihuError SaihuExchange := fun s =>
  (.ok (s.exchanges s.asked), { s with asked := s.asked + 1 })

/-- A row is written to the log. -/
def writeLog (row : LoggedCall) : Transaction CallState SaihuError Unit :=
  change fun s => { s with log := s.log ++ [row] }

/-- `str(value)` of a field that may be missing. -/
def pyStr (value : Option String) : String := value.getD "None"

/-- `_do_request`: one attempt, and its row. -/
def doRequest (maxRetries : ℕ) (call : SaihuCall) (attemptNo : ℕ) :
    Transaction CallState SaihuError SaihuPayload := do
  let exchange ← nextExchange
  match exchange.reply with
  | .requestError text => do
    writeLog (call.logRow maxRetries attemptNo exchange.now none none (some text) none
      (some .network))
    fail ⟨.network, s!"网络错误: {text}", none, none⟩
  | .invalidJson httpStatus text => do
    writeLog (call.logRow maxRetries attemptNo exchange.now (some httpStatus) none
      (some "invalid json") none (some .bizError))
    fail ⟨.biz, s!"赛狐返回非 JSON: {text}", none, none⟩
  | .payload httpStatus payload =>
    if payload.code = some 40001 then do
      writeLog (call.logRow maxRetries attemptNo exchange.now (some httpStatus)
        payload.code payload.msg payload.requestId
        (some .authFail))
      fail ⟨.authExpired, "token 失效", payload.code, payload.requestId⟩
    else if payload.code = some 40019 then do
      writeLog (call.logRow maxRetries attemptNo exchange.now (some httpStatus)
        payload.code payload.msg payload.requestId
        (some .rateLimit))
      fail ⟨.rateLimited, "被限流", payload.code, payload.requestId⟩
    else if payload.code ≠ some 0 then do
      writeLog (call.logRow maxRetries attemptNo exchange.now (some httpStatus)
        payload.code payload.msg payload.requestId
        (some .bizError))
      fail ⟨.biz, s!"赛狐业务错误 code={pyStr (payload.code.map toString)} msg={pyStr payload.msg}",
        payload.code, payload.requestId⟩
    else do
      writeLog (call.logRow maxRetries attemptNo exchange.now (some httpStatus)
        payload.code payload.msg payload.requestId none)
      return payload

/-! ### Calls -/

/-- The errors that are worth another attempt. -/
def SaihuCall.retryTypes (call : SaihuCall) : List SaihuErrorKind :=
  if call.retryNetworkErrors then [.rateLimited, .network] else [.rateLimited]

/-- The call with its retries. -/
def retryingCall (maxRetries : ℕ) (call : SaihuCall) :
    Transaction CallState SaihuError SaihuPayload :=
  retrying maxRetries (fun e => decide (e.kind ∈ call.retryTypes)) (doRequest maxRetries call)

/-- A token that had run out is fetched anew by then: all attempts once more. -/
def saihuPost (maxRetries : ℕ) (call : SaihuCall) : Transaction CallState SaihuError SaihuPayload :=
  catching (fun e => decide (e.kind = .authExpired)) (fun _ => retryingCall maxRetries call)
    (retryingCall maxRetries call)

/-- Nothing has been asked. -/
def CallState.start (exchanges : ℕ → SaihuExchange) : CallState := ⟨exchanges, 0, []⟩

/-- The rows that are queued. -/
def CallState.queued (s : CallState) :
    List LoggedCall := s.log.filter fun row => row.retryStatus = some .queued

section Calls

variable {maxRetries : ℕ} {call : SaihuCall} {attemptNo : ℕ} {s s' : CallState}

/-- The error of a rate-limited call. -/
def IsRateLimited (result : Except SaihuError SaihuPayload) :
    Prop := ∃ e, result = .error e ∧ e.kind = .rateLimited

theorem isRateLimited_error {e : SaihuError} :
    IsRateLimited (.error e) ↔ e.kind = .rateLimited := by
  simp [IsRateLimited]

theorem logRow_queued {now : ℤ} {httpStatus saihuCode : Option ℤ}
    {saihuMsg requestId : Option String} {errorType : Option CallErrorType} :
    (call.logRow maxRetries attemptNo now httpStatus saihuCode saihuMsg requestId
      errorType).retryStatus = some .queued ↔ call.queueRateLimitRetry = true ∧
      call.retrySourceLogId = none ∧ saihuCode = some 40019 ∧ maxRetries ≤ attemptNo := by
  simp [SaihuCall.logRow, SaihuCall.shouldQueueRetry, SaihuCall.requestPayload, and_assoc]

/-- A row that is queued can be queued again by hand: `retry_call` does not refuse it. -/
theorem logRow_refusal {now : ℤ} {httpStatus saihuCode : Option ℤ}
    {saihuMsg requestId : Option String} {errorType : Option CallErrorType}
    (h : (call.logRow maxRetries attemptNo now httpStatus saihuCode saihuMsg requestId
      errorType).retryStatus = some .queued) :
    (call.logRow maxRetries attemptNo now httpStatus saihuCode saihuMsg requestId
      errorType).stored.retryRefusal = none := by
  obtain ⟨-, hsource, hcode, -⟩ := logRow_queued.mp h
  simp only [LoggedCall.stored, h]
  simp [ApiCallLog.retryRefusal, maxAutoRetryAttempts, SaihuCall.logRow, SaihuCall.requestPayload,
    hsource, hcode]

/-- A row, and then its error or its payload. -/
theorem writeLog_fail (row : LoggedCall) (e : SaihuError) :
    (writeLog row >>= fun _ => (fail e : Transaction CallState SaihuError
    SaihuPayload)) s = (.error e, ⟨s.exchanges, s.asked, s.log ++ [row]⟩) := bind_of_ok rfl

theorem writeLog_pure (row : LoggedCall) (payload : SaihuPayload) :
    (writeLog row >>= fun _ => (pure payload : Transaction
    CallState SaihuError SaihuPayload)) s = (.ok payload, ⟨s.exchanges, s.asked, s.log ++ [row]⟩) :=
    bind_of_ok rfl

/-- **One attempt** is one request and one row. The row is queued exactly if the call may be,
the attempt is rate limited, and it is the last one. -/
theorem doRequest_spec {result : Except SaihuError SaihuPayload}
    (h : doRequest maxRetries call attemptNo s = (result, s')) :
    s'.asked = s.asked + 1 ∧ ∃ row, s'.log = s.log ++ [row] ∧
      (row.retryStatus = some .queued ↔ call.queueRateLimitRetry = true ∧
        call.retrySourceLogId = none ∧ IsRateLimited result ∧ maxRetries ≤ attemptNo) ∧
      (row.retryStatus = some .queued → row.stored.retryRefusal = none) := by
  unfold doRequest at h
  rw [bind_of_ok (rfl : nextExchange s =
    (.ok (s.exchanges s.asked), ⟨s.exchanges, s.asked + 1, s.log⟩))] at h
  cases hreply : (s.exchanges s.asked).reply with
  | requestError text =>
    simp only [hreply, writeLog_fail] at h
    obtain ⟨rfl, rfl⟩ := Prod.mk.inj h
    refine ⟨rfl, _, rfl, ?_, logRow_refusal⟩
    simp [logRow_queued, isRateLimited_error]
  | invalidJson httpStatus text =>
    simp only [hreply, writeLog_fail] at h
    obtain ⟨rfl, rfl⟩ := Prod.mk.inj h
    refine ⟨rfl, _, rfl, ?_, logRow_refusal⟩
    simp [logRow_queued, isRateLimited_error]
  | payload httpStatus payload =>
    simp only [hreply] at h
    split_ifs at h with hauth hlimited hbiz
    · rw [writeLog_fail] at h
      obtain ⟨rfl, rfl⟩ := Prod.mk.inj h
      refine ⟨rfl, _, rfl, ?_, logRow_refusal⟩
      simp [logRow_queued, isRateLimited_error, hauth]
    · rw [writeLog_fail] at h
      obtain ⟨rfl, rfl⟩ := Prod.mk.inj h
      refine ⟨rfl, _, rfl, ?_, logRow_refusal⟩
      simp [logRow_queued, isRateLimited_error, hlimited]
    · rw [writeLog_fail] at h
      obtain ⟨rfl, rfl⟩ := Prod.mk.inj h
      refine ⟨rfl, _, rfl, ?_, logRow_refusal⟩
      simp [logRow_queued, isRateLimited_error, hlimited]
    · rw [writeLog_pure] at h
      obtain ⟨rfl, rfl⟩ := Prod.mk.inj h
      refine ⟨rfl, _, rfl, ?_, logRow_refusal⟩
      simp [logRow_queued, IsRateLimited, hlimited]

/-- A row for each request so far, and so many of them queued. -/
structure RowsQueued (s : CallState) (n : ℕ) : Prop where
  rows : s.log.length = s.asked
  queued : s.queued.length = n
  accepted : ∀ row ∈ s.queued, row.stored.retryRefusal = none

theorem rowsQueued_start (exchanges : ℕ → SaihuExchange) : RowsQueued (.start exchanges) 0 :=
  ⟨rfl, rfl, fun _ hrow => absurd hrow List.not_mem_nil⟩

/-- **One attempt** queues a row if it is the last one and rate limited, and no row otherwise. -/
theorem RowsQueued.doRequest {n : ℕ} (hs : RowsQueued s n)
    (hqueue : call.queueRateLimitRetry = true) (hsource : call.retrySourceLogId = none)
    {result : Except SaihuError SaihuPayload}
    (h : Restock.doRequest maxRetries call attemptNo s = (result, s')) :
    (IsRateLimited result ∧ maxRetries ≤ attemptNo → RowsQueued s' (n + 1)) ∧
    (¬ (IsRateLimited result ∧ maxRetries ≤ attemptNo) → RowsQueued s' n) := by
  obtain ⟨hasked, row, hlog, hrow, haccepted⟩ := doRequest_spec h
  have hlen : s'.log.length = s'.asked := by
    rw [hlog, hasked, List.length_append, hs.rows]
    rfl
  have hqueued : s'.queued = s.queued ++ if row.retryStatus = some .queued then [row] else [] := by
    rw [CallState.queued, hlog, List.filter_append, ← CallState.queued]
    split_ifs with hq <;> simp [hq]
  constructor
  · intro hlast
    have hq := hrow.mpr ⟨hqueue, hsource, hlast⟩
    rw [if_pos hq] at hqueued
    refine ⟨hlen, by rw [hqueued, List.length_append, hs.queued]; rfl, fun r hr => ?_⟩
    rcases List.mem_append.mp (hqueued ▸ hr) with hr | hr
    · exact hs.accepted r hr
    · exact List.mem_singleton.mp hr ▸ haccepted hq
  · intro hnot
    rw [if_neg (fun hq => hnot (hrow.mp hq).2.2), List.append_nil] at hqueued
    exact ⟨hlen, hqueued ▸ hs.queued, hqueued ▸ hs.accepted⟩

/-- What a call leaves behind: one queued row if it ends rate limited, none otherwise. -/
def QueuedIfLimited (result : Except SaihuError SaihuPayload) (s : CallState) : Prop :=
  (IsRateLimited result → RowsQueued s 1) ∧ (¬ IsRateLimited result → RowsQueued s 0)

/-- **All attempts**: an attempt that is followed by another is not the last one, so it
queues nothing; the last one queues a row if its error is that of a rate limit. -/
theorem retryingCall_spec (maxRetries : ℕ) (hs : RowsQueued s 0)
    (hqueue : call.queueRateLimitRetry = true) (hsource : call.retrySourceLogId = none) :
    QueuedIfLimited (retryingCall maxRetries call s).1 (retryingCall maxRetries call s).2 := by
  apply retrying_rule (P := fun _ s => RowsQueued s 0) (Q := QueuedIfLimited) _ hs
  constructor
  · intro n s a s' hP h
    have hok : ¬ IsRateLimited (.ok a) := by simp [IsRateLimited]
    exact ⟨fun hl => absurd hl hok, fun _ => (hP.doRequest hqueue hsource h).2 fun hl => hok hl.1⟩
  · intro n s e s' hP h hlast
    obtain ⟨hlimited, hnot⟩ := hP.doRequest hqueue hsource h
    refine ⟨fun hl => hlimited ⟨hl, ?_⟩, fun hl => hnot fun h' => hl h'.1⟩
    rcases hlast with hno | hstop
    · -- a rate limit is always worth another attempt
      have hkind := isRateLimited_error.mp hl
      have hmem : SaihuErrorKind.rateLimited ∈ call.retryTypes := by
        unfold SaihuCall.retryTypes
        split_ifs <;> simp
      simp [hkind, hmem] at hno
    · exact hstop
  · intro n s e s' hP h _ hlt
    exact (hP.doRequest hqueue hsource h).2 fun hl => by omega

/-- **A call** of one round or two. -/
theorem saihuPost_spec (maxRetries : ℕ) (exchanges : ℕ → SaihuExchange)
    (hqueue : call.queueRateLimitRetry = true) (hsource : call.retrySourceLogId = none) :
    QueuedIfLimited (saihuPost maxRetries call (.start exchanges)).1
    (saihuPost maxRetries call (.start exchanges)).2 := by
  have hround := retryingCall_spec maxRetries (rowsQueued_start exchanges) hqueue hsource
  apply catching_rule
  · intro r s' hr _
    rw [hr] at hround
    exact hround
  · -- the second round begins with no row queued: the first ended for want of a token
    intro e s' hr hcaught
    rw [hr] at hround
    have hkind : e.kind = .authExpired := by simpa using hcaught
    have hnot : ¬ IsRateLimited (.error e) := by
      rw [isRateLimited_error, hkind]
      decide
    exact retryingCall_spec maxRetries (hround.2 hnot) hqueue hsource

/-- What a call queues, `retry_call` takes. -/
theorem queued_refusal (maxRetries : ℕ) (exchanges : ℕ → SaihuExchange)
    (hqueue : call.queueRateLimitRetry = true) (hsource : call.retrySourceLogId = none) :
    ∀ row ∈ (saihuPost maxRetries call (.start exchanges)).2.queued,
    row.stored.retryRefusal = none := by
  have hpost := saihuPost_spec maxRetries exchanges hqueue hsource
  by_cases hl : IsRateLimited (saihuPost maxRetries call (.start exchanges)).1
  · exact (hpost.1 hl).accepted
  · exact (hpost.2 hl).accepted

end Calls

/-- **Exactly the exhausted rate-limited calls are queued.** Whatever comes of the requests,
a call that may be queued writes one row for each of them, and queues one row if it ends
rate limited, none otherwise. -/
theorem saihuPost_queues (maxRetries : ℕ) (call : SaihuCall) (exchanges : ℕ → SaihuExchange)
    (hqueue : call.queueRateLimitRetry = true) (hsource : call.retrySourceLogId = none) :
    (saihuPost maxRetries call (.start exchanges)).2.log.length =
    (saihuPost maxRetries call (.start exchanges)).2.asked ∧
      (IsRateLimited (saihuPost maxRetries call (.start exchanges)).1 →
      (saihuPost maxRetries call (.start exchanges)).2.queued.length = 1) ∧
    (¬ IsRateLimited (saihuPost maxRetries call (.start exchanges)).1 →
      (saihuPost maxRetries call (.start exchanges)).2.queued = []) := by
  have hpost := saihuPost_spec maxRetries exchanges hqueue hsource
  by_cases hl : IsRateLimited (saihuPost maxRetries call (.start exchanges)).1
  · have hrows := hpost.1 hl
    exact ⟨hrows.rows, fun _ => hrows.queued, fun hnot => absurd hl hnot⟩
  · have hrows := hpost.2 hl
    exact ⟨hrows.rows, fun h => absurd h hl, fun _ => List.length_eq_zero_iff.mp hrows.queued⟩

/-- Rate limited, a token that had run out, then rate limited to the end. -/
def limitedExchanges (n : ℕ) : SaihuExchange :=
  ⟨.payload 200 ⟨if n = 1 then some 40001 else some 40019, none, none⟩, n⟩

def shopCall : SaihuCall := ⟨"/api/shop/pageList.json", none, true, none, true⟩

theorem saihuPost_queues_two_rounds : (saihuPost 2 shopCall (.start limitedExchanges)).2.asked = 4 ∧
    (saihuPost 2 shopCall (.start limitedExchanges)).2.log.length = 4 ∧
    (saihuPost 2 shopCall (.start limitedExchanges)).2.queued.length = 1 := by
  have h := saihuPost_queues 2 shopCall limitedExchanges rfl rfl
  have hasked : (saihuPost 2 shopCall (.start limitedExchanges)).2.asked = 4 := rfl
  exact ⟨hasked, h.1.trans hasked, h.2.1 ⟨_, rfl, rfl⟩⟩

end Restock
