/-
# The rate limiter (`core/rate_limit.py`)

The limiter keeps, for each client, the times of its admitted requests (`_requests`) and
the last of them (`_last_seen`). A request refreshes the list of its client, and now and
then all lists (`pruneExpired`), so that only the times of the window that ends now are
left; it is refused if `max_requests` are, and admitted otherwise, after the clients seen
longest ago have made room for a new one (`ensureCapacity`).

Both dictionaries are always about the same clients (`RateLimiter.Sound`), and no more of
them than allowed. What is kept of a client is part of its admitted times, and, unless it
was evicted, all that still counts of them (`Kept`): so its admitted times obey the limit
in every window, and it is refused only when the window before is full
(`rateLimiter_invariants`).
-/
import Restock.Lib.Dict
import Restock.Lib.SlidingWindow

namespace Restock

open SlidingWindow

/-! ### The middleware -/

/-- The settings of the limiter. -/
structure RateLimits where
  maxRequests : ℕ
  windowSeconds : ℤ
  maxTrackedClients : ℕ
  pruneIntervalSeconds : Option ℤ
deriving DecidableEq, Repr

/-- `prune_interval_seconds or max(window_seconds, 60)`. -/
def RateLimits.pruneInterval (limits : RateLimits) : ℤ :=
  (limits.pruneIntervalSeconds.filter (· ≠ 0)).getD (max limits.windowSeconds 60)

/-- The state of the limiter. -/
structure RateLimiter where
  requests : Dict String (List ℚ)
  lastSeen : Dict String ℚ
  nextPruneAt : ℚ
deriving DecidableEq

/-- No client so far. -/
def RateLimiter.new : RateLimiter := ⟨.empty, .empty, 0⟩

/-- A request: `clientIp` is what `_get_client_ip` reads from it, `now` the clock. -/
structure TimedRequest where
  path : String
  clientIp : String
  now : ℚ
deriving DecidableEq, Repr

/-- The paths without a limit. -/
def exemptPaths : List String := ["/healthz", "/readyz"]

/-- What becomes of a request. -/
inductive Verdict
  | exempt | admitted | refused
deriving DecidableEq, Repr

/-- A request that was answered, and the clients it evicted. -/
structure Served where
  request : TimedRequest
  verdict : Verdict
  evicted : List String
deriving DecidableEq, Repr

namespace RateLimiter

/-- Both `pop(client_ip, None)`. -/
def forget (s : RateLimiter) (clientIp : String) : RateLimiter :=
  { s with requests := s.requests.pop clientIp, lastSeen := s.lastSeen.pop clientIp }

/-- `if active: ...`. -/
def keepActive (s : RateLimiter) (clientIp : String) (active : List ℚ) : RateLimiter :=
  match active.getLast? with
  | some last =>
    { s with requests := s.requests.set clientIp active, lastSeen := s.lastSeen.set clientIp last }
  | none => s

/-- The clients without a recent request are forgotten. -/
def pruneExpired (limits : RateLimits) (s : RateLimiter) (now : ℚ) : RateLimiter :=
  let expired := s.requests.items.filter fun item =>
    recent (limits.windowSeconds : ℚ) now item.2 = []
  let kept := s.requests.items.foldl
    (fun s item => s.keepActive item.1 (recent (limits.windowSeconds : ℚ) now item.2)) s
  { (expired.map Prod.fst).foldl forget kept with nextPruneAt := now + limits.pruneInterval }

/-- How many clients are too many. -/
def overflow (limits : RateLimits) (s : RateLimiter) (requiredSlots : ℕ) : ℤ :=
  s.requests.keys.length + requiredSlots - limits.maxTrackedClients

/-- The clients seen longest ago. -/
def evictedClients (limits : RateLimits) (s : RateLimiter) (requiredSlots : ℕ) : List String :=
  ((s.lastSeen.items.insertionSort fun a b => a.2 ≤ b.2).take
    (s.overflow limits requiredSlots).toNat).map Prod.fst

/-- The state, and the names of the clients that went. -/
def ensureCapacity (limits : RateLimits) (s : RateLimiter) (requiredSlots : ℕ) :
    RateLimiter × List String :=
  if s.overflow limits requiredSlots ≤ 0 then (s, [])
  else ((s.evictedClients limits requiredSlots).foldl forget s,
    s.evictedClients limits requiredSlots)

/-- The list of the client, and before it all lists if it is time. -/
def refresh (limits : RateLimits) (s : RateLimiter) (request : TimedRequest) :
    RateLimiter × List ℚ :=
  let s := if s.nextPruneAt ≤ request.now then s.pruneExpired limits request.now else s
  let active := recent (limits.windowSeconds : ℚ) request.now (s.requests.getD request.clientIp [])
  (if active = [] then s.forget request.clientIp else s.keepActive request.clientIp active, active)

/-- `self._requests[client_ip].append(now)` and `self._last_seen[client_ip] = now`. -/
def admitRequest (s : RateLimiter) (clientIp : String) (now : ℚ) : RateLimiter :=
  { s with requests := s.requests.set clientIp (s.requests.getD clientIp [] ++ [now]),
           lastSeen := s.lastSeen.set clientIp now }

/-- A request is served. -/
def dispatch (limits : RateLimits) (s : RateLimiter) (request : TimedRequest) :
    RateLimiter × Served :=
  if exemptPaths.any fun path => path.toList.isPrefixOf request.path.toList then
    (s, ⟨request, .exempt, []⟩)
  else
    let (s, active) := s.refresh limits request
    if limits.maxRequests ≤ active.length then (s, ⟨request, .refused, []⟩)
    else
      let (s, evicted) := if s.requests.get? request.clientIp = none then s.ensureCapacity limits 1
        else (s, [])
      (s.admitRequest request.clientIp request.now, ⟨request, .admitted, evicted⟩)

/-- The requests one after the other. -/
def serveAll (limits : RateLimits) (requests : List TimedRequest) : RateLimiter × List Served :=
  requests.foldl (fun run request =>
    let (s, served) := run.1.dispatch limits request
    (s, run.2 ++ [served])) (new, [])

end RateLimiter

/-- The times at which a client was admitted. -/
def admittedTimes (served : List Served) (clientIp : String) : List ℚ :=
  (served.filter fun e => e.verdict = .admitted ∧ e.request.clientIp = clientIp).map fun e =>
    e.request.now

/-- `_ensure_capacity` never dropped the client. -/
def NeverEvicted (served : List Served) (clientIp : String) :
    Prop := ∀ e ∈ served, clientIp ∉ e.evicted

instance (served : List Served) (clientIp : String) : Decidable (NeverEvicted served clientIp) :=
  inferInstanceAs (Decidable (∀ e ∈ served, clientIp ∉ e.evicted))

namespace RateLimiter

variable {limits : RateLimits} {s : RateLimiter} {clientIp c : String} {now : ℚ}

/-! ### What is kept of a client -/

/-- The kept times of a client; none for a client that is not tracked. -/
def held (s : RateLimiter) (c : String) : List ℚ := s.requests.getD c []

/-- Both dictionaries are about the same clients, each with a last time. -/
structure Sound (s : RateLimiter) : Prop where
  nonempty : ∀ c, s.requests.get? c ≠ some []
  lastSeen : ∀ c, s.lastSeen.get? c = (s.held c).getLast?

theorem Sound.get?_requests (h : s.Sound) (c : String) :
    s.requests.get? c = if s.held c = [] then none else some (s.held c) := by
  have hne := h.nonempty c
  unfold held Dict.getD
  cases hc : s.requests.get? c with
  | none => simp
  | some times =>
    rw [hc] at hne
    simp [show times ≠ [] from fun e => hne (by rw [e])]

theorem Sound.mem_keys (h : s.Sound) : c ∈ s.requests.keys ↔ s.held c ≠ [] := by
  rw [Dict.mem_keys_iff, h.get?_requests c]
  by_cases hc : s.held c = [] <;> simp [hc]

theorem Sound.mem_lastSeen (h : s.Sound) : c ∈ s.lastSeen.keys ↔ s.held c ≠ [] := by
  rw [Dict.mem_keys_iff, h.lastSeen c]
  cases hc : s.held c with
  | nil => simp
  | cons t times =>
    simp only [ne_eq, reduceCtorEq, not_false_eq_true, iff_true]
    exact ⟨_, List.getLast?_eq_some_getLast (List.cons_ne_nil t times)⟩

theorem Sound.mem_keys_iff (h : s.Sound) : c ∈ s.requests.keys ↔ c ∈ s.lastSeen.keys :=
  h.mem_keys.trans h.mem_lastSeen.symm

/-- A state that tracks no other clients has no more of them. -/
theorem Sound.length_le {s' : RateLimiter} (h : s.Sound) (h' : s'.Sound)
    (hsub : ∀ c, s'.held c ≠ [] → s.held c ≠ []) :
    s'.requests.keys.length ≤ s.requests.keys.length := by
  apply List.Subperm.length_le
  apply List.subperm_of_subset s'.requests.nodup
  exact fun c hc => h.mem_keys.mpr (hsub c (h'.mem_keys.mp hc))

theorem sound_new : new.Sound := ⟨fun _ => by simp [new], fun _ => rfl⟩

theorem held_forget (s : RateLimiter) (clientIp c : String) :
    (s.forget clientIp).held c = if c = clientIp then [] else s.held c := by
  unfold held forget Dict.getD
  rw [Dict.get?_pop]
  split_ifs <;> rfl

theorem Sound.forget (h : s.Sound) (clientIp : String) : (s.forget clientIp).Sound := by
  constructor
  · intro c
    show (s.requests.pop clientIp).get? c ≠ some []
    rw [Dict.get?_pop]
    split_ifs
    · exact fun e => by cases e
    · exact h.nonempty c
  · intro c
    rw [held_forget]
    show (s.lastSeen.pop clientIp).get? c = _
    rw [Dict.get?_pop]
    split_ifs
    · rfl
    · exact h.lastSeen c

/-- Setting the times of a client, the last of them as the time it was seen. -/
def withTimes (s : RateLimiter) (clientIp : String) (times : List ℚ) (last : ℚ) : RateLimiter :=
  { s with requests := s.requests.set clientIp times, lastSeen := s.lastSeen.set clientIp last }

theorem held_withTimes (s : RateLimiter) (clientIp c : String) (times : List ℚ) (last : ℚ) :
    (s.withTimes clientIp times last).held c = if c = clientIp then times else s.held c := by
  unfold held withTimes Dict.getD
  rw [Dict.get?_set]
  split_ifs <;> rfl

theorem Sound.withTimes (h : s.Sound) (clientIp : String) {times : List ℚ} {last : ℚ}
    (hlast : times.getLast? = some last) : (s.withTimes clientIp times last).Sound := by
  have hne : times ≠ [] := by
    rintro rfl
    cases hlast
  constructor
  · intro c
    show (s.requests.set clientIp times).get? c ≠ some []
    rw [Dict.get?_set]
    split_ifs
    · exact fun e => hne (Option.some.inj e)
    · exact h.nonempty c
  · intro c
    rw [held_withTimes]
    show (s.lastSeen.set clientIp last).get? c = _
    rw [Dict.get?_set]
    split_ifs
    · exact hlast.symm
    · exact h.lastSeen c

/-- One client more at most, -/
theorem Sound.length_withTimes_le (h : s.Sound) (clientIp : String) {times : List ℚ} {last : ℚ}
    (hlast : times.getLast? = some last) :
    (s.withTimes clientIp times last).requests.keys.length ≤ s.requests.keys.length + 1 := by
  have hkeys := h.withTimes clientIp hlast
  have hnd : (s.withTimes clientIp times last).requests.keys.Nodup := Dict.nodup _
  rw [← List.length_cons (a := clientIp)]
  apply (List.subperm_of_subset hnd _).length_le
  intro c hc
  rw [hkeys.mem_keys, held_withTimes] at hc
  split_ifs at hc with hcc
  · exact hcc ▸ List.mem_cons_self
  · exact List.mem_cons_of_mem _ (h.mem_keys.mpr hc)

/-- and none if it is tracked already. -/
theorem Sound.length_withTimes_of_mem (h : s.Sound) {times : List ℚ} {last : ℚ}
    (hlast : times.getLast? = some last) (hmem : clientIp ∈ s.requests.keys) :
    (s.withTimes clientIp times last).requests.keys.length ≤ s.requests.keys.length := by
  apply h.length_le (h.withTimes clientIp hlast)
  intro c hc
  rw [held_withTimes] at hc
  split_ifs at hc with hcc
  · exact h.mem_keys.mp (hcc ▸ hmem)
  · exact hc

theorem keepActive_of_ne_nil {active : List ℚ} (h : active ≠ []) :
    s.keepActive clientIp active = s.withTimes clientIp active (active.getLast h) := by
  unfold keepActive
  rw [List.getLast?_eq_some_getLast h]
  rfl

theorem held_keepActive (s : RateLimiter) (clientIp c : String) (active : List ℚ) :
    (s.keepActive clientIp active).held c = if c = clientIp ∧ active ≠ [] then active
    else s.held c := by
  by_cases hne : active = []
  · simp [hne, keepActive]
  · rw [keepActive_of_ne_nil hne, held_withTimes]
    simp [hne]

theorem Sound.keepActive (h : s.Sound) (clientIp : String) (active : List ℚ) :
    (s.keepActive clientIp active).Sound := by
  by_cases hne : active = []
  · rw [hne]
    exact h
  · rw [keepActive_of_ne_nil hne]
    exact h.withTimes clientIp (List.getLast?_eq_some_getLast hne)

theorem admit_eq (s : RateLimiter) (clientIp : String) (now : ℚ) :
    s.admitRequest clientIp now = s.withTimes clientIp (s.held clientIp ++ [now]) now := rfl

/-! ### The loops -/

theorem Sound.foldl_forget (h : s.Sound) (names : List String) :
    (names.foldl RateLimiter.forget s).Sound := by
  induction names generalizing s with
  | nil => exact h
  | cons name names ih => exact ih (h.forget name)

theorem held_foldl_forget (names : List String) (s : RateLimiter) (c : String) :
    (names.foldl RateLimiter.forget s).held c = if c ∈ names then [] else s.held c := by
  induction names generalizing s with
  | nil => simp
  | cons name names ih =>
    rw [List.foldl_cons, ih, held_forget]
    by_cases h1 : c ∈ names <;> by_cases h2 : c = name <;> simp [h1, h2]

theorem Sound.foldl_keepActive (h : s.Sound) (f : List ℚ → List ℚ)
    (items : List (String × List ℚ)) :
    (items.foldl (fun s item => s.keepActive item.1 (f item.2)) s).Sound := by
  induction items generalizing s with
  | nil => exact h
  | cons item items ih => exact ih (h.keepActive item.1 (f item.2))

/-- The first loop of the pruning leaves the clients that are not listed. -/
theorem held_foldl_keepActive_of_not_mem (f : List ℚ → List ℚ) :
    ∀ (items : List (String × List ℚ)) (s : RateLimiter), c ∉ items.map Prod.fst →
    (items.foldl (fun s item => s.keepActive item.1 (f item.2)) s).held c = s.held c
  | [], _, _ => rfl
  | item :: items, s, hc => by
    obtain ⟨hne, hrest⟩ : c ≠ item.1 ∧ c ∉ items.map Prod.fst := by simpa using hc
    rw [List.foldl_cons, held_foldl_keepActive_of_not_mem f items _ hrest, held_keepActive,
      if_neg (fun h => hne h.1)]

/-- A listed client with something left has that, at the end of the loop too. -/
theorem held_foldl_keepActive (f : List ℚ → List ℚ) :
    ∀ (items : List (String × List ℚ)) (s : RateLimiter) {times : List ℚ},
    (items.map Prod.fst).Nodup → (c, times) ∈ items → f times ≠ [] →
    (items.foldl (fun s item => s.keepActive item.1 (f item.2)) s).held c = f times
  | [], _, _, _, hm, _ => by simp at hm
  | item :: items, s, times, hnd, hm, hf => by
    obtain ⟨hnew, hrest⟩ : item.1 ∉ items.map Prod.fst ∧ (items.map Prod.fst).Nodup :=
      List.nodup_cons.mp hnd
    rw [List.foldl_cons]
    rcases List.mem_cons.mp hm with rfl | hm
    · rw [held_foldl_keepActive_of_not_mem f items _ hnew, held_keepActive, if_pos ⟨rfl, hf⟩]
    · exact held_foldl_keepActive f items _ hrest hm hf

theorem Sound.pruneExpired (h : s.Sound) (limits : RateLimits) (now : ℚ) :
    (s.pruneExpired limits now).Sound := by
  have hs : ∀ names : List String, (names.foldl RateLimiter.forget (s.requests.items.foldl
      (fun s item => s.keepActive item.1 (recent (limits.windowSeconds : ℚ) now item.2))
          s)).Sound :=
    fun names => (h.foldl_keepActive _ _).foldl_forget names
  exact ⟨(hs _).nonempty, (hs _).lastSeen⟩

/-- Pruning leaves of every client what still counts. -/
theorem held_pruneExpired (s : RateLimiter) (limits : RateLimits) (now : ℚ) (c : String) :
    (s.pruneExpired limits now).held c = recent (limits.windowSeconds : ℚ) now (s.held c) := by
  show (List.foldl RateLimiter.forget _ _).held c = _
  rw [held_foldl_forget]
  cases hc : s.requests.get? c with
  | none =>
    have hkeys : c ∉ s.requests.items.map Prod.fst := Dict.get?_eq_none_iff.mp hc
    have hheld : s.held c = [] := by simp [held, Dict.getD, hc]
    rw [held_foldl_keepActive_of_not_mem _ _ _ hkeys, hheld, ite_self]
    rfl
  | some times =>
    have hmem : (c, times) ∈ s.requests.items := Dict.get?_eq_some_iff.mp hc
    have hheld : s.held c = times := by simp [held, Dict.getD, hc]
    rw [hheld]
    by_cases hnone : recent (limits.windowSeconds : ℚ) now times = []
    · rw [if_pos, hnone]
      exact List.mem_map_of_mem (f := Prod.fst) (List.mem_filter.mpr ⟨hmem, by simpa using hnone⟩)
    · rw [if_neg, held_foldl_keepActive _ _ _ s.requests.nodup hmem hnone]
      intro hexp
      obtain ⟨⟨c', times'⟩, hm', rfl⟩ := List.mem_map.mp hexp
      obtain ⟨hm', hnone'⟩ := List.mem_filter.mp hm'
      have hget : s.requests.get? c' = some times' := Dict.get?_eq_some_iff.mpr hm'
      rw [hc] at hget
      obtain rfl := Option.some.inj hget
      exact hnone (by simpa using hnone')

/-! ### Making room -/

theorem ensureCapacity_eq (limits : RateLimits) (s : RateLimiter) (n : ℕ) :
    s.ensureCapacity limits n =
    ((s.evictedClients limits n).foldl forget s, s.evictedClients limits n) := by
  unfold ensureCapacity
  split_ifs with h
  · have hnone : s.evictedClients limits n = [] := by
      rw [evictedClients, Int.toNat_of_nonpos h]
      rfl
    rw [hnone]
    rfl
  · rfl

theorem held_ensureCapacity (limits : RateLimits) (s : RateLimiter) (n : ℕ) (c : String) :
    (s.ensureCapacity limits n).1.held c = if c ∈ (s.ensureCapacity limits n).2 then []
    else s.held c := by
  rw [ensureCapacity_eq]
  exact held_foldl_forget _ _ _

theorem Sound.ensureCapacity (h : s.Sound) (limits : RateLimits) (n : ℕ) :
    (s.ensureCapacity limits n).1.Sound := by
  rw [ensureCapacity_eq]
  exact h.foldl_forget _

/-- The clients that go are tracked, and no more than have to. -/
theorem Sound.evictedClients_spec (h : s.Sound) (hcap : 1 ≤ limits.maxTrackedClients) :
    (s.evictedClients limits 1).Nodup ∧ (∀ c ∈ s.evictedClients limits 1, c ∈ s.requests.keys) ∧
    (s.evictedClients limits 1).length = (s.overflow limits 1).toNat := by
  have hperm : ((s.lastSeen.items.insertionSort fun a b => a.2 ≤ b.2).map Prod.fst).Perm
      s.lastSeen.keys :=
    (List.perm_insertionSort _ _).map _
  have htake : (s.evictedClients limits 1).Sublist
      ((s.lastSeen.items.insertionSort fun a b => a.2 ≤ b.2).map Prod.fst) :=
    (List.take_sublist _ _).map _
  have hsize : s.lastSeen.keys.length = s.requests.keys.length := by
    apply List.Perm.length_eq
    exact (List.perm_ext_iff_of_nodup s.lastSeen.nodup s.requests.nodup).mpr fun c =>
      h.mem_keys_iff.symm
  refine ⟨(hperm.nodup_iff.mpr s.lastSeen.nodup).sublist htake, fun c hc => ?_, ?_⟩
  · exact h.mem_keys_iff.mpr (hperm.mem_iff.mp (htake.mem hc))
  · have hlen := hperm.length_eq
    rw [List.length_map, hsize] at hlen
    rw [evictedClients, List.length_map, List.length_take, hlen, overflow]
    push_cast
    omega

/-- There is room for one more client afterwards. -/
theorem Sound.length_ensureCapacity (h : s.Sound) (hcap : 1 ≤ limits.maxTrackedClients) :
    (s.ensureCapacity limits 1).1.requests.keys.length + 1 ≤ limits.maxTrackedClients := by
  have hs' := h.ensureCapacity limits 1
  have hheld := held_ensureCapacity limits s 1
  obtain ⟨hnd, hmem, hcount⟩ := h.evictedClients_spec hcap
  rw [ensureCapacity_eq] at hs' hheld ⊢
  simp only at hs' hheld ⊢
  -- what is left and what went are different clients, all of them tracked before
  have hall : (((s.evictedClients limits 1).foldl RateLimiter.forget s).requests.keys ++
      s.evictedClients limits 1).length ≤ s.requests.keys.length := by
    apply List.Subperm.length_le
    apply List.subperm_of_subset
    · refine List.Nodup.append (Dict.nodup _) hnd fun c hc hc' => ?_
      rw [hs'.mem_keys, hheld, if_pos hc'] at hc
      exact hc rfl
    · intro c hc
      rcases List.mem_append.mp hc with hc | hc
      · rw [hs'.mem_keys, hheld] at hc
        split_ifs at hc with hin
        · exact absurd rfl hc
        · exact h.mem_keys.mpr hc
      · exact hmem c hc
  rw [List.length_append, hcount, overflow] at hall
  push_cast at hall
  omega

/-! ### One request -/

/-- Of every client some times are left, among them all that still count. -/
def Trims (limits : RateLimits) (now : ℚ) (s s' : RateLimiter) : Prop :=
  ∀ c, (s'.held c).Sublist (s.held c) ∧
    (recent (limits.windowSeconds : ℚ) now (s.held c)).Sublist (s'.held c)

theorem Trims.held_ne_nil {s' : RateLimiter} (h : Trims limits now s s') {c : String}
    (hc : s'.held c ≠ []) : s.held c ≠ [] :=
  fun hnil => hc (List.eq_nil_of_sublist_nil (hnil ▸ (h c).1))

/-- The lists that are pruned if it is time. -/
theorem pruned_spec (h : s.Sound) (limits : RateLimits) (now : ℚ) {s' : RateLimiter}
    (hs' : s' = if s.nextPruneAt ≤ now then s.pruneExpired limits now else s) :
    s'.Sound ∧ Trims limits now s s' ∧
    ∀ c, recent (limits.windowSeconds : ℚ) now (s'.held c) = recent (limits.windowSeconds : ℚ) now
    (s.held c) := by
  split_ifs at hs' with hdue
  · have hheld : ∀ c, s'.held c = recent (limits.windowSeconds : ℚ) now (s.held c) := by
      intro c
      rw [hs', held_pruneExpired]
    refine ⟨hs' ▸ h.pruneExpired limits now, fun c => ?_, fun c => ?_⟩
    · rw [hheld]
      exact ⟨recent_sublist _ _ _, List.Sublist.refl _⟩
    · rw [hheld, recent_recent le_rfl]
  · rw [hs']
    exact ⟨h, fun c => ⟨List.Sublist.refl _, recent_sublist _ _ _⟩, fun c => rfl⟩

theorem refresh_spec (h : s.Sound) (limits : RateLimits) (request : TimedRequest) :
    (s.refresh limits request).1.Sound ∧ Trims limits request.now s (s.refresh limits request).1 ∧
    (s.refresh limits request).2 = recent (limits.windowSeconds : ℚ) request.now
    (s.held request.clientIp) ∧
    (s.refresh limits request).1.held request.clientIp = (s.refresh limits request).2 := by
  unfold refresh
  simp only
  generalize hp : (if s.nextPruneAt ≤ request.now then s.pruneExpired limits request.now else s) = p
  obtain ⟨hsound, htrims, hrecent⟩ := pruned_spec h limits request.now hp.symm
  have hactive : recent (limits.windowSeconds : ℚ) request.now
      (p.requests.getD request.clientIp []) = recent (limits.windowSeconds : ℚ) request.now
      (s.held request.clientIp) := hrecent request.clientIp
  rw [hactive]
  generalize hr : recent (limits.windowSeconds : ℚ) request.now (s.held request.clientIp) = active
  have hheld : ∀ c, (if active = [] then p.forget request.clientIp
      else p.keepActive request.clientIp active).held c = if c = request.clientIp then active
      else p.held c := by
    intro c
    by_cases hnil : active = []
    · rw [if_pos hnil, held_forget, hnil]
    · rw [if_neg hnil, held_keepActive]
      simp only [hnil, ne_eq, not_false_eq_true, and_true]
  refine ⟨?_, fun c => ?_, rfl, ?_⟩
  · split_ifs
    · exact hsound.forget _
    · exact hsound.keepActive _ _
  · rw [hheld]
    split_ifs with hc
    · rw [hc, hr]
      exact ⟨hr ▸ recent_sublist _ _ _, List.Sublist.refl _⟩
    · exact htrims c
  · rw [hheld, if_pos rfl]

/-- What a request can do. -/
inductive Answered (limits : RateLimits) (s : RateLimiter) (request : TimedRequest) :
    RateLimiter → Served → Prop
  | exempt : Answered limits s request s ⟨request, .exempt, []⟩
  | refused {s' : RateLimiter} (htrims : Trims limits request.now s s')
      (hfull : limits.maxRequests ≤
        (recent (limits.windowSeconds : ℚ) request.now (s.held request.clientIp)).length) :
      Answered limits s request s' ⟨request, .refused, []⟩
  | admitted {s' s'' : RateLimiter} {evicted : List String} (htrims : Trims limits request.now s s')
      (hroom : (recent (limits.windowSeconds : ℚ) request.now (s.held request.clientIp)).length <
        limits.maxRequests)
      (hclient : s''.held request.clientIp = recent (limits.windowSeconds : ℚ) request.now
        (s.held request.clientIp) ++ [request.now])
      (hother : ∀ c ≠ request.clientIp, s''.held c = if c ∈ evicted then [] else s'.held c) :
      Answered limits s request s'' ⟨request, .admitted, evicted⟩

/-- **One request**: what it can do, and that it keeps the tracked clients in order and
within the limit. -/
theorem dispatch_spec (h : s.Sound) (hcap : 1 ≤ limits.maxTrackedClients)
    (hsize : s.requests.keys.length ≤ limits.maxTrackedClients) (request : TimedRequest) :
    Answered limits s request (s.dispatch limits request).1 (s.dispatch limits request).2 ∧
    (s.dispatch limits request).1.Sound ∧
    (s.dispatch limits request).1.requests.keys.length ≤ limits.maxTrackedClients := by
  obtain ⟨hsound, htrims, hactive, hheld⟩ := refresh_spec h limits request
  unfold dispatch
  split
  · exact ⟨.exempt, h, hsize⟩
  · generalize hrefresh : s.refresh limits request = r at hsound htrims hactive hheld
    obtain ⟨p, active⟩ := r
    simp only at hsound htrims hactive hheld ⊢
    have hpsize : p.requests.keys.length ≤ limits.maxTrackedClients :=
      (h.length_le hsound fun c => htrims.held_ne_nil).trans hsize
    have hlast : ∀ times : List ℚ, (times ++ [request.now]).getLast? = some request.now :=
      fun times => List.getLast?_concat ..
    by_cases hfull : limits.maxRequests ≤ active.length
    · rw [if_pos hfull]
      exact ⟨.refused htrims (hactive ▸ hfull), hsound, hpsize⟩
    · have hroom : (recent (limits.windowSeconds : ℚ) request.now
        (s.held request.clientIp)).length < limits.maxRequests :=
        hactive ▸ not_le.mp hfull
      rw [if_neg hfull]
      split_ifs with hnew
      · -- a new client: the longest unseen make room
        have hnil : p.held request.clientIp = [] := by simp [held, Dict.getD, hnew]
        have hroomsize := hsound.length_ensureCapacity hcap
        have hesound := hsound.ensureCapacity limits 1
        have heheld := held_ensureCapacity limits p 1
        generalize p.ensureCapacity limits 1 = e at hroomsize hesound heheld
        obtain ⟨q, evicted⟩ := e
        simp only at hroomsize hesound heheld ⊢
        have hqnil : q.held request.clientIp = [] := by
          rw [heheld, hnil, ite_self]
        rw [admit_eq]
        refine ⟨.admitted htrims hroom ?_ ?_, hesound.withTimes _ (hlast _), ?_⟩
        · rw [held_withTimes, if_pos rfl, hqnil, ← hactive, ← hheld, hnil]
        · intro c hc
          rw [held_withTimes, if_neg hc, heheld]
        · have hadd := hesound.length_withTimes_le request.clientIp
            (hlast (q.held request.clientIp))
          omega
      · -- a client with times of its own: no one else changes
        have hkeep := hsound.withTimes request.clientIp (hlast (p.held request.clientIp))
        rw [admit_eq]
        refine ⟨.admitted htrims hroom ?_ ?_, hkeep, ?_⟩
        · rw [held_withTimes, if_pos rfl, hheld, hactive]
        · intro c hc
          rw [held_withTimes, if_neg hc, if_neg List.not_mem_nil]
        · have hmem : request.clientIp ∈ p.requests.keys :=
            Dict.mem_keys_iff.mpr (Option.ne_none_iff_exists'.mp hnew)
          exact (hsound.length_withTimes_of_mem (hlast _) hmem).trans hpsize

/-! ### Runs -/

theorem serveAll_concat (limits : RateLimits) (requests : List TimedRequest)
    (request : TimedRequest) :
    serveAll limits (requests ++ [request]) =
      (((serveAll limits requests).1.dispatch limits request).1,
      (serveAll limits requests).2 ++
      [((serveAll limits requests).1.dispatch limits request).2]) := by
  rw [serveAll, List.foldl_append]
  rfl

theorem admittedTimes_concat (served : List Served) (e : Served) (c : String) :
    admittedTimes (served ++ [e]) c = admittedTimes served c ++ if e.verdict = .admitted ∧
    e.request.clientIp = c then [e.request.now] else [] := by
  unfold admittedTimes
  rw [List.filter_append, List.map_append]
  congr 1
  by_cases h : e.verdict = .admitted ∧ e.request.clientIp = c <;> simp [h]

theorem neverEvicted_concat {served : List Served} {e : Served} :
    NeverEvicted (served ++ [e]) c ↔ NeverEvicted served c ∧ c ∉ e.evicted := by
  simp [NeverEvicted, or_imp, forall_and]

/-- What holds of one client after some requests. -/
structure Kept (limits : RateLimits) (requests : List TimedRequest) (s : RateLimiter)
    (served : List Served) (c : String) : Prop where
  held_sub : (s.held c).Sublist (admittedTimes served c)
  times : ∀ t ∈ admittedTimes served c, ∃ request ∈ requests, request.now = t
  sorted : (admittedTimes served c).Pairwise (· ≤ ·)
  recent_sub : NeverEvicted served c → ∀ now, (∀ request ∈ requests, request.now ≤ now) →
    (recent (limits.windowSeconds : ℚ) now (admittedTimes served c)).Sublist (s.held c)
  admissible : NeverEvicted served c →
    Admissible (limits.windowSeconds : ℚ) limits.maxRequests (admittedTimes served c)

variable {requests : List TimedRequest} {served : List Served} {request : TimedRequest}

/-- What counts of the admitted times counts of the kept ones. -/
theorem Kept.recent_sublist (h : Kept limits requests s served c)
    (hlater : ∀ r ∈ requests, r.now ≤ request.now) (hc : NeverEvicted served c) :
    (recent (limits.windowSeconds : ℚ) request.now (admittedTimes served c)).Sublist
      (recent (limits.windowSeconds : ℚ) request.now (s.held c)) := by
  have hsub := recent_mono (limits.windowSeconds : ℚ) request.now
    (h.recent_sub hc request.now hlater)
  rwa [recent_recent le_rfl] at hsub

/-- Nothing is admitted to a client whose times are trimmed, or that is evicted. -/
theorem Kept.trim {s' : RateLimiter} {e : Served} (h : Kept limits requests s served c)
    (hlater : ∀ r ∈ requests, r.now ≤ request.now)
    (hadm : ¬ (e.verdict = .admitted ∧ e.request.clientIp = c))
    (hsub : (s'.held c).Sublist (s.held c))
    (hrecent : c ∉ e.evicted →
    (recent (limits.windowSeconds : ℚ) request.now (s.held c)).Sublist (s'.held c)) :
    Kept limits (requests ++ [request]) s' (served ++ [e]) c := by
  have htimes : admittedTimes (served ++ [e]) c = admittedTimes served c := by
    rw [admittedTimes_concat, if_neg hadm, List.append_nil]
  constructor
  · rw [htimes]
    exact hsub.trans h.held_sub
  · intro t ht
    obtain ⟨r, hr, hrt⟩ := h.times t (htimes ▸ ht)
    exact ⟨r, List.mem_append_left _ hr, hrt⟩
  · rw [htimes]
    exact h.sorted
  · intro hc now hnow
    obtain ⟨hc, hce⟩ := neverEvicted_concat.mp hc
    have hle : request.now ≤ now := hnow request (by simp)
    rw [htimes, ← recent_recent hle]
    exact (SlidingWindow.recent_sublist _ _ _).trans
      ((h.recent_sublist hlater hc).trans (hrecent hce))
  · intro hc
    rw [htimes]
    exact h.admissible (neverEvicted_concat.mp hc).1

theorem Kept.admitted {s' : RateLimiter} {e : Served}
    (h : Kept limits requests s served request.clientIp)
    (hlater : ∀ r ∈ requests, r.now ≤ request.now) (hverdict : e.verdict = .admitted)
    (hrequest : e.request = request)
      (hroom : (recent (limits.windowSeconds : ℚ) request.now (s.held request.clientIp)).length <
      limits.maxRequests) (hheld :
      s'.held request.clientIp = recent (limits.windowSeconds : ℚ) request.now
      (s.held request.clientIp) ++ [request.now]) :
    Kept limits (requests ++ [request]) s' (served ++ [e]) request.clientIp := by
  have htimes : admittedTimes (served ++ [e]) request.clientIp =
      admittedTimes served request.clientIp ++ [request.now] := by
    rw [admittedTimes_concat, hverdict, hrequest, if_pos ⟨rfl, rfl⟩]
  constructor
  · rw [htimes, hheld]
    exact ((SlidingWindow.recent_sublist _ _ _).trans h.held_sub).append (List.Sublist.refl _)
  · intro t ht
    rw [htimes, List.mem_append, List.mem_singleton] at ht
    rcases ht with ht | rfl
    · obtain ⟨r, hr, hrt⟩ := h.times t ht
      exact ⟨r, List.mem_append_left _ hr, hrt⟩
    · exact ⟨request, by simp, rfl⟩
  · rw [htimes, List.pairwise_append]
    refine ⟨h.sorted, List.pairwise_singleton _ _, fun t ht t' ht' => ?_⟩
    obtain ⟨r, hr, rfl⟩ := h.times t ht
    rw [List.mem_singleton.mp ht']
    exact hlater r hr
  · intro hc now hnow
    have hle : request.now ≤ now := hnow request (by simp)
    have hold : (recent (limits.windowSeconds : ℚ) now
        (admittedTimes served request.clientIp)).Sublist
        (recent (limits.windowSeconds : ℚ) request.now (s.held request.clientIp)) := by
      rw [← recent_recent hle]
      exact (SlidingWindow.recent_sublist _ _ _).trans
        (h.recent_sublist hlater (neverEvicted_concat.mp hc).1)
    rw [htimes, hheld, recent, List.filter_append]
    exact hold.append List.filter_sublist
  · intro hc
    have hc' := (neverEvicted_concat.mp hc).1
    rw [htimes]
    exact .snoc (h.admissible hc') ((h.recent_sublist hlater hc').length_le.trans_lt hroom)

theorem Kept.answered {s' : RateLimiter} {e : Served} (h : Kept limits requests s served c)
    (hlater : ∀ r ∈ requests, r.now ≤ request.now) (ha : Answered limits s request s' e) :
    Kept limits (requests ++ [request]) s' (served ++ [e]) c := by
  cases ha with
  | exempt =>
    exact h.trim hlater (fun hadm => by cases hadm.1) (List.Sublist.refl _) fun _ =>
      SlidingWindow.recent_sublist _ _ _
  | refused htrims hfull =>
    exact h.trim hlater (fun hadm => by cases hadm.1) (htrims c).1 fun _ => (htrims c).2
  | @admitted s₁ _ evicted htrims hroom hclient hother =>
    by_cases hc : c = request.clientIp
    · rw [hc] at h ⊢
      exact h.admitted hlater rfl rfl hroom hclient
    · have hheld := hother c hc
      refine h.trim hlater (fun hadm => hc hadm.2.symm) ?_ fun hkept => ?_
      · rw [hheld]
        split_ifs
        · exact List.nil_sublist _
        · exact (htrims c).1
      · rw [hheld, if_neg hkept]
        exact (htrims c).2

/-- **Every run** keeps the clients in order, within the limit, with all that counts. -/
theorem serveAll_spec (hcap : 1 ≤ limits.maxTrackedClients) :
    ∀ {requests : List TimedRequest}, (requests.Pairwise fun a b => a.now ≤ b.now) →
      (serveAll limits requests).1.Sound ∧
      (serveAll limits requests).1.requests.keys.length ≤ limits.maxTrackedClients ∧
      ∀ c, Kept limits requests (serveAll limits requests).1 (serveAll limits requests).2 c := by
  intro requests
  induction requests using List.reverseRecOn with
  | nil =>
    intro _
    refine ⟨sound_new, Nat.zero_le _,
      fun c => ⟨List.Sublist.refl _, fun t ht => ?_, List.Pairwise.nil, ?_, fun _ => .nil⟩⟩
    · simp [admittedTimes, serveAll] at ht
    · exact fun _ _ _ => List.Sublist.refl _
  | append_singleton requests request ih =>
    intro htimes
    rw [List.pairwise_append] at htimes
    obtain ⟨hsound, hsize, hkept⟩ := ih htimes.1
    have hlater : ∀ r ∈ requests, r.now ≤ request.now :=
      fun r hr => htimes.2.2 r hr request List.mem_cons_self
    obtain ⟨hans, hsound', hsize'⟩ := dispatch_spec hsound hcap hsize request
    rw [serveAll_concat]
    exact ⟨hsound', hsize', fun c => (hkept c).answered hlater hans⟩

end RateLimiter

open RateLimiter in
/-- **The rate limiter.** After any requests at times that do not decrease both
dictionaries are about the same clients, no more than may be tracked, each with a sorted
list of times; and a client that was never evicted has at most `max_requests` admitted
requests in every half-open interval of the window's length, and its next request is
refused only if so many lie in the window before it. -/
theorem rateLimiter_invariants (limits : RateLimits) (requests : List TimedRequest)
    (hcap : 1 ≤ limits.maxTrackedClients) (htimes : requests.Pairwise fun a b => a.now ≤ b.now) :
    (∀ c, c ∈ (serveAll limits requests).1.requests.keys ↔
      c ∈ (serveAll limits requests).1.lastSeen.keys) ∧
      (serveAll limits requests).1.requests.keys.length ≤ limits.maxTrackedClients ∧
    (∀ c times, (serveAll limits requests).1.requests.get? c = some times → times ≠ [] ∧
      times.Pairwise (· ≤ ·)) ∧ ∀ c, NeverEvicted (serveAll limits requests).2 c →
      (∀ a : ℚ, ((admittedTimes (serveAll limits requests).2 c).filter fun t =>
        a ≤ t ∧ t < a + limits.windowSeconds).length ≤ limits.maxRequests) ∧
      (∀ a : ℚ, ((admittedTimes (serveAll limits requests).2 c).filter fun t =>
        a < t ∧ t ≤ a + limits.windowSeconds).length ≤ limits.maxRequests) ∧
      ∀ request : TimedRequest, request.clientIp = c → (∀ r ∈ requests, r.now ≤ request.now) →
        ((serveAll limits requests).1.dispatch limits request).2.verdict = .refused →
        limits.maxRequests ≤ ((admittedTimes (serveAll limits requests).2 c).filter fun t =>
          request.now - limits.windowSeconds < t ∧ t ≤ request.now).length := by
  obtain ⟨hsound, hsize, hkept⟩ := serveAll_spec hcap htimes
  refine ⟨fun c => hsound.mem_keys_iff, hsize, fun c times hc => ?_, fun c hnever => ⟨?_, ?_, ?_⟩⟩
  · have hheld : (serveAll limits requests).1.held c = times := by simp [held, Dict.getD, hc]
    refine ⟨fun hnil => hsound.nonempty c (hnil ▸ hc), ?_⟩
    exact hheld ▸ (hkept c).sorted.sublist (hkept c).held_sub
  · exact fun a => ((hkept c).admissible hnever).closed_open_le a
  · exact fun a => ((hkept c).admissible hnever).open_closed_le a
  · intro request hclient hlater hrefused
    have hans := (dispatch_spec hsound hcap hsize request).1
    generalize ((serveAll limits requests).1.dispatch limits request) = r at hans hrefused
    obtain ⟨s', e⟩ := r
    cases hans with
    | exempt => cases hrefused
    | admitted => cases hrefused
    | refused htrims hfull =>
      rw [hclient] at hfull
      have hsub := recent_mono (limits.windowSeconds : ℚ) request.now (hkept c).held_sub
      have hsame : recent (limits.windowSeconds : ℚ) request.now
          (admittedTimes (serveAll limits requests).2 c) =
          (admittedTimes (serveAll limits requests).2 c).filter fun t =>
            request.now - limits.windowSeconds < t ∧ t ≤ request.now := by
        unfold recent
        apply List.filter_congr
        intro t ht
        obtain ⟨r, hr, rfl⟩ := (hkept c).times t ht
        simp [hlater r hr]
      rw [← hsame]
      exact hfull.trans hsub.length_le

/-- Times exactly a window apart do not count together. -/
def boundaryRequests :
    List TimedRequest := [⟨"/api/data", "10.1.1.1", 0⟩, ⟨"/api/data", "10.1.1.1", 60⟩]

theorem rateLimiter_invariants_boundary :
    (RateLimiter.serveAll ⟨1, 60, 5, none⟩ boundaryRequests).2.map (·.verdict) =
    [.admitted, .admitted] ∧
    1 ≤ ((admittedTimes (RateLimiter.serveAll ⟨1, 60, 5, none⟩ boundaryRequests).2
    "10.1.1.1").filter fun t =>
      (61 : ℚ) - (60 : ℤ) < t ∧ t ≤ 61).length := by
  refine ⟨by decide +kernel, ?_⟩
  have h := rateLimiter_invariants ⟨1, 60, 5, none⟩ boundaryRequests (by decide) (by decide +kernel)
  exact (h.2.2.2 "10.1.1.1" (by decide +kernel)).2.2 ⟨"/api/data", "10.1.1.1", 61⟩ rfl
    (by decide +kernel) (by decide +kernel)

end Restock
