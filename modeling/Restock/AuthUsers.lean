/-
# Changes of users (`api/auth_users.py`)

`update_user`, `delete_user` and `toggle_user_status` each read the user with the role,
count the other active superadmins where the change would take one away, and then write
and commit. Each is a READ COMMITTED transaction, and any number of them run side by
side.

What a request has counted may be gone when it commits. As long as no change that takes
a user from the superadmins commits while another such change is under way and the two
users are the last active superadmins, one always remains (`superadmin_of_reach`).
Otherwise two requests take away the last two (`superadmins_gone`).
-/
import Restock.Lib.Processes
import Restock.Lib.ReadCommitted

namespace Restock

open ReadCommitted

/-! ### The tables -/

/-- A row of `sys_user`. -/
structure UserRow where
  displayName : String
  roleId : ℕ
  isActive : Bool
  permVersion : ℤ
deriving DecidableEq, Repr

/-- The users, and the roles they may have. -/
structure UserDb (P : Type) where
  users : Table P ℕ UserRow
  /-- The roles, with `is_superadmin`. -/
  roles : Dict ℕ Bool

/-! ### The programs -/

/-- The requests that change users. -/
inductive UserRequest
  | update (id : ℕ) (displayName : Option String) (roleId : Option ℕ)
  | delete (id operator : ℕ)
  | status (id : ℕ) (isActive : Bool) (operator : ℕ)

/-- What a request writes. -/
inductive UserChange
  | update (displayName : Option String) (roleId : Option ℕ)
  | delete
  | status (isActive : Bool)

/-- Where a request stands. -/
inductive UserPoint
  | idle
  /-- A new role is to be read; the role of the user was a superadmin, or was not. -/
  | newRole (id : ℕ) (displayName : Option String) (roleId : ℕ) (isSuperadmin : Bool)
  | checkLast (id : ℕ) (change : UserChange)
  | write (id : ℕ) (change : UserChange)
  | written (id : ℕ) (change : UserChange)

/-- What a process does next. -/
inductive UserAction
  | request (request : UserRequest)
  | statement
  | crash

/-- The row after the change, or none. -/
def UserChange.apply : UserChange → UserRow → Option UserRow
  | .update displayName none, row =>
    some { row with displayName := displayName.getD row.displayName }
  | .update displayName (some roleId), row =>
    some { row with
      displayName := displayName.getD row.displayName
      roleId := roleId
      permVersion := row.permVersion + 1 }
  | .delete, _ => none
  | .status isActive, row =>
    some { row with isActive := isActive, permVersion := row.permVersion + 1 }

section Users

variable {P : Type} [DecidableEq P]

/-- The session commits. -/
def UserDb.commit (db : UserDb P) (p : P) : UserDb P := { db with users := db.users.commit p }

/-- The session rolls back. -/
def UserDb.rollback (db : UserDb P) (p : P) : UserDb P := { db with users := db.users.abort p }

/-- The session commits and the process is free. -/
def UserDb.finish (db : UserDb P) (p : P) :
    Option (UserDb P × UserPoint) := some (db.commit p, .idle)

/-- The session rolls back and the process is free. -/
def UserDb.quit (db : UserDb P) (p : P) :
    Option (UserDb P × UserPoint) := some (db.rollback p, .idle)

/-- The user joined with the role. -/
def UserDb.target (db : UserDb P) (p : P) (id : ℕ) : Option (UserRow × Bool) :=
  (db.users.view p id).bind fun row => (db.roles.get? row.roleId).map fun isSuperadmin =>
    (row, isSuperadmin)

/-- `Role.is_superadmin.is_(True), SysUser.is_active.is_(True)`. -/
def UserDb.activeSuperadmin (db : UserDb P) (row : UserRow) : Bool :=
  row.isActive && (db.roles.get? row.roleId).any fun isSuperadmin => isSuperadmin

/-- The count of `_check_last_superadmin`. -/
def UserDb.othersCount (db : UserDb P) (p : P) (id : ℕ) : ℕ :=
  ((db.users.select p db.activeSuperadmin).filter (· ≠ id)).length

/-- The first statement of a request, and the checks up to the next. -/
def userRequestNext (db : UserDb P) (p : P) : UserRequest → Option (UserDb P × UserPoint)
  | .update id displayName roleId =>
    match db.target p id with
    | none => db.quit p
    | some (row, isSuperadmin) =>
      match roleId.filter (· ≠ row.roleId) with
      | some roleId => some (db, .newRole id displayName roleId isSuperadmin)
      | none =>
        if displayName.isSome then some (db, .write id (.update displayName none))
        else some (db, .written id (.update none none))
  | .delete id operator =>
    match db.target p id with
    | none => db.quit p
    | some (_, isSuperadmin) =>
      if id = operator then db.quit p
      else some (db, if isSuperadmin then .checkLast id .delete else .write id .delete)
  | .status id isActive operator =>
    match db.target p id with
    | none => db.quit p
    | some (_, isSuperadmin) =>
      if id = operator ∧ isActive = false then db.quit p
      else some (db, if !isActive && isSuperadmin then .checkLast id (.status isActive)
        else .write id (.status isActive))

/-- One statement of a request. -/
def userNext (db : UserDb P) (p : P) : UserPoint → UserAction → Option (UserDb P × UserPoint)
  | _, .crash => db.quit p
  | .idle, .request request => userRequestNext db p request
  | .newRole id displayName roleId isSuperadmin, .statement =>
    match db.roles.get? roleId with
    | none => db.quit p
    | some newSuperadmin =>
      some (db, if isSuperadmin && !newSuperadmin then
        .checkLast id (.update displayName (some roleId))
        else .write id (.update displayName (some roleId)))
  | .checkLast id change, .statement =>
    if db.othersCount p id = 0 then db.quit p else some (db, .write id change)
  | .write id change, .statement =>
    (db.users.update p id (fun _ => true) change.apply).map fun users =>
      ({ db with users := users }, .written id change)
  | .written _ _, .statement => db.finish p
  | _, _ => none

/-- The interleavings, from the given states. -/
def userRuns (start : Procs P UserPoint (UserDb P) → Prop) :
    Lts (Procs P UserPoint (UserDb P)) (P × UserAction) :=
  Procs.runs start userNext

/-! ### What a statement does -/

/-- An active user whose role is a superadmin. -/
def UserDb.ActiveSuperadmin (db : UserDb P) (id : ℕ) : Prop :=
  ∃ row, db.users.committed.get? id = some row ∧ db.activeSuperadmin row = true

/-- The change leaves no active superadmin. -/
def UserDb.takes (db : UserDb P) : UserChange → Bool
  | .update _ none => false
  | .update _ (some roleId) => !(db.roles.get? roleId).any fun isSuperadmin => isSuperadmin
  | .delete => true
  | .status isActive => !isActive

/-- The user that a request is about to take from the superadmins, if it was one. -/
def UserDb.taken (db : UserDb P) : UserPoint → Option ℕ
  | .newRole id displayName roleId false =>
    if db.takes (.update displayName (some roleId)) then some id else none
  | .write id change | .written id change => if db.takes change then some id else none
  | _ => none

/-- What each statement does, with what has to hold for it. -/
inductive UserStep (db : UserDb P) (p : P) (action : UserAction) :
    UserPoint → UserDb P → UserPoint → Prop
  | quit {point} : UserStep db p action point (db.rollback p) .idle
  /-- A request reads, and is about to take away no more than it was, or there is another. -/
  | read {point point'} : (∀ id change, point ≠ .written id change) →
      (∀ id, db.taken point' = some id → db.taken point = some id ∨
        ((∃ u, db.ActiveSuperadmin u) → ∃ u, u ≠ id ∧ db.ActiveSuperadmin u)) →
          UserStep db p action point db point'
  | write {id change row} : db.users.free p id = true → db.users.view p id = some row →
      UserStep db p action (.write id change)
        { db with users := db.users.write p id (change.apply row) } (.written id change)
  | commit {id change} :
    action = .statement → UserStep db p action (.written id change) (db.commit p) .idle

variable {db db' : UserDb P} {p q : P} {point point' : UserPoint} {action : UserAction}
    {r : UserDb P × UserPoint}

theorem target_view {id : ℕ} {row : UserRow} {isSuperadmin : Bool}
    (h : db.target p id = some (row, isSuperadmin)) :
    db.users.view p id = some row ∧ db.roles.get? row.roleId = some isSuperadmin := by
  obtain ⟨row', hrow', h'⟩ := Option.bind_eq_some_iff.mp h
  obtain ⟨sa, hsa, heq⟩ := Option.map_eq_some_iff.mp h'
  obtain ⟨rfl, rfl⟩ := Prod.mk.inj heq
  exact ⟨hrow', hsa⟩

/-- A user that is no superadmin is not the last one. -/
theorem other_of_target (hu : db.users.Unlocked p) {id : ℕ} {row : UserRow}
    (h : db.target p id = some (row, false)) :
    (∃ u, db.ActiveSuperadmin u) → ∃ u, u ≠ id ∧ db.ActiveSuperadmin u := by
  rintro ⟨u, row', hrow', hsa⟩
  refine ⟨u, ?_, row', hrow', hsa⟩
  rintro rfl
  obtain ⟨hview, hrole⟩ := target_view h
  obtain rfl := Option.some.inj (((hu.view u).symm.trans hview).symm.trans hrow')
  simp [UserDb.activeSuperadmin, hrole] at hsa

theorem other_of_count (hu : db.users.Unlocked p) {id : ℕ} (h : db.othersCount p id ≠ 0) :
    ∃ u, u ≠ id ∧ db.ActiveSuperadmin u := by
  obtain ⟨u, hmem⟩ := List.exists_mem_of_length_pos (Nat.pos_of_ne_zero h)
  rw [List.mem_filter, Table.mem_select, decide_eq_true_eq] at hmem
  obtain ⟨⟨row, hview, hsa⟩, hne⟩ := hmem
  exact ⟨u, hne, row, (hu.view u).symm.trans hview, hsa⟩

/-- What holds of the users for a request at a point. -/
structure UserAt (p : P) (point : UserPoint) (db : UserDb P) : Prop where
  unlocked : (∀ id change, point ≠ .written id change) → db.users.Unlocked p
  held : ∀ id change, point = .written id change → ∀ k v, db.users.locks.get? k = some (p, v) →
    k = id ∧ ∃ row, db.users.committed.get? k = some row ∧ v = change.apply row
  others : ∀ id, db.taken point = some id → ∃ u, u ≠ id ∧ db.ActiveSuperadmin u

omit [DecidableEq P] in
theorem taken_write {id k : ℕ} {change : UserChange} (h : db.taken (.write id change) = some k) :
    id = k ∧ db.takes change = true := by
  simp only [UserDb.taken] at h
  split_ifs at h with ht
  exact ⟨Option.some.inj h, ht⟩

/-- A request goes on to its write without a count: the user is no superadmin, or the
change takes none away. -/
theorem UserStep.unchecked (hu : db.users.Unlocked p) {id : ℕ} {row : UserRow} {isSuperadmin : Bool}
    (ht : db.target p id = some (row, isSuperadmin)) {change : UserChange}
    (hc : db.takes change = true → isSuperadmin = false) :
    UserStep db p action .idle db (.write id change) := by
  refine .read nofun fun k hk => Or.inr ?_
  obtain ⟨rfl, htakes⟩ := taken_write hk
  exact other_of_target hu (hc htakes ▸ ht)

theorem userRequestNext_step (hu : db.users.Unlocked p) {request : UserRequest}
    (h : userRequestNext db p request = some r) : UserStep db p action .idle r.1 r.2 := by
  unfold userRequestNext at h
  split at h
  · split at h
    · rw [← Option.some.inj h]
      exact .quit
    · rename_i id displayName roleId _ row isSuperadmin ht
      split at h
      · rename_i roleId' _
        rw [← Option.some.inj h]
        refine .read nofun fun k hk => Or.inr ?_
        cases isSuperadmin with
        | true => cases hk
        | false =>
          have hk' : (if db.takes (.update displayName (some roleId')) then some id else none) =
            some k := hk
          split_ifs at hk'
          exact Option.some.inj hk' ▸ other_of_target hu ht
      · split_ifs at h
        · rw [← Option.some.inj h]
          exact .read nofun fun k hk => (by cases hk)
        · rw [← Option.some.inj h]
          exact .read nofun fun k hk => (by cases hk)
  · split at h
    · rw [← Option.some.inj h]
      exact .quit
    · rename_i id operator _ row isSuperadmin ht
      split at h
      · rw [← Option.some.inj h]
        exact .quit
      · rw [← Option.some.inj h]
        cases isSuperadmin with
        | true => exact .read nofun nofun
        | false => exact .unchecked hu ht fun _ => rfl
  · split at h
    · rw [← Option.some.inj h]
      exact .quit
    · rename_i id isActive operator _ row isSuperadmin ht
      split at h
      · rw [← Option.some.inj h]
        exact .quit
      · rw [← Option.some.inj h]
        cases isSuperadmin with
        | true =>
          cases isActive with
          | true => exact .unchecked hu ht nofun
          | false => exact .read nofun nofun
        | false =>
          rw [Bool.and_false, if_neg Bool.false_ne_true]
          exact .unchecked hu ht fun _ => rfl

/-- **Every statement** is one of the listed ones. -/
theorem userNext_step (hu : (∀ id change, point ≠ .written id change) → db.users.Unlocked p)
    (h : userNext db p point action = some r) : UserStep db p action point r.1 r.2 := by
  unfold userNext at h
  split at h
  case h_1 =>
    rw [← Option.some.inj h]
    exact .quit
  case h_2 => exact userRequestNext_step (hu fun _ _ hp => by cases hp) h
  case h_3 id displayName roleId isSuperadmin =>
    split at h
    · rw [← Option.some.inj h]
      exact .quit
    · rename_i newSuperadmin hrole
      rw [← Option.some.inj h]
      cases hcount : isSuperadmin && !newSuperadmin with
      | true => exact .read (fun _ _ hp => by cases hp) fun _ hk => by cases hk
      | false =>
        refine .read (fun _ _ hp => by cases hp) fun k hk => Or.inl ?_
        obtain ⟨rfl, htakes⟩ := taken_write hk
        have hnew : newSuperadmin = false := by
          simpa [UserDb.takes, hrole] using htakes
        have hold : isSuperadmin = false := by
          simpa [hnew] using hcount
        rw [hold]
        exact if_pos htakes
  case h_4 id change =>
    split_ifs at h with hcount
    · rw [← Option.some.inj h]
      exact .quit
    · rw [← Option.some.inj h]
      refine .read (fun _ _ hp => by cases hp) fun k hk => Or.inr fun _ => ?_
      obtain ⟨rfl, -⟩ := taken_write hk
      exact other_of_count (hu fun _ _ hp => by cases hp) hcount
  case h_5 id change =>
    obtain ⟨users, hupdate, rfl⟩ := Option.map_eq_some_iff.mp h
    obtain ⟨hfree, ⟨row, hv, -, rfl⟩ | ⟨-, rfl⟩⟩ := Table.update_cases hupdate
    · exact .write hfree hv
    · exact .read (fun _ _ hp => by cases hp) fun k hk => Or.inl hk
  case h_6 =>
    rw [← Option.some.inj h]
    exact .commit rfl
  case h_7 => cases h

/-! ### Who remains -/

theorem UserStep.moves (h : UserStep db p action point db' point') :
    Table.Moves p db.users db'.users ∧ db'.roles = db.roles := by
  cases h with
  | quit => exact ⟨.abort, rfl⟩
  | read _ _ => exact ⟨.same, rfl⟩
  | write hfree _ => exact ⟨.write hfree, rfl⟩
  | commit _ => exact ⟨.commit, rfl⟩

omit [DecidableEq P] in
theorem activeSuperadmin_congr (hroles : db'.roles = db.roles) (row : UserRow) :
    db'.activeSuperadmin row = db.activeSuperadmin row := by
  unfold UserDb.activeSuperadmin
  rw [hroles]

omit [DecidableEq P] in
theorem takes_congr (hroles : db'.roles = db.roles) (change : UserChange) :
    db'.takes change = db.takes change := by
  unfold UserDb.takes
  rw [hroles]

omit [DecidableEq P] in
theorem taken_congr (hroles : db'.roles = db.roles) (point : UserPoint) :
    db'.taken point = db.taken point := by
  unfold UserDb.taken
  split <;> simp only [takes_congr hroles]

omit [DecidableEq P] in
/-- A change that takes none away leaves an active superadmin one. -/
theorem apply_activeSuperadmin {change : UserChange} {row : UserRow} (ht : db.takes change = false)
    (h : db.activeSuperadmin row = true) :
    ∃ row', change.apply row = some row' ∧ db.activeSuperadmin row' = true := by
  cases change with
  | update displayName roleId =>
    cases roleId with
    | none => exact ⟨_, rfl, h⟩
    | some roleId =>
      refine ⟨_, rfl, ?_⟩
      simp only [UserDb.takes, Bool.not_eq_false'] at ht
      simp only [UserDb.activeSuperadmin, Bool.and_eq_true] at h ⊢
      exact ⟨h.1, ht⟩
  | delete => cases ht
  | status isActive =>
    refine ⟨_, rfl, ?_⟩
    simp only [UserDb.takes, Bool.not_eq_false'] at ht
    simp only [UserDb.activeSuperadmin, Bool.and_eq_true] at h ⊢
    exact ⟨ht, h.2⟩

/-- An active superadmin after a statement: unless it is the one the request takes away. -/
theorem UserAt.activeSuperadmin_next (hat : UserAt p point db)
    (h : UserStep db p action point db' point') {u : ℕ} (hu : db.ActiveSuperadmin u)
    (hne : ∀ id change, point = .written id change → action = .statement →
      db.takes change = true → u ≠ id) :
    db'.ActiveSuperadmin u := by
  obtain ⟨row, hrow, hsa⟩ := hu
  obtain ⟨hm, hroles⟩ := h.moves
  rcases hm.committed_cases u with hsame | hheld
  · exact ⟨row, hsame.trans hrow, (activeSuperadmin_congr hroles row).trans hsa⟩
  · cases h with
    | @commit id change ha =>
      obtain ⟨rfl, row', hrow', hv⟩ := hat.held id change rfl u _ hheld
      obtain rfl := Option.some.inj (hrow.symm.trans hrow')
      have ht : db.takes change = false := by
        cases ht : db.takes change with
        | false => rfl
        | true => exact absurd rfl (hne u change rfl ha ht)
      obtain ⟨row₁, hrow₁, hsa₁⟩ := apply_activeSuperadmin ht hsa
      exact ⟨row₁, hv.trans hrow₁, (activeSuperadmin_congr hroles row₁).trans hsa₁⟩
    | quit | read _ _ | write _ _ => exact ⟨row, hrow, hsa⟩

theorem UserAt.own (hex : ∃ u, db.ActiveSuperadmin u) (hat : UserAt p point db)
    (h : UserStep db p action point db' point') : UserAt p point' db' := by
  cases h with
  | quit => exact ⟨fun _ => Table.unlocked_abort _ p, nofun, nofun⟩
  | commit _ => exact ⟨fun _ => Table.unlocked_commit _ p, nofun, nofun⟩
  | read hp ht =>
    have hu := hat.unlocked hp
    refine ⟨fun _ => hu, fun id change _ k v hl => absurd hl (hu k v), fun id hid => ?_⟩
    rcases ht id hid with hold | hother
    · exact hat.others id hold
    · exact hother hex
  | @write id change row hfree hv =>
    have hu := hat.unlocked nofun
    refine ⟨fun h => absurd rfl (h id change), ?_, fun k hk => hat.others k hk⟩
    rintro _ _ ⟨⟩ k v hl
    rw [Table.get?_locks_write] at hl
    split_ifs at hl with hk
    · obtain ⟨-, rfl⟩ := Prod.mk.inj (Option.some.inj hl)
      exact ⟨hk, row, (hu.view k).symm.trans (hk ▸ hv), rfl⟩
    · exact absurd hl (hu k v)

/-! ### Runs -/

/-- No request is under way, and there is an active superadmin. -/
structure UserStart (s : Procs P UserPoint (UserDb P)) : Prop where
  idle : ∀ p, s.proc p = .idle
  locks : s.shared.users.locks = .empty
  superadmin : ∃ u, s.shared.ActiveSuperadmin u

/-- A change that takes a user away commits only if, for every other such change that is
under way, an active superadmin remains besides the two. -/
def TakesApart (a : P × UserAction) (s : Procs P UserPoint (UserDb P)) : Prop :=
  ∀ id change, s.proc a.1 = .written id change → a.2 = .statement → s.shared.takes change = true →
    ∀ q id', q ≠ a.1 → s.shared.taken (s.proc q) = some id' → ∃ u, u ≠ id ∧ u ≠ id' ∧
      s.shared.ActiveSuperadmin u

variable {s : Procs P UserPoint (UserDb P)}

theorem userAt_of_reach (h : (userRuns UserStart).ReachIf TakesApart s) :
    (∃ u, s.shared.ActiveSuperadmin u) ∧ ∀ p, UserAt p (s.proc p) s.shared := by
  refine Procs.invariant (I := fun db => ∃ u, db.ActiveSuperadmin u) ?_ ?_ ?_ h
  · intro s hs
    refine ⟨hs.superadmin, fun p => ?_⟩
    rw [hs.idle p]
    refine ⟨fun _ k v hl => ?_, nofun, nofun⟩
    rw [hs.locks] at hl
    cases hl
  · intro s p a r hex hAt hok hr
    have hst := userNext_step (hAt p).unlocked hr
    refine ⟨?_, (hAt p).own hex hst⟩
    by_cases htakes : ∃ id change, s.proc p = .written id change ∧ s.shared.takes change = true
    · obtain ⟨id, change, hp, ht⟩ := htakes
      -- the request has found another one
      have htaken : s.shared.taken (s.proc p) = some id := by
        rw [hp]
        exact if_pos ht
      obtain ⟨u, hne, hu⟩ := (hAt p).others id htaken
      refine ⟨u, (hAt p).activeSuperadmin_next hst hu fun id' change' hp' _ _ => ?_⟩
      obtain ⟨rfl, -⟩ := UserPoint.written.inj (hp.symm.trans hp')
      exact hne
    · obtain ⟨u, hu⟩ := hex
      exact ⟨u, (hAt p).activeSuperadmin_next hst hu fun id change hp _ ht => absurd
        ⟨id, change, hp, ht⟩ htakes⟩
  · intro s p a r q hex hAt hok hr hq
    have hst := userNext_step (hAt p).unlocked hr
    obtain ⟨hm, hroles⟩ := hst.moves
    refine ⟨fun hp => hm.unlocked_other hq ((hAt q).unlocked hp), fun id change hp k v hl => ?_,
      fun id hid => ?_⟩
    · have hl' := (hm.held_other hq).mp hl
      rw [hm.committed_of_held hq hl']
      exact (hAt q).held id change hp k v hl'
    · rw [taken_congr hroles] at hid
      by_cases htakes : ∃ id' change, s.proc p = .written id' change ∧ a = .statement ∧
        s.shared.takes change = true
      · obtain ⟨id', change, hp, ha, ht⟩ := htakes
        obtain ⟨u, hne', hne, hu⟩ := hok id' change hp ha ht q id hq hid
        refine ⟨u, hne, (hAt p).activeSuperadmin_next hst hu fun id₁ change₁ hp₁ _ _ => ?_⟩
        obtain ⟨rfl, -⟩ := UserPoint.written.inj (hp.symm.trans hp₁)
        exact hne'
      · obtain ⟨u, hne, hu⟩ := (hAt q).others id hid
        refine ⟨u, hne, (hAt p).activeSuperadmin_next hst hu fun id₁ change₁ hp₁ ha₁ ht₁ => ?_⟩
        exact absurd ⟨id₁, change₁, hp₁, ha₁, ht₁⟩ htakes

/-- **An administrator remains** in every state that is reached. -/
theorem superadmin_of_reach (h : (userRuns UserStart).ReachIf TakesApart s) :
    ∃ u, s.shared.ActiveSuperadmin u :=
  (userAt_of_reach h).1

end Users

/-! ### Two runs -/

/-- Two active superadmins, and a role that is none. -/
def twoSuperadmins : Procs Bool UserPoint (UserDb Bool) :=
  ⟨⟨⟨.ofList [(1, ⟨"first", 1, true, 0⟩), (2, ⟨"second", 1, true, 0⟩)], .empty⟩,
    .ofList [(1, true), (2, false)]⟩, fun _ => .idle⟩

theorem userStart_twoSuperadmins : UserStart twoSuperadmins where
  idle _ := rfl
  locks := rfl
  superadmin := ⟨1, ⟨"first", 1, true, 0⟩, by decide, by decide⟩

/-- The second is moved to the other role, alone. -/
theorem superadmin_of_reach_alone : ∃ s : Procs Bool UserPoint (UserDb Bool),
    (userRuns UserStart).ReachIf TakesApart s ∧
    (s.shared.users.committed.get? 2).map UserRow.roleId = some 2 ∧
    ∃ u, s.shared.ActiveSuperadmin u := by
  have hrun : (Procs.execIf userNext
      (fun a s => match s.proc !a.1 with | .idle => true | _ => false) twoSuperadmins
      [(false, .request (.update 2 none (some 2))), (false, .statement), (false, .statement),
        (false, .statement), (false, .statement)]).map (fun s =>
        (s.shared.users.committed.get? 2).map UserRow.roleId) =
      some (some 2) := by decide +kernel
  obtain ⟨s, hs, hrole⟩ := Option.map_eq_some_iff.mp hrun
  have hreach : (userRuns UserStart).ReachIf TakesApart s := by
    refine Procs.reach_execIf (.start userStart_twoSuperadmins) hs fun a _ s hc => ?_
    intro id change _ _ _ q id' hq htaken
    have hother : q = !a.1 := by
      cases q <;> cases ha : a.1 <;> simp_all
    split at hc
    · rename_i hidle
      rw [hother, hidle] at htaken
      cases htaken
    · cases hc
  exact ⟨s, hreach, hrole, superadmin_of_reach hreach⟩

/-- Each superadmin disables the other; both have counted one when they write. -/
theorem superadmins_gone : ∃ s : Procs Bool UserPoint (UserDb Bool), (userRuns UserStart).Reach s ∧
    ∀ u, ¬ s.shared.ActiveSuperadmin u := by
  have hrun : (Procs.exec userNext twoSuperadmins
      [(false, .request (.status 1 false 2)), (true, .request (.status 2 false 1)),
        (false, .statement), (true, .statement), (false, .statement), (true, .statement),
        (false, .statement), (true, .statement)]).map
      (fun s => s.shared.users.committed.items.all fun e => !s.shared.activeSuperadmin e.2) =
          some true := by
    decide +kernel
  obtain ⟨s, hs, hnone⟩ := Option.map_eq_some_iff.mp hrun
  refine ⟨s, Procs.reach_exec (.start userStart_twoSuperadmins) hs fun _ _ _ => trivial, ?_⟩
  rintro u ⟨row, hrow, hsa⟩
  have := List.all_eq_true.mp hnone _ (Dict.get?_eq_some_iff.mp hrow)
  simp [hsa] at this

end Restock
