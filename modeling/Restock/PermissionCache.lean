/-
# Permissions and their cache (`api/deps.py`, `core/permission_cache.py`, `api/auth_roles.py`)

A request reads the user with `perm_version`, looks into the cache of the process, reads
the permissions of the role if the entry is missing or has another version, and stores
what it has read under the version. `update_role_permissions` replaces the permissions of
a role and raises the version of the users it has; `update_user` raises the version of a
user it moves. All run side by side, statement by statement.

The users whose version is raised are those that are in the role when the `UPDATE`
begins. While no user is moved into the role from then to the commit, an entry with the
version of its user holds the permissions of the role, so that a request that nothing
disturbs obtains exactly these (`permissions_of_reach`). Otherwise the entry of the user
that was moved stays what it was (`permissions_stale`).
-/
import Restock.Lib.LruCache
import Restock.AuthUsers

namespace Restock

open ReadCommitted

/-! ### The tables -/

/-- A row of `permission`. -/
structure PermissionRow where
  code : String
  active : Bool
deriving DecidableEq, Repr

/-- The tables behind the permissions, and the cache. -/
structure AuthDb (P : Type) where
  auth : UserDb P
  permissions : Dict ℕ PermissionRow
  /-- Keys are the role and the permission. -/
  rolePermissions : Table P (ℕ × ℕ) Unit
  /-- `perm_cache`: each user with the version and the codes. -/
  cache : Dict ℕ (ℤ × Finset String)

/-! ### Codes -/

/-- The actions that need the permission to view. -/
def viewDependentActions :
    List String := ["edit", "operate", "manage", "delete", "export", "refresh", "new_cycle"]

/-- `code.partition(":")`, where there is a colon. -/
def partitionColon (code : String) : Option (String × String) :=
  match code.toList.dropWhile (· ≠ ':') with
  | [] => none
  | _ :: action => some (String.ofList (code.toList.takeWhile (· ≠ ':')), String.ofList action)

/-- The code of the same scope that lets one look at it. -/
def viewCode (code : String) : Option String :=
  (partitionColon code).bind fun r => if r.2 ∈ viewDependentActions then
    some (r.1 ++ ":view") else none

/-- The codes, with the permissions to view that they need. -/
def expandPermissionDependencies (codes available : List String) : List String :=
  (codes ++ codes.filterMap fun code => (viewCode code).filter (· ∈ available)).dedup

/-- `{r.code: r.id}` of the active permissions. -/
def activeCodeToId (permissions : Dict ℕ PermissionRow) : Dict String ℕ :=
  .ofList (permissions.items.filterMap fun e => if e.2.active then some (e.2.code, e.1) else none)

/-- The active codes of a role, among the given rows. -/
def codesOfRole (permissions : Dict ℕ PermissionRow) (rows : List (ℕ × ℕ)) (roleId : ℕ) :
    Finset String :=
  (rows.filterMap fun k =>
    if k.1 = roleId then ((permissions.get? k.2).filter PermissionRow.active).map PermissionRow.code
    else none).toFinset

/-- What becomes of the codes that a request wants for a role. -/
inductive CodeCheck
  /-- One of them is not an active code. -/
  | refused
  /-- The role has them already. -/
  | unchanged
  /-- The permissions are to be stored. -/
  | replace (ids : List ℕ)

/-- The check of the codes in `update_role_permissions`; `old` are the codes that the role has. -/
def checkCodes (permissions : Dict ℕ PermissionRow) (codes : List String) (old : Finset String) :
    CodeCheck :=
  let active := (activeCodeToId permissions).keys
  let new := expandPermissionDependencies codes active
  if ¬ new ⊆ active then .refused
  else if new.toFinset = old then .unchanged
  else .replace ((new.insertionSort (· ≤ ·)).filterMap (activeCodeToId permissions).get?)

theorem mem_codesOfRole {permissions : Dict ℕ PermissionRow} {rows : List (ℕ × ℕ)} {roleId : ℕ}
    {code : String} :
    code ∈ codesOfRole permissions rows roleId ↔
      ∃ id row, (roleId, id) ∈ rows ∧ permissions.get? id = some row ∧ row.active = true ∧
      row.code = code := by
  unfold codesOfRole
  rw [List.mem_toFinset, List.mem_filterMap]
  constructor
  · intro h
    obtain ⟨⟨role, id⟩, hmem, hcode⟩ := h
    split_ifs at hcode with hrole
    obtain ⟨row, hrow, hname⟩ := Option.map_eq_some_iff.mp hcode
    obtain ⟨hget, hactive⟩ := Option.filter_eq_some_iff.mp hrow
    exact ⟨id, row, hrole ▸ hmem, hget, hactive, hname⟩
  · intro h
    obtain ⟨id, row, hmem, hget, hactive, hname⟩ := h
    refine ⟨(roleId, id), hmem, ?_⟩
    rw [if_pos rfl, hget]
    simp [Option.filter, hactive, hname]

section Auth

variable {P : Type} [DecidableEq P]

/-- The codes that a statement of `p` finds. -/
def AuthDb.codes (db : AuthDb P) (p : P) (roleId : ℕ) : Finset String :=
  codesOfRole db.permissions (db.rolePermissions.select p fun _ => true) roleId

/-- The codes that are stored for a role. -/
def AuthDb.storedCodes (db : AuthDb P) (roleId : ℕ) : Finset String :=
  codesOfRole db.permissions db.rolePermissions.committed.keys roleId

/-! ### The programs -/

/-- What a request knows of its user. -/
structure UserContext where
  id : ℕ
  roleId : ℕ
  permVersion : ℤ
deriving DecidableEq, Repr

/-- Where a process stands. -/
inductive AuthPoint
  | idle
  | user (point : UserPoint)
  /-- `update_role_permissions`: the codes that the role had are to be read. -/
  | oldCodes (roleId : ℕ) (codes : List String)
  | newCodes (roleId : ℕ) (codes : List String) (old : Finset String)
  | delete (roleId : ℕ) (ids : List ℕ)
  | deleting (roleId : ℕ) (ids : List ℕ) (todo : List (ℕ × ℕ))
  /-- The rest of the rows of the `UPDATE`. -/
  | bumping (roleId : ℕ) (ids : List ℕ) (todo : List ℕ)
  | inserting (roleId : ℕ) (ids : List ℕ)
  | lookup (context : UserContext)
  | fetch (context : UserContext)
  | store (context : UserContext) (perms : Finset String)
  | answered (perms : Finset String)
  /-- A superadmin has all permissions. -/
  | answeredAll

/-- What a process does next. -/
inductive AuthAction
  | user (request : UserRequest)
  | updateRolePermissions (roleId : ℕ) (codes : List String)
  /-- A request with a token of the user and the version. -/
  | look (id : ℕ) (pv : ℤ)
  | statement
  | crash

/-- Where a request on users stands. -/
def AuthPoint.ofUser : UserPoint → AuthPoint
  | .idle => .idle
  | point => .user point

/-- The transaction of a process commits. -/
def AuthDb.commit (db : AuthDb P) (p : P) : AuthDb P :=
  { db with auth := db.auth.commit p, rolePermissions := db.rolePermissions.commit p }

/-- The transaction of a process rolls back. -/
def AuthDb.rollback (db : AuthDb P) (p : P) : AuthDb P :=
  { db with auth := db.auth.rollback p, rolePermissions := db.rolePermissions.abort p }

/-- The transaction commits and the process is free. -/
def AuthDb.finish (db : AuthDb P) (p : P) :
    Option (AuthDb P × AuthPoint) := some (db.commit p, .idle)

/-- The transaction rolls back and the process is free. -/
def AuthDb.quit (db : AuthDb P) (p : P) :
    Option (AuthDb P × AuthPoint) := some (db.rollback p, .idle)

/-- The tables with other users. -/
def AuthDb.withUsers (db : AuthDb P) (users : Table P ℕ UserRow) : AuthDb P :=
  { db with auth := { db.auth with users := users } }

/-- A statement of a request of `auth_users`. -/
def AuthDb.liftUser (db : AuthDb P) (r : UserDb P × UserPoint) : AuthDb P × AuthPoint :=
  ({ db with auth := r.1 }, .ofUser r.2)

/-- The check of the codes, and what follows from it. -/
def AuthDb.checkCodes (db : AuthDb P) (p : P) (roleId : ℕ) (codes : List String)
    (old : Finset String) : Option (AuthDb P × AuthPoint) :=
  match Restock.checkCodes db.permissions codes old with
  | .refused => db.quit p
  | .unchanged => db.finish p
  | .replace ids => some (db, .delete roleId ids)

/-- The read of `get_current_user`, with its checks. -/
def AuthDb.readUser (db : AuthDb P) (p : P) (id : ℕ) (pv : ℤ) : Option (AuthDb P × AuthPoint) :=
  match db.auth.target p id with
  | none => db.quit p
  | some (row, isSuperadmin) =>
    if row.isActive = false ∨ row.permVersion ≠ pv then db.quit p
    else if isSuperadmin then some (db, .answeredAll)
    else some (db, .lookup ⟨id, row.roleId, row.permVersion⟩)

/-- `InMemoryPermissionCache()`. -/
def cacheMaxsize : ℕ := 100

/-- One statement of a transaction or a request. -/
def authNext (db : AuthDb P) (p : P) : AuthPoint → AuthAction → Option (AuthDb P × AuthPoint)
  | _, .crash => db.quit p
  | .idle, .user request => (userRequestNext db.auth p request).map db.liftUser
  | .user point, .statement => (userNext db.auth p point .statement).map db.liftUser
  | .idle, .updateRolePermissions roleId codes =>
    if db.auth.roles.get? roleId = some false then some (db, .oldCodes roleId codes) else db.quit p
  | .oldCodes roleId codes, .statement => some (db, .newCodes roleId codes (db.codes p roleId))
  | .newCodes roleId codes old, .statement => db.checkCodes p roleId codes old
  | .delete roleId ids, .statement =>
    some (db, .deleting roleId ids
      ((db.rolePermissions.select p fun _ => true).filter fun k => k.1 = roleId))
  | .deleting roleId ids (k :: todo), .statement =>
    (db.rolePermissions.update p k (fun _ => true) fun _ => none).map fun rolePermissions =>
      ({ db with rolePermissions := rolePermissions }, .deleting roleId ids todo)
  | .deleting roleId ids [], .statement =>
    some (db, .bumping roleId ids (db.auth.users.select p fun row => row.roleId = roleId))
  | .bumping roleId ids (id :: todo), .statement =>
    (db.auth.users.update p id (fun row => row.roleId = roleId)
      fun row => some { row with permVersion := row.permVersion + 1 }).map fun users =>
      (db.withUsers users, .bumping roleId ids todo)
  | .bumping roleId ids [], .statement => some (db, .inserting roleId ids)
  -- the rows are inserted with the commit
  | .inserting roleId (id :: ids), .statement =>
    if db.rolePermissions.free p (roleId, id) then
      if (db.rolePermissions.view p (roleId, id)).isNone then
        some ({ db with rolePermissions := db.rolePermissions.write p (roleId, id) (some ()) },
          .inserting roleId ids)
      else db.quit p
    else none
  | .inserting _ [], .statement => db.finish p
  | .idle, .look id pv => db.readUser p id pv
  | .lookup context, .statement =>
    match db.cache.get? context.id with
    | none => some (db, .fetch context)
    | some (version, perms) =>
      if version = context.permVersion then
        some ({ db with cache := LruCache.touch db.cache context.id }, .answered perms)
      else some (db, .fetch context)
  | .fetch context, .statement => some (db, .store context (db.codes p context.roleId))
  | .store context perms, .statement =>
    some ({ db with cache := LruCache.store cacheMaxsize db.cache context.id (context.permVersion, perms) }, .answered perms)
  | .answered _, .statement => some (db, .idle)
  | .answeredAll, .statement => some (db, .idle)
  | _, _ => none

/-- The interleavings, from the given states. -/
def authRuns (start : Procs P AuthPoint (AuthDb P) → Prop) :
    Lts (Procs P AuthPoint (AuthDb P)) (P × AuthAction) :=
  Procs.runs start authNext

/-! ### Codes of the tables -/

variable {db db' : AuthDb P} {p q : P}

theorem codesOfRole_congr {permissions : Dict ℕ PermissionRow} {rows rows' : List (ℕ × ℕ)}
    {roleId : ℕ} (h : ∀ id, (roleId, id) ∈ rows' ↔ (roleId, id) ∈ rows) :
    codesOfRole permissions rows' roleId = codesOfRole permissions rows roleId := by
  ext code
  simp only [mem_codesOfRole, h]

/-- A transaction that has changed no permission reads what is stored. -/
theorem codes_of_unlocked (h : db.rolePermissions.Unlocked p) (roleId : ℕ) :
    db.codes p roleId = db.storedCodes roleId := by
  refine codesOfRole_congr fun id => ?_
  rw [Table.mem_select, Dict.mem_keys_iff]
  refine exists_congr fun v => ?_
  rw [h.view]
  exact and_iff_left rfl

omit [DecidableEq P] in
/-- The codes of a role whose rows are as they were. -/
theorem storedCodes_congr {roleId : ℕ} (hp : db'.permissions = db.permissions)
    (h : ∀ id, db'.rolePermissions.committed.get? (roleId, id) = db.rolePermissions.committed.get?
      (roleId, id)) :
    db'.storedCodes roleId = db.storedCodes roleId := by
  unfold AuthDb.storedCodes
  rw [hp]
  refine codesOfRole_congr fun id => ?_
  rw [Dict.mem_keys_iff, Dict.mem_keys_iff, h id]

/-! ### What a statement does -/

/-- The role whose rows a transaction may have. -/
def AuthPoint.role : AuthPoint → Option ℕ
  | .deleting roleId _ _ | .bumping roleId _ _ | .inserting roleId _ => some roleId
  | _ => none

/-- The role whose users have a new version, and the users that are still to get one. -/
def AuthPoint.bumps : AuthPoint → Option (ℕ × List ℕ)
  | .bumping roleId _ todo => some (roleId, todo)
  | .inserting roleId _ => some (roleId, [])
  | _ => none

/-- The point has rows of neither table. -/
def AuthPoint.clean : AuthPoint → Prop
  | .deleting _ _ _ | .bumping _ _ _ | .inserting _ _ | .user (.written _ _) => False
  | _ => True

/-- The user whose permissions a process looks up. -/
def AuthPoint.context : AuthPoint → Option UserContext
  | .lookup context | .fetch context | .store context _ => some context
  | _ => none

/-- What a request has read of its user still may be so. -/
def AuthDb.Knows (db : AuthDb P) (context : UserContext) : Prop :=
  ∀ row, db.auth.users.committed.get? context.id = some row →
    context.permVersion ≤ row.permVersion ∧
    (context.permVersion = row.permVersion → row.roleId = context.roleId)

/-- What each statement does, with what has to hold for it. -/
inductive AuthStep (db : AuthDb P) (p : P) (action : AuthAction) :
    AuthPoint → AuthDb P → AuthPoint → Prop
  | quit {point} : AuthStep db p action point (db.rollback p) .idle
  | commit {point} : (∀ roleId todo, point.bumps = some (roleId, todo) → todo = []) →
      (point.role = none ∨ point.bumps ≠ none) →
      (∀ id change, point = .user (.written id change) → action = .statement) →
      AuthStep db p action point (db.commit p) .idle
  | read {point point'} : point.clean → point'.clean → (∀ context, point'.context = some context →
      point.context = some context ∨ db.Knows context) →
        (∀ context perms, point' = .store context perms →
      perms = db.storedCodes context.roleId) → AuthStep db p action point db point'
  /-- A user is as it was: there is nothing to change, or it is gone. -/
  | unchanged {point id change} :
    point.clean → AuthStep db p action point db (.user (.written id change))
  | writeUser {id change row} : db.auth.users.free p id = true →
      db.auth.users.view p id = some row → AuthStep db p action (.user (.write id change))
        (db.withUsers (db.auth.users.write p id (change.apply row))) (.user (.written id change))
  | beginDelete {roleId ids todo} : (∀ k ∈ todo, k.1 = roleId) →
      AuthStep db p action (.delete roleId ids) db (.deleting roleId ids todo)
  | deleteRow {roleId ids k todo} : db.rolePermissions.free p k = true →
      AuthStep db p action (.deleting roleId ids (k :: todo))
      { db with rolePermissions := db.rolePermissions.write p k none } (.deleting roleId ids todo)
  | deleteMiss {roleId ids k todo} :
    AuthStep db p action (.deleting roleId ids (k :: todo)) db (.deleting roleId ids todo)
  | beginBump {roleId ids} : AuthStep db p action (.deleting roleId ids []) db
      (.bumping roleId ids (db.auth.users.select p fun row => row.roleId = roleId))
  | bump {roleId ids id todo row} : db.auth.users.free p id = true →
      db.auth.users.view p id = some row → row.roleId = roleId →
      AuthStep db p action (.bumping roleId ids (id :: todo))
        (db.withUsers (db.auth.users.write p id
          (some { row with permVersion := row.permVersion + 1 })))
        (.bumping roleId ids todo)
  | bumpMiss {roleId ids id todo} :
      (∀ row, db.auth.users.view p id = some row → row.roleId ≠ roleId) →
      AuthStep db p action (.bumping roleId ids (id :: todo)) db (.bumping roleId ids todo)
  | beginInsert {roleId ids} :
    AuthStep db p action (.bumping roleId ids []) db (.inserting roleId ids)
  | insert {roleId id ids} : db.rolePermissions.free p (roleId, id) = true →
      AuthStep db p action (.inserting roleId (id :: ids))
      { db with rolePermissions := db.rolePermissions.write p (roleId, id) (some ()) }
        (.inserting roleId ids)
  | touch {context perms} : AuthStep db p action (.lookup context)
      { db with cache := LruCache.touch db.cache context.id } (.answered perms)
  | store {context perms} : AuthStep db p action (.store context perms)
      { db with cache := LruCache.store cacheMaxsize db.cache context.id (context.permVersion, perms) } (.answered perms)

variable {point point' : AuthPoint} {action : AuthAction} {r : AuthDb P × AuthPoint}

/-- What holds of the tables for a process at a point. -/
structure AuthAt (p : P) (point : AuthPoint) (db : AuthDb P) : Prop where
  users : point.clean ∨ point.role ≠ none ∧ point.bumps = none → db.auth.users.Unlocked p
  written : ∀ id change, point = .user (.written id change) →
    ∀ k v, db.auth.users.locks.get? k = some (p, v) → k = id ∧
    ∃ row, db.auth.users.committed.get? k = some row ∧ v = change.apply row
  bumped : point.bumps ≠ none → ∀ k v, db.auth.users.locks.get? k = some (p, v) →
    ∃ row row', db.auth.users.committed.get? k = some row ∧ v = some row' ∧
      row.permVersion < row'.permVersion ∧ row'.roleId = row.roleId
  rows : ∀ k v, db.rolePermissions.locks.get? k = some (p, v) → point.role = some k.1
  todo : ∀ roleId ids todo, point = .deleting roleId ids todo → ∀ k ∈ todo, k.1 = roleId
  covered : ∀ roleId todo, point.bumps = some (roleId, todo) →
    ∀ id row, db.auth.users.committed.get? id = some row → row.roleId = roleId → id ∈ todo ∨
    ∃ v, db.auth.users.locks.get? id = some (p, v)
  context : ∀ context, point.context = some context → db.Knows context
  stored : ∀ context perms, point = .store context perms →
    ∀ row, db.auth.users.committed.get? context.id = some row →
    context.permVersion = row.permVersion → perms = db.storedCodes context.roleId

/-- An entry with the version of its user has the codes of the role. -/
def AuthDb.CacheCurrent (db : AuthDb P) : Prop :=
  ∀ id version perms row, db.cache.get? id = some (version, perms) →
    db.auth.users.committed.get? id = some row → version ≤ row.permVersion ∧
    (version = row.permVersion → perms = db.storedCodes row.roleId)

omit [DecidableEq P] in
theorem AuthAt.rows_unlocked (hat : AuthAt p point db) (h : point.role = none) :
    db.rolePermissions.Unlocked p := by
  intro k v hk
  have hrole := hat.rows k v hk
  rw [h] at hrole
  cases hrole

theorem AuthAt.quit_users (hat : AuthAt p point db) (h : point.role = none) :
    { db with auth := db.auth.rollback p } = db.rollback p := by
  show _ = { db with auth := _, rolePermissions := db.rolePermissions.abort p }
  rw [Table.abort_eq_self (hat.rows_unlocked h)]

theorem AuthAt.commit_users (hat : AuthAt p point db) (h : point.role = none) :
    { db with auth := db.auth.commit p } = db.commit p := by
  show _ = { db with auth := _, rolePermissions := db.rolePermissions.commit p }
  rw [Table.commit_eq_self (hat.rows_unlocked h)]

/-- A read of a request of `auth_users`. -/
theorem AuthStep.readUser (hp : point.clean) (pt : UserPoint) :
    AuthStep db p action point db (.ofUser pt) := by
  cases pt with
  | written id change => exact .unchanged hp
  | _ => exact .read hp trivial nofun nofun

/-- A statement of a request of `auth_users`. -/
theorem liftUser_step (hat : AuthAt p point db) {pt pt' : UserPoint} {act : UserAction}
    {auth : UserDb P} (hpoint : point = .idle ∧ pt = .idle ∨ point = .user pt ∧ action = .statement)
    (h : UserStep db.auth p act pt auth pt') :
    AuthStep db p action point { db with auth := auth } (.ofUser pt') := by
  have hrole : point.role = none := by
    rcases hpoint with ⟨rfl, -⟩ | ⟨rfl, -⟩ <;> rfl
  cases h with
  | quit =>
    rw [hat.quit_users hrole]
    exact .quit
  | commit _ =>
    rcases hpoint with ⟨-, hpt⟩ | ⟨rfl, ha⟩
    · cases hpt
    · rw [hat.commit_users hrole]
      exact .commit nofun (Or.inl rfl) fun _ _ _ => ha
  | write hfree hv =>
    rcases hpoint with ⟨-, hpt⟩ | ⟨rfl, -⟩
    · cases hpt
    · exact .writeUser hfree hv
  | read hp _ =>
    refine .readUser ?_ pt'
    rcases hpoint with ⟨rfl, -⟩ | ⟨rfl, -⟩
    · trivial
    · cases pt with
      | written id change => exact absurd rfl (hp id change)
      | _ => trivial

/-- A user that has been read. -/
theorem readUser_knows (hu : db.auth.users.Unlocked p) {id : ℕ} {row : UserRow}
    {isSuperadmin : Bool} (h : db.auth.target p id = some (row, isSuperadmin)) :
    db.Knows ⟨id, row.roleId, row.permVersion⟩ := by
  intro row' hrow'
  obtain ⟨hview, -⟩ := target_view h
  obtain rfl := Option.some.inj (((hu.view id).symm.trans hview).symm.trans hrow')
  exact ⟨le_rfl, fun _ => rfl⟩

/-- **Every statement** is one of the listed ones. -/
theorem authNext_step (hat : AuthAt p point db) (h : authNext db p point action = some r) :
    AuthStep db p action point r.1 r.2 := by
  unfold authNext at h
  split at h
  case h_1 =>
    rw [← Option.some.inj h]
    exact .quit
  case h_2 request =>
    obtain ⟨r', hr', rfl⟩ := Option.map_eq_some_iff.mp h
    have hst : UserStep db.auth p (.request request) .idle r'.1 r'.2 :=
      userRequestNext_step (hat.users (Or.inl trivial)) hr'
    exact liftUser_step hat (Or.inl ⟨rfl, rfl⟩) hst
  case h_3 pt =>
    obtain ⟨r', hr', rfl⟩ := Option.map_eq_some_iff.mp h
    refine liftUser_step hat (Or.inr ⟨rfl, rfl⟩)
      (userNext_step (fun hp => hat.users (Or.inl ?_)) hr')
    cases pt with
    | written id change => exact absurd rfl (hp id change)
    | _ => trivial
  case h_4 =>
    split_ifs at h
    · rw [← Option.some.inj h]
      exact .read trivial trivial (fun _ hc => by cases hc) fun _ _ hp => by cases hp
    · rw [← Option.some.inj h]
      exact .quit
  case h_5 =>
    rw [← Option.some.inj h]
    exact .read trivial trivial (fun _ hc => by cases hc) fun _ _ hp => by cases hp
  case h_6 =>
    dsimp only [AuthDb.checkCodes] at h
    split at h
    · rw [← Option.some.inj h]
      exact .quit
    · rw [← Option.some.inj h]
      exact .commit (fun _ _ hb => by cases hb) (Or.inl rfl) fun _ _ hp => by cases hp
    · rw [← Option.some.inj h]
      exact .read trivial trivial (fun _ hc => by cases hc) fun _ _ hp => by cases hp
  case h_7 =>
    rw [← Option.some.inj h]
    exact .beginDelete fun k hk => of_decide_eq_true (List.mem_filter.mp hk).2
  case h_8 =>
    obtain ⟨rows, hu, rfl⟩ := Option.map_eq_some_iff.mp h
    obtain ⟨hfree, ⟨_, -, -, rfl⟩ | ⟨-, rfl⟩⟩ := Table.update_cases hu
    · exact .deleteRow hfree
    · exact .deleteMiss
  case h_9 =>
    rw [← Option.some.inj h]
    exact .beginBump
  case h_10 =>
    obtain ⟨users, hu, rfl⟩ := Option.map_eq_some_iff.mp h
    obtain ⟨hfree, ⟨row, hv, hc, rfl⟩ | ⟨hmiss, rfl⟩⟩ := Table.update_cases hu
    · exact .bump hfree hv (of_decide_eq_true hc)
    · exact .bumpMiss fun row hv => of_decide_eq_false (hmiss row hv)
  case h_11 =>
    rw [← Option.some.inj h]
    exact .beginInsert
  case h_12 =>
    split_ifs at h with hfree
    · rw [← Option.some.inj h]
      exact .insert hfree
    · rw [← Option.some.inj h]
      exact .quit
  case h_13 =>
    rw [← Option.some.inj h]
    refine .commit ?_ (Or.inr fun hb => by cases hb) fun _ _ hp => by cases hp
    rintro _ _ ⟨⟩
    rfl
  case h_14 id pv =>
    unfold AuthDb.readUser at h
    split at h
    · rw [← Option.some.inj h]
      exact .quit
    · rename_i row isSuperadmin ht
      split_ifs at h
      · rw [← Option.some.inj h]
        exact .quit
      · rw [← Option.some.inj h]
        exact .read trivial trivial (fun _ hc => by cases hc) fun _ _ hp => by cases hp
      · rw [← Option.some.inj h]
        refine .read trivial trivial ?_ fun _ _ hp => by cases hp
        rintro _ ⟨⟩
        exact Or.inr (readUser_knows (hat.users (Or.inl trivial)) ht)
  case h_15 context =>
    split at h
    · rw [← Option.some.inj h]
      exact .read trivial trivial (fun _ hc => Or.inl hc) fun _ _ hp => by cases hp
    · split_ifs at h
      · rw [← Option.some.inj h]
        exact .touch
      · rw [← Option.some.inj h]
        exact .read trivial trivial (fun _ hc => Or.inl hc) fun _ _ hp => by cases hp
  case h_16 context =>
    rw [← Option.some.inj h]
    refine .read trivial trivial (fun _ hc => Or.inl hc) ?_
    rintro _ _ ⟨⟩
    exact codes_of_unlocked (hat.rows_unlocked rfl) _
  case h_17 =>
    rw [← Option.some.inj h]
    exact .store
  case h_18 | h_19 =>
    rw [← Option.some.inj h]
    exact .read trivial trivial (fun _ hc => by cases hc) fun _ _ hp => by cases hp
  case h_20 => cases h

/-! ### Versions -/

/-- A user has a new version, or the same version and role. -/
def UserRow.Follows (row row' : UserRow) : Prop :=
  row.permVersion < row'.permVersion ∨ row'.permVersion = row.permVersion ∧ row'.roleId = row.roleId

/-- Users keep their version only with their role and its codes. -/
def AuthDb.LeadsTo (db db' : AuthDb P) : Prop :=
  ∀ id row', db'.auth.users.committed.get? id = some row' →
    ∃ row, db.auth.users.committed.get? id = some row ∧ row.Follows row' ∧
    (row'.permVersion = row.permVersion → db'.storedCodes row.roleId = db.storedCodes row.roleId)

theorem apply_follows {change : UserChange} {row row' : UserRow}
    (h : change.apply row = some row') : row.Follows row' := by
  cases change with
  | update displayName roleId =>
    cases roleId with
    | none =>
      obtain rfl := Option.some.inj h
      exact Or.inr ⟨rfl, rfl⟩
    | some roleId =>
      obtain rfl := Option.some.inj h
      exact Or.inl (lt_add_one row.permVersion)
  | delete => cases h
  | status isActive =>
    obtain rfl := Option.some.inj h
    exact Or.inl (lt_add_one row.permVersion)

/-- A change moves a user only to the role it is for. -/
theorem apply_role {change : UserChange} {row row' : UserRow} (h : change.apply row = some row') :
    row'.roleId = row.roleId ∨ ∃ displayName, change = .update displayName (some row'.roleId) := by
  cases change with
  | update displayName roleId =>
    cases roleId with
    | none =>
      obtain rfl := Option.some.inj h
      exact Or.inl rfl
    | some roleId =>
      obtain rfl := Option.some.inj h
      exact Or.inr ⟨displayName, rfl⟩
  | delete => cases h
  | status isActive =>
    obtain rfl := Option.some.inj h
    exact Or.inl rfl

omit [DecidableEq P] in
/-- A user that a transaction has: changed by a request, or with a new version. -/
theorem AuthAt.held_cases (hat : AuthAt p point db) {id : ℕ} {v : Option UserRow}
    (h : db.auth.users.locks.get? id = some (p, v)) :
    ∃ row, db.auth.users.committed.get? id = some row ∧
        ((∃ change, point = .user (.written id change) ∧ v = change.apply row) ∨
        point.bumps ≠ none ∧ ∃ row', v = some row' ∧ row.permVersion < row'.permVersion ∧
        row'.roleId = row.roleId) := by
  have hbump : point.bumps ≠ none → ∃ row, db.auth.users.committed.get? id = some row ∧
      point.bumps ≠ none ∧ ∃ row', v = some row' ∧ row.permVersion < row'.permVersion ∧
      row'.roleId = row.roleId := by
    intro hb
    obtain ⟨row, row', hrow, hv, hlt, hrole⟩ := hat.bumped hb id v h
    exact ⟨row, hrow, hb, row', hv, hlt, hrole⟩
  have hclean : point.clean ∨ point.role ≠ none ∧ point.bumps = none → False :=
    fun hc => hat.users hc id v h
  cases point with
  | user pt =>
    cases pt with
    | written id' change =>
      obtain ⟨rfl, row, hrow, hv⟩ := hat.written id' change rfl id v h
      exact ⟨row, hrow, Or.inl ⟨change, rfl, hv⟩⟩
    | _ => exact (hclean (Or.inl trivial)).elim
  | bumping roleId ids todo =>
    obtain ⟨row, hrow, hb⟩ := hbump nofun
    exact ⟨row, hrow, Or.inr hb⟩
  | inserting roleId ids =>
    obtain ⟨row, hrow, hb⟩ := hbump nofun
    exact ⟨row, hrow, Or.inr hb⟩
  | deleting roleId ids todo => exact (hclean (Or.inr ⟨nofun, rfl⟩)).elim
  | _ => exact (hclean (Or.inl trivial)).elim

theorem AuthStep.moves (h : AuthStep db p action point db' point') :
    Table.Moves p db.auth.users db'.auth.users ∧
    Table.Moves p db.rolePermissions db'.rolePermissions ∧ db'.permissions = db.permissions := by
  cases h with
  | quit => exact ⟨.abort, .abort, rfl⟩
  | commit _ _ _ => exact ⟨.commit, .commit, rfl⟩
  | read _ _ _ _ | unchanged _ | beginDelete _ | deleteMiss | beginBump | bumpMiss _ | beginInsert | touch | store =>
    exact ⟨.same, .same, rfl⟩
  | writeUser hfree _ | bump hfree _ _ => exact ⟨.write hfree, .same, rfl⟩
  | deleteRow hfree | insert hfree => exact ⟨.same, .write hfree, rfl⟩

/-- A statement that commits nothing. -/
theorem AuthStep.commits_or (h : AuthStep db p action point db' point') :
    (db'.auth.users.committed = db.auth.users.committed ∧
      db'.rolePermissions.committed = db.rolePermissions.committed) ∨ db' = db.commit p ∧
      (∀ roleId todo, point.bumps = some (roleId, todo) → todo = []) ∧
      (point.role = none ∨ point.bumps ≠ none) ∧ ∀ id change, point = .user (.written id change) →
      action = .statement := by
  cases h with
  | commit hb hr ha => exact Or.inr ⟨rfl, hb, hr, ha⟩
  | _ => exact Or.inl ⟨rfl, rfl⟩

omit [DecidableEq P] in
theorem leadsTo_of_committed (hu : db'.auth.users.committed = db.auth.users.committed)
    (hr : db'.rolePermissions.committed = db.rolePermissions.committed)
    (hp : db'.permissions = db.permissions) :
    db.LeadsTo db' := by
  intro id row' hrow'
  refine ⟨row', hu ▸ hrow', Or.inr ⟨rfl, rfl⟩, fun _ => storedCodes_congr hp fun _ => by rw [hr]⟩

/-- **Every statement** keeps versions and codes together: the commit of
`update_role_permissions` has a new version for all users of the role. -/
theorem AuthAt.leadsTo (hat : AuthAt p point db) (h : AuthStep db p action point db' point') :
    db.LeadsTo db' := by
  obtain ⟨hm, -, hp⟩ := h.moves
  rcases h.commits_or with ⟨hu, hr⟩ | ⟨rfl, hb, hrole, -⟩
  · exact leadsTo_of_committed hu hr hp
  · intro id row' hrow'
    -- the row is changed, and then by the request or with a new version
    obtain ⟨row, hrow, hfollows, hbumped⟩ : ∃ row, db.auth.users.committed.get? id = some row ∧
        row.Follows row' ∧ ∀ v, db.auth.users.locks.get? id = some (p, v) → point.bumps ≠ none →
        row.permVersion < row'.permVersion := by
      rcases hm.committed_cases id with hsame | hheld
      · refine ⟨row', hsame.symm.trans hrow', Or.inr ⟨rfl, rfl⟩, fun v hv hb' => ?_⟩
        have hview : (db.auth.users.commit p).committed.get? id = some row' := hrow'
        rw [Table.get?_commit, Table.view_of_held hv] at hview
        obtain ⟨row, hrow, ⟨change, rfl, -⟩ | ⟨-, row₁, hv₁, hlt, -⟩⟩ := hat.held_cases hv
        · exact absurd rfl hb'
        · obtain rfl := Option.some.inj (hview.symm.trans hv₁)
          have := Option.some.inj (hrow.symm.trans (hsame.symm.trans hrow'))
          exact this ▸ hlt
      · rw [hrow'] at hheld
        obtain ⟨row, hrow, ⟨change, rfl, hv⟩ | ⟨hb', row₁, hv₁, hlt, -⟩⟩ := hat.held_cases hheld
        · exact ⟨row, hrow, apply_follows hv.symm, fun _ _ hb' => absurd rfl hb'⟩
        · obtain rfl := Option.some.inj hv₁
          exact ⟨row, hrow, Or.inl hlt, fun _ _ _ => hlt⟩
    refine ⟨row, hrow, hfollows, fun hversion => storedCodes_congr rfl fun k => ?_⟩
    show (db.rolePermissions.commit p).committed.get? _ = _
    rw [Table.get?_commit]
    refine Table.view_of_not_held fun v hv => ?_
    have hkey := hat.rows _ v hv
    have hbumps : point.bumps ≠ none := by
      rcases hrole with hnone | hsome
      · rw [hnone] at hkey
        cases hkey
      · exact hsome
    obtain ⟨⟨roleId, todo⟩, hbump⟩ := Option.ne_none_iff_exists'.mp hbumps
    have hroleId : roleId = row.roleId := by
      have hsame : point.role = some roleId := by
        cases point <;> cases hbump <;> rfl
      exact Option.some.inj (hsame.symm.trans hkey)
    -- all users of the role are held
    obtain rfl := hb roleId todo hbump
    rcases hat.covered roleId [] hbump id row hrow hroleId.symm with hmem | ⟨v', hv'⟩
    · cases hmem
    · have := hbumped v' hv' hbumps
      omega

omit [DecidableEq P] in
theorem AuthDb.Knows.next {context : UserContext} (h : db.Knows context) (hl : db.LeadsTo db') :
    db'.Knows context := by
  intro row' hrow'
  obtain ⟨row, hrow, hfollows, -⟩ := hl context.id row' hrow'
  obtain ⟨hle, hrole⟩ := h row hrow
  rcases hfollows with hlt | ⟨hv, hr⟩
  · exact ⟨by omega, fun he => absurd he (by omega)⟩
  · exact ⟨by omega, fun he => hr.trans (hrole (by omega))⟩

omit [DecidableEq P] in
/-- Codes that a request has read, as long as its version holds. -/
theorem AuthDb.LeadsTo.stored (hl : db.LeadsTo db') {context : UserContext} {perms : Finset String}
    (hk : db.Knows context)
      (h : ∀ row, db.auth.users.committed.get? context.id = some row →
      context.permVersion = row.permVersion → perms = db.storedCodes context.roleId) :
    ∀ row, db'.auth.users.committed.get? context.id = some row →
      context.permVersion = row.permVersion → perms = db'.storedCodes context.roleId := by
  intro row' hrow' hversion
  obtain ⟨row, hrow, hfollows, hcodes⟩ := hl context.id row' hrow'
  obtain ⟨hle, hrole⟩ := hk row hrow
  rcases hfollows with hlt | ⟨hv, -⟩
  · omega
  · have he : context.permVersion = row.permVersion := by omega
    rw [← hrole he, hcodes hv, hrole he]
    exact h row hrow he

omit [DecidableEq P] in
theorem AuthDb.CacheCurrent.next (h : db.CacheCurrent) (hl : db.LeadsTo db')
    (hc : db'.cache = db.cache) : db'.CacheCurrent := by
  intro id version perms row' hget hrow'
  rw [hc] at hget
  obtain ⟨row, hrow, hfollows, hcodes⟩ := hl id row' hrow'
  obtain ⟨hle, hperms⟩ := h id version perms row hget hrow
  rcases hfollows with hlt | ⟨hv, hr⟩
  · exact ⟨by omega, fun he => absurd he (by omega)⟩
  · refine ⟨by omega, fun he => ?_⟩
    rw [hr, hcodes hv]
    exact hperms (by omega)

/-- The cache after a statement. -/
theorem AuthAt.cache_next (hcache : db.CacheCurrent) (hat : AuthAt p point db)
    (h : AuthStep db p action point db' point') : db'.CacheCurrent := by
  have hl := hat.leadsTo h
  cases h with
  | touch =>
    intro id version perms row hget
    exact hcache id version perms row ((LruCache.get?_touch _ _ _).symm.trans hget)
  | @store context perms =>
    intro id version perms' row hget hrow
    rcases LruCache.of_get?_store hget with ⟨rfl, he⟩ | hold
    · obtain ⟨rfl, rfl⟩ := Prod.mk.inj he
      obtain ⟨hle, hrole⟩ := hat.context context rfl row hrow
      refine ⟨hle, fun hv => ?_⟩
      rw [hrole hv]
      exact hat.stored context perms' rfl row hrow hv
    · exact hcache id version perms' row hold hrow
  | _ => exact hcache.next hl rfl

/-- A user after a statement is in the role it was in, or was moved. -/
theorem AuthAt.role_next (hat : AuthAt p point db) (h : AuthStep db p action point db' point')
    {id : ℕ} {row' : UserRow} (hrow' : db'.auth.users.committed.get? id = some row') :
    ∃ row, db.auth.users.committed.get? id = some row ∧
        (row'.roleId = row.roleId ∨ action = .statement ∧
        ∃ displayName, point = .user (.written id (.update displayName (some row'.roleId)))) := by
  rcases h.moves.1.committed_cases id with hsame | hheld
  · exact ⟨row', hsame.symm.trans hrow', Or.inl rfl⟩
  · rcases h.commits_or with ⟨hu, -⟩ | ⟨rfl, -, -, ha⟩
    · exact ⟨row', hu ▸ hrow', Or.inl rfl⟩
    · rw [hrow'] at hheld
      obtain ⟨row, hrow, ⟨change, hp, hv⟩ | ⟨-, row₁, hv₁, -, hrole⟩⟩ := hat.held_cases hheld
      · refine ⟨row, hrow, ?_⟩
        rcases apply_role hv.symm with hr | ⟨displayName, rfl⟩
        · exact Or.inl hr
        · exact Or.inr ⟨ha id _ hp, displayName, hp⟩
      · obtain rfl := Option.some.inj hv₁
        exact ⟨row, hrow, Or.inl hrole⟩

/-- No user is moved into a role between the `UPDATE` and the commit of
`update_role_permissions` for the role. -/
def MoveGuard (db : AuthDb P) (point : AuthPoint) (action : AuthAction) (other : AuthPoint) :
    Prop :=
  ∀ id displayName roleId, point = .user (.written id (.update displayName (some roleId))) →
    action = .statement → ∀ row, db.auth.users.committed.get? id = some row → row.roleId ≠ roleId →
    ∀ todo, other.bumps ≠ some (roleId, todo)

theorem AuthAt.other {point'' : AuthPoint} (hat : AuthAt p point db) (hq : AuthAt q point' db)
    (h : AuthStep db p action point db' point'') (hok : MoveGuard db point action point')
    (hne : q ≠ p) :
    AuthAt q point' db' := by
  have hl := hat.leadsTo h
  obtain ⟨hm, hmr, -⟩ := h.moves
  refine ⟨fun hc => hm.unlocked_other hne (hq.users hc), fun id change hp k v hk => ?_,
    fun hb k v hk => ?_, fun k v hk => hq.rows k v ((hmr.held_other hne).mp hk), hq.todo,
    fun roleId todo hb id row' hrow' hr => ?_,
    fun context hc => (hq.context context hc).next hl, fun context perms hp => ?_⟩
  · have hk' := (hm.held_other hne).mp hk
    rw [hm.committed_of_held hne hk']
    exact hq.written id change hp k v hk'
  · have hk' := (hm.held_other hne).mp hk
    rw [hm.committed_of_held hne hk']
    exact hq.bumped hb k v hk'
  · obtain ⟨row, hrow, hrole⟩ := hat.role_next h hrow'
    have hold : row.roleId = roleId := by
      rcases hrole with hsame | ⟨ha, displayName, hp⟩
      · exact hsame.symm.trans hr
      · by_contra hmoved
        exact hok id displayName roleId (hr ▸ hp) ha row hrow hmoved todo hb
    rcases hq.covered roleId todo hb id row hrow hold with hmem | ⟨v, hv⟩
    · exact Or.inl hmem
    · exact Or.inr ⟨v, (hm.held_other hne).mpr hv⟩
  · refine hl.stored (hq.context context (by rw [hp]; rfl)) (hq.stored context perms hp)

omit [DecidableEq P] in
/-- A point without rows. -/
theorem AuthAt.of_unlocked (hp : point.bumps = none)
    (hd : ∀ roleId ids todo, point ≠ .deleting roleId ids todo) (hu : db.auth.users.Unlocked p)
    (hr : db.rolePermissions.Unlocked p)
    (hc : ∀ context, point.context = some context → db.Knows context)
      (hs : ∀ context perms, point = .store context perms →
      ∀ row, db.auth.users.committed.get? context.id = some row →
      context.permVersion = row.permVersion → perms = db.storedCodes context.roleId) : AuthAt p
      point db := by
  refine ⟨fun _ => hu, fun _ _ _ k v hk => absurd hk (hu k v), fun hb => absurd hp hb,
    fun k v hk => absurd hk (hr k v), fun roleId ids todo he => absurd he (hd roleId ids todo),
    fun roleId todo hb => ?_, hc, hs⟩
  rw [hp] at hb
  cases hb

omit [DecidableEq P] in
theorem clean_role (h : point.clean) : point.role = none ∧ point.bumps = none ∧
    ∀ roleId ids todo, point ≠ .deleting roleId ids todo := by
  cases point with
  | deleting _ _ _ | bumping _ _ _ | inserting _ _ => exact h.elim
  | _ => exact ⟨rfl, rfl, nofun⟩

/-! ### A process after its own statement -/

omit [DecidableEq P] in
/-- While the rows of a role are deleted, no user is written. -/
theorem AuthAt.of_deleting {roleId : ℕ} {ids : List ℕ} {todo : List (ℕ × ℕ)}
    (hu : db.auth.users.Unlocked p)
    (hrows : ∀ k v, db.rolePermissions.locks.get? k = some (p, v) → k.1 = roleId)
    (htodo : ∀ k ∈ todo, k.1 = roleId) :
    AuthAt p (.deleting roleId ids todo) db := by
  refine ⟨fun _ => hu, nofun, fun hb => absurd rfl hb, fun k v hk => ?_, ?_, nofun, nofun, nofun⟩
  · rw [hrows k v hk]
    rfl
  · rintro _ _ _ ⟨⟩
    exact htodo

omit [DecidableEq P] in
/-- While versions are raised and until the commit. -/
theorem AuthAt.of_bumping {roleId : ℕ} {todo : List ℕ} (hp : point.bumps = some (roleId, todo))
    (hbumped : ∀ k v, db.auth.users.locks.get? k = some (p, v) →
      ∃ row row', db.auth.users.committed.get? k = some row ∧ v = some row' ∧
      row.permVersion < row'.permVersion ∧ row'.roleId = row.roleId)
    (hrows : ∀ k v, db.rolePermissions.locks.get? k = some (p, v) → k.1 = roleId)
    (hcovered : ∀ id row, db.auth.users.committed.get? id = some row → row.roleId = roleId →
      id ∈ todo ∨ ∃ v, db.auth.users.locks.get? id = some (p, v)) : AuthAt p point db := by
  have hrole : point.role = some roleId ∧ ¬ point.clean := by
    cases point with
    | bumping | inserting =>
      obtain ⟨rfl, -⟩ := Prod.mk.inj (Option.some.inj hp)
      exact ⟨rfl, id⟩
    | _ => cases hp
  refine ⟨fun hc => ?_, ?_, fun _ => hbumped, fun k v hk => ?_, ?_,
    fun roleId' todo' hb => ?_, ?_, ?_⟩
  · rcases hc with hc | hc
    · exact absurd hc hrole.2
    · rw [hp] at hc
      cases hc.2
  · rintro id change rfl
    cases hp
  · rw [hrole.1, hrows k v hk]
  · rintro roleId' ids todo' rfl
    cases hp
  · obtain ⟨rfl, rfl⟩ := Prod.mk.inj (Option.some.inj (hp.symm.trans hb))
    exact hcovered
  · intro context hc
    cases point with
    | bumping | inserting => cases hc
    | _ => cases hp
  · rintro context perms rfl
    cases hp

omit [DecidableEq P] in
/-- The rows that a process has written are those of its role. -/
theorem AuthAt.rows_of {roleId : ℕ} (hat : AuthAt p point db) (hp : point.role = some roleId)
    (k : ℕ × ℕ) (v : Option Unit) (hk : db.rolePermissions.locks.get? k = some (p, v)) :
    k.1 = roleId :=
  (Option.some.inj (hp.symm.trans (hat.rows k v hk))).symm

omit [DecidableEq P] in
/-- A row of the role is written. -/
theorem AuthAt.rows_write {roleId : ℕ} (hat : AuthAt p point db) (hp : point.role = some roleId)
    {k₀ : ℕ × ℕ} (h₀ : k₀.1 = roleId) (v₀ : Option Unit) (k : ℕ × ℕ) (v : Option Unit)
    (hk : (db.rolePermissions.write p k₀ v₀).locks.get? k = some (p, v)) : k.1 = roleId := by
  rw [Table.get?_locks_write] at hk
  split_ifs at hk with he
  · rw [he, h₀]
  · exact hat.rows_of hp k v hk

/-- A user is written. -/
theorem AuthAt.writeUser {id : ℕ} {change : UserChange} {row : UserRow}
    (hat : AuthAt p (.user (.write id change)) db) (hv : db.auth.users.view p id = some row) :
    AuthAt p (.user (.written id change))
    (db.withUsers (db.auth.users.write p id (change.apply row))) := by
  have hu := hat.users (Or.inl trivial)
  refine ⟨fun hc => ?_, ?_, fun hb => absurd rfl hb,
    fun k v hk => absurd hk (hat.rows_unlocked rfl k v), nofun, nofun, nofun, nofun⟩
  · rcases hc with hc | hc
    · exact hc.elim
    · exact absurd rfl hc.1
  · rintro _ _ ⟨⟩ k v hk
    have hk' : (db.auth.users.write p id (change.apply row)).locks.get? k = some (p, v) := hk
    rw [Table.get?_locks_write] at hk'
    split_ifs at hk' with he
    · obtain ⟨-, rfl⟩ := Prod.mk.inj (Option.some.inj hk')
      exact ⟨he, row, (hu.view k).symm.trans (he ▸ hv), rfl⟩
    · exact absurd hk' (hu k v)

/-- The `UPDATE` begins: it finds all users of the role. -/
theorem AuthAt.beginBump {roleId : ℕ} {ids : List ℕ} (hat : AuthAt p (.deleting roleId ids []) db) :
    AuthAt p (.bumping roleId ids (db.auth.users.select p fun row => row.roleId = roleId)) db := by
  have hu := hat.users (Or.inr ⟨nofun, rfl⟩)
  refine .of_bumping rfl (fun k v hk => absurd hk (hu k v)) (hat.rows_of rfl)
    fun id row hrow hrole => Or.inl ?_
  exact Table.mem_select.mpr ⟨row, (hu.view id).trans hrow, decide_eq_true hrole⟩

/-- The version of a user of the role is raised. -/
theorem AuthAt.bump {roleId id : ℕ} {ids todo : List ℕ} {row : UserRow}
    (hat : AuthAt p (.bumping roleId ids (id :: todo)) db)
      (hv : db.auth.users.view p id = some row) : AuthAt p (.bumping roleId ids todo)
      (db.withUsers (db.auth.users.write p id
      (some { row with permVersion := row.permVersion + 1 }))) := by
  have hget : ∀ k, (db.auth.users.write p id
      (some { row with permVersion := row.permVersion + 1 })).locks.get? k = if k = id then
      some (p, some { row with permVersion := row.permVersion + 1 })
      else db.auth.users.locks.get? k :=
    fun k => Table.get?_locks_write _ _ _ _ _
  refine .of_bumping rfl (fun k v hk => ?_) (hat.rows_of rfl) fun id' row' hrow' hrole' => ?_
  · have hk' := (hget k).symm.trans hk
    split_ifs at hk' with he
    · obtain ⟨-, rfl⟩ := Prod.mk.inj (Option.some.inj hk')
      subst he
      rcases Table.view_cases db.auth.users p k with hheld | ⟨-, hsame⟩
      · -- a user that has a new version already gets another
        obtain ⟨row₀, row₁, hrow₀, hv₁, hlt, hrole₁⟩ := hat.bumped nofun k _ hheld
        obtain rfl := Option.some.inj (hv.symm.trans hv₁)
        exact ⟨row₀, _, hrow₀, rfl, by show _ < row.permVersion + 1; omega, hrole₁⟩
      · exact ⟨row, _, hsame.symm.trans hv, rfl, lt_add_one row.permVersion, rfl⟩
    · exact hat.bumped nofun k v hk'
  · by_cases he : id' = id
    · exact Or.inr ⟨_, (hget id').trans (if_pos he)⟩
    · rcases hat.covered roleId _ rfl id' row' hrow' hrole' with hmem | ⟨v, hv'⟩
      · exact Or.inl ((List.mem_cons.mp hmem).resolve_left he)
      · exact Or.inr ⟨v, (hget id').trans ((if_neg he).trans hv')⟩

/-- A user has left the role since. -/
theorem AuthAt.bumpMiss {roleId id : ℕ} {ids todo : List ℕ}
    (hat : AuthAt p (.bumping roleId ids (id :: todo)) db)
    (hmiss : ∀ row, db.auth.users.view p id = some row → row.roleId ≠ roleId) :
    AuthAt p (.bumping roleId ids todo) db := by
  refine .of_bumping rfl (hat.bumped nofun) (hat.rows_of rfl) fun id' row' hrow' hrole' => ?_
  rcases hat.covered roleId _ rfl id' row' hrow' hrole' with hmem | hheld
  · rcases List.mem_cons.mp hmem with rfl | hmem'
    · rcases Table.view_cases db.auth.users p id' with hheld | ⟨-, hsame⟩
      · exact Or.inr ⟨_, hheld⟩
      · exact absurd hrole' (hmiss row' (hsame.trans hrow'))
    · exact Or.inl hmem'
  · exact Or.inr hheld

/-- **A statement keeps what holds of the process that runs it.** -/
theorem AuthAt.own (hat : AuthAt p point db) (h : AuthStep db p action point db' point') :
    AuthAt p point' db' := by
  cases h with
  | quit =>
    exact .of_unlocked rfl nofun (Table.unlocked_abort _ p) (Table.unlocked_abort _ p) nofun nofun
  | commit _ _ _ =>
    exact .of_unlocked rfl nofun (Table.unlocked_commit _ p) (Table.unlocked_commit _ p) nofun nofun
  | read hp hp' hcontext hstored =>
    obtain ⟨-, hb, hd⟩ := clean_role hp'
    refine .of_unlocked hb hd (hat.users (Or.inl hp)) (hat.rows_unlocked (clean_role hp).1)
      (fun context hc => ?_)
      fun context perms he _ _ _ => hstored context perms he
    rcases hcontext context hc with hold | hnew
    · exact hat.context context hold
    · exact hnew
  | unchanged hp =>
    exact .of_unlocked rfl nofun (hat.users (Or.inl hp))
      (hat.rows_unlocked (clean_role hp).1) nofun nofun
  | writeUser _ hv => exact hat.writeUser hv
  | beginDelete htodo =>
    exact .of_deleting (hat.users (Or.inl trivial))
      (fun k v hk => absurd hk (hat.rows_unlocked rfl k v)) htodo
  | @deleteRow roleId ids k todo =>
    have htodo := hat.todo roleId ids _ rfl
    exact .of_deleting (hat.users (Or.inr ⟨nofun, rfl⟩))
      (hat.rows_write rfl (htodo k List.mem_cons_self) none)
      fun k' hk' => htodo k' (List.mem_cons_of_mem _ hk')
  | @deleteMiss roleId ids k todo =>
    exact .of_deleting (hat.users (Or.inr ⟨nofun, rfl⟩)) (hat.rows_of rfl)
      fun k' hk' => hat.todo roleId ids _ rfl k' (List.mem_cons_of_mem _ hk')
  | beginBump => exact hat.beginBump
  | bump _ hv _ => exact hat.bump hv
  | bumpMiss hmiss => exact hat.bumpMiss hmiss
  | beginInsert => exact .of_bumping rfl (hat.bumped nofun) (hat.rows_of rfl) (hat.covered _ [] rfl)
  | insert _ =>
    exact .of_bumping rfl (hat.bumped nofun) (hat.rows_write rfl rfl (some ()))
      (hat.covered _ [] rfl)
  | touch =>
    exact .of_unlocked rfl nofun (hat.users (Or.inl trivial)) (hat.rows_unlocked rfl) nofun nofun
  | store =>
    exact .of_unlocked rfl nofun (hat.users (Or.inl trivial)) (hat.rows_unlocked rfl) nofun nofun

/-! ### Runs -/

/-- Nothing is under way, and the cache is empty. -/
structure AuthStart (s : Procs P AuthPoint (AuthDb P)) : Prop where
  idle : ∀ p, s.proc p = .idle
  users : s.shared.auth.users.locks = .empty
  rows : s.shared.rolePermissions.locks = .empty
  cache : s.shared.cache = .empty

/-- The step does not meet what another process is about to do. -/
def MovesApart (a : P × AuthAction) (s : Procs P AuthPoint (AuthDb P)) : Prop :=
  ∀ q, q ≠ a.1 → MoveGuard s.shared (s.proc a.1) a.2 (s.proc q)

variable {s : Procs P AuthPoint (AuthDb P)}

theorem authAt_of_reach (h : (authRuns AuthStart).ReachIf MovesApart s) :
    s.shared.CacheCurrent ∧ ∀ p, AuthAt p (s.proc p) s.shared := by
  refine Procs.invariant (I := AuthDb.CacheCurrent) ?_ ?_ ?_ h
  · intro s hs
    refine ⟨fun id version perms row hget => ?_, fun p => ?_⟩
    · rw [hs.cache] at hget
      cases hget
    · rw [hs.idle p]
      refine .of_unlocked rfl nofun (fun k v hk => ?_) (fun k v hk => ?_) nofun nofun
      · rw [hs.users] at hk
        cases hk
      · rw [hs.rows] at hk
        cases hk
  · intro s p a r hcache hAt _ hr
    have hst := authNext_step (hAt p) hr
    exact ⟨(hAt p).cache_next hcache hst, (hAt p).own hst⟩
  · intro s p a r q _ hAt hok hr hq
    exact (hAt p).other (hAt q) (authNext_step (hAt p) hr) (hok q hq) hq

/-- A request that finds an entry of its version. -/
theorem lookup_hit {context : UserContext} {perms : Finset String}
    (h : db.cache.get? context.id = some (context.permVersion, perms)) :
    authNext db p (.lookup context) .statement =
    some ({ db with cache := LruCache.touch db.cache context.id }, .answered perms) := by
  simp [authNext, h]

theorem lookup_miss {context : UserContext}
    (h : ∀ perms, db.cache.get? context.id ≠ some (context.permVersion, perms)) :
    authNext db p (.lookup context) .statement = some (db, .fetch context) := by
  cases hget : db.cache.get? context.id with
  | none => simp [authNext, hget]
  | some entry =>
    obtain ⟨version, perms⟩ := entry
    have hne : version ≠ context.permVersion := fun he => h perms (he ▸ hget)
    simp [authNext, hget, hne]

/-- **Permission changes take effect**: when nothing is under way, a request of an active
user that is no superadmin, with the current version, is answered with the codes that
are stored for the role. -/
theorem permissions_of_reach (h : (authRuns AuthStart).ReachIf MovesApart s)
    (hquiet : ∀ p, s.proc p = .idle) {id : ℕ} {row : UserRow}
    (hrow : s.shared.auth.users.committed.get? id = some row) (hactive : row.isActive = true)
    (hrole : s.shared.auth.roles.get? row.roleId = some false) (p : P) :
    ∃ n s', Procs.exec authNext s
      ((p, .look id row.permVersion) :: List.replicate n (p, .statement)) = some s' ∧
      s'.proc p = .answered (s.shared.storedCodes row.roleId) := by
  obtain ⟨hcache, hAt⟩ := authAt_of_reach h
  have hclean : (s.proc p).clean := by
    rw [hquiet p]
    trivial
  have hu := (hAt p).users (Or.inl hclean)
  have hrows := (hAt p).rows_unlocked (clean_role hclean).1
  let context : UserContext := ⟨id, row.roleId, row.permVersion⟩
  have hread : authNext s.shared p (s.proc p) (.look id row.permVersion) =
      some (s.shared, .lookup context) := by
    have ht : s.shared.auth.target p id = some (row, false) := by
      unfold UserDb.target
      rw [hu.view, hrow, Option.bind_some, hrole]
      rfl
    rw [hquiet p]
    show s.shared.readUser p id row.permVersion = _
    unfold AuthDb.readUser
    rw [ht]
    simp [hactive, context]
  set s₁ := s.move p (s.shared, .lookup context) with hs₁
  have hp₁ : s₁.proc p = .lookup context := by rw [hs₁, Procs.move_proc_self]
  by_cases hhit : ∃ perms, s.shared.cache.get? id = some (row.permVersion, perms)
  · obtain ⟨perms, hget⟩ := hhit
    have hperms : perms = s.shared.storedCodes row.roleId := (hcache id _ perms row hget hrow).2 rfl
    have hanswer : authNext s₁.shared p (s₁.proc p) .statement =
        some ({ s.shared with cache := LruCache.touch s.shared.cache id }, .answered perms) := by
      rw [hp₁]
      exact lookup_hit hget
    exact ⟨1, _, Procs.exec_cons hread
      (Procs.exec_cons hanswer rfl), by rw [Procs.move_proc_self, hperms]⟩
  · -- without an entry of the version, the codes are read and stored
    have hfetch : authNext s₁.shared p (s₁.proc p) .statement =
        some (s.shared, .fetch context) := by
      rw [hp₁]
      exact lookup_miss fun perms hget => hhit ⟨perms, hget⟩
    set s₂ := s₁.move p (s.shared, .fetch context) with hs₂
    have hp₂ : s₂.proc p = .fetch context := by rw [hs₂, Procs.move_proc_self]
    have hstore : authNext s₂.shared p (s₂.proc p) .statement =
        some (s.shared, .store context (s.shared.storedCodes row.roleId)) := by
      rw [hp₂, ← codes_of_unlocked hrows]
      rfl
    set s₃ := s₂.move p (s.shared, .store context (s.shared.storedCodes row.roleId)) with hs₃
    have hp₃ : s₃.proc p = .store context
      (s.shared.storedCodes row.roleId) := by rw [hs₃, Procs.move_proc_self]
    have hanswer : ∃ r, authNext s₃.shared p (s₃.proc p) .statement = some r ∧
        r.2 = .answered (s.shared.storedCodes row.roleId) := by
      rw [hp₃]
      exact ⟨_, rfl, rfl⟩
    obtain ⟨r, hr, hpoint⟩ := hanswer
    refine ⟨3, s₃.move p r, ?_, by rw [Procs.move_proc_self, hpoint]⟩
    exact Procs.exec_cons hread
      (Procs.exec_cons hfetch (Procs.exec_cons hstore (Procs.exec_cons hr rfl)))

end Auth

/-! ### Two runs -/

/-- A user without permissions, and a role with one. -/
def oneViewer : Procs Bool AuthPoint (AuthDb Bool) :=
  ⟨{ auth := ⟨⟨.ofList [(1, ⟨"viewer", 1, true, 0⟩)], .empty⟩, .ofList [(1, false), (2, false)]⟩
     permissions := .ofList [(1, ⟨"sync:view", true⟩)]
     rolePermissions := ⟨.ofList [((2, 1), ())], .empty⟩
     cache := .empty }, fun _ => .idle⟩

theorem authStart_oneViewer : AuthStart oneViewer := ⟨fun _ => rfl, rfl, rfl, rfl⟩

/-- The user is moved to the second role and looks its permissions up. -/
def moveAndLook : List (Bool × AuthAction) :=
  [(false, .user (.update 1 none (some 2))), (false, .statement), (false, .statement),
    (false, .statement), (false, .look 1 1), (false, .statement), (false, .statement),
    (false, .statement), (false, .statement)]

/-- The codes of the second role are taken away, up to the version of its users. -/
def clearRole : List (Bool × AuthAction) :=
  [(true, .updateRolePermissions 2 []), (true, .statement), (true, .statement), (true, .statement),
    (true, .statement), (true, .statement)]

/-- The process does nothing. -/
def AuthPoint.isIdle : AuthPoint → Bool
  | .idle => true
  | _ => false

/-- The request was answered with the codes. -/
def AuthPoint.answers (perms : Finset String) : AuthPoint → Bool
  | .answered perms' => perms' = perms
  | _ => false

theorem answered_of_answers {point : AuthPoint} {perms : Finset String}
    (h : point.answers perms = true) : point = .answered perms := by
  cases point with
  | answered perms' => exact congrArg _ (of_decide_eq_true h)
  | _ => cases h

theorem idle_of_isIdle {s : Procs Bool AuthPoint (AuthDb Bool)}
    (h : ((s.proc false).isIdle && (s.proc true).isIdle) = true) : ∀ p, s.proc p = .idle := by
  have hidle : ∀ {point : AuthPoint}, point.isIdle = true → point = .idle := by
    intro point hp
    cases point with
    | idle => rfl
    | _ => cases hp
  obtain ⟨hf, ht⟩ := (Bool.and_eq_true _ _).mp h
  intro p
  cases p with
  | false => exact hidle hf
  | true => exact hidle ht

/-- The user is moved after the role was cleared: the request is answered with no codes. -/
theorem permissions_of_reach_moved : ∃ s : Procs Bool AuthPoint (AuthDb Bool),
    (authRuns AuthStart).ReachIf MovesApart s ∧
    s.shared.auth.users.committed.get? 1 = some ⟨"viewer", 2, true, 1⟩ ∧
    s.shared.storedCodes 2 = ∅ ∧
      ∃ n s', Procs.exec authNext s ((false, .look 1 1) :: List.replicate n (false, .statement)) =
      some s' ∧ s'.proc false = .answered ∅ := by
  have hrun : (Procs.execIf authNext (fun a s => (s.proc !a.1).isIdle) oneViewer
      (clearRole ++ [(true, .statement), (true, .statement)] ++ moveAndLook)).map (fun s =>
      (((s.proc false).isIdle && (s.proc true).isIdle), s.shared.auth.users.committed.get? 1,
        s.shared.auth.roles.get? 2, s.shared.storedCodes 2)) = some (true,
        some ⟨"viewer", 2, true, 1⟩, some false, ∅) := by decide +kernel
  obtain ⟨s, hs, hall⟩ := Option.map_eq_some_iff.mp hrun
  obtain ⟨hidle, hrest⟩ := Prod.mk.inj hall
  obtain ⟨hrow, hrest'⟩ := Prod.mk.inj hrest
  obtain ⟨hrole, hcodes⟩ := Prod.mk.inj hrest'
  have hreach : (authRuns AuthStart).ReachIf MovesApart s := by
    refine Procs.reach_execIf (.start authStart_oneViewer) hs fun a _ s hc => ?_
    intro q hq id displayName roleId _ _ row _ _ todo hb
    have hother : q = !a.1 := by
      cases q <;> cases ha : a.1 <;> simp_all
    rw [hother] at hb
    cases hp : s.proc !a.1 with
    | bumping _ _ _ | inserting _ _ =>
      rw [hp] at hc
      cases hc
    | _ =>
      rw [hp] at hb
      cases hb
  have hanswer := permissions_of_reach hreach (idle_of_isIdle hidle) hrow rfl hrole false
  rw [hcodes] at hanswer
  exact ⟨s, hreach, hrow, hcodes, hanswer⟩

/-- The user is moved into the role, and looks its permissions up, between the `UPDATE` and
the commit: afterwards it still has the code that the role has no more. -/
theorem permissions_stale :
    ∃ s s' : Procs Bool AuthPoint (AuthDb Bool), (authRuns AuthStart).Reach s ∧
    (∀ p, s.proc p = .idle) ∧ s.shared.auth.users.committed.get? 1 = some ⟨"viewer", 2, true, 1⟩ ∧
    s.shared.auth.roles.get? 2 = some false ∧ s.shared.storedCodes 2 = ∅ ∧
    Procs.exec authNext s [(false, .look 1 1), (false, .statement)] = some s' ∧
    s'.proc false = .answered {"sync:view"} := by
  have hrun : (Procs.exec authNext oneViewer
      (clearRole ++ moveAndLook ++ [(true, .statement), (true, .statement)])).map (fun s =>
      (((s.proc false).isIdle && (s.proc true).isIdle &&
        (Procs.exec authNext s [(false, .look 1 1), (false, .statement)]).any fun s' =>
          (s'.proc false).answers {"sync:view"}), s.shared.auth.users.committed.get? 1,
            s.shared.auth.roles.get? 2,
        s.shared.storedCodes 2)) = some (true, some ⟨"viewer", 2, true, 1⟩, some false,
          ∅) := by decide +kernel
  obtain ⟨s, hs, hall⟩ := Option.map_eq_some_iff.mp hrun
  obtain ⟨hboth, hrest⟩ := Prod.mk.inj hall
  obtain ⟨hidle, hnext⟩ := (Bool.and_eq_true _ _).mp hboth
  obtain ⟨hrow, hrest'⟩ := Prod.mk.inj hrest
  obtain ⟨hrole, hcodes⟩ := Prod.mk.inj hrest'
  obtain ⟨s', hs', hperms⟩ := Option.any_eq_true _ _ |>.mp hnext
  exact ⟨s, s', Procs.reach_exec (.start authStart_oneViewer) hs fun _ _ _ => trivial,
    idle_of_isIdle hidle, hrow, hrole, hcodes, hs', answered_of_answers hperms⟩

end Restock
