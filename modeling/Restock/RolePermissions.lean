/-
# Permissions that several administrators change (`api/auth_roles.py`, `core/permissions.py`)

`update_role_permissions` adds to the codes of a request the codes that let one look at
the same scope (`expand_permission_dependencies`), deletes the rows that the role has and
inserts the new ones with its commit. Two requests for one role run side by side: a
`DELETE` takes the rows that were there when it began, and not those that another request
has inserted since, even under the same key. A row is therefore stored with the
transaction that inserted it.

A role can end with the rows of two requests, and then has what neither asked for. But
whatever the order of the statements, the rows of one request stay or go together, so that
no role ever has the code of an action without the code to look at its scope
(`role_codes_closed`).
-/
import Restock.PermissionCache

namespace Restock

open ReadCommitted

/-! ### The tables -/

/-- The tables of the routes of the roles, with the transactions that run. -/
structure RoleDb (P : Type) where
  /-- `is_superadmin` of each role. -/
  roles : Dict ℕ Bool
  permissions : Dict ℕ PermissionRow
  /-- Keys are the role and the permission; a row has the transaction that inserted it. -/
  rolePermissions : Table P (ℕ × ℕ) ℕ
  /-- The number of the transaction of each process. -/
  xids : Dict P ℕ
  nextXid : ℕ

/-- A row that a statement has found. -/
abbrev RowVersion := (ℕ × ℕ) × ℕ

/-- Where a process stands. -/
inductive RolePoint
  | idle
  | oldCodes (roleId : ℕ) (codes : List String)
  | newCodes (roleId : ℕ) (codes : List String) (old : Finset String)
  | delete (roleId : ℕ) (ids : List ℕ)
  /-- The rows that the `DELETE` has found and not looked at. -/
  | deleting (roleId : ℕ) (ids : List ℕ) (todo : List RowVersion)
  /-- The rows that the commit has still to insert. -/
  | inserting (roleId : ℕ) (ids : List ℕ)
  | answered (codes : Finset String)
deriving DecidableEq

/-- What a process does next. -/
inductive RoleAction
  | updateRolePermissions (roleId : ℕ) (codes : List String)
  | getRolePermissions (roleId : ℕ)
  | statement
  | crash

section Roles

variable {P : Type} [DecidableEq P]

/-! ### The programs -/

namespace RoleDb

/-- The codes of a role that a session sees. -/
def codes (db : RoleDb P) (p : P) (roleId : ℕ) : Finset String :=
  codesOfRole db.permissions (db.rolePermissions.select p fun _ => true) roleId

/-- The codes of a role in the database. -/
def storedCodes (db : RoleDb P) (roleId : ℕ) : Finset String :=
  codesOfRole db.permissions db.rolePermissions.committed.keys roleId

/-- The transaction of a process commits. -/
def commit (db : RoleDb P) (p : P) : RoleDb P :=
  { db with rolePermissions := db.rolePermissions.commit p, xids := db.xids.put p none }

/-- The transaction of a process rolls back. -/
def rollback (db : RoleDb P) (p : P) : RoleDb P :=
  { db with rolePermissions := db.rolePermissions.abort p, xids := db.xids.put p none }

/-- The check of the codes, and what follows from it. -/
def checkCodes (db : RoleDb P) (p : P) (roleId : ℕ) (codes : List String) (old : Finset String) :
    RoleDb P × RolePoint :=
  match Restock.checkCodes db.permissions codes old with
  | .refused => (db.rollback p, .idle)
  | .unchanged => (db.commit p, .idle)
  | .replace ids => (db, .delete roleId ids)

/-- The rows of a role that a `DELETE` of `p` finds. -/
def findRows (db : RoleDb P) (p : P) (roleId : ℕ) : List RowVersion :=
  (db.rolePermissions.select p fun _ => true).filterMap fun k =>
    if k.1 = roleId then (db.rolePermissions.view p k).map fun xid => (k, xid) else none

/-- The transaction of `p` gets its number with its first change. -/
def begin (db : RoleDb P) (p : P) :
    RoleDb P := { db with xids := db.xids.put p (some db.nextXid), nextXid := db.nextXid + 1 }

/-- The transaction of a process writes a row. -/
def write (db : RoleDb P) (p : P) (k : ℕ × ℕ) (v : Option ℕ) : RoleDb P :=
  { db with rolePermissions := db.rolePermissions.write p k v }

/-- A row that the `DELETE` has found: it is gone, or it is waited for and deleted. -/
def deleteRow (db : RoleDb P) (p : P) (row : RowVersion) : Option (RoleDb P) :=
  if db.rolePermissions.view p row.1 ≠ some row.2 then some db
  else if db.rolePermissions.free p row.1 then some (db.write p row.1 none)
  else none

/-- A row of the `INSERT`. A key that is taken ends the request. -/
def insertRow (db : RoleDb P) (p : P) (roleId id : ℕ) (ids : List ℕ) :
    Option (RoleDb P × RolePoint) :=
  if db.rolePermissions.free p (roleId, id) then
    match db.rolePermissions.view p (roleId, id), db.xids.get? p with
    | none, some xid => some (db.write p (roleId, id) (some xid), .inserting roleId ids)
    | _, _ => some (db.rollback p, .idle)
  else none

end RoleDb

/-- One statement of a request. The new versions of the users stand between the `DELETE`
and the `INSERT`; they are in another table. -/
def roleNext (db : RoleDb P) (p : P) : RolePoint → RoleAction → Option (RoleDb P × RolePoint)
  | _, .crash => some (db.rollback p, .idle)
  | .idle, .updateRolePermissions roleId codes =>
    if db.roles.get? roleId = some false then some (db, .oldCodes roleId codes)
    else some (db, .idle)
  | .oldCodes roleId codes, .statement => some (db, .newCodes roleId codes (db.codes p roleId))
  | .newCodes roleId codes old, .statement => some (db.checkCodes p roleId codes old)
  | .delete roleId ids, .statement => some (db.begin p, .deleting roleId ids (db.findRows p roleId))
  | .deleting roleId ids (row :: todo), .statement =>
    (db.deleteRow p row).map fun db => (db, .deleting roleId ids todo)
  | .deleting roleId ids [], .statement => some (db, .inserting roleId ids)
  | .inserting roleId (id :: ids), .statement => db.insertRow p roleId id ids
  | .inserting _ [], .statement => some (db.commit p, .idle)
  | .idle, .getRolePermissions roleId =>
    match db.roles.get? roleId with
    | none => some (db, .idle)
    | some true => some (db, .answered (activeCodeToId db.permissions).keys.toFinset)
    | some false => some (db, .answered (db.codes p roleId))
  | .answered _, .statement => some (db, .idle)
  | _, _ => none

/-- The interleavings of the requests, from the given states. -/
def roleRuns (start : Procs P RolePoint (RoleDb P) → Prop) :
    Lts (Procs P RolePoint (RoleDb P)) (P × RoleAction) :=
  Procs.runs start roleNext

/-! ### The codes of a request -/

/-- What `activeCodeToId` finds is an active permission with the code. -/
theorem activeCodeToId_row {permissions : Dict ℕ PermissionRow} {code : String} {id : ℕ}
    (h : (activeCodeToId permissions).get? code = some id) :
    permissions.get? id = some ⟨code, true⟩ := by
  have hmem : (code, id) ∈ permissions.items.filterMap fun e => if e.2.active then
      some (e.2.code, e.1) else none := by
    rcases Dict.get?_foldl_set _ _ h with hmem | hget
    · exact hmem
    · exact absurd hget (by simp)
  obtain ⟨⟨id', row⟩, he, hcode⟩ := List.mem_filterMap.mp hmem
  dsimp only at hcode
  split_ifs at hcode with hactive
  obtain ⟨hname, rfl⟩ := Prod.mk.inj (Option.some.inj hcode)
  have hrow : row = ⟨code, true⟩ := by
    cases row
    simp_all
  exact hrow ▸ Dict.get?_eq_some_iff.mpr he

/-- A code that lets one look needs no other code. -/
theorem viewCode_view {code view : String} (h : viewCode code = some view) :
    viewCode view = none := by
  unfold viewCode at h
  obtain ⟨⟨scope, action⟩, hpart, hview⟩ := Option.bind_eq_some_iff.mp h
  split_ifs at hview with haction
  rw [← Option.some.inj hview]
  have hscope : ∀ c ∈ scope.toList, decide (c ≠ ':') = true := by
    unfold partitionColon at hpart
    split at hpart
    · cases hpart
    · rw [← (Prod.mk.inj (Option.some.inj hpart)).1]
      intro c hc
      rw [String.toList_ofList] at hc
      exact decide_eq_true (of_decide_eq_true
        (List.mem_takeWhile_imp (p := fun x => decide (x ≠ ':')) hc))
  have hlist : (scope ++ ":view").toList = scope.toList ++ ':' :: "view".toList := by
    rw [String.toList_append]
    rfl
  have hdrop : (scope ++ ":view").toList.dropWhile (· ≠ ':') = ':' :: "view".toList := by
    rw [hlist, List.dropWhile_append_of_pos hscope]
    rfl
  unfold viewCode partitionColon
  rw [hdrop]
  have hnot : "view" ∉ viewDependentActions := by decide
  simp only [Option.bind_some, String.ofList_toList, if_neg hnot]

/-- The codes of a request have the codes that let one look at the scopes of its actions. -/
theorem view_mem_expand {codes available : List String} {code view : String}
    (hmem : code ∈ expandPermissionDependencies codes available) (hview : viewCode code = some view)
    (havailable : view ∈ available) : view ∈ expandPermissionDependencies codes available := by
  unfold expandPermissionDependencies at hmem ⊢
  rw [List.mem_dedup, List.mem_append, List.mem_filterMap] at hmem ⊢
  rcases hmem with hcode | ⟨code', -, hcode'⟩
  · exact Or.inr ⟨code, hcode, Option.filter_eq_some_iff.mpr ⟨hview, decide_eq_true havailable⟩⟩
  · have hnone := viewCode_view (Option.filter_eq_some_iff.mp hcode').1
    rw [hview] at hnone
    cases hnone

/-- The permission `id` is an action, and `view` is the one to look at its scope. -/
def Needs (permissions : Dict ℕ PermissionRow) (id view : ℕ) : Prop :=
  ∃ row code, permissions.get? id = some row ∧ row.active = true ∧ viewCode row.code = some code ∧
    (activeCodeToId permissions).get? code = some view

/-- The permissions have those to view that they need. -/
def ClosedIds (permissions : Dict ℕ PermissionRow) (ids : List ℕ) :
    Prop := ∀ id ∈ ids, ∀ view, Needs permissions id view → view ∈ ids

/-- The permissions that a request stores. -/
theorem closedIds_checkCodes {permissions : Dict ℕ PermissionRow} {codes : List String}
    {old : Finset String} {ids : List ℕ} (h : checkCodes permissions codes old = .replace ids) :
    ClosedIds permissions ids := by
  simp only [checkCodes] at h
  split_ifs at h
  obtain rfl := CodeCheck.replace.inj h
  intro id hid view hneeds
  obtain ⟨code, hcode, hget⟩ := List.mem_filterMap.mp hid
  obtain ⟨row, vcode, hrow, -, hv, hvget⟩ := hneeds
  obtain rfl : row = ⟨code, true⟩ := Option.some.inj (hrow.symm.trans (activeCodeToId_row hget))
  rw [List.mem_insertionSort] at hcode
  have hmem := view_mem_expand hcode hv (Dict.mem_keys_iff.mpr ⟨view, hvget⟩)
  exact List.mem_filterMap.mpr ⟨vcode, (List.mem_insertionSort _).mpr hmem, hvget⟩

/-! ### What a statement does -/

variable {db db' : RoleDb P} {p q : P}

/-- The transaction has changed nothing. -/
def RolePoint.clean : RolePoint → Prop
  | .deleting _ _ _ | .inserting _ _ => False
  | _ => True

/-- What a statement does, with what has to hold for it. -/
inductive RoleStep (db : RoleDb P) (p : P) : RolePoint → RoleDb P → RolePoint → Prop
  | quit {point} : RoleStep db p point (db.rollback p) .idle
  | close {point} : point.clean → RoleStep db p point (db.commit p) .idle
  | read {point point'} : point.clean → point'.clean →
      (∀ roleId ids, point' = .delete roleId ids → ClosedIds db.permissions ids) →
        RoleStep db p point db point'
  | begin {roleId ids} :
    RoleStep db p (.delete roleId ids) (db.begin p) (.deleting roleId ids (db.findRows p roleId))
  | gone {roleId ids row todo} : db.rolePermissions.view p row.1 ≠ some row.2 →
      RoleStep db p (.deleting roleId ids (row :: todo)) db (.deleting roleId ids todo)
  | remove {roleId ids row todo} : db.rolePermissions.view p row.1 = some row.2 →
      db.rolePermissions.free p row.1 = true →
      RoleStep db p (.deleting roleId ids (row :: todo)) (db.write p row.1 none)
      (.deleting roleId ids todo)
  | beginInsert {roleId ids} : RoleStep db p (.deleting roleId ids []) db (.inserting roleId ids)
  | insert {roleId id ids xid} : db.rolePermissions.free p (roleId, id) = true →
      db.rolePermissions.view p (roleId, id) = none → db.xids.get? p = some xid →
      RoleStep db p (.inserting roleId (id :: ids)) (db.write p (roleId, id) (some xid))
        (.inserting roleId ids)
  | commit {roleId} : RoleStep db p (.inserting roleId []) (db.commit p) .idle

/-- **Every statement** is one of the listed ones. -/
theorem roleNext_step {point : RolePoint} {action : RoleAction} {r : RoleDb P × RolePoint}
    (h : roleNext db p point action = some r) : RoleStep db p point r.1 r.2 := by
  unfold roleNext at h
  split at h
  case h_1 =>
    rw [← Option.some.inj h]
    exact .quit
  case h_2 =>
    split_ifs at h
    · rw [← Option.some.inj h]
      exact .read trivial trivial fun _ _ hp => (by cases hp)
    · rw [← Option.some.inj h]
      exact .read trivial trivial fun _ _ hp => (by cases hp)
  case h_3 =>
    rw [← Option.some.inj h]
    exact .read trivial trivial fun _ _ hp => (by cases hp)
  case h_4 roleId codes old =>
    have hr := Option.some.inj h
    dsimp only [RoleDb.checkCodes] at hr
    split at hr
    · rw [← hr]
      exact .quit
    · rw [← hr]
      exact .close trivial
    · rename_i ids hcheck
      rw [← hr]
      refine .read trivial trivial fun roleId' ids' hp => ?_
      obtain ⟨-, rfl⟩ := RolePoint.delete.inj hp
      exact closedIds_checkCodes hcheck
  case h_5 =>
    rw [← Option.some.inj h]
    exact .begin
  case h_6 =>
    obtain ⟨db', hrow, rfl⟩ := Option.map_eq_some_iff.mp h
    unfold RoleDb.deleteRow at hrow
    split_ifs at hrow with hview hfree
    · rw [← Option.some.inj hrow]
      exact .gone hview
    · rw [← Option.some.inj hrow]
      exact .remove (not_not.mp hview) hfree
  case h_7 =>
    rw [← Option.some.inj h]
    exact .beginInsert
  case h_8 =>
    unfold RoleDb.insertRow at h
    split_ifs at h with hfree
    split at h
    · rename_i hview hxid
      rw [← Option.some.inj h]
      exact .insert hfree hview hxid
    · rw [← Option.some.inj h]
      exact .quit
  case h_9 =>
    rw [← Option.some.inj h]
    exact .commit
  case h_10 =>
    split at h
    all_goals
      rw [← Option.some.inj h]
      exact .read trivial trivial fun _ _ hp => (by cases hp)
  case h_11 =>
    rw [← Option.some.inj h]
    exact .read trivial trivial fun _ _ hp => (by cases hp)
  case h_12 => cases h

/-! ### The numbers of the transactions -/

/-- No row has the number of a transaction that runs, and the rows of an action and of the
permission to look at its scope have been inserted together. -/
structure Numbered (db : RoleDb P) : Prop where
  below : ∀ p n, db.xids.get? p = some n → n < db.nextXid
  distinct : ∀ p q n, db.xids.get? p = some n → db.xids.get? q = some n → p = q
  past : ∀ k n, db.rolePermissions.committed.get? k = some n → n < db.nextXid ∧
    ∀ q, db.xids.get? q ≠ some n
  locked : ∀ k q n, db.rolePermissions.locks.get? k = some (q, some n) → db.xids.get? q = some n
  paired : ∀ roleId id view n, Needs db.permissions id view →
    db.rolePermissions.committed.get? (roleId, id) = some n →
    db.rolePermissions.committed.get? (roleId, view) = some n

/-- A transaction that replaces the rows of a role: what it has found, what of this it has
still to look at, and the permissions it has inserted. -/
structure Replacing (db : RoleDb P) (p : P) (roleId : ℕ) (found todo : List RowVersion)
    (done : List ℕ) : Prop where
  mates : ∀ id view n, Needs db.permissions id view →
    db.rolePermissions.committed.get? (roleId, id) = some n → ((roleId, view), n) ∈ found →
    ((roleId, id), n) ∈ found
  gone : ∀ row ∈ found, row ∈ todo ∨ db.rolePermissions.view p row.1 ≠ some row.2
  past : ∀ row ∈ found, row.2 < db.nextXid ∧ ∀ q, db.xids.get? q ≠ some row.2
  held : ∀ k v, db.rolePermissions.locks.get? k = some (p, v) → k.1 = roleId ∧
    (v ≠ none → k.2 ∈ done) ∧ ∀ n, db.rolePermissions.committed.get? k = some n → (k, n) ∈ found
  inserted : ∀ id ∈ done, ∃ n, db.rolePermissions.locks.get? (roleId, id) = some (p, some n)

/-- What holds for a process at a point. -/
structure RoleAt (p : P) (point : RolePoint) (db : RoleDb P) : Prop where
  clean : point.clean → db.rolePermissions.Unlocked p
  ids : ∀ roleId ids, point = .delete roleId ids → ClosedIds db.permissions ids
  deleting : ∀ roleId ids todo, point = .deleting roleId ids todo → ClosedIds db.permissions ids ∧
    ∃ found, (∀ row ∈ todo, row ∈ found ∧ row.1.1 = roleId) ∧ Replacing db p roleId found todo []
  inserting : ∀ roleId ids, point = .inserting roleId ids →
    ∃ found done, ClosedIds db.permissions (done ++ ids) ∧ Replacing db p roleId found [] done

theorem RoleAt.of_clean {point : RolePoint} (hclean : point.clean)
    (hu : db.rolePermissions.Unlocked p)
    (hids : ∀ roleId ids, point = .delete roleId ids → ClosedIds db.permissions ids) :
    RoleAt p point db where
  clean := fun _ => hu
  ids := hids
  deleting := by
    rintro roleId ids todo rfl
    exact absurd hclean not_false
  inserting := by
    rintro roleId ids rfl
    exact absurd hclean not_false

/-! ### What one statement keeps for the others -/

/-- What a statement of `p` does to the tables, as the others see it. -/
structure RoleMoves (p : P) (db db' : RoleDb P) : Prop where
  rows : Table.Moves p db.rolePermissions db'.rolePermissions
  permissions : db'.permissions = db.permissions
  next : db.nextXid ≤ db'.nextXid
  others : ∀ q, q ≠ p → db'.xids.get? q = db.xids.get? q
  own : ∀ n, db'.xids.get? p = some n → db.xids.get? p = some n ∨ db.nextXid ≤ n

theorem get?_xids_put (db : RoleDb P) (p q : P) (n : Option ℕ) :
    (db.xids.put p n).get? q = if q = p then n else db.xids.get? q :=
  Dict.get?_put db.xids p q n

theorem roleMoves_commit (db : RoleDb P) (p : P) : RoleMoves p db (db.commit p) where
  rows := .commit
  permissions := rfl
  next := le_rfl
  others := fun q hq => (get?_xids_put db p q none).trans (if_neg hq)
  own := fun n hn => by
    have hnone := (get?_xids_put db p p none).trans (if_pos rfl)
    exact absurd (hnone.symm.trans hn) (by simp)

theorem roleMoves_rollback (db : RoleDb P) (p : P) : RoleMoves p db (db.rollback p) where
  rows := .abort
  permissions := rfl
  next := le_rfl
  others := (roleMoves_commit db p).others
  own := (roleMoves_commit db p).own

theorem roleMoves_begin (db : RoleDb P) (p : P) : RoleMoves p db (db.begin p) where
  rows := .same
  permissions := rfl
  next := Nat.le_succ db.nextXid
  others := fun q hq => (get?_xids_put db p q _).trans (if_neg hq)
  own := fun n hn => by
    have hsome := (get?_xids_put db p p (some db.nextXid)).trans (if_pos rfl)
    exact Or.inr (Option.some.inj (hsome.symm.trans hn)).le

theorem roleMoves_write {k : ℕ × ℕ} (hfree : db.rolePermissions.free p k = true) (v : Option ℕ) :
    RoleMoves p db (db.write p k v) where
  rows := .write hfree
  permissions := rfl
  next := le_rfl
  others := fun _ _ => rfl
  own := fun _ hn => Or.inl hn

theorem roleMoves_same (db : RoleDb P) (p : P) : RoleMoves p db db where
  rows := .same
  permissions := rfl
  next := le_rfl
  others := fun _ _ => rfl
  own := fun _ hn => Or.inl hn

theorem RoleStep.moves {point point' : RolePoint} (h : RoleStep db p point db' point') :
    RoleMoves p db db' := by
  cases h with
  | quit => exact roleMoves_rollback db p
  | close | commit => exact roleMoves_commit db p
  | read | gone | beginInsert => exact roleMoves_same db p
  | begin => exact roleMoves_begin db p
  | remove _ hfree => exact roleMoves_write hfree none
  | insert hfree _ _ => exact roleMoves_write hfree _

/-- A number of the past stays one. -/
theorem RoleMoves.past (h : RoleMoves p db db') {n : ℕ}
    (hn : n < db.nextXid ∧ ∀ q, db.xids.get? q ≠ some n) :
    n < db'.nextXid ∧ ∀ q, db'.xids.get? q ≠ some n := by
  refine ⟨hn.1.trans_le h.next, fun q hq => ?_⟩
  by_cases hqp : q = p
  · subst hqp
    rcases h.own n hq with hold | hle
    · exact hn.2 q hold
    · omega
  · rw [h.others q hqp] at hq
    exact hn.2 q hq

/-- A row that has just been committed has the number of its transaction. -/
theorem RoleMoves.committed_past (h : RoleMoves p db db') (hdb : Numbered db) {k : ℕ × ℕ} {n : ℕ}
    (hk : db'.rolePermissions.committed.get? k = some n) (hn : ∀ q, db.xids.get? q ≠ some n) :
    db.rolePermissions.committed.get? k = some n := by
  rcases h.rows.committed_cases k with hsame | hlock
  · rw [← hsame]
    exact hk
  · rw [hk] at hlock
    exact absurd (hdb.locked k p n hlock) (hn p)

/-- **A transaction in the middle** of its work is not disturbed. -/
theorem RoleMoves.replacing (h : RoleMoves p db db') (hdb : Numbered db) (hq : q ≠ p) {roleId : ℕ}
    {found todo : List RowVersion} {done : List ℕ} (hr : Replacing db q roleId found todo done) :
    Replacing db' q roleId found todo done where
  mates := by
    intro id view n hneeds hid hview
    rw [h.permissions] at hneeds
    exact hr.mates id view n hneeds (h.committed_past hdb hid (hr.past _ hview).2) hview
  gone := by
    intro row hrow
    rcases hr.gone row hrow with htodo | hgone
    · exact Or.inl htodo
    refine Or.inr fun hview => hgone ?_
    rcases Table.view_cases db'.rolePermissions q row.1 with hlock | ⟨hno, hsame⟩
    · rw [h.rows.held_other hq, hview] at hlock
      exact Table.view_of_held hlock
    · rw [Table.view_of_not_held fun v hv => hno v ((h.rows.held_other hq).mpr hv)]
      exact h.committed_past hdb (hsame.symm.trans hview) (hr.past row hrow).2
  past := fun row hrow => h.past (hr.past row hrow)
  held := by
    intro k v hk
    have hk' := (h.rows.held_other hq).mp hk
    rw [h.rows.committed_of_held hq hk']
    exact hr.held k v hk'
  inserted := by
    intro id hid
    obtain ⟨n, hn⟩ := hr.inserted id hid
    exact ⟨n, (h.rows.held_other hq).mpr hn⟩

theorem RoleMoves.other (h : RoleMoves p db db') (hdb : Numbered db) (hq : q ≠ p)
    {point : RolePoint} (hat : RoleAt q point db) : RoleAt q point db' where
  clean := fun hc => h.rows.unlocked_other hq (hat.clean hc)
  ids := by
    rw [h.permissions]
    exact hat.ids
  deleting := by
    rw [h.permissions]
    intro roleId ids todo hp
    obtain ⟨hids, found, htodo, hr⟩ := hat.deleting roleId ids todo hp
    exact ⟨hids, found, htodo, h.replacing hdb hq hr⟩
  inserting := by
    rw [h.permissions]
    intro roleId ids hp
    obtain ⟨found, done, hids, hr⟩ := hat.inserting roleId ids hp
    exact ⟨found, done, hids, h.replacing hdb hq hr⟩

/-! ### What one statement keeps for its transaction -/

/-- The `DELETE` begins: it has found all rows of the role. -/
theorem mem_findRows (hu : db.rolePermissions.Unlocked p) {roleId : ℕ} {row : RowVersion} :
    row ∈ db.findRows p roleId ↔ row.1.1 = roleId ∧
    db.rolePermissions.committed.get? row.1 = some row.2 := by
  unfold RoleDb.findRows
  rw [List.mem_filterMap]
  constructor
  · intro h
    obtain ⟨k, -, hk⟩ := h
    split_ifs at hk with hrole
    obtain ⟨n, hn, rfl⟩ := Option.map_eq_some_iff.mp hk
    exact ⟨hrole, (hu.view k).symm.trans hn⟩
  · intro h
    have hview := (hu.view row.1).trans h.2
    refine ⟨row.1, Table.mem_select.mpr ⟨row.2, hview, rfl⟩, ?_⟩
    rw [if_pos h.1, hview]
    rfl

theorem replacing_begin (hdb : Numbered db) (hu : db.rolePermissions.Unlocked p) (roleId : ℕ) :
    Replacing (db.begin p) p roleId (db.findRows p roleId) (db.findRows p roleId) [] where
  mates := by
    intro id view n _ hid _
    exact (mem_findRows hu).mpr ⟨rfl, hid⟩
  gone := fun row hrow => Or.inl hrow
  past := by
    intro row hrow
    exact (roleMoves_begin db p).past (hdb.past row.1 row.2 ((mem_findRows hu).mp hrow).2)
  held := fun k v hk => absurd hk (hu k v)
  inserted := by simp

/-- A row that is gone is left. -/
theorem Replacing.skip {roleId : ℕ} {found todo : List RowVersion} {done : List ℕ}
    {row : RowVersion} (hr : Replacing db p roleId found (row :: todo) done)
    (hrow : db.rolePermissions.view p row.1 ≠ some row.2) :
    Replacing db p roleId found todo done where
  mates := hr.mates
  gone := by
    intro row' hrow'
    rcases hr.gone row' hrow' with htodo | hgone
    · rcases List.mem_cons.mp htodo with rfl | htodo
      · exact Or.inr hrow
      · exact Or.inl htodo
    · exact Or.inr hgone
  past := hr.past
  held := hr.held
  inserted := hr.inserted

omit [DecidableEq P] in
theorem get?_locks_write (db : RoleDb P) (p : P) (k k' : ℕ × ℕ) (v : Option ℕ) :
    (db.write p k v).rolePermissions.locks.get? k' = if k' = k then some (p, v)
    else db.rolePermissions.locks.get? k' :=
  Table.get?_locks_write db.rolePermissions p k k' v

/-- A row that was found is deleted. -/
theorem Replacing.remove {roleId : ℕ} {found todo : List RowVersion} {row : RowVersion}
    (hr : Replacing db p roleId found (row :: todo) []) (hfound : row ∈ found)
    (hrole : row.1.1 = roleId) (hview : db.rolePermissions.view p row.1 = some row.2) :
    Replacing (db.write p row.1 none) p roleId found todo [] where
  mates := hr.mates
  gone := by
    intro row' hrow'
    by_cases hkey : row'.1 = row.1
    · refine Or.inr ?_
      rw [show (db.write p row.1 none).rolePermissions =
        db.rolePermissions.write p row.1 none from rfl, hkey, Table.view_write, if_pos rfl]
      simp
    · rcases hr.gone row' hrow' with htodo | hgone
      · rcases List.mem_cons.mp htodo with rfl | htodo
        · exact absurd rfl hkey
        · exact Or.inl htodo
      · refine Or.inr fun hview' => hgone ?_
        rw [← hview']
        exact ((Table.view_write db.rolePermissions p row.1 row'.1 none).trans (if_neg hkey)).symm
  past := hr.past
  held := by
    intro k v hk
    rw [get?_locks_write] at hk
    split_ifs at hk with hkey
    · obtain rfl := (Prod.mk.inj (Option.some.inj hk)).2
      refine ⟨hkey ▸ hrole, fun h => absurd rfl h, fun n hn => ?_⟩
      -- the row was not locked before, so that what was seen is what is committed
      rcases Table.view_cases db.rolePermissions p row.1 with hlock | ⟨-, hsame⟩
      · rw [hkey] at hn
        exact hkey ▸ (hr.held row.1 _ hlock).2.2 n hn
      · rw [hkey, show (db.write p row.1 none).rolePermissions.committed =
          db.rolePermissions.committed from rfl, ← hsame, hview] at hn
        rw [hkey, ← Option.some.inj hn]
        exact hfound
    · exact hr.held k v hk
  inserted := by simp

/-- A permission is inserted. -/
theorem Replacing.insert {roleId id xid : ℕ} {found : List RowVersion} {done : List ℕ}
    (hr : Replacing db p roleId found [] done)
    (hview : db.rolePermissions.view p (roleId, id) = none) (hxid : db.xids.get? p = some xid) :
    Replacing (db.write p (roleId, id) (some xid)) p roleId found [] (done ++ [id]) where
  mates := hr.mates
  gone := by
    intro row hrow
    refine Or.inr fun hrow' => ?_
    rw [show (db.write p (roleId, id) (some xid)).rolePermissions = db.rolePermissions.write p
      (roleId, id) (some xid) from rfl, Table.view_write] at hrow'
    split_ifs at hrow' with hkey
    · exact (hr.past row hrow).2 p (hxid.trans hrow')
    · rcases hr.gone row hrow with htodo | hgone
      · cases htodo
      · exact hgone hrow'
  past := hr.past
  held := by
    intro k v hk
    rw [get?_locks_write] at hk
    split_ifs at hk with hkey
    · obtain rfl := (Prod.mk.inj (Option.some.inj hk)).2
      subst hkey
      refine ⟨rfl, fun _ => by simp, fun n hn => ?_⟩
      rcases Table.view_cases db.rolePermissions p (roleId, id) with hlock | ⟨-, hsame⟩
      · exact (hr.held _ _ hlock).2.2 n hn
      · rw [hview] at hsame
        exact absurd (hsame.trans hn) (by simp)
    · obtain ⟨hrole, hdone, hfound⟩ := hr.held k v hk
      exact ⟨hrole, fun hv => List.mem_append_left _ (hdone hv), hfound⟩
  inserted := by
    intro id' hid'
    by_cases hkey : id' = id
    · exact ⟨xid, (get?_locks_write db p _ _ _).trans (if_pos (by rw [hkey]))⟩
    · have hdone : id' ∈ done := by simpa [hkey] using hid'
      obtain ⟨n, hn⟩ := hr.inserted id' hdone
      have hne : (roleId, id') ≠ (roleId, id) := fun he => hkey (Prod.mk.inj he).2
      exact ⟨n, ((get?_locks_write db p _ _ _).trans (if_neg hne)).trans hn⟩

/-! ### What one statement keeps of the tables -/

/-- A statement that puts nothing in place. -/
theorem Numbered.of_moves (hdb : Numbered db) (h : RoleMoves p db db')
    (hbelow : ∀ n, db'.xids.get? p = some n → n < db'.nextXid)
    (hlocked : ∀ k q n, db'.rolePermissions.locks.get? k = some (q, some n) →
      db'.xids.get? q = some n)
    (hpaired : ∀ roleId id view n, Needs db.permissions id view →
      db'.rolePermissions.committed.get? (roleId, id) = some n →
      db'.rolePermissions.committed.get? (roleId, view) = some n)
    (hpast : ∀ k n, db'.rolePermissions.committed.get? k = some n → n < db'.nextXid ∧
      ∀ q, db'.xids.get? q ≠ some n) :
    Numbered db' where
  below := by
    intro q n hn
    by_cases hq : q = p
    · exact hbelow n (hq ▸ hn)
    · rw [h.others q hq] at hn
      exact (hdb.below q n hn).trans_le h.next
  distinct := by
    -- a number that another has is below the counter, and cannot be new
    have hother : ∀ q n, q ≠ p → db'.xids.get? q = some n → db'.xids.get? p = some n → False := by
      intro q n hq hn hp
      rw [h.others q hq] at hn
      rcases h.own n hp with hold | hle
      · exact hq (hdb.distinct q p n hn hold)
      · have := hdb.below q n hn
        omega
    intro q q' n hn hn'
    by_cases hq : q = p
    · by_cases hq' : q' = p
      · exact hq.trans hq'.symm
      · exact (hother q' n hq' hn' (hq ▸ hn)).elim
    · by_cases hq' : q' = p
      · exact (hother q n hq hn (hq' ▸ hn')).elim
      · rw [h.others q hq] at hn
        rw [h.others q' hq'] at hn'
        exact hdb.distinct q q' n hn hn'
  past := hpast
  locked := hlocked
  paired := by
    intro roleId id view n hneeds hid
    rw [h.permissions] at hneeds
    exact hpaired roleId id view n hneeds hid

theorem numbered_begin (hdb : Numbered db) (hu : db.rolePermissions.Unlocked p) :
    Numbered (db.begin p) := by
  refine hdb.of_moves (roleMoves_begin db p) ?_ ?_ hdb.paired fun k n hk =>
    (roleMoves_begin db p).past (hdb.past k n hk)
  · intro n hn
    have hsome := (get?_xids_put db p p (some db.nextXid)).trans (if_pos rfl)
    obtain rfl := Option.some.inj (hsome.symm.trans hn)
    exact Nat.lt_succ_self _
  · intro k q n hk
    have hq : q ≠ p := fun he => hu k (some n) (he ▸ hk)
    rw [(roleMoves_begin db p).others q hq]
    exact hdb.locked k q n hk

theorem numbered_write (hdb : Numbered db) {k : ℕ × ℕ} (hfree : db.rolePermissions.free p k = true)
    {v : Option ℕ} (hv : ∀ n, v = some n → db.xids.get? p = some n) :
    Numbered (db.write p k v) := by
  refine hdb.of_moves (roleMoves_write hfree v) (hdb.below p) ?_ hdb.paired hdb.past
  intro k' q n hk
  rw [get?_locks_write] at hk
  split_ifs at hk with hkey
  · obtain ⟨rfl, hn⟩ := Prod.mk.inj (Option.some.inj hk)
    exact hv n hn
  · exact hdb.locked k' q n hk

/-- The locks that are left when a transaction ends. -/
theorem locked_drop (hdb : Numbered db) (k : ℕ × ℕ) (q : P) (n : ℕ)
    (hk : (db.rolePermissions.abort p).locks.get? k = some (q, some n)) :
    (db.rollback p).xids.get? q = some n := by
  obtain ⟨hq, hlock⟩ := (Table.get?_locks_drop db.rolePermissions p k).mp hk
  rw [(roleMoves_rollback db p).others q hq]
  exact hdb.locked k q n hlock

theorem xids_ended (db : RoleDb P) (p : P) (n : ℕ) : (db.rollback p).xids.get? p ≠ some n := by
  intro hn
  have hnone := (get?_xids_put db p p none).trans (if_pos rfl)
  exact absurd (hnone.symm.trans hn) (by simp)

theorem numbered_rollback (hdb : Numbered db) : Numbered (db.rollback p) :=
  hdb.of_moves (roleMoves_rollback db p) (fun n hn => absurd hn (xids_ended db p n))
    (locked_drop hdb) hdb.paired
    fun k n hk => (roleMoves_rollback db p).past (hdb.past k n hk)

/-- A commit, if what the transaction sees are whole sets of rows. -/
theorem numbered_commit (hdb : Numbered db)
    (hpaired : ∀ roleId id view n, Needs db.permissions id view →
    db.rolePermissions.view p (roleId, id) = some n →
    db.rolePermissions.view p (roleId, view) = some n) : Numbered (db.commit p) := by
  have hview : ∀ k, (db.commit p).rolePermissions.committed.get? k = db.rolePermissions.view p k :=
    Table.get?_commit db.rolePermissions p
  refine hdb.of_moves (roleMoves_commit db p) (fun n hn => absurd hn (xids_ended db p n))
    (locked_drop hdb) ?_ ?_
  · intro roleId id view n hneeds hid
    rw [hview] at hid ⊢
    exact hpaired roleId id view n hneeds hid
  · intro k n hk
    rw [hview] at hk
    rcases Table.view_cases db.rolePermissions p k with hlock | ⟨-, hsame⟩
    · rw [hk] at hlock
      have hxid := hdb.locked k p n hlock
      refine ⟨hdb.below p n hxid, fun q hq => ?_⟩
      by_cases hqp : q = p
      · exact xids_ended db p n (hqp ▸ hq)
      · rw [(roleMoves_commit db p).others q hqp] at hq
        exact hqp (hdb.distinct q p n hq hxid)
    · exact (roleMoves_commit db p).past (hdb.past k n (hsame.symm.trans hk))

/-- **What a transaction commits** are whole sets of rows: those it has inserted, and
those of which it has deleted none. -/
theorem Replacing.paired (hdb : Numbered db) {roleId : ℕ} {found : List RowVersion} {done : List ℕ}
    (hr : Replacing db p roleId found [] done) (hids : ClosedIds db.permissions done)
    (role id view n : ℕ) (hneeds : Needs db.permissions id view)
    (hid : db.rolePermissions.view p (role, id) = some n) :
    db.rolePermissions.view p (role, view) = some n := by
  rcases Table.view_cases db.rolePermissions p (role, id) with hlock | ⟨-, hsame⟩
  · -- inserted by the transaction itself
    rw [hid] at hlock
    obtain ⟨rfl, hdone, -⟩ := hr.held _ _ hlock
    obtain ⟨n', hn'⟩ := hr.inserted view (hids id (hdone (by simp)) view hneeds)
    have hxid := (hdb.locked _ _ _ hn').symm.trans (hdb.locked _ _ _ hlock)
    rw [Table.view_of_held hn', hxid]
  · -- committed before, and then so is the other row
    have hcommitted := hsame.symm.trans hid
    have hother := hdb.paired role id view n hneeds hcommitted
    rcases Table.view_cases db.rolePermissions p (role, view) with hlock | ⟨-, hsame'⟩
    · obtain ⟨rfl, -, hfound⟩ := hr.held _ _ hlock
      rcases hr.gone _ (hr.mates id view n hneeds hcommitted (hfound n hother)) with htodo | hgone
      · cases htodo
      · exact absurd hid hgone
    · exact hsame'.trans hother

/-- **One statement** keeps the tables, and what holds for its own process. -/
theorem RoleStep.keeps {point point' : RolePoint} (h : RoleStep db p point db' point')
    (hdb : Numbered db) (hat : RoleAt p point db) : Numbered db' ∧ RoleAt p point' db' := by
  have hidle : ∀ {db : RoleDb P}, db.rolePermissions.Unlocked p → RoleAt p .idle db :=
    fun hu => RoleAt.of_clean trivial hu fun _ _ he => (by cases he)
  cases h with
  | quit => exact ⟨numbered_rollback hdb, hidle (Table.unlocked_abort _ p)⟩
  | close hclean =>
    refine ⟨numbered_commit hdb fun roleId id view n hneeds hid => ?_,
      hidle (Table.unlocked_commit _ p)⟩
    rw [(hat.clean hclean).view] at hid ⊢
    exact hdb.paired roleId id view n hneeds hid
  | read hclean hclean' hids => exact ⟨hdb, RoleAt.of_clean hclean' (hat.clean hclean) hids⟩
  | begin =>
    rename_i roleId ids
    have hu := hat.clean trivial
    refine ⟨numbered_begin hdb hu, fun hc => absurd hc not_false, fun _ _ he => (by cases he), ?_,
      fun _ _ he => (by cases he)⟩
    intro roleId' ids' todo he
    obtain ⟨rfl, rfl, rfl⟩ := RolePoint.deleting.inj he
    exact ⟨hat.ids roleId ids rfl, _, fun row hrow => ⟨hrow, ((mem_findRows hu).mp hrow).1⟩,
      replacing_begin hdb hu roleId⟩
  | gone hgone =>
    rename_i roleId ids row todo
    obtain ⟨hids, found, htodo, hr⟩ := hat.deleting roleId ids (row :: todo) rfl
    refine ⟨hdb, fun hc => absurd hc not_false, fun _ _ he => (by cases he), ?_,
      fun _ _ he => (by cases he)⟩
    intro roleId' ids' todo' he
    obtain ⟨rfl, rfl, rfl⟩ := RolePoint.deleting.inj he
    exact ⟨hids, found, fun row' hrow' => htodo row' (List.mem_cons_of_mem _ hrow'), hr.skip hgone⟩
  | remove hview hfree =>
    rename_i roleId ids row todo
    obtain ⟨hids, found, htodo, hr⟩ := hat.deleting roleId ids (row :: todo) rfl
    obtain ⟨hfound, hrole⟩ := htodo row List.mem_cons_self
    refine ⟨numbered_write hdb hfree (by simp), fun hc => absurd hc not_false,
      fun _ _ he => (by cases he), ?_, fun _ _ he => (by cases he)⟩
    intro roleId' ids' todo' he
    obtain ⟨rfl, rfl, rfl⟩ := RolePoint.deleting.inj he
    exact ⟨hids, found, fun row' hrow' => htodo row' (List.mem_cons_of_mem _ hrow'),
      hr.remove hfound hrole hview⟩
  | beginInsert =>
    rename_i roleId ids
    obtain ⟨hids, found, -, hr⟩ := hat.deleting roleId ids [] rfl
    refine ⟨hdb, fun hc => absurd hc not_false, fun _ _ he => (by cases he),
      fun _ _ _ he => (by cases he), ?_⟩
    intro roleId' ids' he
    obtain ⟨rfl, rfl⟩ := RolePoint.inserting.inj he
    exact ⟨found, [], hids, hr⟩
  | insert hfree hview hxid =>
    rename_i roleId id ids xid
    obtain ⟨found, done, hids, hr⟩ := hat.inserting roleId (id :: ids) rfl
    refine ⟨numbered_write hdb hfree fun n hn => hxid.trans hn, fun hc => absurd hc not_false,
      fun _ _ he => (by cases he), fun _ _ _ he => (by cases he), ?_⟩
    intro roleId' ids' he
    obtain ⟨rfl, rfl⟩ := RolePoint.inserting.inj he
    have happend : done ++ [id] ++ ids = done ++ id :: ids := by simp
    exact ⟨found, done ++ [id], happend ▸ hids, hr.insert hview hxid⟩
  | commit =>
    rename_i roleId
    obtain ⟨found, done, hids, hr⟩ := hat.inserting roleId [] rfl
    rw [List.append_nil] at hids
    exact ⟨numbered_commit hdb (hr.paired hdb hids), hidle (Table.unlocked_commit _ p)⟩

/-! ### Runs -/

/-- Nobody is in the middle of a request, and the roles have the codes to look at the
scopes of their actions. -/
structure RolesAtRest (s : Procs P RolePoint (RoleDb P)) : Prop where
  idle : ∀ p, s.proc p = .idle
  unlocked : ∀ p, s.shared.rolePermissions.Unlocked p
  numbered : Numbered s.shared

theorem numbered_of_reach {ok : P × RoleAction → Procs P RolePoint (RoleDb P) → Prop}
    {s : Procs P RolePoint (RoleDb P)} (h : (roleRuns RolesAtRest).ReachIf ok s) :
    Numbered s.shared := by
  refine (Procs.invariant (I := Numbered) (Q := RoleAt) ?_ ?_ ?_ h).1
  · intro s hs
    refine ⟨hs.numbered, fun p => ?_⟩
    rw [hs.idle p]
    exact RoleAt.of_clean trivial (hs.unlocked p) fun _ _ he => (by cases he)
  · intro s p a r hdb hat _ hr
    exact (roleNext_step hr).keeps hdb (hat p)
  · intro s p a r q hdb hat _ hr hq
    exact (roleNext_step hr).moves.other hdb hq (hat q)

/-- A role with whole sets of rows has the codes to look at the scopes of its actions. -/
theorem Numbered.closed (hdb : Numbered db) {roleId : ℕ} {code view : String}
    (hcode : code ∈ db.storedCodes roleId) (hview : viewCode code = some view)
    (hactive : view ∈ (activeCodeToId db.permissions).keys) : view ∈ db.storedCodes roleId := by
  obtain ⟨id, row, hmem, hrow, hactiveRow, rfl⟩ := mem_codesOfRole.mp hcode
  obtain ⟨n, hn⟩ := Dict.mem_keys_iff.mp hmem
  obtain ⟨vid, hvid⟩ := Dict.mem_keys_iff.mp hactive
  have hother := hdb.paired roleId id vid n ⟨row, view, hrow, hactiveRow, hview, hvid⟩ hn
  exact mem_codesOfRole.mpr ⟨vid, ⟨view, true⟩, Dict.mem_keys_iff.mpr ⟨n, hother⟩,
    activeCodeToId_row hvid, rfl, rfl⟩

/-- **Whoever may act in a scope may look at it**: whatever requests for the permissions of
the roles run side by side, a role that has the code of an action has the code to look at
the scope of the action, if there is one. -/
theorem role_codes_closed {s : Procs P RolePoint (RoleDb P)} (h : (roleRuns RolesAtRest).Reach s)
    {roleId : ℕ} {code view : String} (hcode : code ∈ s.shared.storedCodes roleId)
    (hview : viewCode code = some view)
    (hactive : view ∈ (activeCodeToId s.shared.permissions).keys) :
    view ∈ s.shared.storedCodes roleId :=
  (numbered_of_reach h).closed hcode hview hactive

/-- A role without permissions, and two administrators. -/
def oneRole : Procs Bool RolePoint (RoleDb Bool) where
  shared :=
    { roles := .ofList [(1, false)]
      permissions := .ofList [(1, ⟨"home:view", true⟩), (2, ⟨"home:refresh", true⟩),
        (3, ⟨"auth:view", true⟩), (4, ⟨"auth:manage", true⟩)]
      rolePermissions := ⟨.empty, .empty⟩
      xids := .empty
      nextXid := 0 }
  proc := fun _ => .idle

theorem rolesAtRest_oneRole : RolesAtRest oneRole where
  idle := fun _ => rfl
  unlocked := fun _ _ _ hk => absurd hk (by simp [oneRole])
  numbered :=
    { below := fun _ _ hn => absurd hn (by simp [oneRole])
      distinct := fun _ _ _ hn => absurd hn (by simp [oneRole])
      past := fun _ _ hk => absurd hk (by simp [oneRole])
      locked := fun _ _ _ hk => absurd hk (by simp [oneRole])
      paired := fun _ _ _ _ _ hk => absurd hk (by simp [oneRole]) }

/-- Both look for the rows of the role before one of them has stored its own. -/
def bothUpdate : List (Bool × RoleAction) :=
  [(true, .updateRolePermissions 1 ["home:refresh"]),
    (false, .updateRolePermissions 1 ["auth:manage"])] ++
    (List.replicate 4 (true, .statement) ++ List.replicate 4 (false, .statement)) ++
    (List.replicate 3 (true, .statement) ++ List.replicate 3 (false, .statement))

/-- The role has what neither asked for, and still may look where it may act. -/
theorem role_codes_merged : ∃ s : Procs Bool RolePoint (RoleDb Bool), (∀ p, s.proc p = .idle) ∧
    s.shared.storedCodes 1 = {"home:view", "home:refresh", "auth:view", "auth:manage"} ∧
    "auth:view" ∈ s.shared.storedCodes 1 := by
  have hrun : (Procs.exec roleNext oneRole bothUpdate).map
      (fun s => (s.proc true, s.proc false, s.shared.storedCodes 1,
      (activeCodeToId s.shared.permissions).keys)) = some (.idle, .idle,
      {"home:view", "home:refresh", "auth:view", "auth:manage"},
      ["home:view", "home:refresh", "auth:view", "auth:manage"]) := by decide +kernel
  obtain ⟨s, hs, hall⟩ := Option.map_eq_some_iff.mp hrun
  obtain ⟨htrue, hrest⟩ := Prod.mk.inj hall
  obtain ⟨hfalse, hrest'⟩ := Prod.mk.inj hrest
  obtain ⟨hcodes, hkeys⟩ := Prod.mk.inj hrest'
  have hreach : (roleRuns RolesAtRest).Reach s :=
    Procs.reach_exec (.start rolesAtRest_oneRole) hs fun _ _ _ => trivial
  have hmem : "auth:manage" ∈ s.shared.storedCodes 1 := hcodes ▸ (by decide)
  exact ⟨s, Bool.forall_bool.mpr ⟨hfalse, htrue⟩, hcodes,
    role_codes_closed hreach hmem (by decide +kernel) (hkeys ▸ (by decide))⟩

end Roles

end Restock
