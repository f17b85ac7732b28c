import AuthApi.Registration

/-!
# Roles, who holds them, and second factors, statement by statement

The operations that decide who administers: `create`, `set_permissions`,
`delete`, `assign` and `unassign` of roles, `suspend`, `erase_account`, the
command-line `grant_role`; and those that take second factors away:
`disable_method`, `remove` of a passkey, `reset_password`.

Each is a transaction of several statements on four tables. A statement
reads what is committed and what its own transaction has written, and waits
for rows locked by others. Besides row locks there are the advisory lock of
`keep_an_administrator` (`guard`), and the `FOR KEY SHARE` locks that a new
row of `user_roles` takes on its role (`shares`), for which a
`SELECT … FOR UPDATE` of the role waits.

A deleted row stays in the model as a version that says so. The permissions
of a role are kept with its row: the statements that change them all hold
its lock. Left open, as inputs of a step, are whether a re-authentication
and the like refuses a request, and the order in which a statement comes to
its rows. Audit entries, events and mails are left out.
-/

namespace AuthApi

open Conc

/-! ## Rows -/

abbrev Permission := String

def adminPermissions : List Permission :=
  ["users:read", "users:manage", "roles:manage", "clients:manage", "audit:read",
    "webhooks:manage"]

def isAdminPermission (permission : Permission) : Bool := permission ∈ adminPermissions

def rolesManage : Permission := "roles:manage"

def isValidRoleName (name : String) : Bool :=
  2 ≤ name.utf8ByteSize && name.utf8ByteSize ≤ 50 && name.toList.head?.any Char.isLower &&
    name.toList.all fun c => c.isLower || c.isDigit || c = '_'

structure UserRow where
  id : Uuid
  email : String
  status : UserStatus
  erased : Bool
deriving DecidableEq

structure RoleRow where
  id : Uuid
  name : String
  isDefault : Bool
  permissions : List Permission
  deleted : Bool
deriving DecidableEq

structure UserRole where
  userId : Uuid
  roleId : Uuid
  held : Bool
deriving DecidableEq

/-- The index `roles_name_key`. -/
def RoleRow.nameIndex (row : RoleRow) : Option String :=
  if row.deleted then none else some row.name

def UserRole.key (r : UserRole) : Uuid × Uuid := (r.userId, r.roleId)

inductive SecondFactorKind where
  | method (verified : Bool)
  | passkey
deriving DecidableEq

structure FactorRow where
  id : Uuid
  userId : Uuid
  kind : SecondFactorKind
  createdAt : Int
  removed : Bool
deriving DecidableEq

/-- The factor counts as a second factor of its account. -/
def FactorRow.usable (f : FactorRow) : Bool :=
  !f.removed && match f.kind with
    | .method verified => verified
    | .passkey => true

def SecondFactorKind.isMethod : SecondFactorKind → Bool
  | .method _ => true
  | .passkey => false

/-! ## The shared state -/

structure AdminState where
  users : Pg.Db UserRow.id
  roles : Pg.Db RoleRow.id
  userRoles : Pg.Db UserRole.key
  factors : Pg.Db FactorRow.id
  /-- Who holds the advisory lock `roles_manage_guard`. -/
  guard : Option Nat
  /-- The roles a transaction has locked `FOR KEY SHARE`. -/
  shares : List (Nat × Uuid)

namespace AdminState

variable (s : AdminState) (i : Nat)

def commit : AdminState where
  users := s.users.commit i
  roles := s.roles.commit i
  userRoles := s.userRoles.commit i
  factors := s.factors.commit i
  guard := if s.guard = some i then none else s.guard
  shares := s.shares.filter (·.1 ≠ i)

def rollback : AdminState where
  users := s.users.rollback i
  roles := s.roles.rollback i
  userRoles := s.userRoles.rollback i
  factors := s.factors.rollback i
  guard := if s.guard = some i then none else s.guard
  shares := s.shares.filter (·.1 ≠ i)

/-! ### Queries of transaction `i` -/

def permissionsOf (role : Uuid) : List Permission :=
  match s.roles.view i role with
  | some row => row.permissions
  | none => []

/-- `user_has_permission` and `holds_administration`. -/
def userHas (user : Uuid) (p : Permission → Bool) : Bool :=
  (s.userRoles.viewed i).any fun ur =>
    ur.held && ur.userId = user && (s.permissionsOf i ur.roleId).any p

def isActive (user : Uuid) : Bool :=
  (s.users.view i user).any fun row => !row.erased && row.status = .active

def permissionHeld (permission : Permission) : Bool :=
  (s.userRoles.viewed i).any fun ur =>
    ur.held && (s.permissionsOf i ur.roleId).any (· = permission) && s.isActive i ur.userId

def hasSecondFactor (user : Uuid) : Bool :=
  (s.factors.viewed i).any fun f => f.userId = user && f.usable

def holders (role : Uuid) : List Uuid :=
  ((s.userRoles.viewed i).filter fun ur => ur.held && ur.roleId = role).map (·.userId)

/-- `find_by_name`, outside a transaction. -/
def findRole (name : String) : Option RoleRow :=
  s.roles.rows.find? fun row => !row.deleted && row.name = name

def findUser (user : Uuid) : Option UserRow :=
  (s.users.committed user).filter fun row => !row.erased

def findByEmail (email : String) : Option UserRow :=
  s.users.rows.find? fun row => !row.erased && row.email = email

end AdminState

/-! ## Requests -/

inductive AdminError where
  | app (error : AppError)
  | validation (message : String)
  | commandLine (message : String)
deriving DecidableEq

inductive AdminRequest where
  | create (actor : Uuid) (name : String) (description : Option String)
      (permissions : List Permission)
  | setPermissions (actor : Uuid) (name : String) (permissions : List Permission)
  | delete (actor : Uuid) (name : String)
  | assign (actor user : Uuid) (name : String)
  | unassign (actor user : Uuid) (name : String)
  | suspend (actor user : Uuid)
  | eraseAccount (user : Uuid)
  | grantRole (email name : String)
  /-- `disable_method`, and `remove` of a passkey. -/
  | disableMethod (user method : Uuid)
  | removePasskey (user passkey : Uuid)
  /-- `reset_password`, with the start of the window in which factors are
  removed, if there is one. -/
  | resetPassword (user : Uuid) (since : Option Int)
deriving DecidableEq

/-- A request that has found its role and its account. The command-line
grant goes by the status it has read, and names both in its refusal. The
id of a new role is drawn in advance. -/
inductive AdminOp where
  | create (actor role : Uuid) (name : String) (permissions : List Permission)
  | setPermissions (actor role : Uuid) (permissions : List Permission)
  | delete (actor role : Uuid)
  | assign (actor user role : Uuid)
  | unassign (actor user role : Uuid)
  | suspend (user : Uuid)
  | eraseAccount (user : Uuid)
  | grantRole (user role : Uuid) (active : Bool) (email name : String)
  | removeFactor (user factor : Uuid) (isMethod : Bool)
  | resetPassword (user : Uuid) (since : Option Int)
deriving DecidableEq

def AdminOp.user : AdminOp → Uuid
  | .assign _ user _ | .unassign _ user _ | .suspend user | .eraseAccount user
  | .grantRole user _ _ _ _ | .removeFactor user _ _ | .resetPassword user _ => user
  | .create _ _ _ _ | .setPermissions _ _ _ | .delete _ _ => 0

def AdminOp.role : AdminOp → Uuid
  | .create _ role _ _ | .setPermissions _ role _ | .delete _ role | .assign _ _ role |
    .unassign _ _ role
  | .grantRole _ role _ _ _ => role
  | .suspend _ | .eraseAccount _ | .removeFactor _ _ _ | .resetPassword _ _ => 0

def AdminOp.actor : AdminOp → Uuid
  | .create actor _ _ _ | .setPermissions actor _ _ | .delete actor _ | .assign actor _ _
  | .unassign actor _ _ => actor
  | _ => 0

/-- The statements that delete second factors. -/
inductive FactorDrop where
  /-- With the account; `managed` is what was read of its permissions. -/
  | cascade (managed : Bool)
  /-- `drop_access_factors_since`, first the methods. -/
  | since (start : Int) (kept : Option Uuid) (isMethod : Bool)
  /-- `drop_access_factors`. -/
  | all
deriving DecidableEq

def FactorDrop.takes (user : Uuid) (drop : FactorDrop) (f : FactorRow) : Bool :=
  f.userId = user && !f.removed && match drop with
    | .cascade _ | .all => true
    | .since start kept isMethod =>
      f.kind.isMethod = isMethod && start < f.createdAt && some f.id ≠ kept

def FactorRow.remove (f : FactorRow) : Option FactorRow := some { f with removed := true }

inductive AdminPc where
  | idle
  | request (request : AdminRequest)
  | account (op : AdminOp)
  | grantee (user : Uuid) (active : Bool) (email name : String)
  /-- The locks, and what is read under them. -/
  | lockUser (op : AdminOp)
  | readUser (op : AdminOp)
  | lockRole (op : AdminOp) (active : Bool)
  | readGrants (op : AdminOp) (active : Bool)
  /-- `ensure_actor_holds`. -/
  | authorize (op : AdminOp) (active : Bool) (current left : List Permission)
  /-- `create`. -/
  | authorizeNew (op : AdminOp) (left : List Permission)
  | newRole (op : AdminOp)
  | grantNew (op : AdminOp)
  /-- `set_permissions`. -/
  | holders (op : AdminOp) (current : List Permission)
  | lockHolder (op : AdminOp) (holder : Uuid) (rest : List Uuid)
  | readHolder (op : AdminOp) (holder : Uuid) (rest : List Uuid)
  | proveHolder (op : AdminOp) (holder : Uuid) (rest : List Uuid)
  | clearGrants (op : AdminOp)
  | insertGrants (op : AdminOp)
  /-- `ensure_can_administer` and `assign_to_user`. -/
  | administers (op : AdminOp) (active : Bool)
  | prove (op : AdminOp)
  | insert (op : AdminOp) (found : Bool)
  /-- `delete`, `unassign`, `suspend`, `erase_account`. -/
  | deleteRole (op : AdminOp)
  | unassign (op : AdminOp)
  | suspend (op : AdminOp)
  | manages (op : AdminOp)
  | erase (op : AdminOp) (managed : Bool)
  | cascade (op : AdminOp) (managed : Bool)
  | cascadeEach (op : AdminOp) (managed : Bool) (left : List (Uuid × Uuid))
  /-- Second factors. -/
  | removeFactor (op : AdminOp)
  | keepAdmin (op : AdminOp)
  | keepProof (op : AdminOp)
  | administrator (op : AdminOp) (start : Int)
  | keeper (op : AdminOp) (start : Int) (administrator : Bool)
  | drop (op : AdminOp) (drop : FactorDrop)
  | dropEach (op : AdminOp) (drop : FactorDrop) (left : List Uuid)
  | verify (op : AdminOp)
  /-- `keep_an_administrator`, and the end. -/
  | guard (op : AdminOp)
  | check (op : AdminOp)
  | commit (op : AdminOp)
  | done (result : Except AdminError Unit)
deriving DecidableEq

structure AdminInput where
  refusal : Option AdminError := none
  row : Uuid := 0
  grant : Uuid × Uuid := (0, 0)

abbrev AdminStep := Option (AdminState × AdminPc)

/-- The request ends before its transaction has committed. -/
def AdminState.leave (s : AdminState) (i : Nat) (result : Except AdminError Unit) : AdminStep :=
  some (s.rollback i, .done result)

def AdminState.refuse (s : AdminState) (i : Nat) (error : AppError) : AdminStep :=
  s.leave i (.error (.app error))

/-! ### Before the transaction -/

def requestStep (inp : AdminInput) (s : AdminState) : AdminPc → AdminStep
  | .request (.create actor name description permissions) =>
    if !isValidRoleName name then
      some (s, .done (.error (.validation ("role name must be 2 to 50 lower-case letters, " ++
        "digits or underscores, starting with a letter"))))
    else if description.any (500 < ·.length) then
      some (s, .done (.error (.validation "description must be at most 500 characters")))
    else
      match inp.refusal with
      | some error => some (s, .done (.error error))
      | none => some (s, .authorizeNew (.create actor inp.row name permissions) permissions)
  | .request (.setPermissions actor name permissions) =>
    match s.findRole name, inp.refusal with
    | none, _ => some (s, .done (.error (.app .notFound)))
    | some role, refusal =>
      if role.isDefault && permissions.any isAdminPermission then
        some (s, .done (.error (.app (.conflict "default_role_administration"))))
      else
        match refusal with
        | some error => some (s, .done (.error error))
        | none => some (s, .lockRole (.setPermissions actor role.id permissions) false)
  | .request (.delete actor name) =>
    match s.findRole name, inp.refusal with
    | none, _ => some (s, .done (.error (.app .notFound)))
    | some role, refusal =>
      if role.isDefault then some (s, .done (.error (.app (.conflict "default_role"))))
      else
        match refusal with
        | some error => some (s, .done (.error error))
        | none => some (s, .lockRole (.delete actor role.id) false)
  | .request (.assign actor user name) =>
    if actor = user then some (s, .done (.error (.app .forbidden)))
    else
      match s.findRole name with
      | none => some (s, .done (.error (.app .notFound)))
      | some role => some (s, .account (.assign actor user role.id))
  | .request (.unassign actor user name) =>
    match s.findRole name, inp.refusal with
    | none, _ => some (s, .done (.error (.app .notFound)))
    | some _, some error => some (s, .done (.error error))
    | some role, none => some (s, .lockRole (.unassign actor user role.id) false)
  | .request (.suspend actor user) =>
    if actor = user then some (s, .done (.error (.app .forbidden)))
    else
      match inp.refusal, s.findUser user with
      | some error, _ => some (s, .done (.error error))
      | none, none => some (s, .done (.error (.app .notFound)))
      | none, some row =>
        some (s, if row.status = .pendingVerification then
            .done (.error (.validation
              "an account that was never verified cannot be suspended; delete it instead"))
          else .suspend (.suspend user))
  | .request (.eraseAccount user) =>
    match inp.refusal, s.findUser user with
    | some error, _ => some (s, .done (.error error))
    | none, none => some (s, .done (.error (.app .notFound)))
    | none, some _ => some (s, .lockUser (.eraseAccount user))
  | .request (.grantRole email name) =>
    match s.findByEmail email with
    | none =>
      some (s, .done (.error (.commandLine ("no account with the address " ++ email))))
    | some row => some (s, .grantee row.id (row.status = .active) email name)
  | .request (.disableMethod user method) =>
    match inp.refusal, s.findUser user with
    | some error, _ => some (s, .done (.error error))
    | none, none => some (s, .done (.error (.app .notFound)))
    | none, some _ => some (s, .lockUser (.removeFactor user method true))
  -- The session and the reset link by which these two name the account go with it.
  | .request (.removePasskey user passkey) =>
    match inp.refusal, s.findUser user with
    | some error, _ => some (s, .done (.error error))
    | none, none => some (s, .done (.error (.app .unauthorized)))
    | none, some _ => some (s, .lockUser (.removeFactor user passkey false))
  | .request (.resetPassword user since) =>
    match inp.refusal, s.findUser user with
    | some error, _ => some (s, .done (.error error))
    | none, none => some (s, .done (.error (.app .tokenInvalid)))
    | none, some _ => some (s, .lockUser (.resetPassword user since))
  | .account op =>
    match s.findUser op.user, inp.refusal with
    | none, _ => some (s, .done (.error (.app .notFound)))
    | some _, some error => some (s, .done (.error error))
    | some _, none => some (s, .lockUser op)
  | .grantee user active email name =>
    match s.findRole name with
    | none => some (s, .done (.error (.commandLine ("no role named " ++ name))))
    | some role => some (s, .lockUser (.grantRole user role.id active email name))
  | _ => none

/-! ### Locks and authorization -/

/-- What a transaction does once it has locked the account. -/
def AdminOp.withUser : AdminOp → AdminPc
  | op@(.assign _ _ _) => .readUser op
  | op@(.grantRole _ _ active _ _) => .administers op active
  | op@(.eraseAccount _) => .manages op
  | op@(.removeFactor _ _ _) => .removeFactor op
  | op@(.resetPassword _ (some start)) => .administrator op start
  | op@(.resetPassword _ none) => .verify op
  | op => .commit op

/-- The permissions an administrator must hold for the operation. -/
def AdminOp.needed (current : List Permission) : AdminOp → List Permission
  | .setPermissions _ _ permissions =>
    permissions.filter (· ∉ current) ++ current.filter (· ∉ permissions)
  | _ => current

/-- What follows when they are held. -/
def AdminOp.authorized (active : Bool) (current : List Permission) : AdminOp → AdminPc
  | op@(.setPermissions _ _ _) => .holders op current
  | op@(.delete _ _) => .deleteRole op
  | op@(.assign _ _ _) => .administers op active
  | op => .unassign op

def lockStep (i : Nat) (s : AdminState) : AdminPc → AdminStep
  | .lockUser op =>
    match s.users.selectForUpdate i op.user with
    | none => none
    | some (_, users) => some ({ s with users := users }, op.withUser)
  | .readUser op =>
    match s.users.view i op.user with
    | none => s.refuse i .notFound
    | some row =>
      if row.erased then s.refuse i .notFound
      else some (s, .lockRole op (row.status = .active))
  | .lockRole op active =>
    if s.shares.any fun share => share.1 ≠ i && share.2 = op.role then none
    else
      match s.roles.selectForUpdate i op.role with
      | none => none
      | some (_, roles) => some ({ s with roles := roles }, .readGrants op active)
  | .readGrants op active =>
    let current := s.permissionsOf i op.role
    some (s, .authorize op active current (op.needed current))
  | .authorize op active current [] => some (s, op.authorized active current)
  | .authorize op active current (permission :: left) =>
    if s.userHas i op.actor (· = permission) then some (s, .authorize op active current left)
    else s.refuse i .forbidden
  | _ => none

def AdminOp.permissions : AdminOp → List Permission
  | .create _ _ _ permissions | .setPermissions _ _ permissions => permissions
  | _ => []

/-! ### `create` -/

/-- No row of `user_roles` has ever named the role. -/
def AdminState.unheard (s : AdminState) (role : Uuid) : Bool :=
  !s.userRoles.keys.any (·.2 = role) && !s.shares.any (·.2 = role)

def createStep (i : Nat) (s : AdminState) : AdminPc → AdminStep
  | .authorizeNew op [] => some (s, .newRole op)
  | .authorizeNew op (permission :: left) =>
    if s.userHas i op.actor (· = permission) then some (s, .authorizeNew op left)
    else s.refuse i .forbidden
  | .newRole (.create actor role name permissions) =>
    match s.roles.conflict RoleRow.nameIndex i ⟨role, name, false, [], false⟩ with
    | .wait => none
    | .violation => s.refuse i (.conflict "role_exists")
    | .clear =>
      if s.unheard role then
        match s.roles.insert i ⟨role, name, false, [], false⟩ with
        | none => none
        | some roles =>
          some ({ s with roles := roles }, .grantNew (.create actor role name permissions))
      else none
  | .grantNew op =>
    match s.roles.visit i op.role (fun row => !row.deleted)
        (fun row => some { row with permissions := op.permissions }) with
    | none => none
    | some (_, roles) => some ({ s with roles := roles }, .commit op)
  | _ => none

/-! ### `set_permissions` -/

/-- The holders of the role that are still to be locked and checked. -/
def AdminOp.nextHolder (op : AdminOp) : List Uuid → AdminPc
  | [] => .clearGrants op
  | holder :: rest => .lockHolder op holder rest

def setPermissionsStep (i : Nat) (s : AdminState) : AdminPc → AdminStep
  | .holders op current =>
    some (s, if op.permissions.any fun p => p ∉ current && isAdminPermission p then
        op.nextHolder (s.holders i op.role)
      else .clearGrants op)
  | .lockHolder op holder rest =>
    match s.users.selectForUpdate i holder with
    | none => none
    | some (_, users) => some ({ s with users := users }, .readHolder op holder rest)
  | .readHolder op holder rest =>
    match s.users.view i holder with
    | none => s.refuse i .notFound
    | some row =>
      if row.erased then s.refuse i .notFound
      else if row.status = .active then some (s, .proveHolder op holder rest)
      else s.refuse i (.conflict "holders_without_second_factor")
  | .proveHolder op holder rest =>
    if s.hasSecondFactor i holder then some (s, op.nextHolder rest)
    else s.refuse i (.conflict "holders_without_second_factor")
  | .clearGrants op =>
    match s.roles.visit i op.role (fun row => !row.deleted)
        (fun row => some { row with permissions := [] }) with
    | none => none
    | some (_, roles) => some ({ s with roles := roles }, .insertGrants op)
  | .insertGrants op =>
    match s.roles.visit i op.role (fun row => !row.deleted)
        (fun row => some { row with permissions := op.permissions }) with
    | none => none
    | some (.updated _, roles) => some ({ s with roles := roles }, .guard op)
    -- The role is gone: a permission of it violates the foreign key.
    | some (_, roles) =>
      if op.permissions = [] then some ({ s with roles := roles }, .guard op)
      else s.refuse i .internal
  | _ => none

/-! ### `assign` and `grant_role` -/

/-- The refusal of an account that must not administer. -/
def AdminOp.unfit : AdminOp → AdminError
  | .grantRole _ _ _ email name =>
    .commandLine (email ++ " must be an active account with a verified second factor or a " ++
      "passkey before it receives the " ++ name ++ " role: sign in and enroll one first")
  | _ => .app (.conflict "administrator_without_second_factor")

/-- A row of `user_roles` that is not there, or was there once. -/
def AdminState.grantRow (s : AdminState) (i : Nat) (user role : Uuid) :
    Option (Pg.Db UserRole.key) :=
  match s.userRoles.view i (user, role) with
  | none => s.userRoles.insert i ⟨user, role, true⟩
  | some _ =>
    (s.userRoles.visit i (user, role) (fun _ => true)
      (fun row => some { row with held := true })).map Prod.snd

def assignStep (i : Nat) (s : AdminState) : AdminPc → AdminStep
  | .administers op active =>
    if (s.permissionsOf i op.role).any isAdminPermission then
      if active then some (s, .prove op) else s.leave i (.error op.unfit)
    else some (s, .insert op false)
  | .prove op =>
    if s.hasSecondFactor i op.user then some (s, .insert op true)
    else s.leave i (.error op.unfit)
  | .insert op _ =>
    if (s.userRoles.slot (op.user, op.role)).free i then
      if (s.userRoles.view i (op.user, op.role)).any UserRole.held then s.leave i (.ok ())
      -- The foreign keys: the role is locked `FOR KEY SHARE`, the account is locked already.
      else if (s.roles.slot op.role).free i then
        if (s.roles.view i op.role).any (!·.deleted) &&
            (s.users.view i op.user).any (!·.erased) then
          match s.grantRow i op.user op.role with
          | none => none
          | some userRoles =>
            some ({ s with userRoles := userRoles, shares := (i, op.role) :: s.shares },
              .commit op)
        else s.refuse i .internal
      else none
    else none
  | _ => none

/-! ### `delete`, `unassign`, `suspend`, `erase_account` -/

/-- The rows of `user_roles` that go with the role or the account. -/
def AdminOp.owns : AdminOp → UserRole → Bool
  | .delete _ role, ur => ur.roleId = role && ur.held
  | .eraseAccount user, ur => ur.userId = user && ur.held
  | _, _ => false

def UserRole.revoke (ur : UserRole) : Option UserRole := some { ur with held := false }

def AdminOp.guarded (op : AdminOp) (managed : Bool) : AdminPc :=
  if managed then .guard op else .commit op

def withdrawStep (i : Nat) (inp : AdminInput) (s : AdminState) : AdminPc → AdminStep
  | .deleteRole op =>
    match s.roles.visit i op.role (fun row => !row.deleted)
        (fun row => some { row with permissions := [], deleted := true }) with
    | none => none
    | some (_, roles) => some ({ s with roles := roles }, .cascade op true)
  | .unassign op =>
    match s.userRoles.visit i (op.user, op.role) UserRole.held UserRole.revoke with
    | none => none
    | some (.updated _, userRoles) => some ({ s with userRoles := userRoles }, .guard op)
    | some (_, _) => s.leave i (.ok ())
  | .suspend op =>
    match s.users.visit i op.user
        (fun row => !row.erased && (row.status = .active || row.status = .inactive))
        (fun row => some { row with status := .suspended }) with
    | none => none
    | some (.updated _, users) => some ({ s with users := users }, .manages op)
    | some (_, _) => s.leave i (.ok ())
  | .manages op =>
    let managed := s.userHas i op.user (· = rolesManage)
    some (s, match op with
      | .eraseAccount _ => .erase op managed
      | _ => op.guarded managed)
  | .erase op managed =>
    match s.users.visit i op.user (fun row => !row.erased)
        (fun row => some { row with erased := true }) with
    | none => none
    | some (.updated _, users) => some ({ s with users := users }, .cascade op managed)
    | some (_, _) => s.refuse i .internal
  | .cascade op managed => some (s, .cascadeEach op managed (s.userRoles.scan i op.owns))
  | .cascadeEach op managed [] =>
    some (s, match op with
      | .eraseAccount _ => .drop op (.cascade managed)
      | _ => op.guarded managed)
  | .cascadeEach op managed left =>
    if inp.grant ∈ left then
      match s.userRoles.visit i inp.grant op.owns UserRole.revoke with
      | none => none
      | some (_, userRoles) =>
        some ({ s with userRoles := userRoles },
          .cascadeEach op managed (left.erase inp.grant))
    else none
  | _ => none

/-! ### Second factors -/

/-- The recent factors of which one may be kept: the oldest usable ones, if
no usable one is older than the window. -/
def AdminState.keepers (s : AdminState) (i : Nat) (user : Uuid) (start : Int) : List Uuid :=
  let usable := (s.factors.viewed i).filter fun f => f.userId = user && f.usable
  if usable.any (·.createdAt ≤ start) then []
  else (usable.filter fun f => usable.all (f.createdAt ≤ ·.createdAt)).map (·.id)

def FactorDrop.next (op : AdminOp) : FactorDrop → AdminPc
  | .cascade managed => op.guarded managed
  | .since start kept true => .drop op (.since start kept false)
  | .since _ _ false => .verify op
  | .all => .commit op

def secondFactorStep (i : Nat) (inp : AdminInput) (s : AdminState) : AdminPc → AdminStep
  | .removeFactor (.removeFactor user factor isMethod) =>
    match s.factors.visit i factor
        (fun f => f.userId = user && !f.removed && f.kind.isMethod = isMethod)
        FactorRow.remove with
    | none => none
    | some (.updated _, factors) =>
      some ({ s with factors := factors }, .keepAdmin (.removeFactor user factor isMethod))
    | some (_, _) => s.refuse i .notFound
  | .keepAdmin op =>
    some (s, if s.userHas i op.user isAdminPermission then .keepProof op else .commit op)
  | .keepProof op =>
    if s.hasSecondFactor i op.user then some (s, .commit op)
    else s.refuse i (.conflict "administrator_needs_second_factor")
  | .administrator op start =>
    some (s, .keeper op start (s.userHas i op.user isAdminPermission))
  | .keeper op start administrator =>
    let keepers := if administrator then s.keepers i op.user start else []
    -- Factors added at the same time: any of them may come first.
    match keepers with
    | [] => some (s, .drop op (.since start none true))
    | keepers =>
      if inp.row ∈ keepers then some (s, .drop op (.since start (some inp.row) true))
      else none
  | .drop op drop => some (s, .dropEach op drop (s.factors.scan i (drop.takes op.user)))
  | .dropEach op drop [] => some (s, drop.next op)
  | .dropEach op drop left =>
    if inp.row ∈ left then
      match s.factors.visit i inp.row (drop.takes op.user) FactorRow.remove with
      | none => none
      | some (_, factors) =>
        some ({ s with factors := factors }, .dropEach op drop (left.erase inp.row))
    else none
  | .verify op =>
    match s.users.visit i op.user (fun row => !row.erased && row.status = .pendingVerification)
        (fun row => some { row with status := .active }) with
    | none => none
    | some (.updated _, users) => some ({ s with users := users }, .drop op .all)
    | some (_, users) => some ({ s with users := users }, .commit op)
  | _ => none

/-! ### `keep_an_administrator` and the end -/

def finishStep (i : Nat) (s : AdminState) : AdminPc → AdminStep
  | .guard op =>
    if s.guard = none ∨ s.guard = some i then some ({ s with guard := some i }, .check op)
    else none
  | .check op =>
    if s.permissionHeld i rolesManage then some (s, .commit op)
    else s.refuse i (.conflict "last_administrator")
  | .commit _ => some (s.commit i, .done (.ok ()))
  | _ => none

/-! ## The program -/

def adminStep (i : Nat) (inp : AdminInput) (s : AdminState) (pc : AdminPc) : AdminStep :=
  match pc with
  | .request _ | .account _ | .grantee _ _ _ _ => requestStep inp s pc
  | .lockUser _ | .readUser _ | .lockRole _ _ | .readGrants _ _ | .authorize _ _ _ _ =>
    lockStep i s pc
  | .authorizeNew _ _ | .newRole _ | .grantNew _ => createStep i s pc
  | .holders _ _ | .lockHolder _ _ _ | .readHolder _ _ _ | .proveHolder _ _ _ | .clearGrants _
  | .insertGrants _ => setPermissionsStep i s pc
  | .administers _ _ | .prove _ | .insert _ _ => assignStep i s pc
  | .deleteRole _ | .unassign _ | .suspend _ | .manages _ | .erase _ _ | .cascade _ _
  | .cascadeEach _ _ _ => withdrawStep i inp s pc
  | .removeFactor _ | .keepAdmin _ | .keepProof _ | .administrator _ _ | .keeper _ _ _
  | .drop _ _ | .dropEach _ _ _ | .verify _ => secondFactorStep i inp s pc
  | .guard _ | .check _ | .commit _ => finishStep i s pc
  | .idle | .done _ => none

inductive AdminAct where
  | start (request : AdminRequest)
  | go (inp : AdminInput)
  /-- The request fails, or the process is gone. -/
  | fail

def AdminPc.running : AdminPc → Bool
  | .idle | .done _ => false
  | _ => true

def adminProgram : Program AdminState AdminPc AdminAct :=
  fun i a s pc =>
    match a with
    | .start request => if pc.running then none else some (s, .request request)
    | .go inp => adminStep i inp s pc
    | .fail => if pc.running then s.refuse i .internal else none

abbrev AdminConf := Conf AdminState AdminPc

end AuthApi
