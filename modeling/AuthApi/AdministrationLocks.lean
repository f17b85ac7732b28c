import AuthApi.Administration

/-!
# What the locks of the administration protect

For every program point of the operations on roles, accounts and second
factors: what the transaction has written so far (`AdminOp.Writes`), which
locks it holds, and what it has found out under them (`AdminPc.Ok`). The
others can rely on what every step leaves alone (`AdminGuar`):

* an account gains a role, or a permission of a role it holds, only from a
  transaction that has locked the account;
* a permission to manage roles is lost only from a transaction that holds
  the advisory lock, or with an account that has not had it since the
  transaction locked it;
* a factor goes only with the lock of its account.

So a fact that was checked under a lock is still true at the commit
(`AdminPc.Ok.stable`), and every step keeps all of this
(`adminProgram_keeps`). One fact needs more: that a role the command line
grants without a check of the account still grants no administration when
the row is inserted (`AdminPc.steady`). It is asked for only if `careful`.
-/

namespace AuthApi

open Conc

/-! ## What the tables say -/

structure AdminTables where
  users : Uuid → Option UserRow
  roles : Uuid → Option RoleRow
  userRoles : Uuid × Uuid → Option UserRole
  factors : Uuid → Option FactorRow

namespace AdminTables

variable (t : AdminTables)

def Held (user role : Uuid) : Prop := ∃ row, t.userRoles (user, role) = some row ∧ row.held = true

def Grants (role : Uuid) (p : Permission) : Prop :=
  ∃ row, t.roles role = some row ∧ p ∈ row.permissions

def GrantsAdministration (role : Uuid) : Prop :=
  ∃ p, isAdminPermission p = true ∧ t.Grants role p

def Has (user : Uuid) (p : Permission) : Prop := ∃ role, t.Held user role ∧ t.Grants role p

def Administers (user : Uuid) : Prop := ∃ p, isAdminPermission p = true ∧ t.Has user p

def Active (user : Uuid) : Prop :=
  ∃ row, t.users user = some row ∧ row.erased = false ∧ row.status = .active

def Pending (user : Uuid) : Prop :=
  ∃ row, t.users user = some row ∧ row.erased = false ∧ row.status = .pendingVerification

def HasFactor (user : Uuid) : Prop :=
  ∃ k f, t.factors k = some f ∧ f.userId = user ∧ f.usable = true

/-- An active account can manage roles. -/
def Managed : Prop := ∃ user, t.Active user ∧ t.Has user rolesManage

theorem Active.not_pending {t : AdminTables} {user : Uuid} (h : t.Active user) :
    ¬ t.Pending user := by
  rintro ⟨row, hrow, -, hpending⟩
  obtain ⟨row', hrow', -, hactive⟩ := h
  rw [hrow] at hrow'
  cases hrow'
  rw [hpending] at hactive
  cases hactive

end AdminTables

namespace AdminState

variable (s : AdminState) (i : Nat)

/-- What is committed. -/
def tables : AdminTables :=
  ⟨s.users.committed, s.roles.committed, s.userRoles.committed, s.factors.committed⟩

/-- What transaction `i` sees, and what is committed if it commits. -/
def seenBy : AdminTables :=
  ⟨s.users.view i, s.roles.view i, s.userRoles.view i, s.factors.view i⟩

theorem tables_commit : (s.commit i).tables = s.seenBy i := by
  simp only [tables, seenBy, commit]
  congr 1 <;> funext k <;> exact Pg.Db.commit_view i k

end AdminState

section Queries

variable {s : AdminState} {i : Nat} {user role : Uuid} {p : Permission}

theorem mem_permissionsOf : p ∈ s.permissionsOf i role ↔ (s.seenBy i).Grants role p := by
  unfold AdminState.permissionsOf
  cases h : s.roles.view i role with
  | none | some => simp [AdminTables.Grants, AdminState.seenBy, h]

theorem held_iff : (s.seenBy i).Held user role ↔
    ∃ ur ∈ s.userRoles.viewed i, ur.held = true ∧ ur.userId = user ∧ ur.roleId = role := by
  constructor
  · rintro ⟨ur, hur, hheld⟩
    have hkey : ur.key = (user, role) := Pg.Db.key_of_view hur
    refine ⟨ur, Pg.Db.mem_viewed.mpr (hkey ▸ hur), hheld, ?_⟩
    simpa [UserRole.key] using hkey
  · rintro ⟨ur, hur, hheld, rfl, rfl⟩
    exact ⟨ur, Pg.Db.mem_viewed.mp hur, hheld⟩

theorem userHas_iff {q : Permission → Bool} :
    s.userHas i user q = true ↔ ∃ p, q p = true ∧ (s.seenBy i).Has user p := by
  simp only [AdminState.userHas, List.any_eq_true, Bool.and_eq_true, decide_eq_true_eq]
  constructor
  · rintro ⟨ur, hur, ⟨hheld, huser⟩, p, hp, hq⟩
    exact ⟨p, hq, ur.roleId, held_iff.mpr ⟨ur, hur, hheld, huser, rfl⟩, mem_permissionsOf.mp hp⟩
  · rintro ⟨p, hq, role, hheld, hgrants⟩
    obtain ⟨ur, hur, hrow, huser, rfl⟩ := held_iff.mp hheld
    exact ⟨ur, hur, ⟨hrow, huser⟩, p, mem_permissionsOf.mpr hgrants, hq⟩

theorem administers_iff :
    s.userHas i user isAdminPermission = true ↔ (s.seenBy i).Administers user :=
  userHas_iff

theorem has_iff : s.userHas i user (· = p) = true ↔ (s.seenBy i).Has user p := by
  rw [userHas_iff]
  simp

theorem isActive_iff : s.isActive i user = true ↔ (s.seenBy i).Active user := by
  unfold AdminState.isActive
  cases h : s.users.view i user with
  | none | some => simp [AdminTables.Active, AdminState.seenBy, h]

theorem managed_iff : s.permissionHeld i rolesManage = true ↔ (s.seenBy i).Managed := by
  simp only [AdminState.permissionHeld, List.any_eq_true, Bool.and_eq_true, decide_eq_true_eq]
  constructor
  · rintro ⟨ur, hur, ⟨hheld, p, hp, rfl⟩, hactive⟩
    exact ⟨ur.userId, isActive_iff.mp hactive, ur.roleId,
      held_iff.mpr ⟨ur, hur, hheld, rfl, rfl⟩, mem_permissionsOf.mp hp⟩
  · rintro ⟨user, hactive, role, hheld, hgrants⟩
    obtain ⟨ur, hur, hrow, rfl, rfl⟩ := held_iff.mp hheld
    exact ⟨ur, hur, ⟨hrow, _, mem_permissionsOf.mpr hgrants, rfl⟩, isActive_iff.mpr hactive⟩

theorem hasSecondFactor_iff : s.hasSecondFactor i user = true ↔ (s.seenBy i).HasFactor user := by
  simp only [AdminState.hasSecondFactor, List.any_eq_true, Bool.and_eq_true, decide_eq_true_eq]
  constructor
  · rintro ⟨f, hf, huser, husable⟩
    exact ⟨f.id, f, Pg.Db.mem_viewed.mp hf, huser, husable⟩
  · rintro ⟨k, f, hf, huser, husable⟩
    have hkey : f.id = k := Pg.Db.key_of_view hf
    exact ⟨f, Pg.Db.mem_viewed.mpr (hkey ▸ hf), huser, husable⟩

theorem grantsAdministration_iff :
    (s.permissionsOf i role).any isAdminPermission = true ↔
      (s.seenBy i).GrantsAdministration role := by
  simp only [List.any_eq_true, AdminTables.GrantsAdministration, mem_permissionsOf]
  exact ⟨fun ⟨p, h, hp⟩ => ⟨p, hp, h⟩, fun ⟨p, hp, h⟩ => ⟨p, h, hp⟩⟩

theorem mem_holders : user ∈ s.holders i role ↔ (s.seenBy i).Held user role := by
  rw [held_iff]
  simp only [AdminState.holders, List.mem_map, List.mem_filter, Bool.and_eq_true,
    decide_eq_true_eq]
  constructor
  · rintro ⟨ur, ⟨hur, hheld, hrole⟩, huser⟩
    exact ⟨ur, hur, hheld, huser, hrole⟩
  · rintro ⟨ur, hur, hheld, huser, hrole⟩
    exact ⟨ur, ⟨hur, hheld, hrole⟩, huser⟩

end Queries

/-! ## What an operation writes -/

namespace AdminOp

def MayWriteUser (t : AdminTables) (op : AdminOp) (user : Uuid) (row : UserRow) : Prop :=
  match op with
  | .suspend u => user = u ∧ row.status = .suspended
  | .eraseAccount u => user = u ∧ row.erased = true
  | .resetPassword u _ => user = u ∧ row.status = .active ∧ row.erased = false ∧ t.Pending user
  | _ => False

def MayWriteRole (op : AdminOp) (role : Uuid) (row : RoleRow) : Prop :=
  match op with
  | .create _ r _ permissions | .setPermissions _ r permissions =>
    role = r ∧ ∀ p ∈ row.permissions, p ∈ permissions
  | .delete _ r => role = r ∧ row.permissions = []
  | _ => False

def MayWriteGrant (op : AdminOp) (key : Uuid × Uuid) (row : UserRole) : Prop :=
  match op with
  | .assign _ u r | .grantRole u r _ _ _ => key = (u, r) ∧ row.held = true
  | .unassign _ u r => key = (u, r) ∧ row.held = false
  | .delete _ r => key.2 = r ∧ row.held = false
  | .eraseAccount u => key.1 = u ∧ row.held = false
  | _ => False

def MayWriteFactor (t : AdminTables) (op : AdminOp) (k : Uuid) (row : FactorRow) : Prop :=
  match op with
  | .removeFactor u _ _ | .resetPassword u _ | .eraseAccount u =>
    row.removed = true ∧ ∃ f, t.factors k = some f ∧ f.userId = u
  | _ => False

/-- What transaction `i` has written is what `op` writes. -/
structure Writes (op : AdminOp) (i : Nat) (s : AdminState) : Prop where
  users : ∀ k row, s.users.pending i k = some row → op.MayWriteUser s.tables k row
  known : ∀ k row, s.users.pending i k = some row → (s.users.committed k).isSome
  roles : ∀ k row, s.roles.pending i k = some row → op.MayWriteRole k row
  grants : ∀ k row, s.userRoles.pending i k = some row → op.MayWriteGrant k row
  factors : ∀ k row, s.factors.pending i k = some row → op.MayWriteFactor s.tables k row

end AdminOp

structure Clean (i : Nat) (s : AdminState) : Prop where
  users : ∀ k, s.users.pending i k = none
  roles : ∀ k, s.roles.pending i k = none
  grants : ∀ k, s.userRoles.pending i k = none
  factors : ∀ k, s.factors.pending i k = none

variable {i : Nat} {s : AdminState}

theorem Clean.seenBy (h : Clean i s) : s.seenBy i = s.tables := by
  simp only [AdminState.seenBy, AdminState.tables]
  congr 1 <;> funext k <;> rw [Pg.Db.view_eq]
  · rw [h.users]; rfl
  · rw [h.roles]; rfl
  · rw [h.grants]; rfl
  · rw [h.factors]; rfl

theorem Clean.writes (h : Clean i s) (op : AdminOp) :
    op.Writes i s where
  users k _ hk := nomatch (h.users k).symm.trans hk
  known k _ hk := nomatch (h.users k).symm.trans hk
  roles k _ hk := nomatch (h.roles k).symm.trans hk
  grants k _ hk := nomatch (h.grants k).symm.trans hk
  factors k _ hk := nomatch (h.factors k).symm.trans hk

/-! ## What an operation has found out -/

/-- The account is locked, active, and has a second factor. -/
structure ReadyHolder (i : Nat) (s : AdminState) (user : Uuid) : Prop where
  locked : s.users.holder user = some i
  active : s.tables.Active user
  factor : s.tables.HasFactor user

/-- The holders of the role are ready, or still to be looked at. -/
def Covers (i : Nat) (s : AdminState) (role : Uuid) (left : List Uuid) : Prop :=
  ∀ user, s.tables.Held user role → user ∈ left ∨ ReadyHolder i s user

/-- The role gains no administration, or its holders are ready for it. -/
def Granting (i : Nat) (s : AdminState) (role : Uuid) (permissions : List Permission) : Prop :=
  (∀ p ∈ permissions, isAdminPermission p = true → s.tables.Grants role p) ∨ Covers i s role []

/-- The account may hold the role. -/
def Fit (s : AdminState) (user role : Uuid) : Prop :=
  s.tables.GrantsAdministration role → s.tables.HasFactor user ∧ ¬ s.tables.Pending user

/-- Transaction `i` has seen that `user` manages roles through `role`, and
nobody can take that away before it commits. -/
structure Manager (i : Nat) (s : AdminState) (user role : Uuid) : Prop where
  held : s.tables.Held user role
  kept : s.userRoles.pending i (user, role) = none
  active : s.tables.Active user
  unchanged : s.users.pending i user = none
  grants : (s.seenBy i).Grants role rolesManage
  safe : s.tables.Grants role rolesManage ∨ s.users.holder user = some i

/-- `keep_an_administrator` has passed. -/
structure GuardPassed (i : Nat) (s : AdminState) : Prop where
  guard : s.guard = some i
  manager : ∃ user role, Manager i s user role

/-- The rows of the account in `user_roles` are revoked, or still to be
looked at. -/
def Cascading (i : Nat) (s : AdminState) (user : Uuid) (left : List (Uuid × Uuid)) : Prop :=
  ∀ role, s.tables.Held user role →
    (user, role) ∈ left ∨ ∃ row, s.userRoles.pending i (user, role) = some row ∧ row.held = false

/-- An administrator with a second factor keeps one of which `q` holds. -/
def Spares (i : Nat) (s : AdminState) (user : Uuid) (q : FactorRow → Prop) : Prop :=
  s.tables.Administers user → s.tables.HasFactor user →
    ∃ k f, s.tables.factors k = some f ∧ s.factors.pending i k = none ∧ f.userId = user ∧
      f.usable = true ∧ q f

/-- The account had to be taken back by its owner, or keeps a factor. -/
def FactorKept (i : Nat) (s : AdminState) (user : Uuid) : Prop :=
  s.tables.Pending user ∨ Spares i s user fun _ => True

/-- Not one of those a reset removes. -/
def Outlasts (start : Int) (kept : Option Uuid) (f : FactorRow) : Prop :=
  f.createdAt ≤ start ∨ some f.id = kept

namespace AdminOp

variable (i : Nat) (s : AdminState)

def Found : AdminOp → Prop
  | .assign _ u r => (s.users.committed u).isSome ∧ (s.roles.committed r).isSome
  | .grantRole u _ active _ _ =>
    (s.users.committed u).isSome ∧ (active = true → ¬ s.tables.Pending u)
  | .eraseAccount u | .removeFactor u _ _ | .resetPassword u _ => (s.users.committed u).isSome
  | _ => False

/-- Before the lock of the role; `active` is the status read of the account. -/
def Unlocking (active : Bool) : AdminOp → Prop
  | .setPermissions _ r _ | .delete _ r | .unassign _ _ r => (s.roles.committed r).isSome
  | .assign _ u r =>
    s.users.holder u = some i ∧ (s.roles.committed r).isSome ∧
      (active = true → s.tables.Active u)
  | _ => False

def Locking (active : Bool) : AdminOp → Prop
  | .setPermissions _ r _ | .delete _ r | .unassign _ _ r => s.roles.holder r = some i
  | .assign _ u r =>
    s.users.holder u = some i ∧ s.roles.holder r = some i ∧ (active = true → s.tables.Active u)
  | _ => False

/-- `create` with its row in place: nobody else sees the role. -/
def Creating : AdminOp → Prop
  | .create _ r _ _ =>
    s.roles.holder r = some i ∧ s.roles.committed r = none ∧ ∀ u, ¬ s.tables.Held u r
  | _ => False

/-- `set_permissions` under the lock of the role, with `Q` of it. -/
def Setting (Q : Uuid → Prop) : AdminOp → Prop
  | .setPermissions _ r _ => s.roles.holder r = some i ∧ Q r
  | _ => False

/-- Before a row is added to `user_roles`, with what is known of the
account by an assignment and by the command line. -/
def Adding (assign line : Uuid → Uuid → Prop) : AdminOp → Prop
  | .assign _ u r => s.users.holder u = some i ∧ s.roles.holder r = some i ∧ assign u r
  | .grantRole u r _ _ _ => s.users.holder u = some i ∧ line u r
  | _ => False

/-- `suspend` and `erase_account` under the lock of the account. -/
def Retiring : AdminOp → Prop
  | .suspend u => s.users.holder u = some i
  | .eraseAccount u => s.users.holder u = some i ∧ ∀ k, s.userRoles.pending i k = none
  | _ => False

/-- Before the rows of `user_roles` go, with what was read of the
permissions. -/
def Withdrawing (managed : Bool) (left : Option (List (Uuid × Uuid))) : AdminOp → Prop
  | .delete _ _ => managed = true
  | .eraseAccount u =>
    s.users.holder u = some i ∧ (managed = false → ¬ s.tables.Has u rolesManage) ∧
      ∀ keys ∈ left, Cascading i s u keys
  | _ => False

/-- `disable_method` and the removal of a passkey. -/
def Disabling : AdminOp → Prop
  | .removeFactor u _ _ => s.users.holder u = some i
  | _ => False

/-- `reset_password` under the lock of the account, with `Q` of it. -/
def Resetting (Q : Uuid → Prop) : AdminOp → Prop
  | .resetPassword u _ => s.users.holder u = some i ∧ Q u
  | _ => False

def Dropping (drop : FactorDrop) : AdminOp → Prop
  | .eraseAccount u =>
    match drop with
    | .cascade managed =>
      s.users.holder u = some i ∧ (managed = false → ¬ s.tables.Has u rolesManage) ∧
        Cascading i s u []
    | _ => False
  | .resetPassword u _ =>
    s.users.holder u = some i ∧
      match drop with
      | .cascade _ => False
      | .since start kept _ => Spares i s u (Outlasts start kept)
      | .all => s.tables.Pending u
  | _ => False

/-- Before `keep_an_administrator`. -/
def Asking : AdminOp → Prop
  | .setPermissions _ r permissions =>
    s.roles.holder r = some i ∧ Granting i s r permissions
  | .delete _ _ | .unassign _ _ _ => True
  | .suspend u => s.users.holder u = some i
  | .eraseAccount u => s.users.holder u = some i ∧ Cascading i s u []
  | _ => False

def Settling (careful : Bool) : AdminOp → Prop
  | .create _ r _ _ =>
    s.roles.holder r = some i ∧ s.roles.committed r = none ∧ ∀ u, ¬ s.tables.Held u r
  | .setPermissions _ r permissions =>
    s.roles.holder r = some i ∧ Granting i s r permissions ∧ GuardPassed i s
  | .delete _ _ | .unassign _ _ _ => GuardPassed i s
  | .assign _ u r =>
    s.users.holder u = some i ∧ s.roles.holder r = some i ∧ Fit s u r
  | .suspend u =>
    s.users.holder u = some i ∧ (GuardPassed i s ∨ ¬ s.tables.Has u rolesManage)
  | .eraseAccount u =>
    s.users.holder u = some i ∧ Cascading i s u [] ∧
      (GuardPassed i s ∨ ¬ s.tables.Has u rolesManage)
  | .grantRole u r _ _ _ =>
    s.users.holder u = some i ∧ (i, r) ∈ s.shares ∧ (careful = true → Fit s u r)
  | .removeFactor u _ _ | .resetPassword u _ =>
    s.users.holder u = some i ∧ FactorKept i s u

end AdminOp

def AdminPc.Ok (careful : Bool) (i : Nat) (s : AdminState) : AdminPc → Prop
  | .idle | .request _ | .done _ => Clean i s
  | .account op => Clean i s ∧ (s.roles.committed op.role).isSome ∧ ∃ a u r, op = .assign a u r
  | .grantee u active _ _ =>
    Clean i s ∧ (s.users.committed u).isSome ∧ (active = true → ¬ s.tables.Pending u)
  | .lockUser op => Clean i s ∧ op.Found s
  | .readUser op => Clean i s ∧ op.Unlocking i s false
  | .lockRole op active => Clean i s ∧ op.Unlocking i s active
  | .readGrants op active => Clean i s ∧ op.Locking i s active
  | .authorize op active current _ =>
    Clean i s ∧ op.Locking i s active ∧ ∀ p ∈ current, s.tables.Grants op.role p
  | .authorizeNew op _ | .newRole op => Clean i s ∧ ∃ a r n ps, op = .create a r n ps
  | .grantNew op => op.Writes i s ∧ op.Creating i s
  | .holders op current =>
    Clean i s ∧ op.Setting i s fun r => ∀ p ∈ current, s.tables.Grants r p
  | .lockHolder op holder rest =>
    Clean i s ∧ op.Setting i s fun r => Covers i s r (holder :: rest)
  | .readHolder op holder rest =>
    Clean i s ∧ op.Setting i s fun r => Covers i s r (holder :: rest) ∧
      ((s.users.committed holder).isSome → s.users.holder holder = some i)
  | .proveHolder op holder rest =>
    Clean i s ∧ op.Setting i s fun r => Covers i s r (holder :: rest) ∧
      s.users.holder holder = some i ∧ s.tables.Active holder
  | .clearGrants op | .insertGrants op =>
    op.Writes i s ∧ op.Setting i s fun r => Granting i s r op.permissions
  | .administers op active =>
    Clean i s ∧ op.Adding i s (fun u _ => active = true → s.tables.Active u)
      fun u _ => active = true → ¬ s.tables.Pending u
  | .prove op =>
    Clean i s ∧ op.Adding i s (fun u _ => s.tables.Active u) fun u _ => ¬ s.tables.Pending u
  | .insert op found =>
    Clean i s ∧ op.Adding i s (Fit s)
      fun u _ => found = true → s.tables.HasFactor u ∧ ¬ s.tables.Pending u
  | .deleteRole op => Clean i s ∧ op.Locking i s false ∧ ∃ a r, op = .delete a r
  | .unassign op => Clean i s ∧ ∃ a u r, op = .unassign a u r
  | .suspend op => Clean i s ∧ ∃ u, op = .suspend u
  | .manages op => op.Writes i s ∧ op.Retiring i s
  | .erase op managed => op.Writes i s ∧ op.Withdrawing i s managed none ∧ ∃ u, op = .eraseAccount u
  | .cascade op managed => op.Writes i s ∧ op.Withdrawing i s managed none
  | .cascadeEach op managed left => op.Writes i s ∧ op.Withdrawing i s managed (some left)
  | .removeFactor op | .keepAdmin op | .keepProof op => op.Writes i s ∧ op.Disabling i s
  | .administrator op _ =>
    op.Writes i s ∧ op.Resetting i s fun _ => ∀ k, s.factors.pending i k = none
  | .keeper op _ admin =>
    op.Writes i s ∧ op.Resetting i s fun u => (∀ k, s.factors.pending i k = none) ∧
      (admin = false → ¬ s.tables.Administers u)
  | .drop op which | .dropEach op which _ => op.Writes i s ∧ op.Dropping i s which
  | .verify op => op.Writes i s ∧ op.Resetting i s fun u => Spares i s u fun _ => True
  | .guard op => op.Writes i s ∧ op.Asking i s
  | .check op => op.Writes i s ∧ op.Asking i s ∧ s.guard = some i
  | .commit op => op.Writes i s ∧ op.Settling i s careful

/-! ## What the others may rely on -/

/-- A role locked `FOR KEY SHARE` is locked `FOR UPDATE` by nobody else. -/
def SharesOk (s : AdminState) : Prop :=
  ∀ j r, (j, r) ∈ s.shares → ∀ k, s.roles.holder r = some k → k = j

structure AdminGuar (i : Nat) (s s' : AdminState) : Prop where
  users : Pg.Db.Guar i s.users s'.users
  roles : Pg.Db.Guar i s.roles s'.roles
  userRoles : Pg.Db.Guar i s.userRoles s'.userRoles
  factors : Pg.Db.Guar i s.factors s'.factors
  guard : ∀ j, j ≠ i → s.guard = some j → s'.guard = some j
  shares : ∀ j r, j ≠ i → (j, r) ∈ s.shares → (j, r) ∈ s'.shares
  knownUser : ∀ u, (s.users.committed u).isSome → (s'.users.committed u).isSome
  oldUser : ∀ u, (s'.users.committed u).isSome → (s.users.committed u).isSome
  knownRole : ∀ r, (s.roles.committed r).isSome → (s'.roles.committed r).isSome
  gainsRole : ∀ u r, s'.tables.Held u r → s.tables.Held u r ∨
    s.users.holder u = some i ∧ (s.roles.holder r = some i ∨ (i, r) ∈ s.shares)
  gainsPermission : ∀ r p, isAdminPermission p = true → s'.tables.Grants r p →
    s.tables.Grants r p ∨ ∀ u, s.tables.Held u r → s.users.holder u = some i
  losesRole : ∀ u r, s.tables.Held u r → s'.tables.Held u r ∨ s.guard = some i ∨
    s.users.holder u = some i ∧ ¬ s.tables.Has u rolesManage
  losesStatus : ∀ u, s.tables.Active u → s'.tables.Active u ∨ s.guard = some i ∨
    s.users.holder u = some i ∧ ¬ s.tables.Has u rolesManage
  losesPermission : ∀ r p, s.tables.Grants r p → s'.tables.Grants r p ∨ s.guard = some i
  gainsFactor : ∀ u, s'.tables.HasFactor u → s.tables.HasFactor u
  losesFactor : ∀ k f, s.tables.factors k = some f →
    s'.tables.factors k = some f ∨ s.users.holder f.userId = some i
  pending : ∀ u, s'.tables.Pending u → s.tables.Pending u

theorem isAdmin_rolesManage : isAdminPermission rolesManage = true := by decide

section Stable

variable {i j : Nat} {s s' : AdminState} {u r k : Uuid} {careful : Bool}

theorem ne_of_locked (hne : j ≠ i) (h : s.users.holder k = some j) : s.users.holder k ≠ some i :=
  fun h' => hne (Option.some.inj (h.symm.trans h'))

section

variable (hg : AdminGuar i s s')
include hg

theorem AdminGuar.user_eq (hne : j ≠ i) (h : s.users.holder u = some j) :
    s'.tables.users u = s.tables.users u :=
  hg.users.frame u (ne_of_locked hne h)

theorem AdminGuar.role_eq (hs : SharesOk s) (hne : j ≠ i)
    (h : s.roles.holder r = some j ∨ (j, r) ∈ s.shares) : s'.tables.roles r = s.tables.roles r := by
  refine hg.roles.frame r fun h' => hne ?_
  rcases h with h | h
  · exact Option.some.inj (h.symm.trans h')
  · exact (hs j r h i h').symm

section

variable (hne : j ≠ i) (h : s.users.holder u = some j)
include hne h

theorem AdminGuar.active (hactive : s.tables.Active u) : s'.tables.Active u := by
  rw [AdminTables.Active, hg.user_eq hne h]
  exact hactive

theorem AdminGuar.still_pending (hp : s.tables.Pending u) : s'.tables.Pending u := by
  rw [AdminTables.Pending, hg.user_eq hne h]
  exact hp

theorem AdminGuar.held (hheld : s'.tables.Held u r) : s.tables.Held u r :=
  (hg.gainsRole u r hheld).resolve_right fun h' => ne_of_locked hne h h'.1

end

theorem AdminGuar.held_of_role (hs : SharesOk s) (hne : j ≠ i) (h : s.roles.holder r = some j)
    (hheld : s'.tables.Held u r) : s.tables.Held u r := by
  refine (hg.gainsRole u r hheld).resolve_right fun h' => hne ?_
  rcases h'.2 with h' | h'
  · exact Option.some.inj (h.symm.trans h')
  · exact hs i r h' j h

theorem AdminGuar.has (hne : j ≠ i) (h : s.users.holder u = some j) {p : Permission}
    (hp : isAdminPermission p = true) (hhas : s'.tables.Has u p) : s.tables.Has u p := by
  obtain ⟨r, hheld, hgrants⟩ := hhas
  have hbefore := hg.held hne h hheld
  refine ⟨r, hbefore, (hg.gainsPermission r p hp hgrants).resolve_right fun h' => ?_⟩
  exact ne_of_locked hne h (h' u hbefore)

theorem AdminGuar.administers (hne : j ≠ i) (h : s.users.holder u = some j) :
    s'.tables.Administers u → s.tables.Administers u :=
  fun ⟨p, hp, hhas⟩ => ⟨p, hp, hg.has hne h hp hhas⟩

theorem AdminGuar.factor (hne : j ≠ i) {f : FactorRow} (h : s.users.holder f.userId = some j)
    (hf : s.tables.factors k = some f) : s'.tables.factors k = some f :=
  (hg.losesFactor k f hf).resolve_right (ne_of_locked hne h)

theorem AdminGuar.hasFactor (hne : j ≠ i) (h : s.users.holder u = some j)
    (hfactor : s.tables.HasFactor u) : s'.tables.HasFactor u := by
  obtain ⟨k, f, hf, rfl, husable⟩ := hfactor
  exact ⟨k, f, hg.factor hne h hf, rfl, husable⟩

end

variable (hg : AdminGuar i s s') (hne : j ≠ i)
include hg hne

theorem ReadyHolder.stable (h : ReadyHolder j s u) : ReadyHolder j s' u :=
  ⟨hg.users.holder_eq hne h.locked, hg.active hne h.locked h.active,
    hg.hasFactor hne h.locked h.factor⟩

theorem Covers.stable {left : List Uuid} (h : Covers j s r left) (hs : SharesOk s)
    (hlock : s.roles.holder r = some j) : Covers j s' r left := by
  intro u hheld
  rcases h u (hg.held_of_role hs hne hlock hheld) with hleft | hready
  · exact .inl hleft
  · exact .inr (hready.stable hg hne)

theorem Granting.stable {permissions : List Permission} (h : Granting j s r permissions)
    (hs : SharesOk s) (hlock : s.roles.holder r = some j) : Granting j s' r permissions := by
  rcases h with h | h
  · refine .inl fun p hp hadmin => ?_
    rw [AdminTables.Grants, hg.role_eq hs hne (.inl hlock)]
    exact h p hp hadmin
  · exact .inr (h.stable hg hne hs hlock)

theorem Fit.stable (h : Fit s u r) (hs : SharesOk s) (hlock : s.users.holder u = some j)
    (hrole : s.roles.holder r = some j ∨ (j, r) ∈ s.shares) : Fit s' u r := by
  intro hadmin
  have hbefore : s.tables.GrantsAdministration r := by
    unfold AdminTables.GrantsAdministration AdminTables.Grants at hadmin ⊢
    rwa [hg.role_eq hs hne hrole] at hadmin
  obtain ⟨hfactor, hpending⟩ := h hbefore
  exact ⟨hg.hasFactor hne hlock hfactor, fun hp => hpending (hg.pending u hp)⟩

/-- The account `j` has found manages roles still: only a transaction with
the advisory lock could change that, or one that has locked the account
while it managed none. -/
theorem Manager.stable (h : Manager j s u r) (hguard : s.guard = some j) : Manager j s' u r := by
  have hother : s.guard ≠ some i := fun h' => hne (Option.some.inj (hguard.symm.trans h'))
  have hmanages : s.users.holder u = some i → s.tables.Has u rolesManage := by
    intro hlock
    refine ⟨r, h.held, h.safe.resolve_right fun h' => hne ?_⟩
    exact Option.some.inj (h'.symm.trans hlock)
  have hroles : s'.roles.pending j r = s.roles.pending j r := hg.roles.pending_eq hne r
  constructor
  · rcases hg.losesRole u r h.held with hheld | hlost | ⟨hlock, hnot⟩
    · exact hheld
    · exact absurd hlost hother
    · exact absurd (hmanages hlock) hnot
  · rw [hg.userRoles.pending_eq hne]
    exact h.kept
  · rcases hg.losesStatus u h.active with hactive | hlost | ⟨hlock, hnot⟩
    · exact hactive
    · exact absurd hlost hother
    · exact absurd (hmanages hlock) hnot
  · rw [hg.users.pending_eq hne]
    exact h.unchanged
  · obtain ⟨row, hrow, hp⟩ := h.grants
    change s.roles.view j r = some row at hrow
    rw [Pg.Db.view_eq] at hrow
    cases hpending : s.roles.pending j r with
    | some row' =>
      rw [hpending] at hrow
      refine ⟨row', ?_, by cases hrow; exact hp⟩
      show s'.roles.view j r = some row'
      rw [Pg.Db.view_eq, hroles, hpending]
      rfl
    | none =>
      rw [hpending] at hrow
      have hgrants : s.tables.Grants r rolesManage := ⟨row, hrow, hp⟩
      obtain ⟨row', hrow', hp'⟩ := (hg.losesPermission r _ hgrants).resolve_right hother
      refine ⟨row', ?_, hp'⟩
      show s'.roles.view j r = some row'
      rw [Pg.Db.view_eq, hroles, hpending]
      exact hrow'
  · rcases h.safe with hgrants | hlock
    · exact .inl ((hg.losesPermission r _ hgrants).resolve_right hother)
    · exact .inr (hg.users.holder_eq hne hlock)

theorem GuardPassed.stable (h : GuardPassed j s) : GuardPassed j s' := by
  obtain ⟨u, r, hmanager⟩ := h.manager
  exact ⟨hg.guard j hne h.guard, u, r, hmanager.stable hg hne h.guard⟩

theorem Cascading.stable {left : List (Uuid × Uuid)} (h : Cascading j s u left)
    (hlock : s.users.holder u = some j) : Cascading j s' u left := by
  intro r hheld
  rw [hg.userRoles.pending_eq hne]
  exact h r (hg.held hne hlock hheld)

theorem Spares.stable {q : FactorRow → Prop} (h : Spares j s u q)
    (hlock : s.users.holder u = some j) : Spares j s' u q := by
  intro hadmin hfactor
  obtain ⟨k, f, hf, hpending, rfl, hrest⟩ :=
    h (hg.administers hne hlock hadmin) (hg.gainsFactor u hfactor)
  refine ⟨k, f, hg.factor hne hlock hf, ?_, rfl, hrest⟩
  rw [hg.factors.pending_eq hne]
  exact hpending

theorem FactorKept.stable (h : FactorKept j s u) (hlock : s.users.holder u = some j) :
    FactorKept j s' u := by
  rcases h with h | h
  · exact .inl (hg.still_pending hne hlock h)
  · exact .inr (h.stable hg hne hlock)

theorem not_has_stable (h : ¬ s.tables.Has u rolesManage) (hlock : s.users.holder u = some j) :
    ¬ s'.tables.Has u rolesManage :=
  fun hhas => h (hg.has hne hlock isAdmin_rolesManage hhas)

theorem Clean.stable (h : Clean j s) : Clean j s' where
  users k := (hg.users.pending_eq hne k).trans (h.users k)
  roles k := (hg.roles.pending_eq hne k).trans (h.roles k)
  grants k := (hg.userRoles.pending_eq hne k).trans (h.grants k)
  factors k := (hg.factors.pending_eq hne k).trans (h.factors k)

theorem AdminOp.Writes.stable {op : AdminOp} (h : op.Writes j s) : op.Writes j s' where
  users k row hk := by
    rw [hg.users.pending_eq hne] at hk
    have hlock := Pg.Db.holder_of_pending hk
    have hmay := h.users k row hk
    unfold AdminOp.MayWriteUser at hmay ⊢
    split at hmay
    · exact hmay
    · exact hmay
    · exact ⟨hmay.1, hmay.2.1, hmay.2.2.1, hg.still_pending hne hlock hmay.2.2.2⟩
    · exact hmay
  known k row hk := hg.knownUser k (h.known k row (hg.users.pending_eq hne k ▸ hk))
  roles k row hk := h.roles k row (hg.roles.pending_eq hne k ▸ hk)
  grants k row hk := h.grants k row (hg.userRoles.pending_eq hne k ▸ hk)
  factors k row hk := by
    rw [hg.factors.pending_eq hne] at hk
    have hlock := Pg.Db.holder_of_pending hk
    have hsame : s'.tables.factors k = s.tables.factors k :=
      hg.factors.frame k fun h' => hne (Option.some.inj (hlock.symm.trans h'))
    have hmay := h.factors k row hk
    unfold AdminOp.MayWriteFactor at hmay ⊢
    rw [hsame]
    exact hmay

namespace AdminOp

variable {op : AdminOp} {active : Bool} {Q Q' : Uuid → Prop}

omit hne in
theorem Found.stable (h : op.Found s) : op.Found s' := by
  cases op with
  | assign => exact ⟨hg.knownUser _ h.1, hg.knownRole _ h.2⟩
  | grantRole => exact ⟨hg.knownUser _ h.1, fun hactive hp => h.2 hactive (hg.pending _ hp)⟩
  | eraseAccount | removeFactor | resetPassword => exact hg.knownUser _ h
  | create | setPermissions | delete | unassign | suspend => cases h

theorem Unlocking.stable (h : op.Unlocking j s active) : op.Unlocking j s' active := by
  cases op with
  | setPermissions | delete | unassign => exact hg.knownRole _ h
  | assign =>
    exact ⟨hg.users.holder_eq hne h.1, hg.knownRole _ h.2.1,
      fun hactive => hg.active hne h.1 (h.2.2 hactive)⟩
  | _ => cases h

omit hg hne in
theorem Locking.role_locked (h : op.Locking i s active) : s.roles.holder op.role = some i := by
  cases op with
  | setPermissions | delete | unassign => exact h
  | assign => exact h.2.1
  | _ => cases h

theorem Locking.stable (h : op.Locking j s active) : op.Locking j s' active := by
  cases op with
  | setPermissions | delete | unassign => exact hg.roles.holder_eq hne h
  | assign =>
    exact ⟨hg.users.holder_eq hne h.1, hg.roles.holder_eq hne h.2.1,
      fun hactive => hg.active hne h.1 (h.2.2 hactive)⟩
  | _ => cases h

theorem Creating.stable (h : op.Creating j s) (hs : SharesOk s) : op.Creating j s' := by
  cases op with
  | create =>
    refine ⟨hg.roles.holder_eq hne h.1, ?_, fun u hheld => ?_⟩
    · exact (hg.role_eq hs hne (.inl h.1)).trans h.2.1
    · exact h.2.2 u (hg.held_of_role hs hne h.1 hheld)
  | _ => cases h

theorem Setting.stable (h : op.Setting j s Q) (hQ : ∀ r, s.roles.holder r = some j → Q r → Q' r) :
    op.Setting j s' Q' := by
  cases op with
  | setPermissions _ r => exact ⟨hg.roles.holder_eq hne h.1, hQ r h.1 h.2⟩
  | _ => cases h

theorem Adding.stable {P P' Q Q' : Uuid → Uuid → Prop} (h : op.Adding j s P Q)
    (hP : ∀ u r, s.users.holder u = some j → s.roles.holder r = some j → P u r → P' u r)
    (hQ : ∀ u r, s.users.holder u = some j → Q u r → Q' u r) : op.Adding j s' P' Q' := by
  cases op with
  | assign _ u r =>
    exact ⟨hg.users.holder_eq hne h.1, hg.roles.holder_eq hne h.2.1, hP u r h.1 h.2.1 h.2.2⟩
  | grantRole u r => exact ⟨hg.users.holder_eq hne h.1, hQ u r h.1 h.2⟩
  | _ => cases h

theorem Retiring.stable (h : op.Retiring j s) : op.Retiring j s' := by
  cases op with
  | suspend => exact hg.users.holder_eq hne h
  | eraseAccount =>
    exact ⟨hg.users.holder_eq hne h.1, fun k => (hg.userRoles.pending_eq hne k).trans (h.2 k)⟩
  | _ => cases h

theorem Withdrawing.stable {managed : Bool} {left : Option (List (Uuid × Uuid))}
    (h : op.Withdrawing j s managed left) : op.Withdrawing j s' managed left := by
  cases op with
  | delete => exact h
  | eraseAccount =>
    exact ⟨hg.users.holder_eq hne h.1, fun hm => not_has_stable hg hne (h.2.1 hm) h.1,
      fun keys hkeys => (h.2.2 keys hkeys).stable hg hne h.1⟩
  | _ => cases h

theorem Disabling.stable (h : op.Disabling j s) : op.Disabling j s' := by
  cases op with
  | removeFactor => exact hg.users.holder_eq hne h
  | _ => cases h

theorem Resetting.stable (h : op.Resetting j s Q)
    (hQ : ∀ u, s.users.holder u = some j → Q u → Q' u) : op.Resetting j s' Q' := by
  cases op with
  | resetPassword u => exact ⟨hg.users.holder_eq hne h.1, hQ u h.1 h.2⟩
  | _ => cases h

theorem Dropping.stable {which : FactorDrop} (h : op.Dropping j s which) :
    op.Dropping j s' which := by
  cases op with
  | eraseAccount =>
    cases which with
    | cascade =>
      exact ⟨hg.users.holder_eq hne h.1, fun hm => not_has_stable hg hne (h.2.1 hm) h.1,
        h.2.2.stable hg hne h.1⟩
    | _ => cases h
  | resetPassword =>
    refine ⟨hg.users.holder_eq hne h.1, ?_⟩
    cases which with
    | cascade => exact h.2
    | since => exact Spares.stable hg hne h.2 h.1
    | all => exact hg.still_pending hne h.1 h.2
  | _ => cases h

theorem Asking.stable (h : op.Asking j s) (hs : SharesOk s) : op.Asking j s' := by
  cases op with
  | setPermissions => exact ⟨hg.roles.holder_eq hne h.1, h.2.stable hg hne hs h.1⟩
  | delete | unassign => trivial
  | suspend => exact hg.users.holder_eq hne h
  | eraseAccount => exact ⟨hg.users.holder_eq hne h.1, h.2.stable hg hne h.1⟩
  | _ => cases h

/-- What lets a transaction take the last administrator's place away. -/
theorem permitted_stable
    (h : GuardPassed j s ∨ ¬ s.tables.Has u rolesManage) (hlock : s.users.holder u = some j) :
    GuardPassed j s' ∨ ¬ s'.tables.Has u rolesManage := by
  rcases h with h | h
  · exact .inl (h.stable hg hne)
  · exact .inr (not_has_stable hg hne h hlock)

theorem Settling.stable (h : op.Settling j s careful) (hs : SharesOk s) :
    op.Settling j s' careful := by
  cases op with
  | create a r n ps => exact (show (AdminOp.create a r n ps).Creating j s from h).stable hg hne hs
  | setPermissions =>
    exact ⟨hg.roles.holder_eq hne h.1, h.2.1.stable hg hne hs h.1, h.2.2.stable hg hne⟩
  | delete | unassign => exact GuardPassed.stable hg hne h
  | assign =>
    exact ⟨hg.users.holder_eq hne h.1, hg.roles.holder_eq hne h.2.1,
      h.2.2.stable hg hne hs h.1 (.inl h.2.1)⟩
  | suspend => exact ⟨hg.users.holder_eq hne h.1, permitted_stable hg hne h.2 h.1⟩
  | eraseAccount =>
    exact ⟨hg.users.holder_eq hne h.1, h.2.1.stable hg hne h.1,
      permitted_stable hg hne h.2.2 h.1⟩
  | grantRole =>
    exact ⟨hg.users.holder_eq hne h.1, hg.shares j _ hne h.2.1,
      fun hc => (h.2.2 hc).stable hg hne hs h.1 (.inr h.2.1)⟩
  | removeFactor | resetPassword =>
    exact ⟨hg.users.holder_eq hne h.1, h.2.stable hg hne h.1⟩

end AdminOp

theorem grants_stable {current : List Permission} (h : ∀ p ∈ current, s.tables.Grants r p)
    (hs : SharesOk s) (hlock : s.roles.holder r = some j) :
    ∀ p ∈ current, s'.tables.Grants r p := by
  intro p hp
  rw [AdminTables.Grants, hg.role_eq hs hne (.inl hlock)]
  exact h p hp

theorem AdminPc.Ok.stable {pc : AdminPc} (h : pc.Ok careful j s) (hs : SharesOk s) :
    pc.Ok careful j s' := by
  cases pc with
  | idle | request | done => exact Clean.stable hg hne h
  | account => exact ⟨h.1.stable hg hne, hg.knownRole _ h.2.1, h.2.2⟩
  | grantee =>
    exact ⟨h.1.stable hg hne, hg.knownUser _ h.2.1,
      fun hactive hp => h.2.2 hactive (hg.pending _ hp)⟩
  | lockUser => exact ⟨h.1.stable hg hne, h.2.stable hg⟩
  | readUser | lockRole | readGrants | manages | cascade | cascadeEach | removeFactor | keepAdmin
  | keepProof | drop | dropEach => exact ⟨h.1.stable hg hne, h.2.stable hg hne⟩
  | authorize =>
    exact ⟨h.1.stable hg hne, h.2.1.stable hg hne,
      grants_stable hg hne h.2.2 hs h.2.1.role_locked⟩
  | authorizeNew | newRole | unassign | suspend => exact ⟨h.1.stable hg hne, h.2⟩
  | grantNew | guard | commit => exact ⟨h.1.stable hg hne, h.2.stable hg hne hs⟩
  | holders =>
    exact ⟨h.1.stable hg hne, h.2.stable hg hne fun r hlock hr =>
      grants_stable hg hne hr hs hlock⟩
  | lockHolder | clearGrants | insertGrants =>
    exact ⟨h.1.stable hg hne, h.2.stable hg hne fun r hlock hr => hr.stable hg hne hs hlock⟩
  | readHolder =>
    exact ⟨h.1.stable hg hne, h.2.stable hg hne fun r hlock hr =>
      ⟨hr.1.stable hg hne hs hlock,
        fun hrow => hg.users.holder_eq hne (hr.2 (hg.oldUser _ hrow))⟩⟩
  | proveHolder =>
    exact ⟨h.1.stable hg hne, h.2.stable hg hne fun r hlock hr =>
      ⟨hr.1.stable hg hne hs hlock, hg.users.holder_eq hne hr.2.1,
        hg.active hne hr.2.1 hr.2.2⟩⟩
  | administers =>
    exact ⟨h.1.stable hg hne, h.2.stable hg hne
      (fun u r hlock _ hu hactive => hg.active hne hlock (hu hactive))
      fun u r _ hu hactive hp => hu hactive (hg.pending u hp)⟩
  | prove =>
    exact ⟨h.1.stable hg hne, h.2.stable hg hne (fun u r hlock _ hu => hg.active hne hlock hu)
      fun u r _ hu hp => hu (hg.pending u hp)⟩
  | insert =>
    exact ⟨h.1.stable hg hne, h.2.stable hg hne
      (fun u r hlock hrole hu => hu.stable hg hne hs hlock (.inl hrole))
      fun u r hlock hu hfound => ⟨hg.hasFactor hne hlock (hu hfound).1,
        fun hp => (hu hfound).2 (hg.pending u hp)⟩⟩
  | deleteRole | erase => exact ⟨h.1.stable hg hne, h.2.1.stable hg hne, h.2.2⟩
  | administrator =>
    exact ⟨h.1.stable hg hne, h.2.stable hg hne fun u _ hu k =>
      (hg.factors.pending_eq hne k).trans (hu k)⟩
  | keeper =>
    exact ⟨h.1.stable hg hne, h.2.stable hg hne fun u hlock hu =>
      ⟨fun k => (hg.factors.pending_eq hne k).trans (hu.1 k),
        fun hadmin ha => hu.2 hadmin (hg.administers hne hlock ha)⟩⟩
  | verify =>
    exact ⟨h.1.stable hg hne, h.2.stable hg hne fun u hlock hu => hu.stable hg hne hlock⟩
  | check => exact ⟨h.1.stable hg hne, h.2.1.stable hg hne hs, hg.guard j hne h.2.2⟩

end Stable

end AuthApi
