import AuthApi.AdministrationLocks

/-!
# The steps of the administration

`adminStepped` says what a step short of the commit can be. Such a step
commits nothing (`AdminStepped.quiet`), so what the others rely on stays as
it is (`AdminQuiet.adminGuar`). What is left to show of it is what the
transaction gets to know: here for the steps that lock and authorize and
the operations that give something, `set_permissions`, `create`, `assign`
and `grant_role`.
-/

namespace AuthApi

open Conc

/-! ## What a step can be -/

section Inversion

variable (i : Nat) (inp : AdminInput) (s : AdminState)

inductive AdminStepped : AdminPc → AdminState → AdminPc → Prop
  | refused {request error} : AdminStepped (.request request) s (.done (.error error))
  | noAccount {op error} : AdminStepped (.account op) s (.done (.error error))
  | noRole {user active email name error} :
      AdminStepped (.grantee user active email name) s (.done (.error error))
  /-- The transaction is given up. -/
  | left {pc result} : AdminStepped pc (s.rollback i) (.done result)
  | creates {actor name description permissions} :
      AdminStepped (.request (.create actor name description permissions)) s
        (.authorizeNew (.create actor inp.row name permissions) permissions)
  | sets {actor name permissions role} (hrole : s.findRole name = some role) :
      AdminStepped (.request (.setPermissions actor name permissions)) s
        (.lockRole (.setPermissions actor role.id permissions) false)
  | deletes {actor name role} (hrole : s.findRole name = some role) :
      AdminStepped (.request (.delete actor name)) s (.lockRole (.delete actor role.id) false)
  | assigns {actor user name role} (hrole : s.findRole name = some role) :
      AdminStepped (.request (.assign actor user name)) s (.account (.assign actor user role.id))
  | unassigns {actor user name role} (hrole : s.findRole name = some role) :
      AdminStepped (.request (.unassign actor user name)) s
        (.lockRole (.unassign actor user role.id) false)
  | suspends {actor user} :
      AdminStepped (.request (.suspend actor user)) s (.suspend (.suspend user))
  | erases {user row} (huser : s.findUser user = some row) :
      AdminStepped (.request (.eraseAccount user)) s (.lockUser (.eraseAccount user))
  | disables {user method row} (huser : s.findUser user = some row) :
      AdminStepped (.request (.disableMethod user method)) s
        (.lockUser (.removeFactor user method true))
  | unregisters {user passkey row} (huser : s.findUser user = some row) :
      AdminStepped (.request (.removePasskey user passkey)) s
        (.lockUser (.removeFactor user passkey false))
  | resets {user since row} (huser : s.findUser user = some row) :
      AdminStepped (.request (.resetPassword user since)) s (.lockUser (.resetPassword user since))
  | finds {email name row} (hrow : s.findByEmail email = some row) :
      AdminStepped (.request (.grantRole email name)) s
        (.grantee row.id (row.status = .active) email name)
  | account {op row} (huser : s.findUser op.user = some row) :
      AdminStepped (.account op) s (.lockUser op)
  | grantee {user role active email name} :
      AdminStepped (.grantee user active email name) s
        (.lockUser (.grantRole user role active email name))
  | lockedUser {op row users} (hselect : s.users.selectForUpdate i op.user = some (row, users)) :
      AdminStepped (.lockUser op) { s with users := users } op.withUser
  | readUser {op row} (hrow : s.users.view i op.user = some row) (herased : ¬ row.erased = true) :
      AdminStepped (.readUser op) s (.lockRole op (row.status = .active))
  | lockedRole {op active row roles}
      (hshared : ¬ s.shares.any (fun share => share.1 ≠ i && share.2 = op.role) = true)
      (hselect : s.roles.selectForUpdate i op.role = some (row, roles)) :
      AdminStepped (.lockRole op active) { s with roles := roles } (.readGrants op active)
  | readGrants {op active} :
      AdminStepped (.readGrants op active) s
        (.authorize op active (s.permissionsOf i op.role) (op.needed (s.permissionsOf i op.role)))
  | authorized {op active current} :
      AdminStepped (.authorize op active current []) s (op.authorized active current)
  | holds {op active current p left} (hheld : s.userHas i op.actor (· = p) = true) :
      AdminStepped (.authorize op active current (p :: left)) s (.authorize op active current left)
  | authorizedNew {op} : AdminStepped (.authorizeNew op []) s (.newRole op)
  | holdsNew {op p left} (hheld : s.userHas i op.actor (· = p) = true) :
      AdminStepped (.authorizeNew op (p :: left)) s (.authorizeNew op left)
  | inserted {actor role name permissions roles} (hunheard : s.unheard role = true)
      (hinsert : s.roles.insert i ⟨role, name, false, [], false⟩ = some roles) :
      AdminStepped (.newRole (.create actor role name permissions)) { s with roles := roles }
        (.grantNew (.create actor role name permissions))
  | granted {op v roles} (hvisit : s.roles.visit i op.role (fun row => !row.deleted)
        (fun row => some { row with permissions := op.permissions }) = some (v, roles)) :
      AdminStepped (.grantNew op) { s with roles := roles } (.commit op)
  | holders {op current} :
      AdminStepped (.holders op current) s (op.nextHolder (s.holders i op.role))
  | nothingNew {op current}
      (hnone : ¬ op.permissions.any (fun p => p ∉ current && isAdminPermission p) = true) :
      AdminStepped (.holders op current) s (.clearGrants op)
  | lockedHolder {op holder rest row users}
      (hselect : s.users.selectForUpdate i holder = some (row, users)) :
      AdminStepped (.lockHolder op holder rest) { s with users := users }
        (.readHolder op holder rest)
  | readHolder {op holder rest row} (hrow : s.users.view i holder = some row)
      (herased : ¬ row.erased = true) (hactive : row.status = .active) :
      AdminStepped (.readHolder op holder rest) s (.proveHolder op holder rest)
  | provenHolder {op holder rest} (hproof : s.hasSecondFactor i holder = true) :
      AdminStepped (.proveHolder op holder rest) s (op.nextHolder rest)
  | cleared {op v roles} (hvisit : s.roles.visit i op.role (fun row => !row.deleted)
        (fun row => some { row with permissions := [] }) = some (v, roles)) :
      AdminStepped (.clearGrants op) { s with roles := roles } (.insertGrants op)
  | replaced {op v roles} (hvisit : s.roles.visit i op.role (fun row => !row.deleted)
        (fun row => some { row with permissions := op.permissions }) = some (v, roles)) :
      AdminStepped (.insertGrants op) { s with roles := roles } (.guard op)
  | administers {op active} (hactive : active = true) :
      AdminStepped (.administers op active) s (.prove op)
  | plain {op active} (hnone : ¬ (s.permissionsOf i op.role).any isAdminPermission = true) :
      AdminStepped (.administers op active) s (.insert op false)
  | proven {op} (hproof : s.hasSecondFactor i op.user = true) :
      AdminStepped (.prove op) s (.insert op true)
  | assigned {op found userRoles} (hfree : (s.roles.slot op.role).free i = true)
      (hgrant : s.grantRow i op.user op.role = some userRoles) :
      AdminStepped (.insert op found)
        { s with userRoles := userRoles, shares := (i, op.role) :: s.shares } (.commit op)
  | deletedRole {op v roles} (hvisit : s.roles.visit i op.role (fun row => !row.deleted)
        (fun row => some { row with permissions := [], deleted := true }) = some (v, roles)) :
      AdminStepped (.deleteRole op) { s with roles := roles } (.cascade op true)
  | unassigned {op row userRoles} (hvisit : s.userRoles.visit i (op.user, op.role) UserRole.held
        UserRole.revoke = some (.updated row, userRoles)) :
      AdminStepped (.unassign op) { s with userRoles := userRoles } (.guard op)
  | suspended {op row users} (hvisit : s.users.visit i op.user
        (fun row => !row.erased && (row.status = .active || row.status = .inactive))
        (fun row => some { row with status := .suspended }) = some (.updated row, users)) :
      AdminStepped (.suspend op) { s with users := users } (.manages op)
  | managesErased {user} :
      AdminStepped (.manages (.eraseAccount user)) s
        (.erase (.eraseAccount user) (s.userHas i user (· = rolesManage)))
  | manages {op} (hop : ∀ user, op ≠ .eraseAccount user) :
      AdminStepped (.manages op) s (op.guarded (s.userHas i op.user (· = rolesManage)))
  | erased {op managed row users} (hvisit : s.users.visit i op.user (fun row => !row.erased)
        (fun row => some { row with erased := true }) = some (.updated row, users)) :
      AdminStepped (.erase op managed) { s with users := users } (.cascade op managed)
  | cascades {op managed} :
      AdminStepped (.cascade op managed) s (.cascadeEach op managed (s.userRoles.scan i op.owns))
  | revoked {op managed left v userRoles}
      (hvisit : s.userRoles.visit i inp.grant op.owns UserRole.revoke = some (v, userRoles)) :
      AdminStepped (.cascadeEach op managed left) { s with userRoles := userRoles }
        (.cascadeEach op managed (left.erase inp.grant))
  | cascadedErased {user managed} :
      AdminStepped (.cascadeEach (.eraseAccount user) managed []) s
        (.drop (.eraseAccount user) (.cascade managed))
  | cascaded {op managed} (hop : ∀ user, op ≠ .eraseAccount user) :
      AdminStepped (.cascadeEach op managed []) s (op.guarded managed)
  | removed {user factor isMethod row factors} (hvisit : s.factors.visit i factor
        (fun f => f.userId = user && !f.removed && f.kind.isMethod = isMethod)
        FactorRow.remove = some (.updated row, factors)) :
      AdminStepped (.removeFactor (.removeFactor user factor isMethod))
        { s with factors := factors } (.keepAdmin (.removeFactor user factor isMethod))
  | mustKeep {op} : AdminStepped (.keepAdmin op) s (.keepProof op)
  | mayRemove {op} (hnone : ¬ s.userHas i op.user isAdminPermission = true) :
      AdminStepped (.keepAdmin op) s (.commit op)
  | kept {op} (hproof : s.hasSecondFactor i op.user = true) :
      AdminStepped (.keepProof op) s (.commit op)
  | administrator {op start} :
      AdminStepped (.administrator op start) s
        (.keeper op start (s.userHas i op.user isAdminPermission))
  | keepsNone {op start admin} (hnone : admin = true → s.keepers i op.user start = []) :
      AdminStepped (.keeper op start admin) s (.drop op (.since start none true))
  | keepsOne {op start} (hmem : inp.row ∈ s.keepers i op.user start) :
      AdminStepped (.keeper op start true) s (.drop op (.since start (some inp.row) true))
  | drops {op which} :
      AdminStepped (.drop op which) s
        (.dropEach op which (s.factors.scan i (which.takes op.user)))
  | dropping {op which left v factors} (hvisit : s.factors.visit i inp.row
        (which.takes op.user) FactorRow.remove = some (v, factors)) :
      AdminStepped (.dropEach op which left) { s with factors := factors }
        (.dropEach op which (left.erase inp.row))
  | dropped {op which} : AdminStepped (.dropEach op which []) s (which.next op)
  | verified {op row users} (hvisit : s.users.visit i op.user
        (fun row => !row.erased && row.status = .pendingVerification)
        (fun row => some { row with status := .active }) = some (.updated row, users)) :
      AdminStepped (.verify op) { s with users := users } (.drop op .all)
  | notPending {op v users} (hvisit : s.users.visit i op.user
        (fun row => !row.erased && row.status = .pendingVerification)
        (fun row => some { row with status := .active }) = some (v, users)) :
      AdminStepped (.verify op) { s with users := users } (.commit op)
  | guarded {op} (hfree : s.guard = none ∨ s.guard = some i) :
      AdminStepped (.guard op) { s with guard := some i } (.check op)
  | checked {op} (hheld : s.permissionHeld i rolesManage = true) :
      AdminStepped (.check op) s (.commit op)

variable {i inp s} {s' : AdminState} {pc pc' : AdminPc}

theorem requestStepped (h : requestStep inp s pc = some (s', pc')) :
    AdminStepped i inp s pc s' pc' := by
  unfold requestStep at h
  repeat' split at h
  all_goals cases h
  any_goals first | exact .refused | exact .noAccount | exact .noRole
  · exact .creates
  · exact .sets ‹_›
  · exact .deletes ‹_›
  · exact .assigns ‹_›
  · exact .unassigns ‹_›
  · exact .suspends
  · exact .erases ‹_›
  · exact .finds ‹_›
  · exact .disables ‹_›
  · exact .unregisters ‹_›
  · exact .resets ‹_›
  · exact .account ‹_›
  · exact .grantee

theorem lockStepped (h : lockStep i s pc = some (s', pc')) : AdminStepped i inp s pc s' pc' := by
  unfold lockStep at h
  repeat' split at h
  all_goals cases h
  any_goals exact .left
  · exact .lockedUser ‹_›
  · exact .readUser ‹_› ‹_›
  · exact .lockedRole ‹_› ‹_›
  · exact .readGrants
  · exact .authorized
  · exact .holds ‹_›

theorem createStepped (h : createStep i s pc = some (s', pc')) :
    AdminStepped i inp s pc s' pc' := by
  unfold createStep at h
  repeat' split at h
  all_goals cases h
  any_goals exact .left
  · exact .authorizedNew
  · exact .holdsNew ‹_›
  · exact .inserted ‹_› ‹_›
  · exact .granted ‹_›

theorem setPermissionsStepped (h : setPermissionsStep i s pc = some (s', pc')) :
    AdminStepped i inp s pc s' pc' := by
  unfold setPermissionsStep at h
  repeat' split at h
  all_goals cases h
  any_goals exact .left
  · exact .holders
  · exact .nothingNew ‹_›
  · exact .lockedHolder ‹_›
  · exact .readHolder ‹_› ‹_› ‹_›
  · exact .provenHolder ‹_›
  · exact .cleared ‹_›
  · exact .replaced ‹_›
  · exact .replaced ‹_›

theorem assignStepped (h : assignStep i s pc = some (s', pc')) :
    AdminStepped i inp s pc s' pc' := by
  unfold assignStep at h
  repeat' split at h
  all_goals cases h
  any_goals exact .left
  · exact .administers ‹_›
  · exact .plain ‹_›
  · exact .proven ‹_›
  · exact .assigned ‹_› ‹_›

theorem withdrawStepped (h : withdrawStep i inp s pc = some (s', pc')) :
    AdminStepped i inp s pc s' pc' := by
  unfold withdrawStep at h
  repeat' split at h
  all_goals cases h
  any_goals exact .left
  · exact .deletedRole ‹_›
  · exact .unassigned ‹_›
  · exact .suspended ‹_›
  · exact .managesErased
  · exact .manages ‹_›
  · exact .erased ‹_›
  · exact .cascades
  · exact .cascadedErased
  · exact .cascaded ‹_›
  · exact .revoked ‹_›

theorem secondFactorStepped (h : secondFactorStep i inp s pc = some (s', pc')) :
    AdminStepped i inp s pc s' pc' := by
  unfold secondFactorStep at h
  dsimp only at h
  repeat' split at h
  all_goals cases h
  any_goals exact .left
  · exact .removed ‹_›
  · exact .mustKeep
  · exact .mayRemove ‹_›
  · exact .kept ‹_›
  · exact .administrator
  · exact .keepsNone fun hadmin => (if_pos hadmin).symm.trans ‹_›
  · subst_vars
    exact .keepsOne ‹_›
  · exact absurd ‹_› List.not_mem_nil
  · exact .drops
  · exact .dropped
  · exact .dropping ‹_›
  · exact .verified ‹_›
  · exact .notPending ‹_›

theorem adminStepped (h : adminStep i inp s pc = some (s', pc')) :
    AdminStepped i inp s pc s' pc' ∨
      ∃ op, pc = .commit op ∧ s' = s.commit i ∧ pc' = .done (.ok ()) := by
  cases pc with
  | request | account | grantee => exact .inl (requestStepped h)
  | lockUser | readUser | lockRole | readGrants | authorize => exact .inl (lockStepped h)
  | authorizeNew | newRole | grantNew => exact .inl (createStepped h)
  | holders | lockHolder | readHolder | proveHolder | clearGrants | insertGrants =>
    exact .inl (setPermissionsStepped h)
  | administers | prove | insert => exact .inl (assignStepped h)
  | deleteRole | unassign | suspend | manages | erase | cascade | cascadeEach =>
    exact .inl (withdrawStepped h)
  | removeFactor | keepAdmin | keepProof | administrator | keeper | drop | dropEach | verify =>
    exact .inl (secondFactorStepped h)
  | guard =>
    simp only [adminStep, finishStep] at h
    split at h <;> cases h
    exact .inl (.guarded ‹_›)
  | check =>
    simp only [adminStep, finishStep] at h
    split at h <;> cases h
    · exact .inl (.checked ‹_›)
    · exact .inl .left
  | commit op =>
    cases h
    exact .inr ⟨op, rfl, rfl, rfl⟩
  | idle | done => cases h

end Inversion

/-! ## Steps short of the commit -/

section Statements

variable {i : Nat} {inp : AdminInput} {s s' : AdminState} {careful : Bool} {pc pc' : AdminPc}

theorem grantRow_spec {user role : Uuid} {userRoles : Pg.Db UserRole.key}
    (h : s.grantRow i user role = some userRoles) :
    Pg.Db.Statement i s.userRoles userRoles ∧ ∃ w,
      Pg.Db.Changed i (user, role) w s.userRoles userRoles ∧ ∀ row ∈ w, row.held = true := by
  unfold AdminState.grantRow at h
  split at h
  · refine ⟨Pg.Db.statement_insert h, _, Pg.Db.changed_insert h, ?_⟩
    rintro row ⟨⟩
    rfl
  · obtain ⟨⟨v, userRoles'⟩, hvisit, rfl⟩ := Option.map_eq_some_iff.mp h
    refine ⟨Pg.Db.statement_visit hvisit, ?_⟩
    have hkey : ∀ r r' : UserRole, some { r with held := true } = some r' → r'.key = r.key := by
      rintro r - ⟨⟩
      rfl
    obtain ⟨w, hc, hw, -⟩ := Pg.Db.visit_changed hkey hvisit
    refine ⟨w, hc, fun row hrow => ?_⟩
    obtain ⟨old, -, -, ⟨⟩⟩ := hw row hrow
    rfl

/-- What changes is what an operation commits that has come to its end. -/
inductive AdminCommits (careful : Bool) (i : Nat) (s s' : AdminState) : Prop
  | nothing (h : s'.tables = s.tables)
  | op (op : AdminOp) (writes : op.Writes i s) (settling : op.Settling i s careful)
      (h : s'.tables = s.seenBy i)

structure AdminKeeps (careful : Bool) (i : Nat) (s s' : AdminState) (pc' : AdminPc) : Prop where
  shared : SharesOk s'
  own : pc'.Ok careful i s'
  guar : AdminGuar i s s'
  commits : AdminCommits careful i s s'

structure AdminQuiet (i : Nat) (s s' : AdminState) : Prop where
  users : Pg.Db.Quiet i s.users s'.users
  roles : Pg.Db.Quiet i s.roles s'.roles
  userRoles : Pg.Db.Quiet i s.userRoles s'.userRoles
  factors : Pg.Db.Quiet i s.factors s'.factors
  guard : ∀ j, j ≠ i → s.guard = some j → s'.guard = some j
  shares : ∀ j r, j ≠ i → (j, r) ∈ s.shares → (j, r) ∈ s'.shares

theorem AdminQuiet.refl : AdminQuiet i s s :=
  ⟨.refl, .refl, .refl, .refl, fun _ _ h => h, fun _ _ _ h => h⟩

theorem AdminQuiet.rollback : AdminQuiet i s (s.rollback i) := by
  refine ⟨Pg.Db.quiet_rollback, Pg.Db.quiet_rollback, Pg.Db.quiet_rollback,
    Pg.Db.quiet_rollback, fun j hne hj => ?_, fun j r hne hmem => ?_⟩
  · simp only [AdminState.rollback, hj]
    rw [if_neg fun h => hne (Option.some.inj h)]
  · exact List.mem_filter.mpr ⟨hmem, by simpa using hne⟩

theorem AdminQuiet.tables_eq (h : AdminQuiet i s s') : s'.tables = s.tables := by
  simp only [AdminState.tables]
  congr 1 <;> funext k
  · exact h.users.committed_eq k
  · exact h.roles.committed_eq k
  · exact h.userRoles.committed_eq k
  · exact h.factors.committed_eq k

theorem AdminQuiet.adminGuar (h : AdminQuiet i s s') : AdminGuar i s s' where
  users := h.users.guar
  roles := h.roles.guar
  userRoles := h.userRoles.guar
  factors := h.factors.guar
  guard := h.guard
  shares := h.shares
  knownUser u hu := by rwa [h.users.committed_eq]
  oldUser u hu := by rwa [h.users.committed_eq] at hu
  knownRole r hr := by rwa [h.roles.committed_eq]
  gainsRole u r hheld := .inl (h.tables_eq ▸ hheld)
  gainsPermission r p _ hgrants := .inl (h.tables_eq ▸ hgrants)
  losesRole u r hheld := .inl (h.tables_eq ▸ hheld)
  losesStatus u hactive := .inl (h.tables_eq ▸ hactive)
  losesPermission r p hgrants := .inl (h.tables_eq ▸ hgrants)
  gainsFactor u hfactor := h.tables_eq ▸ hfactor
  losesFactor k f hf := .inl (h.tables_eq ▸ hf)
  pending u hp := h.tables_eq ▸ hp

theorem AdminQuiet.keeps (h : AdminQuiet i s s') (hs : SharesOk s') (hown : pc'.Ok careful i s') :
    AdminKeeps careful i s s' pc' :=
  ⟨hs, hown, h.adminGuar, .nothing h.tables_eq⟩

theorem AdminStepped.quiet (h : AdminStepped i inp s pc s' pc') : AdminQuiet i s s' := by
  cases h with
  | left => exact .rollback
  | lockedUser hselect | lockedHolder hselect =>
    exact { AdminQuiet.refl with users := Pg.Db.quiet_selectForUpdate hselect }
  | lockedRole _ hselect =>
    exact { AdminQuiet.refl with roles := Pg.Db.quiet_selectForUpdate hselect }
  | inserted _ hinsert => exact { AdminQuiet.refl with roles := Pg.Db.quiet_insert hinsert }
  | granted hvisit | cleared hvisit | replaced hvisit | deletedRole hvisit =>
    exact { AdminQuiet.refl with roles := Pg.Db.quiet_visit hvisit }
  | assigned _ hgrant =>
    exact { AdminQuiet.refl with
      userRoles := (grantRow_spec hgrant).1.quiet
      shares := fun _ _ _ hmem => List.mem_cons_of_mem _ hmem }
  | unassigned hvisit | revoked hvisit =>
    exact { AdminQuiet.refl with userRoles := Pg.Db.quiet_visit hvisit }
  | suspended hvisit | erased hvisit | verified hvisit | notPending hvisit =>
    exact { AdminQuiet.refl with users := Pg.Db.quiet_visit hvisit }
  | removed hvisit | dropping hvisit =>
    exact { AdminQuiet.refl with factors := Pg.Db.quiet_visit hvisit }
  | guarded hfree =>
    refine { AdminQuiet.refl with guard := fun j hne hj => ?_ }
    rcases hfree with hnone | hmine
    · exact nomatch hnone.symm.trans hj
    · exact absurd (Option.some.inj (hj.symm.trans hmine)) hne
  | _ => exact .refl

theorem clean_rollback : Clean i (s.rollback i) := by
  constructor <;> intro k <;> simp [AdminState.rollback, Pg.Db.rollback_pending]

end Statements

/-! ## Before the transaction -/

section Request

variable {i : Nat} {s : AdminState} {careful : Bool} {row : UserRow}

theorem findRole_isSome {name : String} {row : RoleRow} (h : s.findRole name = some row) :
    (s.roles.committed row.id).isSome := by
  have hrow : s.roles.committed row.id = some row :=
    Pg.Db.mem_rows.mp (List.mem_of_find?_eq_some h)
  rw [hrow]
  rfl

theorem findUser_isSome {user : Uuid} (h : s.findUser user = some row) :
    (s.users.committed user).isSome := by
  rw [(Option.filter_eq_some_iff.mp h).1]
  rfl

theorem findByEmail_row {email : String} (h : s.findByEmail email = some row) :
    s.users.committed row.id = some row :=
  Pg.Db.mem_rows.mp (List.mem_of_find?_eq_some h)

theorem grantee_own {email name : String} (hclean : Clean i s)
    (h : s.findByEmail email = some row) :
    (AdminPc.grantee row.id (row.status = .active) email name).Ok careful i s := by
  have hrow := findByEmail_row h
  refine ⟨hclean, by rw [hrow]; rfl, fun hactive => ?_⟩
  rintro ⟨row', hrow', -, hpending⟩
  cases hrow.symm.trans hrow'
  simp [hpending] at hactive

end Request

/-! ## Locks and authorization -/

section Locks

variable {i : Nat} {s : AdminState} {careful active : Bool} {op : AdminOp} {k : Uuid}

theorem Clean.users_locked {users : Pg.Db UserRow.id} (h : Clean i s)
    (hc : Pg.Db.Changed i k none s.users users) : Clean i { s with users := users } :=
  { h with users := fun k' => (hc.pending_none i k').trans (h.users k') }

theorem Clean.roles_locked {roles : Pg.Db RoleRow.id} (h : Clean i s)
    (hc : Pg.Db.Changed i k none s.roles roles) : Clean i { s with roles := roles } :=
  { h with roles := fun k' => (hc.pending_none i k').trans (h.roles k') }

theorem Clean.spares {user : Uuid} (h : Clean i s) : Spares i s user fun _ => True := by
  rintro - ⟨k, f, hf, huser, husable⟩
  exact ⟨k, f, hf, h.factors k, huser, husable, trivial⟩

theorem withUser_own {row : Option UserRow} {users : Pg.Db UserRow.id} (hclean : Clean i s)
    (hfound : op.Found s) (hselect : s.users.selectForUpdate i op.user = some (row, users))
    (htables : ({ s with users := users } : AdminState).tables = s.tables) :
    op.withUser.Ok careful i { s with users := users } := by
  obtain ⟨hchanged, hlock⟩ := Pg.Db.selectForUpdate_spec hselect
  have hclean' : Clean i { s with users := users } := hclean.users_locked hchanged
  cases op with
  | assign =>
    exact ⟨hclean', hlock (Pg.Db.view_isSome_of_committed i hfound.1), hfound.2, nofun⟩
  | grantRole =>
    refine ⟨hclean', hlock (Pg.Db.view_isSome_of_committed i hfound.1), fun hactive => ?_⟩
    rw [htables]
    exact hfound.2 hactive
  | eraseAccount =>
    exact ⟨hclean'.writes _, hlock (Pg.Db.view_isSome_of_committed i hfound), hclean.grants⟩
  | removeFactor => exact ⟨hclean'.writes _, hlock (Pg.Db.view_isSome_of_committed i hfound)⟩
  | resetPassword _ since =>
    cases since with
    | some =>
      exact ⟨hclean'.writes _, hlock (Pg.Db.view_isSome_of_committed i hfound), hclean.factors⟩
    | none =>
      exact ⟨hclean'.writes _, hlock (Pg.Db.view_isSome_of_committed i hfound), hclean'.spares⟩
  | _ => cases hfound

theorem readUser_own {row : UserRow} (hclean : Clean i s) (hlock : op.Unlocking i s false)
    (hrow : s.users.view i op.user = some row) (herased : ¬ row.erased = true) :
    (AdminPc.lockRole op (row.status = .active)).Ok careful i s := by
  have hcommitted : s.tables.users op.user = some row :=
    (congrArg (fun t => t.users op.user) hclean.seenBy).symm.trans hrow
  refine ⟨hclean, ?_⟩
  cases op with
  | assign =>
    refine ⟨hlock.1, hlock.2.1, fun hactive => ?_⟩
    exact ⟨row, hcommitted, by simpa using herased, by simpa using hactive⟩
  | setPermissions | delete | unassign => exact hlock
  | _ => cases hlock

theorem AdminOp.Unlocking.role_known (h : op.Unlocking i s active) :
    (s.roles.committed op.role).isSome := by
  cases op with
  | assign => exact h.2.1
  | setPermissions | delete | unassign => exact h
  | _ => cases h

theorem lockedRole_own {row : Option RoleRow} {roles : Pg.Db RoleRow.id} (hclean : Clean i s)
    (hlock : op.Unlocking i s active)
    (hselect : s.roles.selectForUpdate i op.role = some (row, roles)) :
    (AdminPc.readGrants op active).Ok careful i { s with roles := roles } := by
  obtain ⟨hchanged, hheld⟩ := Pg.Db.selectForUpdate_spec hselect
  have hrole : roles.holder op.role = some i :=
    hheld (Pg.Db.view_isSome_of_committed i hlock.role_known)
  refine ⟨hclean.roles_locked hchanged, ?_⟩
  cases op with
  | assign => exact ⟨hlock.1, hrole, hlock.2.2⟩
  | setPermissions | delete | unassign => exact hrole
  | _ => cases hlock

theorem authorized_own {current : List Permission} (hclean : Clean i s)
    (hlock : op.Locking i s active) (hcurrent : ∀ p ∈ current, s.tables.Grants op.role p) :
    (op.authorized active current).Ok careful i s := by
  cases op with
  | setPermissions => exact ⟨hclean, hlock, hcurrent⟩
  | delete => exact ⟨hclean, hlock, _, _, rfl⟩
  | assign => exact ⟨hclean, hlock⟩
  | unassign => exact ⟨hclean, _, _, _, rfl⟩
  | _ => cases hlock

end Locks

/-! ## `set_permissions` -/

section SetPermissions

variable {i : Nat} {s s' : AdminState} {careful : Bool} {op : AdminOp}
  {Q : Uuid → Prop} {left rest : List Uuid} {role holder : Uuid} {permissions : List Permission}
  {roles : Pg.Db RoleRow.id} {v : Pg.Db.Visit RoleRow}

theorem AdminOp.Setting.mono {Q' : Uuid → Prop} (h : op.Setting i s Q)
    (hroles : ∀ r, s.roles.holder r = some i → s'.roles.holder r = some i)
    (hQ : ∀ r, r = op.role → s.roles.holder r = some i → Q r → Q' r) : op.Setting i s' Q' := by
  cases op with
  | setPermissions _ r => exact ⟨hroles r h.1, hQ r rfl h.1 h.2⟩
  | _ => cases h

theorem AdminOp.Setting.locked (h : op.Setting i s Q) :
    s.roles.holder op.role = some i ∧ Q op.role := by
  cases op with
  | setPermissions => exact h
  | _ => cases h

theorem nextHolder_own (hclean : Clean i s) (h : op.Setting i s fun r => Covers i s r left) :
    (op.nextHolder left).Ok careful i s := by
  cases left with
  | nil => exact ⟨hclean.writes op, h.mono (fun _ h => h) fun _ _ _ hr => .inr hr⟩
  | cons => exact ⟨hclean, h⟩

theorem holders_own {current : List Permission} (hclean : Clean i s)
    (hset : op.Setting i s fun r => ∀ p ∈ current, s.tables.Grants r p) :
    (op.nextHolder (s.holders i op.role)).Ok careful i s := by
  refine nextHolder_own hclean (hset.mono (fun _ h => h) fun r hr _ _ user hheld => ?_)
  subst hr
  rw [← hclean.seenBy] at hheld
  exact .inl (mem_holders.mpr hheld)

theorem nothingNew_own {current : List Permission} (hclean : Clean i s)
    (hset : op.Setting i s fun r => ∀ p ∈ current, s.tables.Grants r p)
    (hnone : ¬ op.permissions.any (fun p => p ∉ current && isAdminPermission p) = true) :
    (AdminPc.clearGrants op).Ok careful i s := by
  refine ⟨hclean.writes op, hset.mono (fun _ h => h) fun r _ _ hr => ?_⟩
  refine .inl fun p hp hadmin => hr p ?_
  by_contra hnew
  exact hnone (List.any_eq_true.mpr ⟨p, hp, by simp [hnew, hadmin]⟩)

/-- What is known of the holders stays as long as the locks do and nothing
is committed. -/
theorem Covers.transfer (h : Covers i s role left) (htables : s'.tables = s.tables)
    (hlocks : ∀ u, s.users.holder u = some i → s'.users.holder u = some i) :
    Covers i s' role left := by
  intro user hheld
  rw [htables] at hheld
  rcases h user hheld with hleft | hready
  · exact .inl hleft
  · exact .inr ⟨hlocks user hready.locked, htables ▸ hready.active, htables ▸ hready.factor⟩

theorem Granting.transfer (h : Granting i s role permissions) (htables : s'.tables = s.tables)
    (hlocks : ∀ u, s.users.holder u = some i → s'.users.holder u = some i) :
    Granting i s' role permissions := by
  rcases h with h | h
  · exact .inl fun p hp hadmin => htables ▸ h p hp hadmin
  · exact .inr (h.transfer htables hlocks)

theorem lockedHolder_own {row : Option UserRow} {users : Pg.Db UserRow.id} (hclean : Clean i s)
    (hset : op.Setting i s fun r => Covers i s r (holder :: rest))
    (hselect : s.users.selectForUpdate i holder = some (row, users))
    (htables : ({ s with users := users } : AdminState).tables = s.tables) :
    (AdminPc.readHolder op holder rest).Ok careful i { s with users := users } := by
  obtain ⟨hchanged, hlock⟩ := Pg.Db.selectForUpdate_spec hselect
  have hst := Pg.Db.statement_selectForUpdate hselect
  refine ⟨hclean.users_locked hchanged, ?_⟩
  refine hset.mono (fun _ h => h) fun r _ _ hr => ⟨hr.transfer htables hst.locked, fun hrow => ?_⟩
  rw [show ({ s with users := users } : AdminState).users.committed holder
    = s.users.committed holder from hst.quiet.committed_eq holder] at hrow
  exact hlock (Pg.Db.view_isSome_of_committed i hrow)

theorem readHolder_own {row : UserRow} (hclean : Clean i s)
    (hset : op.Setting i s fun r => Covers i s r (holder :: rest) ∧
      ((s.users.committed holder).isSome → s.users.holder holder = some i))
    (hrow : s.users.view i holder = some row) (herased : ¬ row.erased = true)
    (hactive : row.status = .active) : (AdminPc.proveHolder op holder rest).Ok careful i s := by
  have hcommitted : s.tables.users holder = some row :=
    (congrArg (fun t => t.users holder) hclean.seenBy).symm.trans hrow
  refine ⟨hclean, hset.mono (fun _ h => h) fun r _ _ hr => ?_⟩
  refine ⟨hr.1, hr.2 ?_, row, hcommitted, by simpa using herased, hactive⟩
  exact Option.isSome_iff_exists.mpr ⟨row, hcommitted⟩

theorem provenHolder_own (hclean : Clean i s)
    (hset : op.Setting i s fun r => Covers i s r (holder :: rest) ∧ s.users.holder holder = some i ∧
      s.tables.Active holder)
    (hproof : s.hasSecondFactor i holder = true) : (op.nextHolder rest).Ok careful i s := by
  have hfactor : s.tables.HasFactor holder := hclean.seenBy ▸ hasSecondFactor_iff.mp hproof
  refine nextHolder_own hclean (hset.mono (fun _ h => h) fun r _ _ hr user hheld => ?_)
  rcases hr.1 user hheld with hleft | hready
  · rcases List.mem_cons.mp hleft with rfl | hrest
    · exact .inr ⟨hr.2.1, hr.2.2, hfactor⟩
    · exact .inl hrest
  · exact .inr hready

theorem permissions_key (permissions : List Permission) (row row' : RoleRow)
    (h : some { row with permissions := permissions } = some row') : row'.id = row.id := by
  cases h
  rfl

theorem AdminOp.Writes.roles_changed {k : Uuid} {w : Option RoleRow} (h : op.Writes i s)
    (hc : Pg.Db.Changed i k w s.roles roles)
    (htables : ({ s with roles := roles } : AdminState).tables = s.tables)
    (hw : ∀ row ∈ w, op.MayWriteRole k row) : op.Writes i { s with roles := roles } where
  users k' row hrow := htables ▸ h.users k' row hrow
  known := h.known
  roles k' row hrow := by
    rcases hc.pending_cases hrow with ⟨rfl, hnew⟩ | hold
    · exact hw row hnew
    · exact h.roles k' row hold
  grants := h.grants
  factors k' row hrow := htables ▸ h.factors k' row hrow

/-- `replace_role_permissions`, the `DELETE` and the `INSERT`. -/
theorem replaced_own (hwrites : op.Writes i s)
    (hset : op.Setting i s fun r => Granting i s r op.permissions)
    (hsub : ∀ p ∈ permissions, p ∈ op.permissions)
    (hvisit : s.roles.visit i op.role (fun row => !row.deleted)
      (fun row => some { row with permissions := permissions }) = some (v, roles))
    (htables : ({ s with roles := roles } : AdminState).tables = s.tables) :
    (AdminPc.insertGrants op).Ok careful i { s with roles := roles } := by
  have hmay : ∀ row : RoleRow, (∀ p ∈ row.permissions, p ∈ op.permissions) →
      op.MayWriteRole op.role row := by
    intro row hrow
    cases op with
    | setPermissions => exact ⟨rfl, hrow⟩
    | _ => cases hset
  obtain ⟨w, hc, hw, -⟩ := Pg.Db.visit_changed (permissions_key permissions) hvisit
  refine ⟨hwrites.roles_changed hc htables fun row hrow => hmay row ?_, ?_⟩
  · obtain ⟨old, -, -, ⟨⟩⟩ := hw row hrow
    exact hsub
  · exact hset.mono (fun r hr => (Pg.Db.statement_visit hvisit).locked r hr) fun r _ _ hr =>
      hr.transfer htables fun _ h => h

theorem AdminOp.Setting.asking (h : op.Setting i s fun r => Granting i s r op.permissions) :
    op.Asking i s := by
  cases op with
  | setPermissions => exact h
  | _ => cases h

end SetPermissions

/-! ## `create` -/

section Create

variable {i : Nat} {s : AdminState} {careful : Bool} {op : AdminOp} {roles : Pg.Db RoleRow.id}

theorem not_held_of_unheard {role : Uuid} (h : s.unheard role = true) (u : Uuid) :
    ¬ s.tables.Held u role := by
  rintro ⟨row, hrow, -⟩
  simp only [AdminState.unheard, Bool.and_eq_true, Bool.not_eq_true', List.any_eq_false] at h
  exact h.1 (u, role) (Pg.Db.mem_keys (.inl hrow)) (by simp)

theorem inserted_own {actor role : Uuid} {name : String} {permissions : List Permission}
    (hclean : Clean i s) (hunheard : s.unheard role = true)
    (hinsert : s.roles.insert i ⟨role, name, false, [], false⟩ = some roles)
    (htables : ({ s with roles := roles } : AdminState).tables = s.tables) :
    (AdminPc.grantNew (.create actor role name permissions)).Ok careful i
      { s with roles := roles } := by
  have hc := Pg.Db.changed_insert hinsert
  refine ⟨(hclean.writes (.create actor role name permissions)).roles_changed hc htables ?_,
    Pg.Db.holder_of_pending hc.self, ?_, fun u => htables ▸ not_held_of_unheard hunheard u⟩
  · rintro row ⟨⟩
    exact ⟨rfl, fun p hp => absurd hp List.not_mem_nil⟩
  · show roles.committed role = none
    rw [hc.committed, Pg.Db.committed, (Pg.Db.insert_eq_some hinsert).1]
    rfl

theorem granted_own {v : Pg.Db.Visit RoleRow} (hwrites : op.Writes i s) (hnew : op.Creating i s)
    (hvisit : s.roles.visit i op.role (fun row => !row.deleted)
      (fun row => some { row with permissions := op.permissions }) = some (v, roles))
    (htables : ({ s with roles := roles } : AdminState).tables = s.tables) :
    (AdminPc.commit op).Ok careful i { s with roles := roles } := by
  cases op with
  | create a r n ps =>
    have hst := Pg.Db.statement_visit hvisit
    obtain ⟨w, hc, hw, -⟩ := Pg.Db.visit_changed (permissions_key ps) hvisit
    refine ⟨hwrites.roles_changed hc htables fun row hrow => ?_, hst.locked r hnew.1,
      (hst.quiet.committed_eq r).trans hnew.2.1, fun u => htables ▸ hnew.2.2 u⟩
    obtain ⟨old, -, -, ⟨⟩⟩ := hw row hrow
    exact ⟨rfl, fun _ hp => hp⟩
  | _ => cases hnew

end Create

/-! ## `assign` and `grant_role` -/

section Assign

variable {i : Nat} {s : AdminState} {careful : Bool} {op : AdminOp} {role : Uuid}

theorem AdminOp.Adding.mono {P P' Q Q' : Uuid → Uuid → Prop} (h : op.Adding i s P Q)
    (hP : P op.user op.role → P' op.user op.role) (hQ : Q op.user op.role → Q' op.user op.role) :
    op.Adding i s P' Q' := by
  cases op with
  | assign => exact ⟨h.1, h.2.1, hP h.2.2⟩
  | grantRole => exact ⟨h.1, hQ h.2⟩
  | _ => cases h

theorem plain_own {active : Bool} (hclean : Clean i s)
    (hadd : op.Adding i s (fun u _ => active = true → s.tables.Active u)
      fun u _ => active = true → ¬ s.tables.Pending u)
    (hnone : ¬ (s.permissionsOf i op.role).any isAdminPermission = true) :
    (AdminPc.insert op false).Ok careful i s := by
  rw [grantsAdministration_iff, hclean.seenBy] at hnone
  exact ⟨hclean, hadd.mono (fun _ hadmin => absurd hadmin hnone) fun _ => nofun⟩

theorem proven_own (hclean : Clean i s)
    (hadd : op.Adding i s (fun u _ => s.tables.Active u) fun u _ => ¬ s.tables.Pending u)
    (hproof : s.hasSecondFactor i op.user = true) : (AdminPc.insert op true).Ok careful i s := by
  have hfactor : s.tables.HasFactor op.user := hclean.seenBy ▸ hasSecondFactor_iff.mp hproof
  exact ⟨hclean, hadd.mono (fun hu _ => ⟨hfactor, hu.not_pending⟩) fun hu _ => ⟨hfactor, hu⟩⟩

/-- The row of the command line goes to a role that still grants no
administration, if that is what the check has found. -/
def AdminPc.steady (s : AdminState) : AdminPc → Bool
  | .insert (.grantRole _ role _ _ _) false =>
    !(s.roles.committed role).any (·.permissions.any isAdminPermission)
  | _ => true

theorem not_grantsAdministration
    (h : (!(s.roles.committed role).any (·.permissions.any isAdminPermission)) = true) :
    ¬ s.tables.GrantsAdministration role := by
  rintro ⟨p, hp, row, hrow, hmem⟩
  rw [show s.roles.committed role = some row from hrow] at h
  simp only [Option.any_some, Bool.not_eq_true', List.any_eq_false] at h
  exact h p hmem hp

theorem assigned_own {found : Bool} {userRoles : Pg.Db UserRole.key} (hclean : Clean i s)
    (hadd : op.Adding i s (Fit s)
      fun u _ => found = true → s.tables.HasFactor u ∧ ¬ s.tables.Pending u)
    (hsteady : careful = true → (AdminPc.insert op found).steady s = true)
    (hgrant : s.grantRow i op.user op.role = some userRoles) :
    (AdminPc.commit op).Ok careful i
      { s with userRoles := userRoles, shares := (i, op.role) :: s.shares } := by
  obtain ⟨-, w, hc, hw⟩ := grantRow_spec hgrant
  refine ⟨{ hclean.writes op with
    users := fun k row hrow => nomatch (hclean.users k).symm.trans hrow
    grants := fun k row hrow => ?_
    factors := fun k row hrow => nomatch (hclean.factors k).symm.trans hrow }, ?_⟩
  · rcases hc.pending_cases hrow with ⟨rfl, hnew⟩ | hold
    · cases op with
      | assign | grantRole => exact ⟨rfl, hw row hnew⟩
      | _ => cases hadd
    · exact nomatch (hclean.grants k).symm.trans hold
  · cases op with
    | assign => exact hadd
    | grantRole =>
      refine ⟨hadd.1, List.mem_cons_self, fun hcareful hadmin => ?_⟩
      cases found with
      | true => exact hadd.2 rfl
      | false => exact absurd hadmin (not_grantsAdministration (hsteady hcareful))
    | _ => cases hadd

end Assign

/-! ## Locks that are shared -/

section Shares

variable {i : Nat} {inp : AdminInput} {s s' : AdminState} {careful : Bool} {pc pc' : AdminPc}
  {roles : Pg.Db RoleRow.id} {r : Uuid}

/-- A statement that takes the lock of a role waits for those that share it. -/
theorem SharesOk.roles_changed (hs : SharesOk s) (hquiet : Pg.Db.Quiet i s.roles roles)
    (hnew : ∀ r, roles.holder r = some i → s.roles.holder r = some i ∨
      ∀ share ∈ s.shares, share.2 = r → share.1 = i) : SharesOk { s with roles := roles } := by
  intro j r hmem k hk
  by_cases hki : k = i
  · subst hki
    rcases hnew r hk with hheld | hfree
    · exact hs j r hmem k hheld
    · exact (hfree (j, r) hmem rfl).symm
  · exact hs j r hmem k ((hquiet r).grants k hki hk)

theorem SharesOk.role_visit {p : RoleRow → Bool} {f : RoleRow → Option RoleRow}
    {v : Pg.Db.Visit RoleRow} (hs : SharesOk s) (hkey : ∀ row row', f row = some row' →
      row'.id = row.id) (hlock : s.roles.holder r = some i)
    (hvisit : s.roles.visit i r p f = some (v, roles)) : SharesOk { s with roles := roles } := by
  refine hs.roles_changed (Pg.Db.quiet_visit hvisit) fun r' hr' => .inl ?_
  by_cases hne : r' = r
  · exact hne ▸ hlock
  · rwa [Pg.Db.holder, Pg.Db.visit_of_ne hkey hvisit hne] at hr'

theorem AdminOp.Creating.locked {op : AdminOp} (h : op.Creating i s) :
    s.roles.holder op.role = some i := by
  cases op with
  | create => exact h.1
  | _ => cases h

theorem deleted_key (row row' : RoleRow)
    (h : some { row with permissions := [], deleted := true } = some row') :
    row'.id = row.id := by
  cases h
  rfl

theorem AdminStepped.shares (h : AdminStepped i inp s pc s' pc') (hs : SharesOk s)
    (hown : pc.Ok careful i s) : SharesOk s' := by
  cases h with
  | left =>
    intro j r hmem k hk
    refine hs j r (List.mem_filter.mp hmem).1 k ((AdminQuiet.rollback.roles r).grants k ?_ hk)
    rintro rfl
    exact Pg.Slot.rollback_holder _ _ hk
  | @lockedRole op _ _ _ hshared hselect =>
    refine hs.roles_changed (Pg.Db.quiet_selectForUpdate hselect) fun r hr => ?_
    by_cases hne : r = op.role
    · subst hne
      refine .inr fun share hmem hrole => ?_
      by_contra hne
      exact hshared (List.any_eq_true.mpr ⟨share, hmem, by simp [hne, hrole]⟩)
    · rw [Pg.Db.holder, Pg.Db.selectForUpdate_of_ne hselect hne] at hr
      exact .inl hr
  | @inserted _ role _ _ _ hunheard hinsert =>
    refine hs.roles_changed (Pg.Db.quiet_insert hinsert) fun r hr => ?_
    by_cases hne : r = role
    · subst hne
      refine .inr fun share hmem hrole => ?_
      simp only [AdminState.unheard, Bool.and_eq_true, Bool.not_eq_true', List.any_eq_false]
        at hunheard
      exact absurd (by simpa using hrole) (hunheard.2 share hmem)
    · rw [Pg.Db.holder, (Pg.Db.insert_eq_some hinsert).2.2 r hne] at hr
      exact .inl hr
  | granted hvisit => exact hs.role_visit (permissions_key _) hown.2.locked hvisit
  | cleared hvisit | replaced hvisit =>
    exact hs.role_visit (permissions_key _) hown.2.locked.1 hvisit
  | deletedRole hvisit =>
    obtain ⟨-, hlock, _, _, rfl⟩ := hown
    exact hs.role_visit deleted_key hlock hvisit
  | assigned hfree _ =>
    intro j r hmem k hk
    rcases List.mem_cons.mp hmem with hnew | hold
    · cases hnew
      rcases Pg.Slot.free_iff.mp hfree with hnone | hheld
      · cases hnone.symm.trans hk
      · exact Option.some.inj (hk.symm.trans hheld)
    · exact hs j r hold k hk
  | _ => exact hs

end Shares

end AuthApi
