import AuthApi.AdministrationRemovals

/-!
# The administration keeps what its locks protect

The end of the transactions: `keep_an_administrator`, which looks for an
account that manages roles (`guarded_of_check`), and the commit, where what
the transaction has written and found out is turned into what the others
rely on (`adminGuar_commit`). With what the other steps find out
(`AdminStepped.own`) this gives the invariant of a whole run
(`adminHolds_run`).
-/

namespace AuthApi

open Conc

/-! ## `keep_an_administrator` -/

section Check

variable {i : Nat} {s : AdminState} {op : AdminOp} {u r : Uuid}

theorem AdminOp.Asking.grant_revoked (h : op.Asking i s) {key : Uuid × Uuid} {row : UserRole}
    (hmay : op.MayWriteGrant key row) : row.held = false := by
  cases op with
  | delete | unassign | eraseAccount => exact hmay.2
  | setPermissions | suspend => cases hmay
  | _ => cases h

theorem AdminOp.Asking.user_retired (h : op.Asking i s) {row : UserRow}
    (hmay : op.MayWriteUser s.tables u row) : row.status = .suspended ∨ row.erased = true := by
  cases op with
  | suspend => exact .inl hmay.2
  | eraseAccount => exact .inr hmay.2
  | setPermissions | delete | unassign => cases hmay
  | _ => cases h

section

variable (hwrites : op.Writes i s) (hask : op.Asking i s)
include hwrites hask

theorem held_seen (h : (s.seenBy i).Held u r) :
    s.tables.Held u r ∧ s.userRoles.pending i (u, r) = none := by
  obtain ⟨row, hrow, hheld⟩ := h
  rcases Pg.Db.view_cases hrow with hnew | ⟨hpending, hold⟩
  · rw [hask.grant_revoked (hwrites.grants _ row hnew)] at hheld
    cases hheld
  · exact ⟨⟨row, hold, hheld⟩, hpending⟩

theorem active_seen (h : (s.seenBy i).Active u) :
    s.tables.Active u ∧ s.users.pending i u = none := by
  obtain ⟨row, hrow, herased, hactive⟩ := h
  rcases Pg.Db.view_cases hrow with hnew | ⟨hpending, hold⟩
  · rcases hask.user_retired (hwrites.users u row hnew) with hsuspended | hgone
    · rw [hactive] at hsuspended
      cases hsuspended
    · rw [herased] at hgone
      cases hgone
  · exact ⟨⟨row, hold, herased, hactive⟩, hpending⟩

/-- A permission that only this transaction gives to the role goes to
accounts it has locked. -/
theorem grants_safe (hheld : s.tables.Held u r) (h : (s.seenBy i).Grants r rolesManage) :
    s.tables.Grants r rolesManage ∨ s.users.holder u = some i := by
  obtain ⟨row, hrow, hp⟩ := h
  rcases Pg.Db.view_cases hrow with hnew | ⟨-, hold⟩
  · have hmay := hwrites.roles r row hnew
    cases op with
    | setPermissions =>
      obtain ⟨rfl, hsub⟩ := hmay
      rcases hask.2 with hkeeps | hcovers
      · exact .inl (hkeeps _ (hsub _ hp) isAdmin_rolesManage)
      · exact .inr ((hcovers u hheld).resolve_left List.not_mem_nil).locked
    | delete =>
      rw [hmay.2] at hp
      cases hp
    | create => cases hask
    | _ => cases hmay
  · exact .inl ⟨row, hold, hp⟩

theorem guarded_of_check (hguard : s.guard = some i) (h : s.permissionHeld i rolesManage = true) :
    GuardPassed i s := by
  obtain ⟨user, hactive, role, hheld, hgrants⟩ := managed_iff.mp h
  obtain ⟨hactive, hunchanged⟩ := active_seen hwrites hask hactive
  obtain ⟨hheld, hkept⟩ := held_seen hwrites hask hheld
  exact ⟨hguard, user, role, hheld, hkept, hactive, hunchanged, hgrants,
    grants_safe hwrites hask hheld hgrants⟩

end

theorem settling_of_guarded {careful : Bool} (hask : op.Asking i s) (h : GuardPassed i s) :
    op.Settling i s careful := by
  cases op with
  | setPermissions => exact ⟨hask.1, hask.2, h⟩
  | delete | unassign => exact h
  | suspend => exact ⟨hask, .inl h⟩
  | eraseAccount => exact ⟨hask.1, hask.2, .inl h⟩
  | _ => cases hask

end Check

/-! ## The commit -/

section Commit

variable {i : Nat} {s : AdminState} {op : AdminOp} {careful : Bool} {u r : Uuid} {p : Permission}

theorem AdminOp.Writes.held (hwrites : op.Writes i s) (h : (s.seenBy i).Held u r) :
    s.tables.Held u r ∨ (∃ actor, op = .assign actor u r) ∨
      ∃ active email name, op = .grantRole u r active email name := by
  obtain ⟨row, hrow, hheld⟩ := h
  rcases Pg.Db.view_cases hrow with hnew | ⟨-, hold⟩
  · have hmay := hwrites.grants _ row hnew
    cases op with
    | assign =>
      obtain ⟨⟨⟩, -⟩ := hmay
      exact .inr (.inl ⟨_, rfl⟩)
    | grantRole =>
      obtain ⟨⟨⟩, -⟩ := hmay
      exact .inr (.inr ⟨_, _, _, rfl⟩)
    | delete | unassign | eraseAccount =>
      rw [hmay.2] at hheld
      cases hheld
    | _ => cases hmay
  · exact .inl ⟨row, hold, hheld⟩

section

variable (hwrites : op.Writes i s) (hset : op.Settling i s careful)
include hwrites hset

theorem commit_gainsRole (h : (s.seenBy i).Held u r) : s.tables.Held u r ∨
      s.users.holder u = some i ∧ (s.roles.holder r = some i ∨ (i, r) ∈ s.shares) := by
  rcases hwrites.held h with hbefore | ⟨_, rfl⟩ | ⟨_, _, _, rfl⟩
  · exact .inl hbefore
  · exact .inr ⟨hset.1, .inl hset.2.1⟩
  · exact .inr ⟨hset.1, .inr hset.2.1⟩

theorem commit_gainsPermission (hadmin : isAdminPermission p = true) (h : (s.seenBy i).Grants r p) :
    s.tables.Grants r p ∨ ∀ u, s.tables.Held u r → ReadyHolder i s u := by
  obtain ⟨row, hrow, hp⟩ := h
  rcases Pg.Db.view_cases hrow with hnew | ⟨-, hold⟩
  · have hmay := hwrites.roles r row hnew
    cases op with
    | setPermissions =>
      obtain ⟨rfl, hsub⟩ := hmay
      rcases hset.2.1 with hkeeps | hcovers
      · exact .inl (hkeeps p (hsub p hp) hadmin)
      · exact .inr fun u hheld => (hcovers u hheld).resolve_left List.not_mem_nil
    | delete =>
      rw [hmay.2] at hp
      cases hp
    | create =>
      obtain ⟨rfl, -⟩ := hmay
      exact .inr fun u hheld => absurd hheld (hset.2.2 u)
    | _ => cases hmay
  · exact .inl ⟨row, hold, hp⟩

theorem commit_losesRole (h : s.tables.Held u r) : (s.seenBy i).Held u r ∨ GuardPassed i s ∨
      s.users.holder u = some i ∧ ¬ s.tables.Has u rolesManage := by
  obtain ⟨row, hrow, hheld⟩ := h
  rcases Pg.Db.committed_cases i hrow with ⟨row', hnew⟩ | hkept
  · have hmay := hwrites.grants _ row' hnew
    cases op with
    | assign | grantRole =>
      exact .inl ⟨row', Pg.Db.view_of_written hnew, hmay.2⟩
    | delete | unassign => exact .inr (.inl hset)
    | eraseAccount =>
      obtain ⟨rfl, -⟩ := hmay
      exact .inr (hset.2.2.imp_right fun hnot => ⟨hset.1, hnot⟩)
    | _ => cases hmay
  · exact .inl ⟨row, hkept, hheld⟩

theorem commit_losesStatus (h : s.tables.Active u) : (s.seenBy i).Active u ∨ GuardPassed i s ∨
      s.users.holder u = some i ∧ ¬ s.tables.Has u rolesManage := by
  obtain ⟨row, hrow, hactive⟩ := h
  rcases Pg.Db.committed_cases i hrow with ⟨row', hnew⟩ | hkept
  · have hmay := hwrites.users _ row' hnew
    cases op with
    | suspend =>
      obtain ⟨rfl, -⟩ := hmay
      exact .inr (hset.2.imp_right fun hnot => ⟨hset.1, hnot⟩)
    | eraseAccount =>
      obtain ⟨rfl, -⟩ := hmay
      exact .inr (hset.2.2.imp_right fun hnot => ⟨hset.1, hnot⟩)
    | resetPassword =>
      exact .inl ⟨row', Pg.Db.view_of_written hnew, hmay.2.2.1, hmay.2.1⟩
    | _ => cases hmay
  · exact .inl ⟨row, hkept, hactive⟩

theorem commit_losesPermission (h : s.tables.Grants r p) :
    (s.seenBy i).Grants r p ∨ GuardPassed i s := by
  obtain ⟨row, hrow, hp⟩ := h
  rcases Pg.Db.committed_cases i hrow with ⟨row', hnew⟩ | hkept
  · have hmay := hwrites.roles _ row' hnew
    cases op with
    | setPermissions => exact .inr hset.2.2
    | delete => exact .inr hset
    | create =>
      obtain ⟨rfl, -⟩ := hmay
      cases hset.2.1.symm.trans hrow
    | _ => cases hmay
  · exact .inl ⟨row, hkept, hp⟩

end

theorem commit_gainsFactor (hwrites : op.Writes i s) (h : (s.seenBy i).HasFactor u) :
    s.tables.HasFactor u := by
  obtain ⟨k, f, hf, huser, husable⟩ := h
  exact ⟨k, f, (hwrites.factor_seen hf (usable_there husable)).2, huser, husable⟩

theorem commit_losesFactor {k : Uuid} {f : FactorRow} (hwrites : op.Writes i s)
    (hset : op.Settling i s careful) (h : s.tables.factors k = some f) :
    (s.seenBy i).factors k = some f ∨ s.users.holder f.userId = some i := by
  rcases Pg.Db.committed_cases i h with ⟨row', hnew⟩ | hkept
  · right
    have hmay := hwrites.factors k row' hnew
    cases op with
    | eraseAccount | removeFactor | resetPassword =>
      obtain ⟨-, f', hf', rfl⟩ := hmay
      cases h.symm.trans hf'
      exact hset.1
    | _ => cases hmay
  · exact .inl hkept

theorem commit_awaits (hwrites : op.Writes i s) (h : (s.seenBy i).Pending u) :
    s.tables.Pending u := by
  obtain ⟨row, hrow, herased, hstatus⟩ := h
  rcases Pg.Db.view_cases hrow with hnew | ⟨-, hold⟩
  · have hmay := hwrites.users u row hnew
    cases op with
    | suspend =>
      rw [hmay.2] at hstatus
      cases hstatus
    | eraseAccount =>
      rw [hmay.2] at herased
      cases herased
    | resetPassword => exact hmay.2.2.2
    | _ => cases hmay
  · exact ⟨row, hold, herased, hstatus⟩

theorem adminGuar_commit (hwrites : op.Writes i s) (hset : op.Settling i s careful) :
    AdminGuar i s (s.commit i) where
  users := Pg.Db.guar_commit
  roles := Pg.Db.guar_commit
  userRoles := Pg.Db.guar_commit
  factors := Pg.Db.guar_commit
  guard j hne hj := by
    show (if s.guard = some i then none else s.guard) = some j
    rw [hj, if_neg fun h => hne (Option.some.inj h)]
  shares j r hne hmem := List.mem_filter.mpr ⟨hmem, by simpa using hne⟩
  knownUser u hu := by
    show ((s.users.commit i).committed u).isSome
    rw [Pg.Db.commit_view]
    exact Pg.Db.view_isSome_of_committed i hu
  oldUser u hu := by
    change ((s.users.commit i).committed u).isSome at hu
    rw [Pg.Db.commit_view] at hu
    obtain ⟨row, hrow⟩ := Option.isSome_iff_exists.mp hu
    exact hwrites.user_known hrow
  knownRole r hr := by
    show ((s.roles.commit i).committed r).isSome
    rw [Pg.Db.commit_view]
    exact Pg.Db.view_isSome_of_committed i hr
  gainsRole u r h := commit_gainsRole hwrites hset (AdminState.tables_commit s i ▸ h)
  gainsPermission r p hadmin h :=
    (commit_gainsPermission hwrites hset hadmin (AdminState.tables_commit s i ▸ h)).imp_right
      fun hready u hheld => (hready u hheld).locked
  losesRole u r h := by
    rw [AdminState.tables_commit]
    exact (commit_losesRole hwrites hset h).imp_right (.imp_left GuardPassed.guard)
  losesStatus u h := by
    rw [AdminState.tables_commit]
    exact (commit_losesStatus hwrites hset h).imp_right (.imp_left GuardPassed.guard)
  losesPermission r p h := by
    rw [AdminState.tables_commit]
    exact (commit_losesPermission hwrites hset h).imp_right GuardPassed.guard
  gainsFactor u h := commit_gainsFactor hwrites (AdminState.tables_commit s i ▸ h)
  losesFactor k f h := by
    rw [AdminState.tables_commit]
    exact commit_losesFactor hwrites hset h
  pending u h := commit_awaits hwrites (AdminState.tables_commit s i ▸ h)

theorem commit_keeps (hs : SharesOk s) (hwrites : op.Writes i s)
    (hset : op.Settling i s careful) :
    AdminKeeps careful i s (s.commit i) (.done (.ok ())) := by
  refine ⟨fun j r hmem k hk => ?_, ?_, adminGuar_commit hwrites hset,
    .op op hwrites hset (AdminState.tables_commit s i)⟩
  · have hki : k ≠ i := by
      rintro rfl
      exact Pg.Slot.commit_holder _ _ hk
    exact hs j r (List.mem_filter.mp hmem).1 k (Pg.Db.guar_commit.grants r k hki hk)
  · constructor <;> intro k <;> simp [AdminState.commit, Pg.Db.commit_pending]

end Commit

/-! ## The program -/

section Program

variable {i : Nat} {inp : AdminInput} {s s' : AdminState} {careful : Bool} {pc pc' : AdminPc}

theorem AdminOp.Asking.guard_taken {op : AdminOp} {guard : Option Nat} (h : op.Asking i s) :
    op.Asking i { s with guard := guard } := by
  cases op with
  | setPermissions => exact ⟨h.1, h.2.transfer rfl fun _ h => h⟩
  | delete | unassign => trivial
  | suspend | eraseAccount => exact h
  | _ => cases h

/-- The transaction has found out what its next program point asks for. -/
theorem AdminStepped.own (h : AdminStepped i inp s pc s' pc') (hown : pc.Ok careful i s)
    (hsteady : careful = true → pc.steady s = true) : pc'.Ok careful i s' := by
  have htables := h.quiet.tables_eq
  cases h with
  | refused => exact hown
  | noAccount | noRole => exact hown.1
  | left => exact clean_rollback
  | creates => exact ⟨hown, _, _, _, _, rfl⟩
  | sets hrole | deletes hrole | unassigns hrole => exact ⟨hown, findRole_isSome hrole⟩
  | assigns hrole => exact ⟨hown, findRole_isSome hrole, _, _, _, rfl⟩
  | suspends => exact ⟨hown, _, rfl⟩
  | erases huser | disables huser | unregisters huser | resets huser =>
    exact ⟨hown, findUser_isSome huser⟩
  | finds hrow => exact grantee_own hown hrow
  | account huser =>
    obtain ⟨hclean, hrole, _, _, _, rfl⟩ := hown
    exact ⟨hclean, findUser_isSome huser, hrole⟩
  | grantee | authorizedNew | holdsNew | holds | mustKeep | drops => exact hown
  | lockedUser hselect => exact withUser_own hown.1 hown.2 hselect htables
  | readUser hrow herased => exact readUser_own hown.1 hown.2 hrow herased
  | lockedRole _ hselect => exact lockedRole_own hown.1 hown.2 hselect
  | readGrants =>
    exact ⟨hown.1, hown.2, fun p hp => hown.1.seenBy ▸ mem_permissionsOf.mp hp⟩
  | authorized => exact authorized_own hown.1 hown.2.1 hown.2.2
  | inserted hunheard hinsert => exact inserted_own hown.1 hunheard hinsert htables
  | granted hvisit => exact granted_own hown.1 hown.2 hvisit htables
  | holders => exact holders_own hown.1 hown.2
  | nothingNew hnone => exact nothingNew_own hown.1 hown.2 hnone
  | lockedHolder hselect => exact lockedHolder_own hown.1 hown.2 hselect htables
  | readHolder hrow herased hactive => exact readHolder_own hown.1 hown.2 hrow herased hactive
  | provenHolder hproof => exact provenHolder_own hown.1 hown.2 hproof
  | cleared hvisit =>
    exact replaced_own hown.1 hown.2 (fun _ hp => absurd hp List.not_mem_nil) hvisit htables
  | @replaced op _ roles hvisit =>
    have hnext : (AdminPc.insertGrants op).Ok careful i { s with roles := roles } :=
      replaced_own hown.1 hown.2 (fun _ hp => hp) hvisit htables
    exact ⟨hnext.1, hnext.2.asking⟩
  | administers hactive =>
    exact ⟨hown.1, hown.2.mono (fun hu => hu hactive) fun hu => hu hactive⟩
  | plain hnone => exact plain_own hown.1 hown.2 hnone
  | proven hproof => exact proven_own hown.1 hown.2 hproof
  | assigned _ hgrant => exact assigned_own hown.1 hown.2 hsteady hgrant
  | deletedRole hvisit =>
    obtain ⟨hclean, -, _, _, rfl⟩ := hown
    exact deletedRole_own hclean hvisit htables
  | unassigned hvisit =>
    obtain ⟨hclean, _, _, _, rfl⟩ := hown
    exact unassigned_own hclean hvisit htables
  | suspended hvisit =>
    obtain ⟨hclean, _, rfl⟩ := hown
    exact suspended_own hclean hvisit htables
  | managesErased => exact managesErased_own hown.1 hown.2
  | manages hop => exact manages_own hop hown.1 hown.2
  | erased hvisit =>
    obtain ⟨hwrites, hdraw, _, rfl⟩ := hown
    exact erased_own hwrites hdraw hvisit htables
  | cascades => exact cascades_own hown.1 hown.2
  | revoked hvisit => exact revoked_own hown.1 hown.2 hvisit htables
  | cascadedErased => exact ⟨hown.1, hown.2.1, hown.2.2.1, hown.2.2.2 [] rfl⟩
  | cascaded hop => exact cascaded_own hop hown.1 hown.2
  | removed hvisit => exact removed_own hown.1 hown.2 hvisit htables
  | mayRemove hnone => exact mayRemove_own hown.1 hown.2 hnone
  | kept hproof => exact kept_own hown.1 hown.2 hproof
  | administrator => exact administrator_own hown.1 hown.2
  | keepsNone hnone => exact keeper_own hown.1 hown.2 fun hadmin => .inl ⟨hnone hadmin, rfl⟩
  | keepsOne hmem => exact keeper_own hown.1 hown.2 fun _ => .inr ⟨_, hmem, rfl⟩
  | dropping hvisit => exact dropping_own hown.1 hown.2 hvisit htables
  | dropped => exact next_own hown.1 hown.2
  | verified hvisit => exact (verified_own hown.1 hown.2 hvisit htables).2 _ rfl
  | notPending hvisit => exact (verified_own hown.1 hown.2 hvisit htables).1
  | guarded =>
    exact ⟨⟨hown.1.users, hown.1.known, hown.1.roles, hown.1.grants, hown.1.factors⟩,
      hown.2.guard_taken, rfl⟩
  | checked hheld =>
    exact ⟨hown.1, settling_of_guarded hown.2.1 (guarded_of_check hown.1 hown.2.1 hown.2.2 hheld)⟩

theorem Clean.of_outside (h : pc.Ok careful i s) (hpc : pc.running = false) : Clean i s := by
  cases pc with
  | idle | done => exact h
  | _ => cases hpc

section

variable (hs : SharesOk s) (hown : pc.Ok careful i s)
  (hsteady : careful = true → pc.steady s = true)
include hs hown hsteady

theorem adminStep_keeps (h : adminStep i inp s pc = some (s', pc')) :
    AdminKeeps careful i s s' pc' := by
  rcases adminStepped h with hstep | ⟨op, rfl, rfl, rfl⟩
  · exact hstep.quiet.keeps (hstep.shares hs hown) (hstep.own hown hsteady)
  · exact commit_keeps hs hown.1 hown.2

theorem adminProgram_keeps {a : AdminAct} (h : adminProgram i a s pc = some (s', pc')) :
    AdminKeeps careful i s s' pc' := by
  cases a with
  | start request =>
    simp only [adminProgram] at h
    split at h <;> cases h
    rename_i hrunning
    exact AdminQuiet.refl.keeps hs (Clean.of_outside hown (by simpa using hrunning))
  | go => exact adminStep_keeps hs hown hsteady h
  | fail =>
    simp only [adminProgram] at h
    split at h <;> cases h
    have hstep : AdminStepped i {} s pc (s.rollback i) (.done (.error (.app .internal))) := .left
    exact hstep.quiet.keeps (hstep.shares hs hown) clean_rollback

end

end Program

/-! ## Runs -/

/-- No request is being handled, and no lock is held. -/
structure AdminConf.AtRest (c : AdminConf) : Prop where
  idle : ∀ i, c.procs i = .idle
  users : ∀ k, c.shared.users.holder k = none
  roles : ∀ k, c.shared.roles.holder k = none
  userRoles : ∀ k, c.shared.userRoles.holder k = none
  factors : ∀ k, c.shared.factors.holder k = none
  guard : c.shared.guard = none
  shares : c.shared.shares = []

def adminInitial (users : List UserRow) (roles : List RoleRow) (userRoles : List UserRole)
    (factors : List FactorRow) : AdminConf :=
  ⟨⟨.load users, .load roles, .load userRoles, .load factors, none, []⟩, fun _ => .idle⟩

theorem adminInitial_atRest {users : List UserRow} {roles : List RoleRow}
    {userRoles : List UserRole} {factors : List FactorRow} :
    (adminInitial users roles userRoles factors).AtRest :=
  ⟨fun _ => rfl, Pg.Db.load_holder users, Pg.Db.load_holder roles, Pg.Db.load_holder userRoles,
    Pg.Db.load_holder factors, rfl, rfl⟩

abbrev AdminHolds (careful : Bool) : AdminConf → Prop :=
  Holds SharesOk fun i s pc => pc.Ok careful i s

variable {c : AdminConf} {careful : Bool} {i : Nat}

theorem AdminConf.AtRest.holds (h : c.AtRest) (careful : Bool) : AdminHolds careful c := by
  have hnone : ∀ {κ ρ : Type} {key : ρ → κ} (db : Pg.Db key) (i : Nat),
      (∀ k, db.holder k = none) → ∀ k, db.pending i k = none := by
    intro κ ρ key db i hfree k
    refine Pg.Db.pending_of_holder fun hk => ?_
    exact nomatch (hfree k).symm.trans hk
  refine ⟨fun j r hmem => ?_, fun i => ?_⟩
  · rw [h.shares] at hmem
    cases hmem
  · rw [h.idle i]
    exact ⟨hnone _ i h.users, hnone _ i h.roles, hnone _ i h.userRoles, hnone _ i h.factors⟩

theorem AdminHolds.seenBy (h : AdminHolds careful c) (hidle : c.procs i = .idle) :
    c.shared.seenBy i = c.shared.tables := by
  have hclean := h.procs i
  rw [hidle] at hclean
  exact Clean.seenBy hclean

/-- A step that keeps to the condition if it is asked for. -/
def SteadyIf (careful : Bool) (c : AdminConf) (i : Nat) (_ : AdminAct) : Prop :=
  careful = true → (c.procs i).steady c.shared = true

theorem adminHolds_step {a : AdminAct} {s : AdminState} {pc : AdminPc} (h : AdminHolds careful c)
    (hok : SteadyIf careful c i a) (hprog : adminProgram i a c.shared (c.procs i) = some (s, pc)) :
    AdminHolds careful (c.set i s pc) := by
  have hkeeps := adminProgram_keeps h.shared (h.procs i) hok hprog
  exact .set hkeeps.shared hkeeps.own fun j hji => (h.procs j).stable hkeeps.guar hji h.shared

theorem adminHolds_run {c' : AdminConf} (hrest : c.AtRest) (hrun : Steps adminProgram Free c c') :
    AdminHolds false c' :=
  hrun.invariant (fun _ _ a _ _ hc _ hprog =>
    adminHolds_step (a := a) hc (fun hcareful => nomatch hcareful) hprog) (hrest.holds false)

end AuthApi
