import AuthApi.AdministrationInvariant

/-!
# Administrators and their second factors

Every operation that gives an administrative permission has seen a
second factor of the accounts that receive it, under their locks, and
every one that takes a factor away keeps one of an administrator's
(`administrators_keep_factor`).

Two things are not covered by the locks. The command line looks at what
the role grants before it locks anything of it: `set_permissions` may come
in between (`AdminPc.steady`). And a reset that takes back an account that
was never verified drops all its factors, administrator or not: so the
invariant also says that no administrator is pending (`Verified`).
-/

namespace AuthApi

open Conc

namespace AdminTables

variable (t : AdminTables)

/-- Every account with an administrative permission has a second factor. -/
def Factored : Prop := ∀ user, t.Administers user → t.HasFactor user

/-- No account with an administrative permission is pending verification. -/
def Verified : Prop := ∀ user, t.Administers user → ¬ t.Pending user

end AdminTables

section Commit

variable {i : Nat} {s s' : AdminState} {op : AdminOp} {u r : Uuid} {p : Permission}

/-- An account that gets a role is fit for it, and the role stays as it is. -/
theorem commit_fit (hwrites : op.Writes i s) (hset : op.Settling i s true)
    (hheld : (s.seenBy i).Held u r) (hgrants : (s.seenBy i).Grants r p) :
    s.tables.Held u r ∨ Fit s u r ∧ s.tables.Grants r p := by
  have hsame : op.MayWriteRole r = (fun _ => False) → s.tables.Grants r p := by
    intro hno
    obtain ⟨role, hrole, hp⟩ := hgrants
    have hunwritten := hwrites.no_role (k := r) fun row h => by rwa [hno] at h
    exact ⟨role, (Pg.Db.view_of_unwritten hunwritten).symm.trans hrole, hp⟩
  rcases hwrites.held hheld with hbefore | ⟨_, rfl⟩ | ⟨_, _, _, rfl⟩
  · exact .inl hbefore
  · exact .inr ⟨hset.2.2, hsame rfl⟩
  · exact .inr ⟨hset.2.2 rfl, hsame rfl⟩

theorem commit_administers (hwrites : op.Writes i s) (hset : op.Settling i s true)
    (hfactored : s.tables.Factored) (hverified : s.tables.Verified)
    (h : (s.seenBy i).Administers u) : s.tables.HasFactor u ∧ ¬ s.tables.Pending u := by
  obtain ⟨p, hp, r, hheld, hgrants⟩ := h
  rcases commit_fit hwrites hset hheld hgrants with hbefore | ⟨hfit, hgrants⟩
  · rcases commit_gainsPermission hwrites hset hp hgrants with hgrants | hready
    · have hadmin : s.tables.Administers u := ⟨p, hp, r, hbefore, hgrants⟩
      exact ⟨hfactored u hadmin, hverified u hadmin⟩
    · exact ⟨(hready u hbefore).factor, (hready u hbefore).active.not_pending⟩
  · exact hfit ⟨p, hp, hgrants⟩

theorem commit_hasFactor (hwrites : op.Writes i s) (h : s.tables.HasFactor u)
    (hother : ∀ k row, op.MayWriteFactor s.tables k row → op.user ≠ u) :
    (s.seenBy i).HasFactor u := by
  obtain ⟨k, f, hf, rfl, husable⟩ := h
  refine ⟨k, f, ?_, rfl, husable⟩
  rcases Pg.Db.committed_cases i hf with ⟨row, hnew⟩ | hkept
  · have hmay := hwrites.factors k row hnew
    have hne := hother k row hmay
    cases op with
    | eraseAccount | removeFactor | resetPassword =>
      obtain ⟨-, f', hf', huser⟩ := hmay
      cases hf.symm.trans hf'
      exact absurd huser.symm hne
    | _ => cases hmay
  · exact hkept

theorem spares_hasFactor {q : FactorRow → Prop} (h : Spares i s u q)
    (hadmin : s.tables.Administers u) (hfactor : s.tables.HasFactor u) :
    (s.seenBy i).HasFactor u := by
  obtain ⟨k, f, hf, hpending, huser, husable, -⟩ := h hadmin hfactor
  exact ⟨k, f, (Pg.Db.view_of_unwritten hpending).trans hf, huser, husable⟩

theorem commit_keepsFactor {careful : Bool} (hwrites : op.Writes i s)
    (hset : op.Settling i s careful) (hadmin : (s.seenBy i).Administers u)
    (hfactor : s.tables.HasFactor u) (hpending : ¬ s.tables.Pending u) :
    (s.seenBy i).HasFactor u := by
  by_cases huser : op.user = u
  swap
  · exact commit_hasFactor hwrites hfactor fun _ _ _ => huser
  subst huser
  obtain ⟨p, hp, hhas⟩ := hadmin
  have hsame : (∀ k row, ¬ op.MayWriteRole k row) → (∀ k row, ¬ op.MayWriteGrant k row) →
      s.tables.Administers op.user := fun hroles hgrants =>
    ⟨p, hp, (seenBy_has (fun k => hwrites.no_role (hroles k))
      fun k => hwrites.no_grant (hgrants k)).mp hhas⟩
  cases op with
  | removeFactor | resetPassword =>
    rcases hset.2 with hp' | hspares
    · exact absurd hp' hpending
    · exact spares_hasFactor hspares (hsame (fun _ _ h => h) fun _ _ h => h) hfactor
  | eraseAccount =>
    -- The account has lost its roles.
    obtain ⟨r, ⟨row, hrow, hheld⟩, -⟩ := hhas
    rcases Pg.Db.view_cases hrow with hnew | ⟨-, hold⟩
    · rw [(hwrites.grants _ row hnew).2] at hheld
      cases hheld
    · obtain ⟨row', hnew, hrevoked⟩ :=
        (hset.2.1 r ⟨row, hold, hheld⟩).resolve_left List.not_mem_nil
      cases (Pg.Db.view_of_written hnew).symm.trans hrow
      rw [hrevoked] at hheld
      cases hheld
  | _ => exact commit_hasFactor hwrites hfactor fun _ _ h => nomatch h

theorem factored_step (hfactored : s.tables.Factored) (hverified : s.tables.Verified)
    (hc : AdminCommits true i s s') : s'.tables.Factored ∧ s'.tables.Verified := by
  cases hc with
  | nothing hsame => exact hsame ▸ ⟨hfactored, hverified⟩
  | op op hwrites hset hseen =>
    rw [hseen]
    have hbefore := fun u => commit_administers (u := u) hwrites hset hfactored hverified
    refine ⟨fun u hadmin => ?_, fun u hadmin hp => ?_⟩
    · exact commit_keepsFactor hwrites hset hadmin (hbefore u hadmin).1 (hbefore u hadmin).2
    · exact (hbefore u hadmin).2 (commit_awaits hwrites hp)

end Commit

/-- A step keeps to the condition that the command line gives no role that
has become administrative since it was looked at. -/
def SteadyGrant (c : AdminConf) (i : Nat) (_ : AdminAct) : Prop :=
  (c.procs i).steady c.shared = true

/-- **Every administrator keeps a second factor**, in every run in which
no role becomes administrative between the check of the command line and
its row, from a state in which no administrator is pending verification. -/
theorem administrators_keep_factor {c c' : AdminConf} (hrest : c.AtRest)
    (hfactored : c.shared.tables.Factored) (hverified : c.shared.tables.Verified)
    (hrun : Steps adminProgram SteadyGrant c c') : c'.shared.tables.Factored := by
  have hrun' : Steps adminProgram (SteadyIf true) c c' := hrun.mono fun _ _ _ hok _ => hok
  suffices hinv : AdminHolds true c' ∧ c'.shared.tables.Factored ∧ c'.shared.tables.Verified from
    hinv.2.1
  refine hrun'.invariant (I := fun c => AdminHolds true c ∧
      c.shared.tables.Factored ∧ c.shared.tables.Verified)
    (fun c i a s pc hc hok hprog => ?_) ⟨hrest.holds true, hfactored, hverified⟩
  have hkeeps := adminProgram_keeps hc.1.shared (hc.1.procs i) hok hprog
  exact ⟨adminHolds_step hc.1 hok hprog, factored_step hc.2.1 hc.2.2 hkeeps.commits⟩

/-! ## Runs -/

/-- `Factored`, read off the rows transaction `i` sees. -/
def AdminState.factored (s : AdminState) (i : Nat) : Bool :=
  (s.userRoles.viewed i).all fun ur =>
    !s.userHas i ur.userId isAdminPermission || s.hasSecondFactor i ur.userId

variable {i : Nat} {s : AdminState}

theorem factored_iff (hseen : s.seenBy i = s.tables) : s.factored i = true ↔ s.tables.Factored := by
  rw [← hseen]
  simp only [AdminState.factored, List.all_eq_true, Bool.or_eq_true, Bool.not_eq_true']
  constructor
  · rintro h user ⟨p, hp, role, hheld, hgrants⟩
    obtain ⟨ur, hur, -, rfl, -⟩ := held_iff.mp hheld
    have hadmin := administers_iff.mpr ⟨p, hp, role, hheld, hgrants⟩
    rcases h ur hur with hnot | hfactor
    · rw [hadmin] at hnot
      cases hnot
    · exact hasSecondFactor_iff.mp hfactor
  · intro h ur _
    cases hadmin : s.userHas i ur.userId isAdminPermission with
    | false => exact .inl rfl
    | true => exact .inr (hasSecondFactor_iff.mpr (h _ (administers_iff.mp hadmin)))

theorem verified_of_active (hseen : s.seenBy i = s.tables)
    (h : ((s.userRoles.viewed i).all fun ur => s.isActive i ur.userId) = true) :
    s.tables.Verified := by
  rw [← hseen]
  rintro user ⟨p, -, role, hheld, -⟩
  obtain ⟨ur, hur, -, rfl, -⟩ := held_iff.mp hheld
  exact (isActive_iff.mp (List.all_eq_true.mp h ur hur)).not_pending

/-- An administrator with a passkey, an account with one, and one without. -/
def oneAdministrator : AdminConf :=
  adminInitial
    [⟨1, "a@x.y", .active, false⟩, ⟨2, "b@x.y", .active, false⟩, ⟨3, "c@x.y", .active, false⟩]
    [⟨10, "admin", false, adminPermissions, false⟩, ⟨20, "staff", false, [], false⟩]
    [⟨1, 10, true⟩] [⟨100, 1, .passkey, 0, false⟩, ⟨200, 2, .passkey, 0, false⟩]

theorem oneAdministrator_factored : oneAdministrator.shared.tables.Factored :=
  (factored_iff ((adminInitial_atRest.holds false).seenBy (i := 0) rfl)).mp (by decide +kernel)

theorem oneAdministrator_verified : oneAdministrator.shared.tables.Verified :=
  verified_of_active ((adminInitial_atRest.holds false).seenBy (i := 0) rfl) (by decide +kernel)

instance (c : AdminConf) (i : Nat) (a : AdminAct) : Decidable (SteadyGrant c i a) :=
  inferInstanceAs (Decidable (_ = true))

/-- The second account becomes an administrator, and then wants to remove
its passkey. -/
def grantedThenRemoved : List (Nat × AdminAct) :=
  [(0, .start (.grantRole "b@x.y" "admin")), (1, .start (.removePasskey 2 200)), (0, .go {}),
    (0, .go {}), (0, .go {}), (0, .go {}), (0, .go {}), (0, .go {}), (0, .go {}), (1, .go {}),
    (1, .go {}), (1, .go {}), (1, .go {}), (1, .go {})]

theorem removal_refused :
    oneAdministrator.AtRest ∧ oneAdministrator.shared.tables.Factored ∧
      oneAdministrator.shared.tables.Verified ∧
      ∃ c, Steps adminProgram SteadyGrant oneAdministrator c ∧ c.procs 0 = .done (.ok ()) ∧
        c.procs 1 = .done (.error (.app (.conflict "administrator_needs_second_factor"))) ∧
        c.shared.tables.Factored := by
  obtain ⟨c, hexec, hfirst, hsecond⟩ :
      ∃ c ∈ exec adminProgram SteadyGrant oneAdministrator grantedThenRemoved,
      c.procs 0 = .done (.ok ()) ∧ c.procs 1 = .done
      (.error (.app (.conflict "administrator_needs_second_factor"))) := by
    decide +kernel
  have hsteps := steps_of_exec hexec
  exact ⟨adminInitial_atRest, oneAdministrator_factored, oneAdministrator_verified, c, hsteps,
    hfirst, hsecond, administrators_keep_factor adminInitial_atRest oneAdministrator_factored
      oneAdministrator_verified hsteps⟩

/-- The command line finds that `staff` grants nothing; before its row is
there, `set_permissions` finds that nobody holds `staff`. -/
def grantedMeanwhile : List (Nat × AdminAct) :=
  [(0, .start (.grantRole "c@x.y" "staff")), (0, .go {}), (0, .go {}), (0, .go {}), (0, .go {}),
    (1, .start (.setPermissions 1 "staff" ["users:read"])), (1, .go {}), (1, .go {}), (1, .go {}),
    (1, .go {}), (1, .go {}), (1, .go {}), (1, .go {}), (1, .go {}), (1, .go {}), (1, .go {}),
    (1, .go {}), (0, .go {}), (0, .go {})]

theorem administrator_without_factor :
    oneAdministrator.AtRest ∧ oneAdministrator.shared.tables.Factored ∧
      oneAdministrator.shared.tables.Verified ∧
      ∃ c, Steps adminProgram Free oneAdministrator c ∧ c.procs 0 = .done (.ok ()) ∧
        c.procs 1 = .done (.ok ()) ∧ ¬ c.shared.tables.Factored := by
  obtain ⟨c, hexec, hfirst, hsecond, hidle, hnot⟩ :
      ∃ c ∈ exec adminProgram Free oneAdministrator grantedMeanwhile, c.procs 0 = .done (.ok ()) ∧
      c.procs 1 = .done (.ok ()) ∧ c.procs 2 = .idle ∧ c.shared.factored 2 = false := by
    decide +kernel
  have hsteps := steps_of_exec hexec
  have hholds := adminHolds_run adminInitial_atRest hsteps
  refine ⟨adminInitial_atRest, oneAdministrator_factored, oneAdministrator_verified, c, hsteps,
    hfirst, hsecond, fun h => ?_⟩
  rw [(factored_iff (hholds.seenBy hidle)).mpr h] at hnot
  cases hnot

end AuthApi
