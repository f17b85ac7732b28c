import AuthApi.AdministrationSteps
import Mathlib.Data.Finset.Max

/-!
# Taking roles, accounts and second factors away

The step lemmas of the operations that remove something: roles and their
holders, accounts, second factors. What has to be kept of an account is
found out before the removal and under its lock.
-/

namespace AuthApi

open Conc

/-! ## `delete`, `unassign`, `suspend`, `erase_account` -/

section Withdraw

variable {i : Nat} {s : AdminState} {careful managed : Bool} {op : AdminOp} {a r u : Uuid}
  {key : Uuid × Uuid} {left : List (Uuid × Uuid)} {users : Pg.Db UserRow.id}
  {userRoles : Pg.Db UserRole.key}

namespace AdminOp.Writes

variable {k : Uuid}

section

variable (h : op.Writes i s)
include h

theorem users_changed {w : Option UserRow}
    (hc : Pg.Db.Changed i k w s.users users)
    (htables : ({ s with users := users } : AdminState).tables = s.tables)
    (hw : ∀ row ∈ w, op.MayWriteUser s.tables k row ∧ (s.users.committed k).isSome) :
    op.Writes i { s with users := users } where
  users k' row hrow := by
    rw [htables]
    rcases hc.pending_cases hrow with ⟨rfl, hnew⟩ | hold
    · exact (hw row hnew).1
    · exact h.users k' row hold
  known k' row hrow := by
    refine (congrArg Option.isSome (hc.committed k')).trans ?_
    rcases hc.pending_cases hrow with ⟨rfl, hnew⟩ | hold
    · exact (hw row hnew).2
    · exact h.known k' row hold
  roles := h.roles
  grants := h.grants
  factors k' row hrow := htables ▸ h.factors k' row hrow

theorem grants_changed {k : Uuid × Uuid} {w : Option UserRole}
    (hc : Pg.Db.Changed i k w s.userRoles userRoles)
    (htables : ({ s with userRoles := userRoles } : AdminState).tables = s.tables)
    (hw : ∀ row ∈ w, op.MayWriteGrant k row) : op.Writes i { s with userRoles := userRoles } where
  users k' row hrow := htables ▸ h.users k' row hrow
  known := h.known
  roles := h.roles
  grants k' row hrow := by
    rcases hc.pending_cases hrow with ⟨rfl, hnew⟩ | hold
    · exact hw row hnew
    · exact h.grants k' row hold
  factors k' row hrow := htables ▸ h.factors k' row hrow

theorem factors_changed {w : Option FactorRow} {factors : Pg.Db FactorRow.id}
    (hc : Pg.Db.Changed i k w s.factors factors)
    (htables : ({ s with factors := factors } : AdminState).tables = s.tables)
    (hw : ∀ row ∈ w, op.MayWriteFactor s.tables k row) :
    op.Writes i { s with factors := factors } where
  users k' row hrow := htables ▸ h.users k' row hrow
  known := h.known
  roles := h.roles
  grants := h.grants
  factors k' row hrow := by
    rw [htables]
    rcases hc.pending_cases hrow with ⟨rfl, hnew⟩ | hold
    · exact hw row hnew
    · exact h.factors k' row hold

theorem user_known {row : UserRow} (hview : s.users.view i k = some row) :
    (s.users.committed k).isSome := by
  rcases Pg.Db.view_cases hview with hnew | ⟨-, hold⟩
  · exact h.known k row hnew
  · exact Option.isSome_iff_exists.mpr ⟨row, hold⟩

theorem no_role (hno : ∀ row, ¬ op.MayWriteRole k row) : s.roles.pending i k = none :=
  Option.eq_none_iff_forall_ne_some.mpr fun row hrow => hno row (h.roles k row hrow)

theorem no_grant {k : Uuid × Uuid} (hno : ∀ row, ¬ op.MayWriteGrant k row) :
    s.userRoles.pending i k = none :=
  Option.eq_none_iff_forall_ne_some.mpr fun row hrow => hno row (h.grants k row hrow)

end

end AdminOp.Writes

theorem seenBy_has {user : Uuid} {p : Permission} (hroles : ∀ k, s.roles.pending i k = none)
    (hgrants : ∀ k, s.userRoles.pending i k = none) :
    (s.seenBy i).Has user p ↔ s.tables.Has user p := by
  have hr : (s.seenBy i).roles = s.tables.roles :=
    funext fun k => Pg.Db.view_of_unwritten (hroles k)
  have hg : (s.seenBy i).userRoles = s.tables.userRoles :=
    funext fun k => Pg.Db.view_of_unwritten (hgrants k)
  simp only [AdminTables.Has, AdminTables.Held, AdminTables.Grants, hr, hg]

theorem deletedRole_own {v : Pg.Db.Visit RoleRow} {roles : Pg.Db RoleRow.id} (hclean : Clean i s)
    (hvisit : s.roles.visit i r (fun row => !row.deleted)
      (fun row => some { row with permissions := [], deleted := true }) = some (v, roles))
    (htables : ({ s with roles := roles } : AdminState).tables = s.tables) :
    (AdminPc.cascade (.delete a r) true).Ok careful i { s with roles := roles } := by
  obtain ⟨w, hc, hw, -⟩ := Pg.Db.visit_changed deleted_key hvisit
  refine ⟨(hclean.writes (.delete a r)).roles_changed hc htables fun row hrow => ?_, rfl⟩
  obtain ⟨old, -, -, ⟨⟩⟩ := hw row hrow
  exact ⟨rfl, rfl⟩

theorem revoke_key (ur ur' : UserRole) (h : ur.revoke = some ur') : ur'.key = ur.key := by
  cases h
  rfl

theorem unassigned_own {v : Pg.Db.Visit UserRole} (hclean : Clean i s)
    (hvisit : s.userRoles.visit i (u, r) UserRole.held UserRole.revoke = some (v, userRoles))
    (htables : ({ s with userRoles := userRoles } : AdminState).tables = s.tables) :
    (AdminPc.guard (.unassign a u r)).Ok careful i { s with userRoles := userRoles } := by
  obtain ⟨w, hc, hw, -⟩ := Pg.Db.visit_changed revoke_key hvisit
  refine ⟨(hclean.writes (.unassign a u r)).grants_changed hc htables fun row hrow => ?_, trivial⟩
  obtain ⟨old, -, -, ⟨⟩⟩ := hw row hrow
  exact ⟨rfl, rfl⟩

theorem status_key (status : UserStatus) (row row' : UserRow)
    (h : some { row with status := status } = some row') : row'.id = row.id := by
  cases h
  rfl

theorem suspended_own {p : UserRow → Bool} {row : UserRow} (hclean : Clean i s)
    (hvisit : s.users.visit i u p (fun row => some { row with status := .suspended }) =
      some (.updated row, users))
    (htables : ({ s with users := users } : AdminState).tables = s.tables) :
    (AdminPc.manages (.suspend u)).Ok careful i { s with users := users } := by
  have hwrites := hclean.writes (.suspend u)
  obtain ⟨w, hc, hw, hnew⟩ := Pg.Db.visit_changed (status_key _) hvisit
  refine ⟨hwrites.users_changed hc htables fun row hrow => ?_, ?_⟩
  · obtain ⟨old, hview, -, ⟨⟩⟩ := hw row hrow
    exact ⟨⟨rfl, rfl⟩, hwrites.user_known hview⟩
  · cases hnew row rfl
    exact Pg.Db.holder_of_pending hc.self

theorem not_manages (hroles : ∀ k, s.roles.pending i k = none)
    (hgrants : ∀ k, s.userRoles.pending i k = none) (h : s.userHas i u (· = rolesManage) = false) :
    ¬ s.tables.Has u rolesManage := by
  intro hhas
  have : s.userHas i u (· = rolesManage) = true :=
    has_iff.mpr ((seenBy_has hroles hgrants).mpr hhas)
  rw [h] at this
  cases this

theorem managesErased_own (hwrites : (AdminOp.eraseAccount u).Writes i s)
    (hretire : (AdminOp.eraseAccount u).Retiring i s) :
    (AdminPc.erase (.eraseAccount u) (s.userHas i u (· = rolesManage))).Ok careful i s := by
  have hnot := not_manages (u := u) (fun k => hwrites.no_role fun _ h => h) hretire.2
  exact ⟨hwrites, ⟨hretire.1, hnot, fun _ hkeys => nomatch hkeys⟩, u, rfl⟩

theorem manages_own (hop : ∀ user, op ≠ .eraseAccount user) (hwrites : op.Writes i s)
    (hretire : op.Retiring i s) :
    (op.guarded (s.userHas i op.user (· = rolesManage))).Ok careful i s := by
  cases op with
  | suspend u =>
    have hnot := not_manages (u := u) (fun k => hwrites.no_role fun _ h => h)
      fun k => hwrites.no_grant fun _ h => h
    show AdminPc.Ok careful i s (AdminOp.guarded _ (s.userHas i u (· = rolesManage)))
    cases hm : s.userHas i u (· = rolesManage) with
    | true => exact ⟨hwrites, hretire⟩
    | false => exact ⟨hwrites, hretire, .inr (hnot hm)⟩
  | eraseAccount u => exact absurd rfl (hop u)
  | _ => cases hretire

section

variable (hwrites : (AdminOp.eraseAccount u).Writes i s)
include hwrites

theorem erased_own {v : Pg.Db.Visit UserRow}
    (hdraw : (AdminOp.eraseAccount u).Withdrawing i s managed none)
    (hvisit : s.users.visit i u (fun row => !row.erased)
      (fun row => some { row with erased := true }) = some (v, users))
    (htables : ({ s with users := users } : AdminState).tables = s.tables) :
    (AdminPc.cascade (.eraseAccount u) managed).Ok careful i { s with users := users } := by
  have hkey : ∀ row row' : UserRow, some { row with erased := true } = some row' →
      row'.id = row.id := by
    rintro row - ⟨⟩
    rfl
  obtain ⟨w, hc, hw, -⟩ := Pg.Db.visit_changed hkey hvisit
  refine ⟨hwrites.users_changed hc htables fun row hrow => ?_,
    (Pg.Db.statement_visit hvisit).locked u hdraw.1, hdraw.2.1, fun _ hkeys => nomatch hkeys⟩
  obtain ⟨old, hview, -, ⟨⟩⟩ := hw row hrow
  exact ⟨⟨rfl, rfl⟩, hwrites.user_known hview⟩

theorem owned_or_revoked {role : Uuid} (h : s.tables.Held u role) :
    (∃ row, s.userRoles.view i (u, role) = some row ∧ (AdminOp.eraseAccount u).owns row = true) ∨
      ∃ row, s.userRoles.pending i (u, role) = some row ∧ row.held = false := by
  obtain ⟨row, hrow, hheld⟩ := h
  cases hpending : s.userRoles.pending i (u, role) with
  | some row' => exact .inr ⟨row', rfl, (hwrites.grants _ row' hpending).2⟩
  | none =>
    have hview := (Pg.Db.view_of_unwritten hpending).trans hrow
    have hkey : row.key = (u, role) := Pg.Db.key_of_view hview
    simp only [UserRole.key, Prod.mk.injEq] at hkey
    exact .inl ⟨row, hview, by simp [AdminOp.owns, hkey.1, hheld]⟩

theorem cascading_scan :
    Cascading i s u (s.userRoles.scan i (AdminOp.eraseAccount u).owns) :=
  fun _ hheld => (owned_or_revoked hwrites hheld).imp_left Pg.Db.mem_scan.mpr

theorem cascading_visit {v : Pg.Db.Visit UserRole} (h : Cascading i s u left)
    (hvisit : s.userRoles.visit i key (AdminOp.eraseAccount u).owns UserRole.revoke =
      some (v, userRoles))
    (htables : ({ s with userRoles := userRoles } : AdminState).tables = s.tables) :
    Cascading i { s with userRoles := userRoles } u (left.erase key) := by
  intro role hheld
  rw [htables] at hheld
  by_cases hkey : (u, role) = key
  · subst hkey
    right
    show ∃ row, userRoles.pending i (u, role) = some row ∧ row.held = false
    rcases Pg.Db.visit_spec revoke_key hvisit with ⟨old, new, -, -, -, hnew, hc⟩ |
      ⟨-, hskip, hc⟩ | ⟨old, -, -, -, hnone, -⟩
    · refine ⟨new, hc.self, ?_⟩
      cases hnew
      rfl
    · rw [hc.pending_none]
      rcases owned_or_revoked hwrites hheld with ⟨row, hview, howns⟩ | hrevoked
      · exact absurd howns (by simp [hskip row hview])
      · exact hrevoked
    · cases hnone
  · rcases h role hheld with hleft | ⟨row, hrow, hrevoked⟩
    · exact .inl ((List.mem_erase_of_ne hkey).mpr hleft)
    · refine .inr ⟨row, ?_, hrevoked⟩
      show userRoles.pending i (u, role) = some row
      obtain ⟨w, hc, -⟩ := Pg.Db.visit_changed revoke_key hvisit
      rw [hc.rest _ hkey, hrow]

end

theorem cascades_own (hwrites : op.Writes i s) (hdraw : op.Withdrawing i s managed none) :
    (AdminPc.cascadeEach op managed (s.userRoles.scan i op.owns)).Ok careful i s := by
  refine ⟨hwrites, ?_⟩
  cases op with
  | delete => exact hdraw
  | eraseAccount =>
    refine ⟨hdraw.1, hdraw.2.1, ?_⟩
    rintro keys ⟨⟩
    exact cascading_scan hwrites
  | _ => cases hdraw

theorem owns_grant {left : Option (List (Uuid × Uuid))} {ur ur' : UserRole}
    (hdraw : op.Withdrawing i s managed left) (hview : s.userRoles.view i key = some ur)
    (howns : op.owns ur = true) (hnew : ur.revoke = some ur') : op.MayWriteGrant key ur' := by
  have hkey : ur.key = key := Pg.Db.key_of_view hview
  cases hnew
  subst hkey
  cases op with
  | delete | eraseAccount =>
    simp only [AdminOp.owns, Bool.and_eq_true, decide_eq_true_eq] at howns
    exact ⟨howns.1, rfl⟩
  | _ => cases hdraw

theorem cascaded_own (hop : ∀ user, op ≠ .eraseAccount user) (hwrites : op.Writes i s)
    (hdraw : op.Withdrawing i s managed (some [])) : (op.guarded managed).Ok careful i s := by
  cases op with
  | delete =>
    cases show managed = true from hdraw
    exact ⟨hwrites, trivial⟩
  | eraseAccount u => exact absurd rfl (hop u)
  | _ => cases hdraw

theorem revoked_own {v : Pg.Db.Visit UserRole} (hwrites : op.Writes i s)
    (hdraw : op.Withdrawing i s managed (some left))
    (hvisit : s.userRoles.visit i key op.owns UserRole.revoke = some (v, userRoles))
    (htables : ({ s with userRoles := userRoles } : AdminState).tables = s.tables) :
    (AdminPc.cascadeEach op managed (left.erase key)).Ok careful i
      { s with userRoles := userRoles } := by
  obtain ⟨w, hc, hw, -⟩ := Pg.Db.visit_changed revoke_key hvisit
  refine ⟨hwrites.grants_changed hc htables fun row hrow => ?_, ?_⟩
  · obtain ⟨old, hview, howns, hnew⟩ := hw row hrow
    exact owns_grant hdraw hview howns hnew
  · cases op with
    | delete => exact hdraw
    | eraseAccount =>
      refine ⟨hdraw.1, fun hm => htables ▸ hdraw.2.1 hm, ?_⟩
      rintro keys ⟨⟩
      exact cascading_visit hwrites (hdraw.2.2 _ rfl) hvisit htables
    | _ => cases hdraw

end Withdraw

/-! ## Second factors -/

section SecondFactors

variable {i : Nat} {s : AdminState} {careful isMethod : Bool} {op : AdminOp} {u k : Uuid}
  {f : FactorRow} {kept : Option Uuid} {start : Int} {which : FactorDrop}
  {factors : Pg.Db FactorRow.id} {v : Pg.Db.Visit FactorRow}

theorem remove_key (f f' : FactorRow) (h : f.remove = some f') : f'.id = f.id := by
  cases h
  rfl

theorem removed_of_may {t : AdminTables} {row : FactorRow} (h : op.MayWriteFactor t k row) :
    row.removed = true := by
  cases op with
  | eraseAccount | removeFactor | resetPassword => exact h.1
  | _ => cases h

theorem AdminOp.Writes.factor_seen (h : op.Writes i s) (hview : s.factors.view i k = some f)
    (hthere : f.removed = false) : s.factors.pending i k = none ∧ s.tables.factors k = some f := by
  rcases Pg.Db.view_cases hview with hnew | hold
  · rw [removed_of_may (h.factors k f hnew)] at hthere
    cases hthere
  · exact hold

theorem usable_there (h : f.usable = true) : f.removed = false := by
  simp only [FactorRow.usable, Bool.and_eq_true, Bool.not_eq_true'] at h
  exact h.1

theorem removed_own (hwrites : (AdminOp.removeFactor u k isMethod).Writes i s)
    (hlock : s.users.holder u = some i)
    (hvisit : s.factors.visit i k
      (fun f => f.userId = u && !f.removed && f.kind.isMethod = isMethod) FactorRow.remove =
        some (v, factors))
    (htables : ({ s with factors := factors } : AdminState).tables = s.tables) :
    (AdminPc.keepAdmin (.removeFactor u k isMethod)).Ok careful i
      { s with factors := factors } := by
  obtain ⟨w, hc, hw, -⟩ := Pg.Db.visit_changed remove_key hvisit
  refine ⟨hwrites.factors_changed hc htables fun row hrow => ?_, hlock⟩
  obtain ⟨old, hview, hp, ⟨⟩⟩ := hw row hrow
  simp only [Bool.and_eq_true, decide_eq_true_eq, Bool.not_eq_true'] at hp
  exact ⟨rfl, old, (hwrites.factor_seen hview hp.1.2).2, hp.1.1⟩

theorem not_administers (hwrites : op.Writes i s) (hroles : ∀ k row, ¬ op.MayWriteRole k row)
    (hgrants : ∀ k row, ¬ op.MayWriteGrant k row)
    (h : ¬ s.userHas i u isAdminPermission = true) : ¬ s.tables.Administers u := by
  rintro ⟨p, hp, hhas⟩
  refine h (administers_iff.mpr ⟨p, hp, (seenBy_has (fun k => ?_) fun k => ?_).mpr hhas⟩)
  · exact hwrites.no_role (hroles k)
  · exact hwrites.no_grant (hgrants k)

theorem mayRemove_own (hwrites : op.Writes i s) (hlock : op.Disabling i s)
    (hnone : ¬ s.userHas i op.user isAdminPermission = true) :
    (AdminPc.commit op).Ok careful i s := by
  cases op with
  | removeFactor =>
    refine ⟨hwrites, hlock, .inr fun hadmin => absurd hadmin ?_⟩
    exact not_administers hwrites (fun _ _ h => h) (fun _ _ h => h) hnone
  | _ => cases hlock

theorem kept_own (hwrites : op.Writes i s) (hlock : op.Disabling i s)
    (hproof : s.hasSecondFactor i op.user = true) : (AdminPc.commit op).Ok careful i s := by
  obtain ⟨k, f, hview, huser, husable⟩ := hasSecondFactor_iff.mp hproof
  obtain ⟨hpending, hf⟩ := hwrites.factor_seen hview (usable_there husable)
  cases op with
  | removeFactor =>
    refine ⟨hwrites, hlock, .inr fun _ _ => ?_⟩
    exact ⟨k, f, hf, hpending, huser, husable, trivial⟩
  | _ => cases hlock

theorem administrator_own (hwrites : op.Writes i s)
    (hreset : op.Resetting i s fun _ => ∀ k, s.factors.pending i k = none) :
    (AdminPc.keeper op start (s.userHas i op.user isAdminPermission)).Ok careful i s := by
  refine ⟨hwrites, ?_⟩
  cases op with
  | resetPassword =>
    refine ⟨hreset.1, hreset.2, fun hnone => ?_⟩
    exact not_administers hwrites (fun _ _ h => h) (fun _ _ h => h) (ne_true_of_eq_false hnone)
  | _ => cases hreset

theorem exists_oldest {factors : List FactorRow} (h : f ∈ factors) :
    ∃ g ∈ factors, ∀ g' ∈ factors, g.createdAt ≤ g'.createdAt := by
  obtain ⟨g, hg, hleast⟩ := Finset.exists_min_image factors.toFinset FactorRow.createdAt
    ⟨f, List.mem_toFinset.mpr h⟩
  exact ⟨g, List.mem_toFinset.mp hg, fun g' hg' => hleast g' (List.mem_toFinset.mpr hg')⟩

/-- The factor that is kept outlasts the reset: one from before the window,
or the oldest of those added since. -/
theorem spares_keepers (hpending : ∀ k, s.factors.pending i k = none)
    (hkept : (s.keepers i u start = [] ∧ kept = none) ∨ ∃ row ∈ s.keepers i u start,
      kept = some row) :
    Spares i s u (Outlasts start kept) := by
  rintro - ⟨k, f, hf, huser, husable⟩
  have hcommitted : ∀ g ∈ s.factors.viewed i, s.tables.factors g.id = some g := fun g hg =>
    (Pg.Db.view_of_unwritten (hpending g.id)).symm.trans (Pg.Db.mem_viewed.mp hg)
  rcases hkept with ⟨hnone, -⟩ | ⟨row, hrow, rfl⟩
  · simp only [AdminState.keepers] at hnone
    split at hnone
    · rename_i hold
      obtain ⟨g, hg, hbefore⟩ := List.any_eq_true.mp hold
      obtain ⟨hmem, hg⟩ := List.mem_filter.mp hg
      simp only [Bool.and_eq_true, decide_eq_true_eq] at hg hbefore
      exact ⟨g.id, g, hcommitted g hmem, hpending _, hg.1, hg.2, .inl hbefore⟩
    · have hview : s.factors.view i k = some f := (Pg.Db.view_of_unwritten (hpending k)).trans hf
      have hkey : f.id = k := Pg.Db.key_of_view hview
      have hmem : f ∈ (s.factors.viewed i).filter fun f => f.userId = u && f.usable :=
        List.mem_filter.mpr ⟨Pg.Db.mem_viewed.mpr (hkey ▸ hview), by simp [huser, husable]⟩
      obtain ⟨g, hg, hleast⟩ := exists_oldest hmem
      have hall : ((s.factors.viewed i).filter fun f => f.userId = u && f.usable).all
          (g.createdAt ≤ ·.createdAt) = true :=
        List.all_eq_true.mpr fun g' hg' => by simpa using hleast g' hg'
      have hmin : g.id ∈ ([] : List Uuid) :=
        hnone ▸ List.mem_map.mpr ⟨g, List.mem_filter.mpr ⟨hg, hall⟩, rfl⟩
      cases hmin
  · simp only [AdminState.keepers] at hrow
    split at hrow
    · cases hrow
    · obtain ⟨g, hg, rfl⟩ := List.mem_map.mp hrow
      obtain ⟨hmem, hg⟩ := List.mem_filter.mp (List.mem_filter.mp hg).1
      simp only [Bool.and_eq_true, decide_eq_true_eq] at hg
      exact ⟨g.id, g, hcommitted g hmem, hpending _, hg.1, hg.2, .inr rfl⟩

theorem keeper_own {admin : Bool} (hwrites : op.Writes i s)
    (hreset : op.Resetting i s fun u => (∀ k, s.factors.pending i k = none) ∧
      (admin = false → ¬ s.tables.Administers u))
    (hkept : admin = true → (s.keepers i op.user start = [] ∧ kept = none) ∨
      ∃ row ∈ s.keepers i op.user start, kept = some row) :
    (AdminPc.drop op (.since start kept true)).Ok careful i s := by
  refine ⟨hwrites, ?_⟩
  cases op with
  | resetPassword =>
    obtain ⟨hlock, hpending, hnot⟩ := hreset
    cases admin with
    | false => exact ⟨hlock, fun hadmin => absurd hadmin (hnot rfl)⟩
    | true => exact ⟨hlock, spares_keepers hpending (hkept rfl)⟩
  | _ => cases hreset

theorem takes_may {f' : FactorRow} (hwrites : op.Writes i s) (hdrop : op.Dropping i s which)
    (hview : s.factors.view i k = some f) (htakes : which.takes op.user f = true)
    (hnew : f.remove = some f') : op.MayWriteFactor s.tables k f' := by
  cases hnew
  simp only [FactorDrop.takes, Bool.and_eq_true, decide_eq_true_eq, Bool.not_eq_true'] at htakes
  have hf := (hwrites.factor_seen hview htakes.1.2).2
  cases op with
  | eraseAccount | resetPassword => exact ⟨rfl, f, hf, htakes.1.1⟩
  | _ => cases hdrop

theorem spares_visit (h : Spares i s u (Outlasts start kept))
    (hvisit : s.factors.visit i k ((FactorDrop.since start kept isMethod).takes u)
      FactorRow.remove = some (v, factors))
    (htables : ({ s with factors := factors } : AdminState).tables = s.tables) :
    Spares i { s with factors := factors } u (Outlasts start kept) := by
  intro hadmin hfactor
  rw [htables] at hadmin hfactor ⊢
  obtain ⟨k', f, hf, hpending, huser, husable, hlasts⟩ := h hadmin hfactor
  refine ⟨k', f, hf, ?_, huser, husable, hlasts⟩
  show factors.pending i k' = none
  obtain ⟨w, hc, hw, -⟩ := Pg.Db.visit_changed remove_key hvisit
  refine Option.eq_none_iff_forall_ne_some.mpr fun row hrow => ?_
  rcases hc.pending_cases hrow with ⟨rfl, hnew⟩ | hold
  · obtain ⟨old, hview, htakes, -⟩ := hw row hnew
    have hold : old = f :=
      Option.some.inj (hview.symm.trans ((Pg.Db.view_of_unwritten hpending).trans hf))
    subst hold
    simp only [FactorDrop.takes, Bool.and_eq_true, decide_eq_true_eq] at htakes
    rcases hlasts with hbefore | hkept
    · omega
    · exact htakes.2.2 hkept
  · exact nomatch hpending.symm.trans hold

theorem dropping_visit (h : op.Dropping i s which)
    (hvisit : s.factors.visit i k (which.takes op.user) FactorRow.remove = some (v, factors))
    (htables : ({ s with factors := factors } : AdminState).tables = s.tables) :
    op.Dropping i { s with factors := factors } which := by
  cases op with
  | eraseAccount =>
    cases which with
    | cascade => exact h
    | _ => cases h
  | resetPassword =>
    refine ⟨h.1, ?_⟩
    cases which with
    | cascade | all => exact h.2
    | since => exact spares_visit h.2 hvisit htables
  | _ => cases h

theorem next_own (hwrites : op.Writes i s) (hdrop : op.Dropping i s which) :
    (which.next op).Ok careful i s := by
  cases op with
  | eraseAccount =>
    cases which with
    | cascade managed =>
      cases managed with
      | true => exact ⟨hwrites, hdrop.1, hdrop.2.2⟩
      | false => exact ⟨hwrites, hdrop.1, hdrop.2.2, .inr (hdrop.2.1 rfl)⟩
    | _ => cases hdrop
  | resetPassword =>
    cases which with
    | cascade => cases hdrop.2
    | since start kept isMethod =>
      cases isMethod with
      | true => exact ⟨hwrites, hdrop⟩
      | false =>
        refine ⟨hwrites, hdrop.1, fun hadmin hfactor => ?_⟩
        obtain ⟨k, f, hf, hpending, huser, husable, -⟩ := hdrop.2 hadmin hfactor
        exact ⟨k, f, hf, hpending, huser, husable, trivial⟩
    | all => exact ⟨hwrites, hdrop.1, .inl hdrop.2⟩
  | _ => cases hdrop

theorem dropping_own {left : List Uuid} (hwrites : op.Writes i s) (hdrop : op.Dropping i s which)
    (hvisit : s.factors.visit i k (which.takes op.user) FactorRow.remove = some (v, factors))
    (htables : ({ s with factors := factors } : AdminState).tables = s.tables) :
    (AdminPc.dropEach op which left).Ok careful i { s with factors := factors } := by
  obtain ⟨w, hc, hw, -⟩ := Pg.Db.visit_changed remove_key hvisit
  refine ⟨hwrites.factors_changed hc htables fun row hrow => ?_,
    dropping_visit hdrop hvisit htables⟩
  obtain ⟨old, hview, htakes, hnew⟩ := hw row hrow
  exact takes_may hwrites hdrop hview htakes hnew

theorem pending_seen {since : Option Int} {row : UserRow}
    (hwrites : (AdminOp.resetPassword u since).Writes i s) (hview : s.users.view i u = some row)
    (herased : row.erased = false) (hstatus : row.status = .pendingVerification) :
    s.tables.Pending u := by
  rcases Pg.Db.view_cases hview with hnew | ⟨-, hold⟩
  · have hactive := (hwrites.users u row hnew).2.1
    rw [hstatus] at hactive
    cases hactive
  · exact ⟨row, hold, herased, hstatus⟩

/-- `verify_if_pending`: an account that was never verified loses all its
factors next. -/
theorem verified_own {v : Pg.Db.Visit UserRow} {users : Pg.Db UserRow.id} (hwrites : op.Writes i s)
    (hreset : op.Resetting i s fun u => Spares i s u fun _ => True)
    (hvisit : s.users.visit i op.user
      (fun row => !row.erased && row.status = .pendingVerification)
      (fun row => some { row with status := .active }) = some (v, users))
    (htables : ({ s with users := users } : AdminState).tables = s.tables) :
    (AdminPc.commit op).Ok careful i { s with users := users } ∧
      ∀ row, v = .updated row → (AdminPc.drop op .all).Ok careful i { s with users := users } := by
  cases op with
  | resetPassword u since =>
    have hlock := (Pg.Db.statement_visit hvisit).locked u hreset.1
    obtain ⟨w, hc, hw, hnew⟩ := Pg.Db.visit_changed (status_key _) hvisit
    have hmay : ∀ row ∈ w, (AdminOp.resetPassword u since).MayWriteUser s.tables u row ∧
        (s.users.committed u).isSome := by
      intro row hrow
      obtain ⟨old, hview, hp, ⟨⟩⟩ := hw row hrow
      simp only [Bool.and_eq_true, Bool.not_eq_true', decide_eq_true_eq] at hp
      exact ⟨⟨rfl, rfl, hp.1, pending_seen hwrites hview hp.1 hp.2⟩, hwrites.user_known hview⟩
    have hwrites' := hwrites.users_changed hc htables hmay
    refine ⟨⟨hwrites', hlock, .inr hreset.2⟩, fun row hrow => ⟨hwrites', hlock, ?_⟩⟩
    exact htables ▸ (hmay row (hnew row hrow)).1.2.2.2
  | _ => cases hreset

end SecondFactors

end AuthApi
