import AuthApi.AdministrationInvariant
import Mathlib.Data.Set.Basic

/-!
# Nobody delegates what they do not hold

Accounts that change roles only among themselves never hold together a
permission none of them held at the start (`members_gain_nothing`). Let
`U` be what they held then. A permission a role gains was held by the
actor when it was checked, so it is in `U`; a role an account is given
grants only what the actor held, so its permissions are in `U` too. The
lock of the role carries both facts from the check to the commit
(`AdminOp.Bound`). Roles of which none of the accounts has any part may
grant what they like, and stay out of reach.
-/

namespace AuthApi

open Conc

/-! ## Steps short of the commit -/

/-- The operation of a transaction whose actor has been authorized. -/
def AdminPc.authorized : AdminPc → Option AdminOp
  | .newRole op | .grantNew op | .holders op _ | .lockHolder op _ _ | .readHolder op _ _
  | .proveHolder op _ _ | .clearGrants op | .insertGrants op | .administers op _ | .prove op
  | .insert op _ | .deleteRole op | .unassign op | .suspend op | .manages op | .erase op _
  | .cascade op _ | .cascadeEach op _ _ | .removeFactor op | .keepAdmin op | .keepProof op
  | .administrator op _ | .keeper op _ _ | .drop op _ | .dropEach op _ _ | .verify op | .guard op
  | .check op | .commit op => some op
  | _ => none

section Next

variable {i : Nat} {inp : AdminInput} {s s' : AdminState} {pc pc' : AdminPc} {op : AdminOp}

theorem authorized_nextHolder (op : AdminOp) (left : List Uuid) :
    (op.nextHolder left).authorized = some op := by
  cases left <;> rfl

theorem authorized_guarded (op : AdminOp) (managed : Bool) :
    (op.guarded managed).authorized = some op := by
  cases managed <;> rfl

theorem authorized_next (op : AdminOp) (which : FactorDrop) :
    (which.next op).authorized = some op := by
  cases which with
  | cascade managed => exact authorized_guarded op managed
  | since start kept isMethod => cases isMethod <;> rfl
  | all => rfl

/-- The operation goes on, or ends. -/
theorem AdminStepped.next (h : AdminStepped i inp s pc s' pc') (hop : pc.authorized = some op) :
    pc'.authorized = some op ∨ ∃ result, pc' = .done result := by
  cases h with
  | left => exact .inr ⟨_, rfl⟩
  | suspends | lockedUser | authorized | authorizedNew => cases hop
  | holders | provenHolder => exact .inl ((authorized_nextHolder _ _).trans hop)
  | manages | cascaded => exact .inl ((authorized_guarded _ _).trans hop)
  | dropped => exact .inl ((authorized_next _ _).trans hop)
  | _ => exact .inl hop

end Next

/-! ## What bounds an operation -/

/-- The request changes no role, or is made by one of `C`. The command line
is nobody's. -/
def AdminRequest.By (C : Set Uuid) : AdminRequest → Prop
  | .create actor _ _ _ | .setPermissions actor _ _ | .delete actor _ | .assign actor _ _
  | .unassign actor _ _ => actor ∈ C
  | .grantRole _ _ => False
  | _ => True

def AdminOp.By (C : Set Uuid) : AdminOp → Prop
  | .create actor _ _ _ | .setPermissions actor _ _ | .delete actor _ | .assign actor _ _
  | .unassign actor _ _ => actor ∈ C
  | .grantRole _ _ _ _ _ => False
  | _ => True

/-- Every request to change roles is made by one of `C`. -/
def MembersOnly (C : Set Uuid) (_ : AdminConf) (_ : Nat) : AdminAct → Prop
  | .start request => request.By C
  | _ => True

section Decide

variable (C : Set Uuid) [DecidablePred (· ∈ C)]

instance : DecidablePred (AdminRequest.By C)
  | .create actor _ _ _ | .setPermissions actor _ _ | .delete actor _ | .assign actor _ _
  | .unassign actor _ _ => inferInstanceAs (Decidable (actor ∈ C))
  | .grantRole _ _ => .isFalse id
  | .suspend _ _ | .eraseAccount _ | .disableMethod _ _ | .removePasskey _ _
  | .resetPassword _ _ => .isTrue trivial

instance (c : AdminConf) (i : Nat) : DecidablePred (MembersOnly C c i)
  | .start request => inferInstanceAs (Decidable (request.By C))
  | .go _ | .fail => .isTrue trivial

end Decide

/-- The operation hands out only what is in `U`, or what the role grants
anyway. -/
def AdminOp.Bound (U : Permission → Prop) (t : AdminTables) : AdminOp → Prop
  | .create _ _ _ permissions => ∀ p ∈ permissions, U p
  | .setPermissions _ r permissions => ∀ p ∈ permissions, U p ∨ t.Grants r p
  | .assign _ _ r => ∀ p, t.Grants r p → U p
  | .grantRole _ _ _ _ _ => False
  | _ => True

/-- What has been checked of the operation so far. -/
def AdminPc.Within (C : Set Uuid) (U : Permission → Prop) (t : AdminTables) : AdminPc → Prop
  | .request asked => asked.By C
  | .grantee _ _ _ _ => False
  | .account op | .lockUser op | .readUser op | .lockRole op _ | .readGrants op _ => op.By C
  | .authorize op _ current left =>
    op.By C ∧ (∀ p ∈ op.needed current, p ∈ left ∨ U p) ∧ ∀ p, t.Grants op.role p → p ∈ current
  | .authorizeNew op left => op.By C ∧ ∀ p ∈ op.permissions, p ∈ left ∨ U p
  | pc => ∀ op, pc.authorized = some op → op.Bound U t

section Bounds

variable {i j : Nat} {s s' : AdminState} {pc : AdminPc} {op : AdminOp} {careful : Bool}
variable {C : Set Uuid} {U : Permission → Prop} {t : AdminTables}

theorem within_of_authorized (hop : pc.authorized = some op) (h : op.Bound U s.tables) :
    pc.Within C U s.tables := by
  cases pc with
  | request | grantee | account | lockUser | readUser | lockRole | readGrants | authorize
  | authorizeNew => cases hop
  | _ =>
    intro op' hop'
    cases hop.symm.trans hop'
    exact h

theorem within_done {result : Except AdminError Unit} : (AdminPc.done result).Within C U t := by
  intro op hop
  cases hop

theorem AdminPc.Within.bound (h : pc.Within C U t) (hop : pc.authorized = some op) :
    op.Bound U t := by
  cases pc with
  | request | grantee | account | lockUser | readUser | lockRole | readGrants | authorize
  | authorizeNew => cases hop
  | _ => exact h op hop

/-- The role an authorized `set_permissions` or `assign` has looked at is
locked by it. -/
def AdminOp.Pins (i : Nat) (s : AdminState) : AdminOp → Prop
  | .setPermissions _ r _ | .assign _ _ r => s.roles.holder r = some i
  | _ => True

theorem AdminOp.Adding.pins {P Q : Uuid → Uuid → Prop} (h : op.Adding i s P Q) : op.Pins i s := by
  cases op with
  | assign => exact h.2.1
  | grantRole => trivial
  | _ => cases h

theorem AdminOp.Setting.pins {Q : Uuid → Prop} (h : op.Setting i s Q) : op.Pins i s := by
  cases op with
  | setPermissions => exact h.1
  | _ => cases h

theorem AdminOp.Asking.pins (h : op.Asking i s) : op.Pins i s := by
  cases op with
  | setPermissions => exact h.1
  | assign => cases h
  | _ => trivial

theorem AdminOp.Settling.pins (h : op.Settling i s careful) : op.Pins i s := by
  cases op with
  | setPermissions => exact h.1
  | assign => exact h.2.1
  | _ => trivial

theorem AdminPc.Ok.pins (h : pc.Ok careful i s) (hop : pc.authorized = some op) :
    op.Pins i s := by
  cases pc with
  | newRole =>
    cases hop
    obtain ⟨-, _, _, _, _, rfl⟩ := h
    trivial
  | holders | lockHolder | readHolder | proveHolder | clearGrants | insertGrants =>
    cases hop
    exact h.2.pins
  | administers | prove | insert =>
    cases hop
    exact h.2.pins
  | deleteRole =>
    cases hop
    obtain ⟨-, -, _, _, rfl⟩ := h
    trivial
  | unassign =>
    cases hop
    obtain ⟨-, _, _, _, rfl⟩ := h
    trivial
  | suspend =>
    cases hop
    obtain ⟨-, _, rfl⟩ := h
    trivial
  | erase =>
    cases hop
    obtain ⟨-, -, _, rfl⟩ := h
    trivial
  | grantNew | manages | cascade | cascadeEach | removeFactor | keepAdmin | keepProof
  | administrator | keeper | drop | dropEach | verify =>
    cases hop
    cases op with
    | setPermissions | assign => cases h.2
    | _ => trivial
  | guard =>
    cases hop
    exact h.2.pins
  | check =>
    cases hop
    exact h.2.1.pins
  | commit =>
    cases hop
    exact h.2.pins
  | _ => cases hop

theorem AdminGuar.grants_iff (hg : AdminGuar i s s') (hs : SharesOk s) (hne : j ≠ i) {r : Uuid}
    {p : Permission} (h : s.roles.holder r = some j) :
    s'.tables.Grants r p ↔ s.tables.Grants r p := by
  rw [AdminTables.Grants, hg.role_eq hs hne (.inl h), AdminTables.Grants]

theorem AdminOp.Bound.stable (h : op.Bound U s.tables) (hpins : op.Pins j s)
    (hg : AdminGuar i s s') (hs : SharesOk s) (hne : j ≠ i) : op.Bound U s'.tables := by
  cases op with
  | setPermissions =>
    exact fun p hp => (h p hp).imp_right (hg.grants_iff hs hne hpins).mpr
  | assign => exact fun p hp => h p ((hg.grants_iff hs hne hpins).mp hp)
  | _ => exact h

theorem AdminPc.Within.stable (h : pc.Within C U s.tables) (hown : pc.Ok careful j s)
    (hg : AdminGuar i s s') (hs : SharesOk s) (hne : j ≠ i) : pc.Within C U s'.tables := by
  cases hop : pc.authorized with
  | some =>
    exact within_of_authorized hop ((h.bound hop).stable (hown.pins hop) hg hs hne)
  | none =>
    cases pc with
    | idle =>
      intro op hop'
      cases hop'
    | done => exact within_done
    | request | grantee | account | lockUser | readUser | lockRole | readGrants
    | authorizeNew => exact h
    | authorize =>
      have hlock := hown.2.1.role_locked
      exact ⟨h.1, h.2.1, fun p hp => h.2.2 p ((hg.grants_iff hs hne hlock).mp hp)⟩
    | _ => cases hop

end Bounds

/-! ## Up to the authorization -/

section Authorization

variable {i : Nat} {inp : AdminInput} {s s' : AdminState} {pc pc' : AdminPc} {op : AdminOp}
  {careful : Bool} {C : Set Uuid} {U : Permission → Prop}

/-- What is needed for the operation has been checked. -/
theorem bound_of_authorized {active : Bool} {current : List Permission}
    (hlocking : op.Locking i s active) (hcurrent : ∀ p ∈ current, s.tables.Grants op.role p)
    (hneeded : ∀ p ∈ op.needed current, U p)
    (hall : ∀ p, s.tables.Grants op.role p → p ∈ current) : op.Bound U s.tables := by
  cases op with
  | setPermissions =>
    intro p hp
    by_cases hmem : p ∈ current
    · exact .inr (hcurrent p hmem)
    · refine .inl (hneeded p (List.mem_append_left _ ?_))
      exact List.mem_filter.mpr ⟨hp, by simpa using hmem⟩
  | assign => exact fun p hp => hneeded p (hall p hp)
  | delete | unassign => trivial
  | _ => cases hlocking

theorem withUser_within (hfound : op.Found s) (h : op.By C) : op.withUser.Within C U s.tables := by
  cases op with
  | assign => exact h
  | grantRole => cases h
  | eraseAccount | removeFactor => exact within_of_authorized rfl trivial
  | resetPassword u since =>
    cases since with
    | none | some => exact within_of_authorized rfl trivial
  | _ => cases hfound

theorem has_of_check {p : Permission} {user : Uuid} (hclean : Clean i s)
    (h : s.userHas i user (· = p) = true) : s.tables.Has user p :=
  hclean.seenBy ▸ has_iff.mp h

/-- What has been needed and is held by one of `C` needs no check any more. -/
theorem needed_of_held {p : Permission} {needed left : List Permission} (hp : U p)
    (h : ∀ q ∈ needed, q ∈ p :: left ∨ U q) : ∀ q ∈ needed, q ∈ left ∨ U q := by
  intro q hq
  rcases h q hq with hmem | hq'
  · rcases List.mem_cons.mp hmem with rfl | hmem
    · exact .inr hp
    · exact .inl hmem
  · exact .inr hq'

/-- Before a transaction nothing is decided but who asks, and what the steps
that authorize let pass is held by the actor. -/
theorem AdminStepped.within (h : AdminStepped i inp s pc s' pc')
    (hU : ∀ u ∈ C, ∀ p, s.tables.Has u p → U p) (hwithin : pc.Within C U s.tables)
    (hown : pc.Ok careful i s) (hop : pc.authorized = none) : pc'.Within C U s.tables := by
  cases h with
  | refused | noAccount | noRole | left => exact within_done
  | creates => exact ⟨hwithin, fun p hp => .inl hp⟩
  | sets | deletes | assigns | unassigns | account | readUser | lockedRole => exact hwithin
  | suspends => exact within_of_authorized rfl trivial
  | erases | disables | unregisters | resets => trivial
  | finds | grantee => cases hwithin
  | lockedUser => exact withUser_within hown.2 hwithin
  | readGrants =>
    refine ⟨hwithin, fun p hp => .inl hp, fun p hp => ?_⟩
    rw [mem_permissionsOf, hown.1.seenBy]
    exact hp
  | @authorized op =>
    obtain ⟨-, hneeded, hall⟩ := hwithin
    refine within_of_authorized ?_ (bound_of_authorized hown.2.1 hown.2.2
      (fun p hp => (hneeded p hp).resolve_left List.not_mem_nil) hall)
    cases op <;> rfl
  | @holds op _ _ p _ hheld =>
    obtain ⟨hby, hneeded, hall⟩ := hwithin
    have hactor : op.actor ∈ C := by
      cases op with
      | setPermissions | delete | assign | unassign => exact hby
      | _ => cases hown.2.1
    exact ⟨hby, needed_of_held (hU _ hactor p (has_of_check hown.1 hheld)) hneeded, hall⟩
  | authorizedNew =>
    obtain ⟨-, _, _, _, _, rfl⟩ := hown
    exact within_of_authorized rfl fun p hp =>
      (hwithin.2 p hp).resolve_left List.not_mem_nil
  | @holdsNew _ p _ hheld =>
    obtain ⟨hclean, a, _, _, _, rfl⟩ := hown
    exact ⟨hwithin.1, needed_of_held (hU a hwithin.1 p (has_of_check hclean hheld)) hwithin.2⟩
  | _ => cases hop

end Authorization

/-! ## The commit -/

section Commit

variable {i : Nat} {s : AdminState} {op : AdminOp} {U : Permission → Prop}
variable {u r : Uuid} {p : Permission}

section

variable (hwrites : op.Writes i s) (hbound : op.Bound U s.tables)
include hwrites hbound

theorem held_after (h : (s.seenBy i).Held u r) : s.tables.Held u r ∨ ∃ a, op = .assign a u r := by
  rcases hwrites.held h with hbefore | hassign | ⟨_, _, _, rfl⟩
  · exact .inl hbefore
  · exact .inr hassign
  · cases hbound

theorem grants_after (h : (s.seenBy i).Grants r p) : U p ∨ s.tables.Grants r p := by
  obtain ⟨row, hrow, hp⟩ := h
  rcases Pg.Db.view_cases hrow with hnew | ⟨-, hold⟩
  · have hmay := hwrites.roles r row hnew
    cases op with
    | create => exact .inl (hbound p (hmay.2 p hp))
    | setPermissions =>
      obtain ⟨rfl, hsub⟩ := hmay
      exact hbound p (hsub p hp)
    | delete =>
      rw [hmay.2] at hp
      cases hp
    | _ => cases hmay
  · exact .inr ⟨row, hold, hp⟩

theorem has_after (hU : s.tables.Has u p → U p) (h : (s.seenBy i).Has u p) : U p := by
  obtain ⟨r, hheld, hgrants⟩ := h
  rcases grants_after hwrites hbound hgrants with hp | hgrants
  · exact hp
  · rcases held_after hwrites hbound hheld with hheld | ⟨a, rfl⟩
    · exact hU ⟨r, hheld, hgrants⟩
    · exact hbound p hgrants

end

end Commit

/-! ## Runs -/

/-- What the accounts of `C` hold is in `U`, and so is what the transactions
under way are about to hand out. -/
abbrev Delegates (C : Set Uuid) (U : Permission → Prop) : AdminConf → Prop :=
  Holds (fun s => SharesOk s ∧ ∀ u ∈ C, ∀ p, s.tables.Has u p → U p)
    fun i s pc => pc.Ok false i s ∧ pc.Within C U s.tables

section Runs

variable {i : Nat} {s s' : AdminState} {pc pc' : AdminPc} {C : Set Uuid} {U : Permission → Prop}

/-- One step: what the accounts hold stays in `U`, and the transaction has
checked what its next program point asks for. -/
theorem adminStep_within (inp : AdminInput) (hown : pc.Ok false i s)
    (hU : ∀ u ∈ C, ∀ p, s.tables.Has u p → U p) (h : pc.Within C U s.tables)
    (hstep : adminStep i inp s pc = some (s', pc')) :
    (∀ u ∈ C, ∀ p, s'.tables.Has u p → U p) ∧ pc'.Within C U s'.tables := by
  rcases adminStepped hstep with hmoves | ⟨op, rfl, rfl, rfl⟩
  · rw [hmoves.quiet.tables_eq]
    refine ⟨hU, ?_⟩
    cases hop : pc.authorized with
    | none => exact hmoves.within hU h hown hop
    | some op =>
      rcases hmoves.next hop with hop' | ⟨result, rfl⟩
      · exact within_of_authorized hop' (h.bound hop)
      · exact within_done
  · rw [AdminState.tables_commit]
    exact ⟨fun u hu p => has_after hown.1 (h.bound rfl) (hU u hu p), within_done⟩

theorem delegates_step {c : AdminConf} {a : AdminAct} (h : Delegates C U c)
    (hok : MembersOnly C c i a)
    (hprog : adminProgram i a c.shared (c.procs i) = some (s, pc)) :
    Delegates C U (c.set i s pc) := by
  obtain ⟨⟨hs, hU⟩, hprocs⟩ := h
  have hsteady : SteadyIf false c i a := fun hcareful => by cases hcareful
  have hkeeps := adminProgram_keeps hs (hprocs i).1 hsteady hprog
  have hown : (∀ u ∈ C, ∀ p, s.tables.Has u p → U p) ∧ pc.Within C U s.tables := by
    cases a with
    | start =>
      simp only [adminProgram] at hprog
      split at hprog <;> cases hprog
      exact ⟨hU, hok⟩
    | go inp => exact adminStep_within inp (hprocs i).1 hU (hprocs i).2 hprog
    | fail =>
      simp only [adminProgram] at hprog
      split at hprog <;> cases hprog
      rw [AdminQuiet.rollback.tables_eq]
      exact ⟨hU, within_done⟩
  refine .set ⟨hkeeps.shared, hown.1⟩ ⟨hkeeps.own, hown.2⟩ fun j hji => ?_
  have hj := hprocs j
  exact ⟨hj.1.stable hkeeps.guar hji hs, hj.2.stable hj.1 hkeeps.guar hs hji⟩

end Runs

/-- **Accounts that change roles among themselves** hold nothing in any
state that is reached that none of them held at the start. -/
theorem members_gain_nothing (C : Set Uuid) {c c' : AdminConf} (hrest : c.AtRest)
    (hrun : Steps adminProgram (MembersOnly C) c c') :
    ∀ u ∈ C, ∀ p, c'.shared.tables.Has u p → ∃ v ∈ C, c.shared.tables.Has v p := by
  suffices hinv : Delegates C (fun p => ∃ v ∈ C, c.shared.tables.Has v p) c' from hinv.shared.2
  refine hrun.invariant (I := Delegates C _)
    (fun _ _ a _ _ h hok hprog => delegates_step (a := a) h hok hprog) ?_
  have hholds := hrest.holds false
  refine ⟨⟨hholds.shared, fun u hu p h => ⟨u, hu, h⟩⟩, fun i => ⟨hholds.procs i, ?_⟩⟩
  rw [hrest.idle i]
  intro op hop
  cases hop

/-- One of two accounts can manage roles. -/
def twoMembers : AdminConf :=
  adminInitial [⟨1, "a@x.y", .active, false⟩, ⟨2, "b@x.y", .active, false⟩]
    [⟨10, "support", false, [rolesManage, "orders:read"], false⟩] [⟨1, 10, true⟩] []

/-- It creates a role and gives it to the other. -/
def createAndAssign : List (Nat × AdminAct) :=
  [(0, .start (.create 1 "clerk" none ["orders:read"])), (0, .go { row := 20 }), (0, .go {}),
    (0, .go {}), (0, .go {}), (0, .go {}), (0, .go {}), (0, .start (.assign 1 2 "clerk")),
    (0, .go {}), (0, .go {}), (0, .go {}), (0, .go {}), (0, .go {}), (0, .go {}), (0, .go {}),
    (0, .go {}), (0, .go {}), (0, .go {}), (0, .go {})]

theorem second_member_gains_role :
    twoMembers.AtRest ∧ ∃ c, Steps adminProgram (MembersOnly {u | u ≤ 2}) twoMembers c ∧
      c.shared.tables.Has 2 "orders:read" ∧
      ∀ u, u ≤ 2 → ∀ p, c.shared.tables.Has u p →
        ∃ v, v ≤ 2 ∧ twoMembers.shared.tables.Has v p := by
  obtain ⟨c, hexec, hidle, hhas⟩ : ∃ c ∈ exec adminProgram (MembersOnly {u | u ≤ 2}) twoMembers
      createAndAssign, c.procs 1 = .idle ∧ c.shared.userHas 1 2 (· = "orders:read") := by
    decide +kernel
  have hsteps := steps_of_exec hexec
  have hseen := (adminHolds_run adminInitial_atRest hsteps.free).seenBy hidle
  exact ⟨adminInitial_atRest, c, hsteps, hseen ▸ has_iff.mp hhas,
    members_gain_nothing {u | u ≤ 2} adminInitial_atRest hsteps⟩

end AuthApi
