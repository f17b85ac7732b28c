import AuthApi.FactorLocks
import AuthApi.Lifetime
import Mathlib.Data.List.MinMax
import Mathlib.Tactic.MkIffOfInductiveProp

/-!
# The primary method of an account

A sign-in asks for a second factor only if the account has a primary
method. `verify_setup` marks a method verified, looks for a primary one
and makes the method primary, in three transactions. Removals delete
methods and promote another one, in a single transaction that has locked
the row of the account, which `verify_setup` does not.

A `verify_setup` that stops after the mark leaves a verified method
without a primary one (`verified_without_primary`). It takes no crash: a
removal that has made its choice does not see the mark, and a
`verify_setup` whose method is removed demotes another method for
nothing. Where a `verify_setup` gets from the mark to the end of
`set_primary` without a removal in between, there is exactly one primary
method as soon as there is a verified one (`primary_exists`).
-/

namespace AuthApi

open Conc Pg.Db

/-! ## The condition -/

/-- What a `verify_setup` that has marked its method, and has not yet left
`set_primary`, was called with. -/
def FactorFlow.promoting : FactorFlow → Option Activation
  | .activate (.primary request) => some request
  | .activate (.demote request) => some request
  | .activate (.unset request _) => some request
  | .activate (.promote request) => some request
  | .activate (.commit request) => some request
  | _ => none

def FactorAct.fails : FactorAct → Bool
  | .fail => true
  | _ => false

/-- A method of the account is marked only while it is there and no removal
has locked the row, and the request that has marked it does not stop. -/
@[mk_iff]
structure MarkedAlone (userId : Uuid) (c : FactorConf) (i : Nat) (a : FactorAct) : Prop where
  marks : ∀ id ∈ (a.executes (c.procs i).own).marking, ∀ r ∈ c.shared.methods.committed id,
    r.val.userId = userId → c.shared.userLocks userId = none ∧ r.deleted = false
  ends : a.fails = true → ∀ request ∈ (c.procs i).own.promoting, request.userId ≠ userId

/-- A removal does not lock the row while request `j` promotes a method of
the account. -/
@[mk_iff]
structure LockedApart (userId : Uuid) (c : FactorConf) (i : Nat) (a : FactorAct) (j : Nat) :
    Prop where
  apart : (a.executes (c.procs i).own).locking = some userId →
    ∀ request ∈ (c.procs j).own.promoting, request.userId ≠ userId

/-- The condition on a step, for the account `userId`. -/
structure PromotesApart (userId : Uuid) (c : FactorConf) (i : Nat) (a : FactorAct) : Prop
    extends MarkedAlone userId c i a where
  others : ∀ j, LockedApart userId c i a j

/-! ## Verified and primary methods -/

/-- If there is a verified method of the account among the rows, there is a
primary one. -/
def Backed (userId : Uuid) (rows : Uuid → Option MethodRow) : Prop :=
  (∃ k r, rows k = some r ∧ r.verifiedOf userId = true) →
    ∃ k r, rows k = some r ∧ r.primaryOf userId = true

/-- The verified methods of the account are the same. -/
def SameVerified (userId : Uuid) (rows rows' : Uuid → Option MethodRow) : Prop :=
  ∀ k r, r.verifiedOf userId = true → (rows' k = some r ↔ rows k = some r)

variable {c : FactorConf} {i j n : Nat} {a : FactorAct} {inp : FactorInput} {s s' : FactorState}
  {p p' : FactorProc} {own own' : FactorFlow} {db db' : MethodDb} {k userId : Uuid}
  {request : Activation} {rows : Uuid → Option MethodRow} {r : MethodRow} {v : Visit MethodRow}
  {pc : ResetPc} {primary : Bool}

theorem Backed.congr {rows' : Uuid → Option MethodRow} (h : Backed userId rows)
    (hsame : SameVerified userId rows rows') : Backed userId rows' := by
  rintro ⟨k, r, hr, hverified⟩
  obtain ⟨k', r', hr', hprimary⟩ := h ⟨k, r, (hsame k r hverified).mp hr, hverified⟩
  exact ⟨k', r', (hsame k' r' (MethodRow.verifiedOf_of_primaryOf hprimary)).mpr hr', hprimary⟩

theorem Backed.of_none (h : ∀ k r, rows k = some r → r.verifiedOf userId = false) :
    Backed userId rows := by
  rintro ⟨k, r, hr, hverified⟩
  rw [h k r hr] at hverified
  cases hverified

theorem verifiedOf_eq_false_of_user (h : r.val.userId ≠ userId) : r.verifiedOf userId = false := by
  by_contra hverified
  exact h (MethodRow.verifiedOf_eq_true.mp (by simpa using hverified)).2.1

theorem verifiedOf_eq_false_of_unverified (h : r.val.isVerified = false) :
    r.verifiedOf userId = false := by
  simp [MethodRow.verifiedOf, h]

/-- A step that neither commits nor marks methods of the account leaves its
verified ones alone. -/
theorem RowChange.sameVerified (h : RowChange i own db db' k) (hok : MethodsOk db)
    (hpending : ∀ r, db.pending i k = some r → r.val.userId ≠ userId)
    (hmark : ∀ r, own.marking = some k → db.committed k = some r → r.val.userId ≠ userId)
    (r : MethodRow) (hr : r.verifiedOf userId = true) :
    db'.committed k = some r ↔ db.committed k = some r := by
  have hnot : ∀ {o : Option MethodRow} {r₀ : MethodRow}, o = some r₀ →
      r₀.verifiedOf userId = false → ¬ o = some r := by
    rintro _ r₀ rfl hfalse heq
    cases heq
    rw [hr] at hfalse
    cases hfalse
  cases h with
  | same heq => rw [heq]
  | @published r' hpend hnew =>
    obtain ⟨r₀, hr₀, hfollows⟩ := hok.staged i k r' hpend
    have hother := hpending r' hpend
    exact iff_of_false (hnot hnew (verifiedOf_eq_false_of_user hother))
      (hnot hr₀ (verifiedOf_eq_false_of_user (hfollows.userId_eq ▸ hother)))
  | @restarted new now r₀ r' _ hold hnew hrestartable hrestart =>
    have hun : r₀.val.isVerified = false := by
      simp only [MethodRow.restartable, Bool.and_eq_true, Bool.not_eq_true'] at hrestartable
      exact hrestartable.2
    have hun' : r'.val.isVerified = false := by
      rw [(MethodRow.restart_eq_some hrestart).1]
      exact hun
    exact iff_of_false (hnot hnew (verifiedOf_eq_false_of_unverified hun'))
      (hnot hold (verifiedOf_eq_false_of_unverified hun))
  | created hold hnew hfresh =>
    refine iff_of_false (hnot hnew (verifiedOf_eq_false_of_unverified hfresh.unverified)) ?_
    rw [hold]
    nofun
  | @marked request evidence now r₀ r' hown hkey hold hnew _ hmarked =>
    have hother : r₀.val.userId ≠ userId := hmark r₀ (by rw [hown, hkey]; rfl) hold
    have hother' : r'.val.userId ≠ userId := by
      rw [(MethodRow.markVerified_eq_some hmarked).1]
      exact hother
    exact iff_of_false (hnot hnew (verifiedOf_eq_false_of_user hother'))
      (hnot hold (verifiedOf_eq_false_of_user hother))

/-- The same, of what another transaction sees. -/
theorem MethodEffect.sameVerified_view (he : MethodEffect i own db db') (hok : MethodsOk db)
    (hne : j ≠ i) (hpending : ∀ k r, db.pending i k = some r → r.val.userId ≠ userId)
    (hmark : ∀ k r, own.marking = some k → db.committed k = some r → r.val.userId ≠ userId) :
    SameVerified userId (db.view j) (db'.view j) := by
  intro k r hr
  rw [view_eq, view_eq, he.pending_other hne]
  cases db.pending j k with
  | some => rfl
  | none => exact (he.rowChange k).sameVerified hok (hpending k) (hmark k) r hr

theorem oldest_eq_nil {rows : List MethodRow} (h : FactorState.oldest rows = []) : rows = [] := by
  by_contra hne
  obtain ⟨r, hr⟩ := Option.ne_none_iff_exists'.mp
    (mt (List.argmin_eq_none (f := fun r : MethodRow => r.val.createdAt)).mp hne)
  simp only [FactorState.oldest, List.map_eq_nil_iff, List.filter_eq_nil_iff, List.all_eq_true,
    decide_eq_true_eq] at h
  exact h r (List.argmin_mem hr) fun r' hr' =>
    List.le_of_mem_argmin (f := fun r : MethodRow => r.val.createdAt) hr' hr

theorem Backed.of_oldest (h : FactorState.oldest (s.verifiedSeen i userId) = []) :
    Backed userId (s.methods.view i) := by
  refine .of_none fun k r hr => ?_
  by_contra hverified
  have hnil := oldest_eq_nil h
  have hmem : r ∈ s.verifiedSeen i userId := by
    refine List.mem_filter.mpr ⟨mem_viewed.mpr ?_, by simpa using hverified⟩
    rw [method_key hr]
    exact hr
  rw [hnil] at hmem
  cases hmem

/-! ## What the requests know -/

/-- The account for which a removal has no method left to promote. -/
def FactorFlow.covering : FactorFlow → Option Uuid
  | .disable (.delete request) => some request.userId
  | .disable (.count request) => some request.userId
  | .disable (.admin request _) => some request.userId
  | .disable (.commit request _) => some request.userId
  | .reset (.codes d) => some d.userId
  | .reset (.revoke d) => some d.userId
  | .reset (.commit d) => some d.userId
  | _ => none

/-- The account of which a reset drops all methods, and those left. -/
def FactorFlow.dropping : FactorFlow → Option (Uuid × List Uuid)
  | .reset (.drop d left) => some (d.userId, left)
  | _ => none

/-- The request is about to commit the method it has promoted. -/
def FactorFlow.promoted : FactorFlow → Bool
  | .activate (.commit _) => true
  | _ => false

/-- What a `verify_setup` relies on between its mark and the end of
`set_primary`. -/
structure Promotes (userId : Uuid) (i : Nat) (s : FactorState) (own : FactorFlow)
    (request : Activation) : Prop where
  unlocked : s.userLocks userId = none
  marked : ∃ r, s.methods.committed request.methodId = some r ∧ r.verifiedOf userId = true
  live : ∀ k r, s.methods.pending i k = some r → r.deleted = false
  demoted : own.promoted = false → ∀ k r, s.methods.pending i k = some r → r.val.isPrimary = false
  primary : own.promoted = true →
    ∃ k r, s.methods.pending i k = some r ∧ r.primaryOf userId = true

/-- What a request relies on, for the account `userId`. -/
structure Maintains (userId : Uuid) (i : Nat) (s : FactorState) (own : FactorFlow) : Prop where
  promotes : ∀ request, own.promoting = some request → request.userId = userId →
    Promotes userId i s own request
  covers : own.covering = some userId → Backed userId (s.methods.view i)
  picks : ∀ id, own.picked = some id → own.removing = some userId →
    ∃ r, s.methods.view i id = some r ∧ r.verifiedOf userId = true
  drops : ∀ left, own.dropping = some (userId, left) →
    ∀ k r, s.methods.view i k = some r → r.verifiedOf userId = true → k ∈ left

section

variable (h : Promotes userId i s own request) (hlocks : s'.userLocks = s.userLocks)
include h hlocks

theorem Promotes.congr (hmethods : s'.methods = s.methods)
    (hpromoted : own'.promoted = own.promoted) : Promotes userId i s' own' request := by
  obtain ⟨unlocked, marked, live, demoted, primary⟩ := h
  rw [← hlocks] at unlocked
  rw [← hmethods] at marked live demoted primary
  rw [← hpromoted] at demoted primary
  exact ⟨unlocked, marked, live, demoted, primary⟩

theorem Promotes.changed {w : Option MethodRow} (hc : Changed i k w s.methods s'.methods)
    (hbefore : own.promoted = false) (hlive : ∀ r ∈ w, r.deleted = false)
    (hdemoted : own'.promoted = false → ∀ r ∈ w, r.val.isPrimary = false)
    (hprimary : own'.promoted = true → ∃ r ∈ w, r.primaryOf userId = true) :
    Promotes userId i s' own' request := by
  have hpending : ∀ k' r, s'.methods.pending i k' = some r →
      r ∈ w ∨ s.methods.pending i k' = some r :=
    fun _ _ hr => (hc.pending_cases hr).imp_left And.right
  refine ⟨hlocks ▸ h.unlocked, ?_, fun k' r hr => ?_, fun hafter k' r hr => ?_, fun hafter => ?_⟩
  · rw [hc.committed]
    exact h.marked
  · exact (hpending k' r hr).elim (hlive r) (h.live k' r)
  · exact (hpending k' r hr).elim (hdemoted hafter r) (h.demoted hbefore k' r)
  · obtain ⟨r, hr, hr'⟩ := hprimary hafter
    refine ⟨k, r, ?_, hr'⟩
    rw [hc.self, Option.mem_def.mp hr]
    rfl

theorem Promotes.locked (hc : Changed i k none s.methods s'.methods)
    (hbefore : own.promoted = false) (hafter : own'.promoted = false) :
    Promotes userId i s' own' request := by
  refine h.changed hlocks hc hbefore (fun _ hr => ?_) (fun _ _ hr => ?_) fun hp => ?_
  · cases hr
  · cases hr
  · rw [hafter] at hp
    cases hp

end

/-! ### Steps of `verify_setup` -/

theorem Promotes.view (h : Promotes userId i s own request) (hok : MethodsOk s.methods) :
    ∃ r, s.methods.view i request.methodId = some r ∧ r.verifiedOf userId = true := by
  obtain ⟨r, hr, hverified⟩ := h.marked
  rw [view_eq]
  cases hpend : s.methods.pending i request.methodId with
  | none => exact ⟨r, hr, hverified⟩
  | some r' =>
    obtain ⟨r₀, hr₀, hfollows⟩ := hok.staged i _ r' hpend
    cases hr.symm.trans hr₀
    obtain ⟨-, huser, hver⟩ := MethodRow.verifiedOf_eq_true.mp hverified
    exact ⟨r', rfl, MethodRow.verifiedOf_eq_true.mpr
      ⟨h.live _ r' hpend, hfollows.userId_eq.trans huser, hfollows.isVerified_eq.trans hver⟩⟩

theorem mark_promotes {evidence : Evidence} (h : s.mark request.methodId = some s')
    (hk : WriterKnows i s (.activate (.mark request evidence))) (huser : request.userId = userId)
    (hmarks : ∀ r, s.methods.committed request.methodId = some r → r.val.userId = userId →
      s.userLocks userId = none ∧ r.deleted = false) :
    Promotes userId i s' (.activate (.primary request)) request := by
  obtain ⟨r₀, hr₀, hofUser⟩ := hk.known request rfl
  obtain ⟨hunlocked, hlive⟩ := hmarks r₀ hr₀ (hofUser.trans huser)
  have hwrites : Writes i s.methods none := hk.writes
  have hnone := hwrites.pending_none
  rcases mark_spec h with ⟨r, r', hr, -, hmark, hkey, hrep⟩ | ⟨-, hdeleted⟩
  · cases hr₀.symm.trans hr
    obtain ⟨hval, hdel, -⟩ := MethodRow.markVerified_eq_some hmark
    have hlocks : s'.userLocks = s.userLocks := by
      obtain ⟨_, rfl⟩ := mark_changes h
      rfl
    refine ⟨hlocks ▸ hunlocked, ⟨r', hkey ▸ hrep.self, ?_⟩, ?_, ?_, nofun⟩
    · refine MethodRow.verifiedOf_eq_true.mpr ⟨hdel.trans hlive, ?_, ?_⟩
      · rw [hval]
        exact hofUser.trans huser
      · rw [hval]
    · intro k r hr
      rw [hrep.pending, hnone] at hr
      cases hr
    · intro _ k r hr
      rw [hrep.pending, hnone] at hr
      cases hr
  · rw [hdeleted r₀ hr₀] at hlive
    cases hlive

theorem ActivateStepped.promotes {pc : ActivatePc} (h : ActivateStepped i inp s pc s' own)
    (hok : MethodsOk s.methods) (hk : WriterKnows i s (.activate pc))
    (hp : ∀ request, (FactorFlow.activate pc).promoting = some request →
      request.userId = userId → Promotes userId i s (.activate pc) request)
    (hmarks : ∀ id, (FactorFlow.activate pc).marking = some id →
      ∀ r, s.methods.committed id = some r → r.val.userId = userId →
        s.userLocks userId = none ∧ r.deleted = false)
    (hrequest : own.promoting = some request) (huser : request.userId = userId) :
    Promotes userId i s' own request := by
  cases h with
  | marked hmark =>
    cases hrequest
    exact mark_promotes hmark hk huser (hmarks _ rfl)
  | unsettled | scanned | demoted =>
    cases hrequest
    exact (hp request rfl huser).congr rfl rfl rfl
  | unset _ hvisit =>
    cases hrequest
    have hpromotes := hp request rfl huser
    rcases visit_unset primaryOf_live hvisit with ⟨r, r', -, -, hq, hset, hc, -⟩ | ⟨-, -, hc⟩ |
      ⟨-, hc⟩
    · obtain ⟨-, hprimary, hdeleted⟩ := MethodRow.follows_of_setPrimary hset
      refine hpromotes.changed rfl hc rfl ?_ ?_ fun hpromoted => by cases hpromoted
      · rintro _ ⟨⟩
        exact hdeleted.trans (primaryOf_live r hq)
      · rintro - _ ⟨⟩
        exact hprimary
    · exact hpromotes.locked rfl hc rfl rfl
    · exact hpromotes.locked rfl hc rfl rfl
  | promoted hpromote hv =>
    cases hrequest
    have hpromotes := hp request rfl huser
    obtain ⟨r₀, hview, hverified⟩ := hpromotes.view hok
    obtain ⟨hlive, hofUser, hver⟩ := MethodRow.verifiedOf_eq_true.mp hverified
    rcases promoteRow_spec verified_live hpromote with ⟨r, r', -, hr, -, hset, hc, -⟩ |
      ⟨-, hskipped, -⟩ | ⟨rfl, -⟩
    · cases hview.symm.trans hr
      obtain ⟨hfollows, hprimary, hdeleted⟩ := MethodRow.follows_of_setPrimary hset
      refine hpromotes.changed rfl hc rfl ?_ (fun hpromoted => by cases hpromoted)
        fun _ => ⟨r', rfl, ?_⟩
      · rintro _ ⟨⟩
        exact hdeleted.trans hlive
      · exact MethodRow.primaryOf_eq_true.mpr
          ⟨hdeleted.trans hlive, hfollows.userId_eq.trans hofUser, hprimary⟩
    · have hfalse := hskipped r₀ hview
      simp [hlive, hver] at hfalse
    · exact (hv rfl).elim
  | _ => cases hrequest

theorem setPrimary_isSome {b : Bool} (h : r.val.isVerified = true) : (r.setPrimary b).isSome := by
  have hchecks : ({ r.val with isPrimary := b } : TwoFactorMethod).Checks :=
    ⟨fun _ => h, r.checks.payload⟩
  simp [MethodRow.setPrimary, MethodRow.update, hchecks]

theorem primary_of_violation (hprimary : r.primaryOf userId = true)
    (h : db.conflict MethodRow.primaryIndex i r = .violation) :
    ∃ k r', db.view i k = some r' ∧ r'.primaryOf userId = true := by
  simp only [conflict, MethodRow.primaryIndex_eq_some.mpr hprimary] at h
  split_ifs at h with hwait hfound
  simp only [List.any_eq_true, Bool.and_eq_true, Option.any_eq_true, decide_eq_true_eq] at hfound
  obtain ⟨k, -, -, r', hr', hindex⟩ := hfound
  exact ⟨k, r', hr', MethodRow.primaryIndex_eq_some.mp hindex⟩

/-- A `verify_setup` leaves `set_primary`, or finds that it has nothing to
do there, with a primary method committed. -/
theorem ActivateStepped.settles {pc : ActivatePc} (h : ActivateStepped i inp s pc s' own)
    (hok : MethodsOk s.methods)
    (hrequest : (FactorFlow.activate pc).promoting = some request)
    (huser : request.userId = userId) (hp : Promotes userId i s (.activate pc) request)
    (hends : ∀ request, own.promoting = some request → request.userId ≠ userId) :
    ∃ k r, s'.methods.committed k = some r ∧ r.primaryOf userId = true := by
  cases h with
  | settled hfound =>
    cases hrequest
    obtain ⟨r, hr⟩ := Option.isSome_iff_exists.mp hfound
    have hprimary := List.find?_some hr
    exact ⟨r.val.id, r, mem_rows.mp (List.mem_of_find?_eq_some hr), huser ▸ hprimary⟩
  | stuck hvisit =>
    -- A method that is primary is verified, so it can be demoted.
    rcases visit_spec (setPrimary_key false) hvisit with ⟨_, _, hv, -⟩ | ⟨hv, -⟩ |
      ⟨r, -, -, hq, hnone, -⟩
    · cases hv
    · cases hv
    · have hsome := setPrimary_isSome (b := false)
        (r.checks.primary (MethodRow.primaryOf_eq_true.mp hq).2.2)
      rw [hnone] at hsome
      cases hsome
  | turnedDown hpromote =>
    cases hrequest
    rcases promoteRow_spec verified_live hpromote with ⟨_, _, hv, -⟩ | ⟨hv, -⟩ |
      ⟨-, hdb, hrefused⟩
    · cases hv
    · cases hv
    obtain ⟨r₀, hview, hverified⟩ := hp.view hok
    obtain ⟨hlive, hofUser, hver⟩ := MethodRow.verifiedOf_eq_true.mp hverified
    rcases hrefused with ⟨r, hr, -, hnone⟩ | ⟨r, r', hr, hset, hconflict⟩
    · cases hview.symm.trans hr
      have hsome := setPrimary_isSome (b := true) hver
      rw [hnone] at hsome
      cases hsome
    · cases hview.symm.trans hr
      obtain ⟨hfollows, hprimary, hdeleted⟩ := MethodRow.follows_of_setPrimary hset
      have hprimaryOf : r'.primaryOf userId = true := MethodRow.primaryOf_eq_true.mpr
        ⟨hdeleted.trans hlive, hfollows.userId_eq.trans hofUser, hprimary⟩
      obtain ⟨k, r₁, hr₁, hprimary₁⟩ := primary_of_violation hprimaryOf hconflict
      -- What the transaction itself has written is not primary.
      have hcommitted : s.methods.committed k = some r₁ := by
        rw [view_eq] at hr₁
        cases hpend : s.methods.pending i k with
        | none =>
          rw [hpend] at hr₁
          exact hr₁
        | some =>
          rw [hpend] at hr₁
          cases hr₁
          have hnot := hp.demoted rfl k r₁ hpend
          rw [(MethodRow.primaryOf_eq_true.mp hprimary₁).2.2] at hnot
          cases hnot
      refine ⟨k, r₁, ?_, hprimary₁⟩
      refine (Pg.Slot.rollback_committed i _).trans ?_
      rcases hdb with rfl | ⟨k', hc⟩
      · exact hcommitted
      · exact (hc.committed k).trans hcommitted
  | committed =>
    cases hrequest
    obtain ⟨k, r, hr, hprimary⟩ := hp.primary rfl
    refine ⟨k, r, ?_, hprimary⟩
    rw [commit_view, view_eq, hr]
    rfl
  | unsettled | scanned | demoted | unset | promoted =>
    cases hrequest
    exact absurd huser (hends request rfl)
  | _ => cases hrequest

/-! ### Steps of a removal -/

theorem Backed.deleted {r' : MethodRow} (h : Backed userId (db.view i))
    (hc : Changed i k (some r') db db') (hview : db.view i k = some r)
    (hdelete : r.delete = some r') (hprimary : r'.val.isPrimary = false) :
    Backed userId (db'.view i) := by
  obtain ⟨-, hval, hdeleted⟩ := MethodRow.follows_of_delete hdelete
  rintro ⟨k₁, r₁, hr₁, hverified⟩
  have hne : k₁ ≠ k := by
    rintro rfl
    cases hc.view_self.symm.trans hr₁
    rw [(MethodRow.verifiedOf_eq_true.mp hverified).1] at hdeleted
    cases hdeleted
  rw [hc.view_of_ne (.inr hne)] at hr₁
  obtain ⟨k₂, r₂, hr₂, hprimary₂⟩ := h ⟨k₁, r₁, hr₁, hverified⟩
  have hne₂ : k₂ ≠ k := by
    rintro rfl
    cases hview.symm.trans hr₂
    rw [hval, (MethodRow.primaryOf_eq_true.mp hprimary₂).2.2] at hprimary
    cases hprimary
  exact ⟨k₂, r₂, (hc.view_of_ne (.inr hne₂)).trans hr₂, hprimary₂⟩

theorem Backed.of_promoteRow (hpick : ∃ r, db.view i k = some r ∧ r.verifiedOf userId = true)
    (h : promoteRow db i k (fun r => !r.deleted) = some (v, db')) (hv : v ≠ .violation) :
    Backed userId (db'.view i) := by
  obtain ⟨r₀, hview, hverified⟩ := hpick
  obtain ⟨hlive, huser, -⟩ := MethodRow.verifiedOf_eq_true.mp hverified
  rcases promoteRow_spec not_deleted_live h with ⟨r, r', -, hr, -, hset, hc, -⟩ |
    ⟨-, hskipped, -⟩ | ⟨rfl, -⟩
  · cases hview.symm.trans hr
    obtain ⟨hfollows, hprimary, hdeleted⟩ := MethodRow.follows_of_setPrimary hset
    exact fun _ => ⟨k, r', hc.view_self, MethodRow.primaryOf_eq_true.mpr
      ⟨hdeleted.trans hlive, hfollows.userId_eq.trans huser, hprimary⟩⟩
  · have hfalse := hskipped r₀ hview
    simp [hlive] at hfalse
  · exact absurd rfl hv

theorem Backed.of_committed (h : Backed userId db.committed) (hw : Writes i db none) :
    Backed userId (db.view i) := by
  have hview : db.view i = db.committed := by
    funext k
    rw [view_eq, hw.pending_none]
    rfl
  rw [hview]
  exact h

theorem DisableStepped.covers {pc : DisablePc} (h : DisableStepped i inp s pc s' own)
    (hk : WriterKnows i s (.disable pc)) (hm : Maintains userId i s (.disable pc))
    (hlocking : (FactorFlow.disable pc).locking = some userId →
      Backed userId s.methods.committed)
    (hcovering : own.covering = some userId) : Backed userId (s'.methods.view i) := by
  cases h with
  | locked hlock =>
    obtain ⟨-, -, rfl⟩ := FactorState.lockRow_eq_some hlock
    exact (hlocking hcovering).of_committed hk.writes
  | deleted hvisit =>
    rcases visit_delete removable_live hvisit with ⟨r, r', hv, hview, -, hdelete, hc, -⟩ |
      ⟨hv, -⟩
    · cases hv
      split at hcovering
      · cases hcovering
      · rename_i hprimary
        exact (hm.covers hcovering).deleted hc hview hdelete (by simpa using hprimary)
    · cases hv
  | noneLeft hnil =>
    cases hcovering
    exact .of_oldest hnil
  | promoted hpromote hv => exact .of_promoteRow (hm.picks _ rfl hcovering) hpromote hv
  | counted | passed => exact hm.covers hcovering
  | _ => cases hcovering

theorem ResetMoved.covers (h : ResetMoved i inp s pc s' own)
    (hk : WriterKnows i s (.reset pc)) (hm : Maintains userId i s (.reset pc))
    (hlocking : (FactorFlow.reset pc).locking = some userId → Backed userId s.methods.committed)
    (hcovering : own.covering = some userId) : Backed userId (s'.methods.view i) := by
  cases h with
  | spared htouch =>
    obtain ⟨-, rfl⟩ := FactorState.touchRow_eq_some htouch
    exact (hlocking hcovering).of_committed hk.writes
  | unpromoted hwhy =>
    cases hcovering
    rcases hwhy with hprimary | hnil
    · obtain ⟨r, hr, hprimary⟩ := List.any_eq_true.mp hprimary
      exact fun _ => ⟨r.val.id, r, mem_viewed.mp hr, hprimary⟩
    · exact .of_oldest hnil
  | promoted hpromote hv => exact .of_promoteRow (hm.picks _ rfl hcovering) hpromote hv
  | counted | revoked => exact hm.covers hcovering
  | dropped =>
    cases hcovering
    refine .of_none fun k r hr => ?_
    by_contra hverified
    have hmem := hm.drops [] rfl k r hr (by simpa using hverified)
    cases hmem
  | _ => cases hcovering

theorem drops_visited {left : List Uuid}
    (h : db.visit i k (MethodRow.ofUser userId) MethodRow.delete = some (v, db'))
    (hleft : ∀ k r, db.view i k = some r → r.verifiedOf userId = true → k ∈ left) {k' : Uuid}
    (hr : db'.view i k' = some r) (hverified : r.verifiedOf userId = true) : k' ∈ left.erase k := by
  have hne : k' ≠ k := by
    rintro rfl
    rcases visit_delete ofUser_live h with ⟨_, r', -, -, -, hdelete, hc, -⟩ | ⟨-, hskipped, hc⟩
    · cases hc.view_self.symm.trans hr
      have hdeleted := (MethodRow.follows_of_delete hdelete).2.2
      rw [(MethodRow.verifiedOf_eq_true.mp hverified).1] at hdeleted
      cases hdeleted
    · rw [hc.view_none] at hr
      have hfalse := hskipped r hr
      simp [MethodRow.verifiedOf, hfalse] at hverified
  rw [List.mem_erase_of_ne hne]
  rcases visit_delete ofUser_live h with ⟨_, _, -, -, -, -, hc, -⟩ | ⟨-, -, hc⟩
  · exact hleft k' r (hc.view_of_ne (.inr hne) ▸ hr) hverified
  · exact hleft k' r (hc.view_none ▸ hr) hverified

theorem ResetMoved.leaves {left : List Uuid} (h : ResetMoved i inp s pc s' own)
    (hm : Maintains userId i s (.reset pc)) (hdropping : own.dropping = some (userId, left))
    (hr : s'.methods.view i k = some r) (hverified : r.verifiedOf userId = true) : k ∈ left := by
  cases h with
  | drops =>
    cases hdropping
    refine mem_scan.mpr ⟨r, hr, ?_⟩
    obtain ⟨hlive, huser, -⟩ := MethodRow.verifiedOf_eq_true.mp hverified
    exact MethodRow.ofUser_eq_true.mpr ⟨hlive, huser⟩
  | dropping hvisit =>
    cases hdropping
    exact drops_visited hvisit (hm.drops _ rfl) hr hverified
  | _ => cases hdropping

/-! ### Steps of any request -/

theorem FactorFlow.promoting_none (h : own.kind ≠ some .activate) : own.promoting = none := by
  cases own with
  | activate => exact absurd rfl h
  | _ => rfl

theorem FactorFlow.covering_none (hdisable : own.kind ≠ some .disable)
    (hreset : own.kind ≠ some .reset) : own.covering = none ∧ own.dropping = none := by
  cases own with
  | disable => exact absurd rfl hdisable
  | reset => exact absurd rfl hreset
  | _ => exact ⟨rfl, rfl⟩

theorem FactorFlow.dropping_none (hreset : own.kind ≠ some .reset) : own.dropping = none := by
  cases own with
  | reset => exact absurd rfl hreset
  | _ => rfl

theorem Maintains.of_none (hpromoting : own.promoting = none) (hremoving : own.removing = none)
    (hcovering : own.covering = none) (hdropping : own.dropping = none) :
    Maintains userId i s own where
  promotes := by simp [hpromoting]
  covers := by simp [hcovering]
  picks := by simp [hremoving]
  drops := by simp [hdropping]

theorem Maintains.frame (h : Maintains userId i s own) (hlocks : s'.userLocks = s.userLocks)
    (hmethods : s'.methods = s.methods) : Maintains userId i s' own := by
  obtain ⟨promotes, covers, picks, drops⟩ := h
  rw [← hmethods] at covers picks drops
  exact ⟨fun request hr hu => (promotes request hr hu).congr hlocks hmethods rfl,
    covers, picks, drops⟩

theorem ownStep_maintains (h : ownStep i inp s p = some (s', own)) (hok : MethodsOk s.methods)
    (hk : WriterKnows i s p.own) (hm : Maintains userId i s p.own)
    (hmarks : ∀ id, p.own.marking = some id → ∀ r, s.methods.committed id = some r →
      r.val.userId = userId → s.userLocks userId = none ∧ r.deleted = false)
    (hlocking : p.own.locking = some userId → Backed userId s.methods.committed) :
    Maintains userId i s' own := by
  have hnext := ownStep_next h
  by_cases hactivate : p.own.kind = some .activate
  · obtain ⟨pc, hown⟩ := FactorFlow.eq_activate hactivate
    rw [hown] at hk hm hmarks hnext
    simp only [ownStep, hown] at h
    obtain ⟨hremoving, -⟩ := FactorFlow.removing_none (hnext.kind_ne nofun) (hnext.kind_ne nofun)
    obtain ⟨hcovering, hdropping⟩ :=
      FactorFlow.covering_none (hnext.kind_ne nofun) (hnext.kind_ne nofun)
    refine ⟨fun request hrequest huser => ?_, by simp [hcovering], by simp [hremoving],
      by simp [hdropping]⟩
    exact (activateStepped h).promotes hok hk hm.promotes hmarks hrequest huser
  have hpromoting := FactorFlow.promoting_none (hnext.kind_ne hactivate)
  by_cases hdisable : p.own.kind = some .disable
  · obtain ⟨pc, hown⟩ := FactorFlow.eq_disable hdisable
    have hdropping := FactorFlow.dropping_none (hnext.kind_ne (by simp [hdisable]))
    rw [hown] at hk hm hlocking
    simp only [ownStep, hown] at h
    refine ⟨by simp [hpromoting], (disableStepped h).covers hk hm hlocking, fun id hid hu => ?_,
      by simp [hdropping]⟩
    exact (disableStepped h).picks hid hu
  by_cases hreset : p.own.kind = some .reset
  · obtain ⟨pc, hown⟩ := FactorFlow.eq_reset hreset
    rw [hown] at hk hm hlocking
    simp only [ownStep, hown] at h
    refine ⟨by simp [hpromoting], (resetMoved h).covers hk hm hlocking, fun id hid hu => ?_,
      fun left hleft k r hr hverified => (resetMoved h).leaves hm hleft hr hverified⟩
    exact (resetMoved h).picks hid hu
  · obtain ⟨hremoving, -⟩ :=
      FactorFlow.removing_none (hnext.kind_ne hdisable) (hnext.kind_ne hreset)
    obtain ⟨hcovering, hdropping⟩ :=
      FactorFlow.covering_none (hnext.kind_ne hdisable) (hnext.kind_ne hreset)
    exact .of_none hpromoting hremoving hcovering hdropping

/-! ### Steps of others -/

theorem FactorFlow.writer_cases (h : own.writer = some userId) :
    own.removing = some userId ∨
      ∃ request, own.promoting = some request ∧ request.userId = userId := by
  cases own with
  | activate pc =>
    cases pc with
    | unset request | promote request | commit request =>
      cases h
      exact .inr ⟨request, rfl, rfl⟩
    | _ => cases h
  | _ => exact .inl h

theorem FactorFlow.removing_of_covering (h : own.covering = some userId) :
    own.removing = some userId := by
  unfold FactorFlow.covering at h
  split at h
  all_goals first
    | exact h
    | cases h

theorem FactorFlow.removing_of_dropping {left : List Uuid}
    (h : own.dropping = some (userId, left)) : own.removing = some userId := by
  unfold FactorFlow.dropping at h
  split at h <;> cases h
  rfl

/-- A process writes no methods of the account while another holds the lock
of its row. -/
theorem Maintains.pending_user (hm : Maintains userId i s p.own) (hk : WriterKnows i s p.own)
    {l : UserLock} (hl : s.userLocks userId = some l) (hne : l.holder ≠ i) :
    ∀ k r, s.methods.pending i k = some r → r.val.userId ≠ userId := by
  intro k r hr huser
  have hwriter := hk.writes k r hr
  rw [huser] at hwriter
  rcases FactorFlow.writer_cases hwriter with hremoving | ⟨request, hrequest, huser'⟩
  · obtain ⟨l', hl', hholder, -⟩ := hk.held userId hremoving
    cases hl.symm.trans hl'
    exact hne hholder
  · cases hl.symm.trans (hm.promotes request hrequest huser').unlocked

section

variable (h : FactorStepped i s p a s' p') (hok : MethodsOk s.methods) (hk : WriterKnows i s p.own)
  (hm : Maintains userId i s p.own)
include h hok hk hm

/-- What a removal sees of the verified methods of its account no other
request changes. -/
theorem FactorStepped.sameVerified
    (hmarks : ∀ id, (a.executes p.own).marking = some id → ∀ r, s.methods.committed id = some r →
      r.val.userId = userId → s.userLocks userId = none ∧ r.deleted = false)
    (hkj : WriterKnows j s own) (hremoving : own.removing = some userId) (hne : j ≠ i) :
    SameVerified userId (s.methods.view j) (s'.methods.view j) := by
  obtain ⟨l, hl, rfl, -⟩ := hkj.held userId hremoving
  refine h.methods.sameVerified_view hok hne (hm.pending_user hk hl hne) ?_
  intro k r hmarking hr huser
  cases hl.symm.trans (hmarks k hmarking r hr huser).1

/-- A method that a `verify_setup` has marked stays there while no removal
is at work. -/
theorem FactorStepped.marked (hunlocked : s.userLocks userId = none)
    (hmarked : ∃ r, s.methods.committed k = some r ∧ r.verifiedOf userId = true) :
    ∃ r, s'.methods.committed k = some r ∧ r.verifiedOf userId = true := by
  obtain ⟨r, hr, hverified⟩ := hmarked
  obtain ⟨hlive, huser, hver⟩ := MethodRow.verifiedOf_eq_true.mp hverified
  cases h.methods.rowChange k with
  | same heq => exact ⟨r, heq.trans hr, hverified⟩
  | @published r' hpending hnew =>
    obtain ⟨r₀, hr₀, hfollows⟩ := hok.staged i k r' hpending
    cases hr.symm.trans hr₀
    have huser' : r'.val.userId = userId := hfollows.userId_eq.trans huser
    refine ⟨r', hnew, MethodRow.verifiedOf_eq_true.mpr
      ⟨?_, huser', hfollows.isVerified_eq.trans hver⟩⟩
    have hwriter := hk.writes k r' hpending
    rw [huser'] at hwriter
    rcases FactorFlow.writer_cases hwriter with hremoving | ⟨request, hrequest, hofUser⟩
    · obtain ⟨l, hl, -⟩ := hk.held userId hremoving
      cases hunlocked.symm.trans hl
    · exact (hm.promotes request hrequest hofUser).live k r' hpending
  | restarted _ hold _ hrestartable =>
    cases hr.symm.trans hold
    simp [MethodRow.restartable, hver] at hrestartable
  | created hold => cases hr.symm.trans hold
  | @marked _ _ _ _ r' _ _ hold hnew _ hmark =>
    cases hr.symm.trans hold
    obtain ⟨hval, hdeleted, -⟩ := MethodRow.markVerified_eq_some hmark
    refine ⟨r', hnew, MethodRow.verifiedOf_eq_true.mpr ⟨hdeleted.trans hlive, ?_, ?_⟩⟩
    · rw [hval]
      exact huser
    · rw [hval]

end

theorem Maintains.stable (h : Maintains userId j s own) (hkj : WriterKnows j s own)
    (hstep : FactorStepped i s p a s' p') (hok : MethodsOk s.methods)
    (hk : WriterKnows i s p.own) (hm : Maintains userId i s p.own)
    (hmarks : ∀ id, (a.executes p.own).marking = some id → ∀ r, s.methods.committed id = some r →
      r.val.userId = userId → s.userLocks userId = none ∧ r.deleted = false)
    (hapart : (a.executes p.own).locking = some userId →
      ∀ request, own.promoting = some request → request.userId ≠ userId)
    (hne : j ≠ i) : Maintains userId j s' own := by
  have hsame := fun hremoving => hstep.sameVerified hok hk hm hmarks hkj hremoving hne
  refine ⟨fun request hrequest huser => ?_, fun hcovering => ?_, fun id hid hremoving => ?_,
    fun left hleft k r hr hverified => ?_⟩
  · obtain ⟨hunlocked, hmarked, hlive, hdemoted, hprimary⟩ := h.promotes request hrequest huser
    have hpending := hstep.methods.pending_other hne
    simp only [← hpending] at hlive hdemoted hprimary
    refine ⟨?_, hstep.marked hok hk hm hunlocked hmarked, hlive, hdemoted, hprimary⟩
    have hlock := hstep.locks userId
    rw [hunlocked] at hlock
    refine hlock.none (fun hlocking => hapart hlocking request hrequest huser) fun hremoving => ?_
    have hremoving' : p.own.removing = some userId := by
      cases a <;> first | exact hremoving | cases hremoving
    obtain ⟨l, hl, -⟩ := hk.held userId hremoving'
    cases hunlocked.symm.trans hl
  · exact (h.covers hcovering).congr (hsame (FactorFlow.removing_of_covering hcovering))
  · obtain ⟨r, hr, hverified⟩ := h.picks id hid hremoving
    exact ⟨r, (hsame hremoving id r hverified).mpr hr, hverified⟩
  · refine h.drops left hleft k r ?_ hverified
    exact (hsame (FactorFlow.removing_of_dropping hleft) k r hverified).mp hr

/-! ## Every run -/

theorem visit_committed {q : MethodRow → Bool}
    (h : db.visit i k q MethodRow.delete = some (v, db')) : db'.committed = db.committed := by
  funext k'
  rcases visit_spec delete_key h with ⟨_, _, -, -, -, -, hc⟩ | ⟨-, -, hc⟩ | ⟨_, -, -, -, -, hc⟩ <;>
    exact hc.committed k'

theorem promoteRow_committed (h : promoteRow db i k (fun r => !r.deleted) = some (v, db')) :
    db'.committed = db.committed := by
  funext k'
  rcases promoteRow_spec not_deleted_live h with ⟨_, _, -, -, -, -, hc, -⟩ | ⟨-, -, hc⟩ |
    ⟨-, rfl | ⟨_, hc⟩, -⟩
  · exact hc.committed k'
  · exact hc.committed k'
  · rfl
  · exact hc.committed k'

theorem rollback_committed : (db.rollback i).committed = db.committed :=
  funext fun _ => Pg.Slot.rollback_committed i _

theorem DisableStepped.commits {pc : DisablePc} (h : DisableStepped i inp s pc s' own) :
    (∃ request codes, pc = .commit request codes ∧ s'.methods = s.methods.commit i) ∨
      s'.methods.committed = s.methods.committed := by
  cases h with
  | locked hlock =>
    obtain ⟨-, -, rfl⟩ := FactorState.lockRow_eq_some hlock
    exact .inr rfl
  | deleted hvisit => exact .inr (visit_committed hvisit)
  | missed hvisit => exact .inr (rollback_committed.trans (visit_committed hvisit))
  | turnedDown hpromote => exact .inr (rollback_committed.trans (promoteRow_committed hpromote))
  | promoted hpromote => exact .inr (promoteRow_committed hpromote)
  | guarded => exact .inr rollback_committed
  | committed => exact .inl ⟨_, _, rfl, rfl⟩
  | _ => exact .inr rfl

theorem ResetMoved.unchanged (h : ResetMoved i inp s pc s' own) :
    s'.methods.committed = s.methods.committed := by
  cases h with
  | spared htouch | touched htouch =>
    obtain ⟨-, rfl⟩ := FactorState.touchRow_eq_some htouch
    rfl
  | locked hlock =>
    obtain ⟨-, -, rfl⟩ := FactorState.lockRow_eq_some hlock
    rfl
  | deleted hvisit | dropping hvisit => exact visit_committed hvisit
  | promoted hpromote => exact promoteRow_committed hpromote
  | _ => rfl

/-- The invariant, for the account `userId`. -/
structure PrimaryOk (userId : Uuid) (c : FactorConf) : Prop where
  writers : WritersOk c
  procs : ∀ i, Maintains userId i c.shared (c.procs i).own
  covered : Backed userId c.shared.methods.committed ∨
    ∃ i request, (c.procs i).own.promoting = some request ∧ request.userId = userId

theorem PrimaryOk.left (h : PrimaryOk userId c) (hok : PromotesApart userId c i a)
    (hstep : FactorStepped i c.shared (c.procs i) a s' p')
    (hrequest : (c.procs i).own.promoting = some request) (huser : request.userId = userId)
    (hleft : ∀ request, p'.own.promoting = some request → request.userId ≠ userId) :
    Backed userId s'.methods.committed := by
  generalize hown : p'.own = own at hleft
  have hmoved := hown ▸ hstep.moved
  cases hmoved with
  | stays => exact absurd huser (hleft request hrequest)
  | enters _ _ hidle =>
    rw [hidle] at hrequest
    cases hrequest
  | ends _ ha => exact absurd huser (hok.ends (by rw [ha]; rfl) request hrequest)
  | commits _ hreset | givesUp _ hreset =>
    rw [hreset] at hrequest
    cases hrequest
  | goes _ hgo =>
    have hp := (h.procs i).promotes request hrequest huser
    by_cases hkind : (c.procs i).own.kind = some .activate
    · obtain ⟨pc, hpc⟩ := FactorFlow.eq_activate hkind
      rw [hpc] at hrequest hp
      simp only [ownStep, hpc] at hgo
      exact fun _ =>
        (activateStepped hgo).settles h.writers.methods hrequest huser hp hleft
    · rw [FactorFlow.promoting_none hkind] at hrequest
      cases hrequest

theorem FactorStepped.marks (h : FactorStepped i s p a s' p') (hk : WriterKnows i s p.own)
    (hmarking : (a.executes p.own).marking = some k) (hr : s.methods.committed k = some r) :
    ∃ request, p'.own.promoting = some request ∧ r.val.userId = request.userId := by
  cases h with
  | @go inp s' own hgo =>
    generalize hown : p.own = own at hmarking hk
    simp only [FactorAct.executes] at hmarking
    unfold FactorFlow.marking at hmarking
    split at hmarking <;> cases hmarking
    rename_i request evidence
    obtain ⟨r₀, hr₀, huser⟩ := hk.known request rfl
    cases hr.symm.trans hr₀
    simp only [ownStep, hown, activateStep] at hgo
    split at hgo <;> cases hgo
    exact ⟨request, rfl, huser⟩
  | _ => cases hmarking

section

variable (h : PrimaryOk userId c) (hstep : FactorStepped i c.shared (c.procs i) a s' p')
  (hcovered : Backed userId c.shared.methods.committed)
include h hstep hcovered

/-- A removal of methods of the account leaves a primary one. -/
theorem PrimaryOk.removed (hremoving : (c.procs i).own.removing = some userId) :
    Backed userId s'.methods.committed := by
  have hcovers := (h.procs i).covers
  have hcommit : (c.procs i).own.covering = some userId →
      s'.methods = c.shared.methods.commit i → Backed userId s'.methods.committed := by
    intro hcovering hmethods
    have hview : s'.methods.committed = c.shared.methods.view i := by
      rw [hmethods]
      exact funext fun k => commit_view i k
    rw [hview]
    exact hcovers hcovering
  generalize hown' : p'.own = own
  have hmoved := hown' ▸ hstep.moved
  cases hmoved with
  | stays _ hframe | enters _ _ _ hframe => exact hframe.methods ▸ hcovered
  | ends _ _ hmethods | givesUp _ _ hmethods =>
    rw [hmethods, rollback_committed]
    exact hcovered
  | commits _ hown hmethods =>
    rw [hown] at hremoving hcommit
    exact hcommit hremoving hmethods
  | goes _ hgo =>
    unfold ownStep at hgo
    split at hgo <;> rename_i hown <;> rw [hown] at hremoving hcommit
    case h_4 =>
      rcases (disableStepped hgo).commits with ⟨request, codes, rfl, hmethods⟩ | hsame
      · exact hcommit hremoving hmethods
      · exact hsame ▸ hcovered
    case h_5 => exact (resetMoved hgo).unchanged ▸ hcovered
    all_goals cases hremoving

theorem PrimaryOk.kept
    (hbefore : ∀ request, (c.procs i).own.promoting = some request → request.userId ≠ userId)
    (hafter : ∀ request, p'.own.promoting = some request → request.userId ≠ userId) :
    Backed userId s'.methods.committed := by
  have hk := h.writers.procs i
  have hsame : (c.procs i).own.writer ≠ some userId → Backed userId s'.methods.committed := by
    intro hwriter
    refine hcovered.congr fun k r hr => ?_
    refine (hstep.methods.rowChange k).sameVerified h.writers.methods ?_ ?_ r hr
    · intro r' hr' huser
      exact hwriter (huser ▸ hk.writes k r' hr')
    · intro r' hmarking hr' huser
      obtain ⟨request, hnext, hofUser⟩ := hstep.marks hk hmarking hr'
      exact hafter request hnext (hofUser.symm.trans huser)
  by_cases hwriter : (c.procs i).own.writer = some userId
  · have hremoving : (c.procs i).own.removing = some userId := by
      rcases FactorFlow.writer_cases hwriter with hremoving | ⟨request, hrequest, huser⟩
      · exact hremoving
      · exact absurd huser (hbefore request hrequest)
    exact h.removed hstep hcovered hremoving
  · exact hsame hwriter

end

theorem PrimaryOk.step (h : PrimaryOk userId c) (hok : PromotesApart userId c i a)
    (hprog : factorProgram i a c.shared (c.procs i) = some (s', p')) :
    PrimaryOk userId (c.set i s' p') := by
  have hstep := factorStepped hprog
  have hk := h.writers.procs
  refine ⟨h.writers.step hprog, fun j => ?_, ?_⟩
  · refine Conf.set_cases j ?_ fun j hji => ?_
    · show Maintains userId i s' p'.own
      generalize hown : p'.own = own
      have hmoved := hown ▸ hstep.moved
      cases hmoved with
      | stays _ hframe => exact (h.procs i).frame hframe.userLocks hframe.methods
      | enters call => cases call <;> exact .of_none rfl rfl rfl rfl
      | ends | commits | givesUp => exact .of_none rfl rfl rfl rfl
      | goes ha hgo =>
        subst ha
        refine ownStep_maintains hgo h.writers.methods (hk i) (h.procs i) hok.marks ?_
        intro hlocking
        refine h.covered.resolve_right ?_
        rintro ⟨j', request, hrequest, huser⟩
        exact (hok.others j').apart hlocking request hrequest huser
    · exact (h.procs j).stable (hk j) hstep h.writers.methods (hk i) (h.procs i) hok.marks
        (hok.others j).apart hji
  · by_cases hafter : ∃ j request, ((c.set i s' p').procs j).own.promoting = some request ∧
        request.userId = userId
    · exact .inr hafter
    · simp only [not_exists, not_and] at hafter
      have hafter' : ∀ request, p'.own.promoting = some request → request.userId ≠ userId := by
        intro request hrequest
        refine hafter i request ?_
        rw [Conf.set_procs_self]
        exact hrequest
      left
      by_cases hbefore : ∃ request, (c.procs i).own.promoting = some request ∧
          request.userId = userId
      · obtain ⟨request, hrequest, huser⟩ := hbefore
        exact h.left hok hstep hrequest huser hafter'
      · simp only [not_exists, not_and] at hbefore
        refine h.kept hstep (h.covered.resolve_right ?_) hbefore hafter'
        rintro ⟨j, request, hrequest, huser⟩
        by_cases hji : j = i
        · subst hji
          exact hbefore request hrequest huser
        · refine hafter j request ?_ huser
          rw [Conf.set_procs_of_ne _ _ _ hji]
          exact hrequest

theorem primaryOk_initial (userId : Uuid) (config : FactorConfig) (cfg : JwtConfig)
    (deviceAuth : DeviceAuthConfig) (clock : OffsetDateTime) (ahead : Int) :
    PrimaryOk userId (factorInitial config cfg deviceAuth clock ahead) :=
  ⟨writersOk_initial config cfg deviceAuth clock ahead, fun _ => .of_none rfl rfl rfl rfl,
    .inl nofun⟩

/-- The account a call to `verify_setup`, `disable_method` or
`reset_password` is for, until it has ended. -/
def FactorFlow.manages : FactorFlow → Option Uuid
  | .activate (.read request) => some request.userId
  | .disable (.reauth request) => some request.userId
  | own => own.locking <|> own.removing <|> own.activation.map (·.userId)

theorem FactorFlow.manages_of_promoting (h : own.promoting = some request) :
    own.manages = some request.userId := by
  unfold FactorFlow.promoting at h
  split at h <;> cases h <;> rfl

/-- **The primary method.** In a run that meets the condition, whenever no
call to `verify_setup`, `disable_method` or `reset_password` for the
account is under way and the account has a verified method, exactly one of
its verified methods is primary. -/
theorem primary_exists {config : FactorConfig} {cfg : JwtConfig} {deviceAuth : DeviceAuthConfig}
    {clock : OffsetDateTime} {ahead : Int} {userId : Uuid} {c : FactorConf}
    (hrun : Steps factorProgram (PromotesApart userId)
      (factorInitial config cfg deviceAuth clock ahead) c)
    (hended : ∀ i, (c.procs i).own.manages ≠ some userId)
    (hverified : ∃ id r, c.shared.methods.committed id = some r ∧ r.verifiedOf userId = true) :
    ∃! id, ∃ r, c.shared.methods.committed id = some r ∧ r.verifiedOf userId = true ∧
      r.val.isPrimary = true := by
  have h : PrimaryOk userId c :=
    hrun.invariant (fun _ _ a _ _ hc hok hprog => hc.step (a := a) hok hprog)
      (primaryOk_initial userId config cfg deviceAuth clock ahead)
  have hcovered : Backed userId c.shared.methods.committed := by
    refine h.covered.resolve_right ?_
    rintro ⟨i, request, hrequest, huser⟩
    exact hended i (huser ▸ FactorFlow.manages_of_promoting hrequest)
  obtain ⟨id, r, hr, hprimary⟩ := hcovered hverified
  obtain ⟨-, -, hisPrimary⟩ := MethodRow.primaryOf_eq_true.mp hprimary
  refine ⟨id, ⟨r, hr, MethodRow.verifiedOf_of_primaryOf hprimary, hisPrimary⟩, ?_⟩
  rintro id' ⟨r', hr', hverified', hisPrimary'⟩
  obtain ⟨hlive, huser, -⟩ := MethodRow.verifiedOf_eq_true.mp hverified'
  have hprimary' : r'.primaryOf userId = true :=
    MethodRow.primaryOf_eq_true.mpr ⟨hlive, huser, hisPrimary'⟩
  exact h.writers.methods.unique.committed id' id r' r userId hr' hr
    (MethodRow.primaryIndex_eq_some.mpr hprimary') (MethodRow.primaryIndex_eq_some.mpr hprimary)

/-! ## A verification that stops half-way -/

/-- All calls for the account have ended, it has a verified method, and the
rows are as `primary` says. -/
def EndedWith (userId : Uuid) (n : Nat) (primary : Bool) (c : FactorConf) : Bool :=
  ((List.range n).all fun i => (c.procs i).own.manages ≠ some userId) &&
    (c.shared.methods.rows.any fun r => r.verifiedOf userId) &&
    (c.shared.methods.rows.any fun r => r.val.isPrimary) = primary

theorem EndedWith.verified (h : EndedWith userId n primary c = true) :
    ∃ id r, c.shared.methods.committed id = some r ∧ r.verifiedOf userId = true := by
  simp only [EndedWith, Bool.and_eq_true, List.any_eq_true] at h
  obtain ⟨⟨-, r, hr, hverified⟩, -⟩ := h
  exact ⟨r.val.id, r, mem_rows.mp hr, hverified⟩

theorem EndedWith.secondary (h : EndedWith userId n false c = true) {id : Uuid}
    (hr : c.shared.methods.committed id = some r) : r.val.isPrimary = false := by
  simp only [EndedWith, Bool.and_eq_true, decide_eq_true_eq] at h
  have hkey : r.val.id = id := c.shared.methods.keyed id r (.inl hr)
  have hmem : r ∈ c.shared.methods.rows := mem_rows.mpr (by rw [hkey]; exact hr)
  simpa using List.any_eq_false.mp h.2 r hmem

theorem EndedWith.manages {ok : FactorConf → Nat → FactorAct → Prop} [∀ c i a, Decidable (ok c i a)]
    {c₀ : FactorConf} {schedule : List (Nat × FactorAct)} (h : EndedWith userId n primary c = true)
    (hexec : exec factorProgram ok c₀ schedule = some c) (hidle : ∀ i, (c₀.procs i).own = .idle)
    (hn : (schedule.map Prod.fst).all (· < n) = true) (i : Nat) :
    (c.procs i).own.manages ≠ some userId := by
  simp only [EndedWith, Bool.and_eq_true, List.all_eq_true, List.mem_range, decide_eq_true_eq] at h
  by_cases hi : i < n
  · exact h.1.1 i hi
  · have hnot : i ∉ schedule.map Prod.fst := by
      intro hmem
      exact hi (by simpa using List.all_eq_true.mp hn i hmem)
    rw [exec_procs hexec hnot, hidle]
    nofun

/-- The request stops after the mark: the account has a verified method,
and no primary one. -/
theorem verified_without_primary :
    ∃ c, Steps factorProgram Free
        (factorInitial defaultFactors shortSessions ⟨300, 5⟩ (instant 1000000) 0) c ∧
      (∀ i, (c.procs i).own.manages ≠ some 1) ∧
      (∃ id r, c.shared.methods.committed id = some r ∧ r.verifiedOf 1 = true) ∧
      ¬ ∃ id r, c.shared.methods.committed id = some r ∧ r.verifiedOf 1 = true ∧
        r.val.isPrimary = true := by
  obtain ⟨c, hexec, hended⟩ : ∃ c ∈ exec factorProgram Free
      (factorInitial defaultFactors shortSessions ⟨300, 5⟩ (instant 1000000) 0)
      (setupSchedule 0 ⟨1, .totp, some 7⟩ 100 ++ proveSetupSchedule 1 ⟨1, 100, .totp, 40333⟩ ++
      [(1, .go {}), (1, .fail)]), EndedWith 1 2 false c := by
    decide +kernel
  refine ⟨c, steps_of_exec hexec, EndedWith.manages hended hexec (fun _ => rfl) rfl,
    EndedWith.verified hended, ?_⟩
  rintro ⟨id, r, hr, -, hprimary⟩
  rw [EndedWith.secondary hended hr] at hprimary
  cases hprimary

section Below

instance (userId : Uuid) (j : Nat) : Decidable (LockedApart userId c i a j) :=
  decidable_of_iff _ (lockedApart_iff userId c i a j).symm

instance (userId : Uuid) : Decidable (MarkedAlone userId c i a) :=
  decidable_of_iff _ (markedAlone_iff userId c i a).symm

theorem LockedApart.of_idle (hidle : (c.procs j).own = .idle) : LockedApart userId c i a j where
  apart := by simp [hidle, FactorFlow.promoting]

theorem steps_promotesApart {n : Nat} {c c' : FactorConf}
    (h : Steps factorProgram (Below n (MarkedAlone userId) (LockedApart userId)) c c')
    (hidle : ∀ j, n ≤ j → (c.procs j).own = .idle) :
    Steps factorProgram (PromotesApart userId) c c' :=
  (Steps.of_below (Q := fun p => p.own = .idle) (fun _ _ _ _ => .of_idle) h hidle).mono
    fun _ _ _ hok => ⟨hok.1, hok.2⟩

end Below

/-- The same request, to its end. -/
theorem verified_and_primary :
    ∃ c, Steps factorProgram (PromotesApart 1)
        (factorInitial defaultFactors shortSessions ⟨300, 5⟩ (instant 1000000) 0) c ∧
      ∃! id, ∃ r, c.shared.methods.committed id = some r ∧ r.verifiedOf 1 = true ∧
        r.val.isPrimary = true := by
  obtain ⟨c, hexec, hended⟩ : ∃ c ∈ exec factorProgram (Below 2 (MarkedAlone 1) (LockedApart 1))
      (factorInitial defaultFactors shortSessions ⟨300, 5⟩ (instant 1000000) 0)
      (setupSchedule 0 ⟨1, .totp, some 7⟩ 100 ++ proveSetupSchedule 1 ⟨1, 100, .totp, 40333⟩ ++
      finishSetupSchedule 1 200), EndedWith 1 2 true c := by
    decide +kernel
  have hsteps := steps_promotesApart (steps_of_exec hexec) fun _ _ => rfl
  exact ⟨c, hsteps, primary_exists hsteps (EndedWith.manages hended hexec (fun _ => rfl) rfl)
    (EndedWith.verified hended)⟩

end AuthApi
