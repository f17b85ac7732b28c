import AuthApi.MethodTable

/-!
# Who writes the methods of an account

A request that removes methods has locked the row of the account before
its first `DELETE`, and keeps the lock until its transaction ends. The
only other transactions that write methods are those of `set_primary`.
Each of them writes methods of its own account only. All of this holds in
every run (`WritersOk`).
-/

namespace AuthApi

open Conc Pg.Db

/-- The account whose row a removal is about to lock. -/
def FactorFlow.locking : FactorFlow → Option Uuid
  | .disable (.lock request) => some request.userId
  | .reset (.list userId _) => some userId
  | _ => none

/-- The account whose row a request has locked. -/
def FactorFlow.removing : FactorFlow → Option Uuid
  | .disable (.delete request) => some request.userId
  | .disable (.promote request) => some request.userId
  | .disable (.promoteRow request _) => some request.userId
  | .disable (.count request) => some request.userId
  | .disable (.admin request _) => some request.userId
  | .disable (.commit request _) => some request.userId
  | .reset (.lock userId _) => some userId
  | .reset (.select userId _) => some userId
  | .reset (.methods d _) => some d.userId
  | .reset (.delete d _ _) => some d.userId
  | .reset (.passkeys d _) => some d.userId
  | .reset (.identities d _) => some d.userId
  | .reset (.promote d) => some d.userId
  | .reset (.promoteRow d _) => some d.userId
  | .reset (.codes d) => some d.userId
  | .reset (.revoke d) => some d.userId
  | .reset (.drop d _) => some d.userId
  | .reset (.commit d) => some d.userId
  | _ => none

/-- What a `verify_setup` that has found its method was called with. -/
def FactorFlow.activation : FactorFlow → Option Activation
  | .activate (.check request _) => some request
  | .activate (.mark request _) => some request
  | .activate (.primary request) => some request
  | .activate (.demote request) => some request
  | .activate (.unset request _) => some request
  | .activate (.promote request) => some request
  | .activate (.commit request) => some request
  | .activate (.recovery request) => some request
  | _ => none

/-- The account whose methods a transaction may have written. -/
def FactorFlow.writer : FactorFlow → Option Uuid
  | .activate (.unset request _) => some request.userId
  | .activate (.promote request) => some request.userId
  | .activate (.commit request) => some request.userId
  | own => own.removing

/-- The method a removal has picked to be primary. -/
def FactorFlow.picked : FactorFlow → Option Uuid
  | .disable (.promoteRow _ id) => some id
  | .reset (.promoteRow _ id) => some id
  | _ => none

variable {c : FactorConf} {i j : Nat} {a : FactorAct} {inp : FactorInput} {s s' : FactorState}
  {p p' : FactorProc} {own own' : FactorFlow} {db db' : MethodDb} {k userId id : Uuid}
  {lock' : Option UserLock} {pc : DisablePc} {r : MethodRow}

/-! ## Locks -/

/-- What a step of process `i`, at `own`, does to the lock of the row
`userId`. -/
inductive LockChange (i : Nat) (own : FactorFlow) (userId : Uuid)
    (lock lock' : Option UserLock) : Prop
  | same (h : lock' = lock)
  | taken (hown : own.locking = some userId ∨ own.removing = some userId)
      (hfree : ∀ l, lock = some l → l.holder = i)
  | released {l : UserLock} (h : lock = some l) (hholder : l.holder = i)

theorem LockChange.other {lock : Option UserLock} {l : UserLock}
    (h : LockChange i own userId lock lock') (hl : lock = some l) (hne : l.holder ≠ i) :
    lock' = some l := by
  cases h with
  | same heq => exact heq.trans hl
  | taken _ hfree => exact absurd (hfree l hl) hne
  | released hl' hholder =>
    cases hl.symm.trans hl'
    exact absurd hholder hne

theorem LockChange.none (h : LockChange i own userId .none lock')
    (hlocking : own.locking ≠ some userId) (hremoving : own.removing ≠ some userId) :
    lock' = .none := by
  cases h with
  | same heq => exact heq
  | taken hown => exact (hown.elim hlocking hremoving).elim
  | released hl => cases hl

theorem lockRow_change (h : s.lockRow i userId = some s')
    (hown : own.locking = some userId ∨ own.removing = some userId) (userId' : Uuid) :
    LockChange i own userId' (s.userLocks userId') (s'.userLocks userId') := by
  obtain ⟨hfree, -, rfl⟩ := FactorState.lockRow_eq_some h
  by_cases hne : userId' = userId
  · subst hne
    exact .taken hown hfree
  · exact .same (Function.update_of_ne hne _ _)

theorem touchRow_change (h : s.touchRow i userId = some s')
    (hown : own.locking = some userId ∨ own.removing = some userId) (userId' : Uuid) :
    LockChange i own userId' (s.userLocks userId') (s'.userLocks userId') := by
  obtain ⟨hfree, rfl⟩ := FactorState.touchRow_eq_some h
  by_cases hne : userId' = userId
  · subst hne
    exact .taken hown hfree
  · exact .same (Function.update_of_ne hne _ _)

theorem releaseRows_change (s : FactorState) (i : Nat) (userId : Uuid) :
    LockChange i own userId (s.userLocks userId) ((s.releaseRows i).userLocks userId) := by
  by_cases hheld : (s.userLocks userId).any (·.holder = i) = true
  · simp only [Option.any_eq_true, decide_eq_true_eq] at hheld
    obtain ⟨l, hl, hholder⟩ := hheld
    exact .released hl hholder
  · exact .same (if_neg hheld)

theorem DisableStepped.locks (h : DisableStepped i inp s pc s' own) (userId : Uuid) :
    LockChange i (.disable pc) userId (s.userLocks userId) (s'.userLocks userId) := by
  cases h with
  | locked hlock => exact lockRow_change hlock (.inl rfl) userId
  | missed | turnedDown | guarded | committed => exact releaseRows_change s i userId
  | _ => exact .same rfl

theorem ResetMoved.locks {pc : ResetPc} (h : ResetMoved i inp s pc s' own) (userId : Uuid) :
    LockChange i (.reset pc) userId (s.userLocks userId) (s'.userLocks userId) := by
  cases h with
  | locked hlock => exact lockRow_change hlock (.inr rfl) userId
  | spared htouch | touched htouch => exact touchRow_change htouch (.inl rfl) userId
  | _ => exact .same rfl

theorem ownStep_locks (h : ownStep i inp s p = some (s', own)) (userId : Uuid) :
    LockChange i p.own userId (s.userLocks userId) (s'.userLocks userId) := by
  unfold ownStep at h
  split at h <;> rename_i hown
  · cases h
  · obtain ⟨_, rfl⟩ := (setupStepped h).changes
    exact .same rfl
  · exact .same (by rw [(activateStepped h).tables.1])
  · exact hown ▸ (disableStepped h).locks userId
  · exact hown ▸ (resetMoved h).locks userId
  · obtain ⟨_, _, _, rfl⟩ := (enrolStepped h).changes
    exact .same rfl
  · exact .same (by rw [(mailStep_frame h).userLocks])
  · exact .same (by rw [((completionStepped h).frame).userLocks])
  · split at h <;> cases h
    exact .same (by rw [(createOtp_frame ‹_›).userLocks])
  · split at h <;> cases h
    exact .same (by rw [(replaceRecovery_frame ‹_›).userLocks])
  · cases h

theorem settle_locks (account : AccountState) (q : Request) (b : AccountAct) (userId : Uuid) :
    LockChange i own userId (s.userLocks userId)
      ((settle i s p account q b).1.userLocks userId) := by
  cases b with
  | session =>
    simp only [settle, settleSession]
    split
    · exact releaseRows_change s i userId
    · split
      · exact releaseRows_change s i userId
      · exact .same rfl
    · exact .same rfl
  | _ => exact .same rfl

theorem FactorStepped.locks (h : FactorStepped i s p a s' p') (userId : Uuid) :
    LockChange i (a.executes p.own) userId (s.userLocks userId) (s'.userLocks userId) := by
  cases h with
  | account _ _ => exact settle_locks _ _ _ userId
  | go h => exact ownStep_locks h userId
  | failed | failedAlone => exact releaseRows_change s i userId
  | _ => exact .same rfl

/-! ## What a writer knows -/

/-- The lock a request holds keeps others from referring to the account. A
reset without a window has only updated the row. -/
def FactorFlow.exclusive : FactorFlow → Bool
  | .reset (.lock _ _) => false
  | .reset (.revoke d) => d.since.isSome
  | .reset (.drop d _) => d.since.isSome
  | .reset (.commit d) => d.since.isSome
  | _ => true

/-- What a request that has locked the row of an account relies on. -/
def Held (i : Nat) (s : FactorState) (own : FactorFlow) : Prop :=
  ∀ userId, own.removing = some userId → ∃ l, s.userLocks userId = some l ∧
    l.holder = i ∧ (own.exclusive = true → l.forUpdate = true)

/-- What transaction `i` has written is of one account, or it has written
nothing. -/
def Writes (i : Nat) (db : MethodDb) (userId : Option Uuid) : Prop :=
  ∀ k r, db.pending i k = some r → userId = some r.val.userId

structure WriterKnows (i : Nat) (s : FactorState) (own : FactorFlow) : Prop where
  held : Held i s own
  known : ∀ request, own.activation = some request →
    ∃ r, s.methods.committed request.methodId = some r ∧ r.val.userId = request.userId
  picked : ∀ id userId, own.picked = some id → own.removing = some userId →
    ∃ r, s.methods.view i id = some r ∧ r.val.userId = userId
  writes : Writes i s.methods own.writer

theorem MethodRow.Evolves.userId_eq {r' : MethodRow} (h : r.Evolves own r') :
    r'.val.userId = r.val.userId := by
  cases h with
  | follows hfollows => exact hfollows.userId_eq
  | restarted _ _ hnew => rw [(MethodRow.restart_eq_some hnew).1]
  | marked _ _ _ hnew => rw [(MethodRow.markVerified_eq_some hnew).1]

theorem MethodEffect.committed_user (he : MethodEffect i own s.methods s'.methods)
    (hok : MethodsOk s.methods) (h : ∃ r, s.methods.committed k = some r ∧ r.val.userId = userId) :
    ∃ r, s'.methods.committed k = some r ∧ r.val.userId = userId := by
  obtain ⟨r, hr, huser⟩ := h
  rcases he.committed_cases hok k with ⟨r₀, r', hr₀, hr', hev⟩ | ⟨hnone, -⟩
  · cases hr.symm.trans hr₀
    exact ⟨r', hr', hev.userId_eq.trans huser⟩
  · cases hr.symm.trans hnone

theorem WriterKnows.stable (h : WriterKnows j s own) (hok : MethodsOk s.methods)
    (hstep : FactorStepped i s p a s' p') (hne : j ≠ i) : WriterKnows j s' own where
  held userId hu := by
    obtain ⟨l, hl, rfl, hexclusive⟩ := h.held userId hu
    exact ⟨l, (hstep.locks userId).other hl hne, rfl, hexclusive⟩
  known request hr := hstep.methods.committed_user hok (h.known request hr)
  picked id userId hid hu := by
    obtain ⟨r, hr, huser⟩ := h.picked id userId hid hu
    rcases hstep.methods.view_cases hok hne id with ⟨r₀, r', hr₀, hr', hev⟩ | ⟨hnone, -⟩
    · cases hr.symm.trans hr₀
      exact ⟨r', hr', hev.userId_eq.trans huser⟩
    · cases hr.symm.trans hnone
  writes k r hpend := h.writes k r (hstep.methods.pending_other hne k ▸ hpend)

theorem Writes.pending_none (h : Writes i db none) (k : Uuid) : db.pending i k = none := by
  cases hpend : db.pending i k with
  | none => rfl
  | some r => cases h k r hpend

theorem Writes.of_none (h : ∀ k, db.pending i k = none) (userId : Option Uuid) :
    Writes i db userId := by
  intro k r hr
  cases (h k).symm.trans hr

theorem Writes.locked {userId : Option Uuid} (h : Writes i db userId)
    (hc : Changed i k none db db') : Writes i db' userId := by
  intro k' r hr
  rw [hc.pending_none] at hr
  exact h k' r hr

theorem Writes.wrote (h : Writes i db (some userId)) (hc : Changed i k (some r) db db')
    (huser : r.val.userId = userId) : Writes i db' (some userId) := by
  intro k' r' hr'
  by_cases hne : k' = k
  · subst hne
    rw [hc.self] at hr'
    cases hr'
    rw [huser]
  · rw [hc.rest k' hne] at hr'
    exact h k' r' hr'

theorem Writes.commit (userId : Option Uuid) : Writes i (db.commit i) userId :=
  .of_none (by simp [commit_pending]) _

theorem Writes.rollback (userId : Option Uuid) : Writes i (db.rollback i) userId :=
  .of_none (by simp [rollback_pending]) _

theorem Writes.of_quiet {userId : Option Uuid} (h : Writes i db none) : Writes i db userId :=
  .of_none h.pending_none _

theorem MethodsOk.view_user (hok : MethodsOk db) (hview : db.view i k = some r)
    (h : ∃ r, db.committed k = some r ∧ r.val.userId = userId) : r.val.userId = userId := by
  obtain ⟨r₀, hr₀, huser⟩ := h
  obtain ⟨r₁, hr₁, hfollows⟩ := hok.view hview
  cases hr₀.symm.trans hr₁
  exact hfollows.userId_eq.trans huser

section

variable {q : MethodRow → Bool} {v : Visit MethodRow} (hlive : ∀ r, q r = true → r.deleted = false)
  (hw : Writes i db (some userId))
include hlive hw

theorem Writes.of_delete (huser : ∀ r, q r = true → r.val.userId = userId)
    (h : db.visit i k q MethodRow.delete = some (v, db')) : Writes i db' (some userId) := by
  rcases visit_delete hlive h with ⟨r, r', -, -, hq, hdelete, hc, -⟩ | ⟨-, -, hc⟩
  · exact hw.wrote hc ((MethodRow.follows_of_delete hdelete).1.userId_eq.trans (huser r hq))
  · exact hw.locked hc

theorem Writes.of_promote (huser : ∀ r, db.view i k = some r → r.val.userId = userId)
    (h : promoteRow db i k q = some (v, db')) (hv : v ≠ .violation) :
    Writes i db' (some userId) := by
  rcases promoteRow_spec hlive h with ⟨r, r', -, hview, -, hset, hc, -⟩ | ⟨-, -, hc⟩ | ⟨rfl, -⟩
  · exact hw.wrote hc ((MethodRow.follows_of_setPrimary hset).1.userId_eq.trans (huser r hview))
  · exact hw.locked hc
  · exact (hv rfl).elim

end

theorem ActivateStepped.writes {pc : ActivatePc} (h : ActivateStepped i inp s pc s' own)
    (hok : MethodsOk s.methods) (hk : WriterKnows i s (.activate pc)) :
    Writes i s'.methods own.writer := by
  have hw := hk.writes
  cases h with
  | checked hcheck =>
    rw [(hcheck.frame).methods]
    exact Writes.of_quiet hw
  | marked hmark =>
    rcases mark_spec hmark with ⟨r, r', -, -, -, -, hrep⟩ | ⟨rfl, -⟩
    · intro k r hr
      rw [hrep.pending] at hr
      exact hw k r hr
    · exact hw
  | scanned => exact Writes.of_quiet hw
  | unset _ hvisit =>
    rcases visit_unset primaryOf_live hvisit with ⟨r, r', -, -, hq, hset, hc, -⟩ | ⟨-, -, hc⟩ |
      ⟨-, hc⟩
    · refine Writes.wrote hw hc ?_
      rw [(MethodRow.follows_of_setPrimary hset).1.userId_eq]
      exact (MethodRow.primaryOf_eq_true.mp hq).2.1
    · exact Writes.locked hw hc
    · exact Writes.locked hw hc
  | stuck | turnedDown => exact .rollback _
  | @promoted request _ _ hpromote hv =>
    exact .of_promote verified_live hw
      (fun r hview => hok.view_user hview (hk.known request rfl)) hpromote hv
  | committed => exact .commit _
  | replaced hreplace =>
    rw [(replaceRecovery_frame hreplace).methods]
    exact hw
  | _ => exact hw

theorem removable_user {methodType : TwoFactorType} (r : MethodRow)
    (h : r.removable id userId methodType = true) : r.val.userId = userId := by
  simp only [MethodRow.removable, Bool.and_eq_true] at h
  exact (MethodRow.ofUser_eq_true.mp h.1.1).2

theorem takes_user {d : Removal} {since : Int} (r : MethodRow) (h : d.takes since r = true) :
    r.val.userId = d.userId := by
  simp only [Removal.takes, Bool.and_eq_true] at h
  exact (MethodRow.ofUser_eq_true.mp h.1.1).2

theorem DisableStepped.writes (h : DisableStepped i inp s pc s' own)
    (hk : WriterKnows i s (.disable pc)) : Writes i s'.methods own.writer := by
  have hw := hk.writes
  cases h with
  | locked hlock =>
    obtain ⟨-, -, rfl⟩ := FactorState.lockRow_eq_some hlock
    exact Writes.of_quiet hw
  | deleted hvisit =>
    have hwrites := Writes.of_delete removable_live hw removable_user hvisit
    split <;> exact hwrites
  | missed | turnedDown | guarded => exact .rollback _
  | promoted hpromote hv =>
    obtain ⟨r₀, hr₀, huser⟩ := hk.picked _ _ rfl rfl
    refine .of_promote not_deleted_live hw (fun r hview => ?_) hpromote hv
    cases hr₀.symm.trans hview
    exact huser
  | committed => exact .commit _
  | _ => exact hw

theorem ResetMoved.writes {pc : ResetPc} (h : ResetMoved i inp s pc s' own)
    (hk : WriterKnows i s (.reset pc)) : Writes i s'.methods own.writer := by
  have hw := hk.writes
  cases h with
  | spared htouch | touched htouch =>
    obtain ⟨-, rfl⟩ := FactorState.touchRow_eq_some htouch
    exact Writes.of_quiet hw
  | locked hlock =>
    obtain ⟨-, -, rfl⟩ := FactorState.lockRow_eq_some hlock
    exact hw
  | deleted hvisit => exact .of_delete takes_live hw takes_user hvisit
  | promoted hpromote hv =>
    obtain ⟨r₀, hr₀, huser⟩ := hk.picked _ _ rfl rfl
    refine .of_promote not_deleted_live hw (fun r hview => ?_) hpromote hv
    cases hr₀.symm.trans hview
    exact huser
  | dropping hvisit =>
    exact .of_delete ofUser_live hw (fun r hq => (MethodRow.ofUser_eq_true.mp hq).2) hvisit
  | _ => exact hw

/-! ## Steps of the writer itself -/

theorem lockRow_held (h : s.lockRow i userId = some s') : s'.userLocks userId = some ⟨i, true⟩ := by
  obtain ⟨-, -, rfl⟩ := FactorState.lockRow_eq_some h
  exact Function.update_self ..

theorem touchRow_held (h : s.touchRow i userId = some s') :
    s'.userLocks userId = some ⟨i, false⟩ := by
  obtain ⟨-, rfl⟩ := FactorState.touchRow_eq_some h
  exact Function.update_self ..

theorem DisableStepped.held (h : DisableStepped i inp s pc s' own)
    (hk : Held i s (.disable pc)) : Held i s' own := by
  cases h with
  | locked hlock =>
    rintro userId ⟨⟩
    exact ⟨_, lockRow_held hlock, rfl, fun _ => rfl⟩
  | deleted => split <;> exact hk
  | refused | missed | turnedDown | guarded | committed => exact fun _ h => nomatch h
  | _ => exact hk

theorem ResetMoved.held {pc : ResetPc} (h : ResetMoved i inp s pc s' own)
    (hk : Held i s (.reset pc)) : Held i s' own := by
  cases h with
  | locked hlock =>
    rintro userId ⟨⟩
    exact ⟨_, lockRow_held hlock, rfl, fun _ => rfl⟩
  | spared htouch | touched htouch =>
    rintro userId ⟨⟩
    exact ⟨_, touchRow_held htouch, rfl, nofun⟩
  | counted =>
    rintro userId ⟨⟩
    obtain ⟨l, hl, hholder, hexclusive⟩ := hk _ rfl
    exact ⟨l, hl, hholder, fun _ => hexclusive rfl⟩
  | _ => exact hk

theorem mem_oldest (h : id ∈ FactorState.oldest (s.verifiedSeen i userId)) :
    ∃ r, s.methods.view i id = some r ∧ r.verifiedOf userId = true := by
  simp only [FactorState.oldest, FactorState.verifiedSeen, List.mem_map, List.mem_filter,
    mem_viewed] at h
  obtain ⟨r, ⟨⟨hview, hverified⟩, -⟩, rfl⟩ := h
  exact ⟨r, hview, hverified⟩

theorem DisableStepped.picks (h : DisableStepped i inp s pc s' own)
    (hid : own.picked = some id) (hu : own.removing = some userId) :
    ∃ r, s'.methods.view i id = some r ∧ r.verifiedOf userId = true := by
  cases h with
  | picked hmem =>
    cases hid
    cases hu
    exact mem_oldest hmem
  | deleted => split at hid <;> cases hid
  | _ => cases hid

theorem ResetMoved.picks {pc : ResetPc} (h : ResetMoved i inp s pc s' own)
    (hid : own.picked = some id) (hu : own.removing = some userId) :
    ∃ r, s'.methods.view i id = some r ∧ r.verifiedOf userId = true := by
  cases h with
  | picked hmem =>
    cases hid
    cases hu
    exact mem_oldest hmem
  | _ => cases hid

theorem ActivateStepped.known {pc : ActivatePc} {request : Activation}
    (h : ActivateStepped i inp s pc s' own) (hr : own.activation = some request) :
    (FactorFlow.activate pc).activation = some request ∨
      ∃ r, s.methods.committed request.methodId = some r ∧ r.val.userId = request.userId := by
  cases h with
  | found hfound huser =>
    cases hr
    exact .inr ⟨_, hfound, (MethodRow.ofUser_eq_true.mp huser).2⟩
  | refused | failed | stuck | turnedDown | replaced => cases hr
  | _ => exact .inl hr

theorem FactorFlow.Next.kind_ne {kind : RequestKind} (h : own.Next own')
    (hne : own.kind ≠ some kind) : own'.kind ≠ some kind := by
  rcases h with hkind | ⟨error, rfl⟩
  · rw [hkind]
    exact hne
  · nofun

theorem FactorFlow.removing_none (hdisable : own.kind ≠ some .disable)
    (hreset : own.kind ≠ some .reset) : own.removing = none ∧ own.picked = none := by
  cases own with
  | disable => exact absurd rfl hdisable
  | reset => exact absurd rfl hreset
  | _ => exact ⟨rfl, rfl⟩

theorem FactorFlow.activation_none (hactivate : own.kind ≠ some .activate) :
    own.activation = none ∧ own.writer = own.removing := by
  cases own with
  | activate => exact absurd rfl hactivate
  | _ => exact ⟨rfl, rfl⟩

theorem WriterKnows.of_none (hremoving : own.removing = none) (hactivation : own.activation = none)
    (hpending : ∀ k, s.methods.pending i k = none) : WriterKnows i s own where
  held := by simp [Held, hremoving]
  known := by simp [hactivation]
  picked := by simp [hremoving]
  writes := .of_none hpending _

theorem SetupStepped.pending {pc : SetupPc} (h : SetupStepped inp s pc s' own) (k : Uuid) :
    s'.methods.pending i k = s.methods.pending i k := by
  cases h with
  | restarted hupdate =>
    rcases update_spec (fun r r' hr => by rw [(MethodRow.restart_eq_some hr).1]) hupdate with
      ⟨r, r', -, -, -, -, -, hrep⟩ | ⟨rfl, -⟩
    · exact hrep.pending i k
    · rfl
  | created _ hinsert => exact (insertNow_spec hinsert).pending i k
  | _ => rfl

theorem ownStep_pending (h : ownStep i inp s p = some (s', own))
    (hactivate : p.own.kind ≠ some .activate) (hdisable : p.own.kind ≠ some .disable)
    (hreset : p.own.kind ≠ some .reset) (k : Uuid) :
    s'.methods.pending i k = s.methods.pending i k := by
  unfold ownStep at h
  split at h <;> rename_i hown
  · cases h
  · exact (setupStepped h).pending k
  · exact absurd (hown ▸ rfl) hactivate
  · exact absurd (hown ▸ rfl) hdisable
  · exact absurd (hown ▸ rfl) hreset
  · obtain ⟨_, _, _, rfl⟩ := (enrolStepped h).changes
    rfl
  · rw [(mailStep_frame h).methods]
  · rw [((completionStepped h).frame).methods]
  · split at h <;> cases h
    rw [(createOtp_frame ‹_›).methods]
  · split at h <;> cases h
    rw [(replaceRecovery_frame ‹_›).methods]
  · cases h

theorem ownStep_writer (h : ownStep i inp s p = some (s', own)) (hok : MethodsOk s.methods)
    (hk : WriterKnows i s p.own) : WriterKnows i s' own := by
  have he := ownStep_methods h
  have hnext := ownStep_next h
  by_cases hquiet : p.own.kind ≠ some .activate ∧ p.own.kind ≠ some .disable ∧
      p.own.kind ≠ some .reset
  · obtain ⟨hactivate, hdisable, hreset⟩ := hquiet
    refine .of_none (FactorFlow.removing_none (hnext.kind_ne hdisable) (hnext.kind_ne hreset)).1
      (FactorFlow.activation_none (hnext.kind_ne hactivate)).1 fun k => ?_
    have hw := hk.writes
    rw [(FactorFlow.activation_none hactivate).2,
      (FactorFlow.removing_none hdisable hreset).1] at hw
    rw [ownStep_pending h hactivate hdisable hreset, hw.pending_none]
  unfold ownStep at h
  split at h <;> rename_i hown <;> rw [hown] at hquiet hk he hnext
  · cases h
  · simp [FactorFlow.kind] at hquiet
  · obtain ⟨hremoving, hpicked⟩ :=
      FactorFlow.removing_none (hnext.kind_ne (by simp [FactorFlow.kind]))
        (hnext.kind_ne (by simp [FactorFlow.kind]))
    refine ⟨by simp [Held, hremoving], ?_, by simp [hpicked], (activateStepped h).writes hok hk⟩
    intro request hr
    rcases (activateStepped h).known hr with hknown | hfound
    · exact he.committed_user hok (hk.known request hknown)
    · exact he.committed_user hok hfound
  · have hactivation := (FactorFlow.activation_none (hnext.kind_ne (by simp [FactorFlow.kind]))).1
    refine ⟨(disableStepped h).held hk.held, by simp [hactivation], ?_,
      (disableStepped h).writes hk⟩
    intro id userId hid hu
    obtain ⟨r, hr, hverified⟩ := (disableStepped h).picks hid hu
    exact ⟨r, hr, (MethodRow.verifiedOf_eq_true.mp hverified).2.1⟩
  · have hactivation := (FactorFlow.activation_none (hnext.kind_ne (by simp [FactorFlow.kind]))).1
    refine ⟨(resetMoved h).held hk.held, by simp [hactivation], ?_, (resetMoved h).writes hk⟩
    intro id userId hid hu
    obtain ⟨r, hr, hverified⟩ := (resetMoved h).picks hid hu
    exact ⟨r, hr, (MethodRow.verifiedOf_eq_true.mp hverified).2.1⟩
  all_goals simp [FactorFlow.kind] at hquiet

theorem WriterKnows.frame (h : WriterKnows i s own) (hlocks : s'.userLocks = s.userLocks)
    (hmethods : s'.methods = s.methods) : WriterKnows i s' own := by
  obtain ⟨held, known, picked, writes⟩ := h
  rw [Held, ← hlocks] at held
  rw [← hmethods] at known picked writes
  exact ⟨held, known, picked, writes⟩

/-! ## Every run -/

structure WritersOk (c : FactorConf) : Prop where
  methods : MethodsOk c.shared.methods
  procs : ∀ i, WriterKnows i c.shared (c.procs i).own

theorem WritersOk.step (h : WritersOk c)
    (hprog : factorProgram i a c.shared (c.procs i) = some (s', p')) :
    WritersOk (c.set i s' p') := by
  have hstep := factorStepped hprog
  refine ⟨hstep.methods.ok h.methods, fun j => ?_⟩
  refine Conf.set_cases j ?_ fun j hji => ?_
  · show WriterKnows i s' p'.own
    have hk := h.procs i
    generalize hown : p'.own = own
    have hmoved := hown ▸ hstep.moved
    cases hmoved with
    | stays _ hframe => exact hk.frame hframe.userLocks hframe.methods
    | enters call _ hidle hframe =>
      refine .of_none (by cases call <;> rfl) (by cases call <;> rfl) fun k => ?_
      rw [hidle] at hk
      rw [hframe.methods]
      exact hk.writes.pending_none k
    | ends _ _ hmethods | givesUp _ _ hmethods =>
      exact .of_none rfl rfl (by simp [hmethods, rollback_pending])
    | commits _ _ hmethods =>
      exact .of_none rfl rfl (by simp [hmethods, commit_pending])
    | goes _ hgo => exact ownStep_writer hgo h.methods hk
  · exact (h.procs j).stable h.methods hstep hji

theorem writersOk_initial (config : FactorConfig) (cfg : JwtConfig) (deviceAuth : DeviceAuthConfig)
    (clock : OffsetDateTime) (ahead : Int) :
    WritersOk (factorInitial config cfg deviceAuth clock ahead) :=
  ⟨methodsOk_empty, fun _ => .of_none rfl rfl fun _ => rfl⟩

end AuthApi
