import AuthApi.AccountSessions
import AuthApi.FactorSystem

/-!
# What a step around a second factor can be

The statements of the own code leave the account system's state alone
(`OwnFrame`), so a run here is also a run of the account system
(`accountOf`), and what is known of that holds here as well.
`factorStepped` is the inversion of a step; later modules look at the
table they are about and take the rest from the frames below.
-/

namespace AuthApi

open Conc

variable {i : Nat} {inp : FactorInput} {s s' : FactorState} {p p' : FactorProc} {own : FactorFlow}
  {userId id : Uuid} {pc pc' : CheckPc} {signIn sent : Bool} {session : Pc} {code : Code}
  {flow : Flow} {a : FactorAct} {c c' : FactorConf} {ok : FactorConf → Nat → FactorAct → Prop}

/-! ## Small statements -/

namespace FactorState

theorem drawId_eq_some {id : Uuid} (h : s.drawId id = some s') :
    id ∉ s.ids ∧ s' = { s with ids := id :: s.ids } := by
  unfold drawId at h
  split_ifs at h with hid
  cases h
  exact ⟨hid, rfl⟩

variable {userId : Uuid}

theorem lockRow_eq_some (h : s.lockRow i userId = some s') :
    (∀ l, s.userLocks userId = some l → l.holder = i) ∧
      (∀ j f, (j, f) ∈ s.linking → j ≠ i → f.userId ≠ userId) ∧
      s' = { s with userLocks := Function.update s.userLocks userId (some ⟨i, true⟩) } := by
  unfold lockRow at h
  split_ifs at h with hfree
  cases h
  simp only [Bool.and_eq_true, Option.all_eq_true, decide_eq_true_eq, List.all_eq_true,
    Bool.or_eq_true, ne_eq] at hfree
  refine ⟨fun l hl => hfree.1 l hl, fun j f hmem hne => ?_, rfl⟩
  exact (hfree.2 (j, f) hmem).resolve_left hne

theorem touchRow_eq_some (h : s.touchRow i userId = some s') :
    (∀ l, s.userLocks userId = some l → l.holder = i) ∧
      s' = { s with userLocks := Function.update s.userLocks userId (some ⟨i, false⟩) } := by
  unfold touchRow at h
  split_ifs at h with hfree
  cases h
  simp only [Option.all_eq_true, decide_eq_true_eq] at hfree
  exact ⟨fun l hl => hfree l hl, rfl⟩

end FactorState

/-! ## What the own code leaves alone -/

structure OwnFrame (s s' : FactorState) : Prop where
  account : s'.account = s.account
  config : s'.config = s.config
  stored : s'.stored = s.stored
  completed : s'.completed = s.completed
  resets : s'.resets = s.resets

theorem OwnFrame.refl (s : FactorState) : OwnFrame s s := ⟨rfl, rfl, rfl, rfl, rfl⟩

/-- Nothing but the tables of codes has changed. -/
structure CodesFrame (s s' : FactorState) : Prop extends OwnFrame s s' where
  userLocks : s'.userLocks = s.userLocks
  methods : s'.methods = s.methods
  factors : s'.factors = s.factors
  linking : s'.linking = s.linking

theorem CodesFrame.refl (s : FactorState) : CodesFrame s s :=
  ⟨.refl s, rfl, rfl, rfl, rfl⟩

theorem createOtp_frame {challenge : Option TokenHash}
    (h : s.createOtp inp userId challenge = some s') : CodesFrame s s' := by
  simp only [FactorState.createOtp] at h
  split at h
  · split at h
    · cases h
    · rename_i hdraw
      obtain ⟨-, rfl⟩ := FactorState.drawId_eq_some hdraw
      cases h
      exact ⟨⟨rfl, rfl, rfl, rfl, rfl⟩, rfl, rfl, rfl, rfl⟩
  · cases h

theorem replaceRecovery_frame {fresh : List (Uuid × Code)}
    (h : s.replaceRecovery userId fresh = some s') : CodesFrame s s' := by
  simp only [FactorState.replaceRecovery] at h
  split at h <;> cases h
  exact ⟨⟨rfl, rfl, rfl, rfl, rfl⟩, rfl, rfl, rfl, rfl⟩

/-! ### Checks -/

variable (inp s userId)

inductive CheckStepped : CheckPc → FactorState → CheckPc → Prop
  | refused {pc error} : CheckStepped pc s (.refused error)
  /-- The code is right, and one of a sign-in. -/
  | guarded {secret code} (hright : verifyCode s.config.totp s.config.totpSkew secret code
        (s.now / nanosPerSec) = some true) :
      CheckStepped (.verify secret code) s
        (.replay ⟨secret, code, s.now, s.hasPrimary userId .totp⟩)
  | verified {secret code} (hright : verifyCode s.config.totp s.config.totpSkew secret code
        (s.now / nanosPerSec) = some true) :
      CheckStepped (.verify secret code) s
        (.clock ⟨secret, code, s.now, s.hasPrimary userId .totp⟩)
  | unseen {reading} : CheckStepped (.replay reading) s (.clock reading)
  | timed {reading} : CheckStepped (.clock reading) s (.consume reading s.now)
  | replayed {reading now usedCodes error} :
      CheckStepped (.consume reading now) { s with usedCodes := usedCodes } (.refused error)
  /-- The code is used up, and was one of a sign-in. -/
  | claimed {reading now usedCodes} :
      CheckStepped (.consume reading now) { s with usedCodes := usedCodes }
        (.remember reading)
  | consumed {reading now usedCodes} :
      CheckStepped (.consume reading now) { s with usedCodes := usedCodes }
        (.passed (.totp reading))
  | remembered {reading totpUsed} :
      CheckStepped (.remember reading) { s with totpUsed := totpUsed } (.passed (.totp reading))
  | foundOtp {challenge code} (hmem : inp.row ∈ s.matchingOtp ⟨userId, challenge, code⟩) :
      CheckStepped (.findOtp challenge code) s (.takeOtp inp.row)
  | tookOtp {id : Uuid}
      (hactive : s.emailCodes.any (fun c => c.id = id && c.active s.dbNow) = true) :
      CheckStepped (.takeOtp id) (s.consumeOtp userId)
        (.passed (.mailed id (s.hasPrimary userId .email)))
  | foundRecovery {code : Code} {id : Uuid} : CheckStepped (.findRecovery code) s (.takeRecovery id)
  | tookRecovery {id : Uuid}
      (husable : s.recoveryCodes.any (fun c => c.id = id && c.usable s.dbNow) = true) :
      CheckStepped (.takeRecovery id) (s.consumeRecovery id) (.passed (.recovery id))

variable {inp s userId}

theorem checkStepped (h : checkStep inp s userId signIn pc = some (s', pc')) :
    CheckStepped inp s userId pc s' pc' := by
  cases pc with
  | verify =>
    simp only [checkStep] at h
    split at h <;> cases h
    · exact .refused
    · exact .refused
    · split
      · exact .guarded ‹_›
      · exact .verified ‹_›
  | replay =>
    simp only [checkStep] at h
    split at h <;> cases h
    · exact .refused
    · exact .unseen
  | clock =>
    cases h
    exact .timed
  | consume =>
    simp only [checkStep] at h
    split at h <;> cases h
    · exact .replayed
    · split
      · exact .claimed
      · exact .consumed
  | remember =>
    cases h
    split <;> exact .remembered
  | findOtp =>
    simp only [checkStep] at h
    split at h
    · cases h
      exact .refused
    · split_ifs at h
      cases h
      exact .foundOtp ‹_›
  | takeOtp =>
    simp only [checkStep] at h
    split at h <;> cases h
    · exact .tookOtp ‹_›
    · exact .refused
  | findRecovery =>
    simp only [checkStep] at h
    split at h <;> cases h
    · split
      · exact .foundRecovery
      · exact .refused
    · exact .refused
  | takeRecovery =>
    simp only [checkStep] at h
    split at h <;> cases h
    · exact .tookRecovery ‹_›
    · exact .refused
  | passed | refused => cases h

theorem CheckStepped.frame (h : CheckStepped inp s userId pc s' pc') : CodesFrame s s' := by
  cases h <;> exact ⟨⟨rfl, rfl, rfl, rfl, rfl⟩, rfl, rfl, rfl, rfl⟩

/-- The code was one of the secret when it was checked. -/
def Reading.Right (config : FactorConfig) (r : Reading) : Prop :=
  verifyCode config.totp config.totpSkew r.secret r.code (r.readAt / nanosPerSec) = some true

/-- The TOTP code a check has found right. -/
def CheckPc.reading : CheckPc → Option Reading
  | .replay reading => some reading
  | .clock reading => some reading
  | .consume reading _ => some reading
  | .remember reading => some reading
  | .passed (.totp reading) => some reading
  | _ => none

/-- The secret a check is against. -/
def CheckPc.secret : CheckPc → Option Secret
  | .verify secret _ => some secret
  | pc => pc.reading.map (·.secret)

theorem CheckStepped.reading {r : Reading} (h : CheckStepped inp s userId pc s' pc')
    (hr : pc'.reading = some r) :
    pc.reading = some r ∨
      pc = .verify r.secret r.code ∧ r.readAt = s.now ∧ r.Right s.config ∧
        r.backed = s.hasPrimary userId .totp := by
  cases h with
  | guarded hright | verified hright =>
    cases hr
    exact .inr ⟨rfl, rfl, hright, rfl⟩
  | unseen | timed | claimed | consumed | remembered =>
    cases hr
    exact .inl rfl
  | _ => cases hr

theorem CheckStepped.secret {secret : Secret} (h : CheckStepped inp s userId pc s' pc')
    (hs : pc.secret = some secret) :
    (∃ error, pc' = .refused error) ∨ pc'.secret = some secret := by
  cases h with
  | refused | replayed => exact .inl ⟨_, rfl⟩
  | guarded | verified | unseen | timed | claimed | consumed | remembered =>
    cases hs
    exact .inr rfl
  | _ => cases hs

/-! ### What each request can change -/

theorem mark_changes (h : s.mark id = some s') : ∃ methods, s' = { s with methods := methods } := by
  unfold FactorState.mark at h
  split at h <;> cases h
  exact ⟨_, rfl⟩

variable (i inp s)

inductive SetupStepped : SetupPc → FactorState → FactorFlow → Prop
  | refused {pc error} : SetupStepped pc s (.done (some error))
  | proven {new} : SetupStepped (.reauth new) s (.setup (.find new))
  | fresh {new} : SetupStepped (.find new) s (.setup (.create new))
  | found {new id} : SetupStepped (.find new) s (.setup (.restart new id s.dbNow))
  | restarted {new id startedAt r methods} (hupdate : s.methods.update id
        (MethodRow.restartable new) (MethodRow.restart new startedAt) =
          some (.updated r, methods)) :
      SetupStepped (.restart new id startedAt) { s with methods := methods } (.done none)
  | skipped {new id startedAt} :
      SetupStepped (.restart new id startedAt) s (.setup (.create new))
  | created {new row methods} (hrow : new.row inp.uuid s.dbNow = some row)
      (hinsert : s.methods.insertNow row = some methods) :
      SetupStepped (.create new) { s with methods := methods } (.done none)

variable {i inp s}

theorem setupStepped {pc : SetupPc} (h : setupStep i inp s pc = some (s', own)) :
    SetupStepped inp s pc s' own := by
  unfold setupStep at h
  split at h
  · split at h <;> cases h
    · exact .refused
    · exact .proven
  · split at h <;> cases h
    · exact .fresh
    · exact .found
  · split at h <;> cases h
    · exact .restarted ‹_›
    · exact .skipped
    · exact .refused
  · split at h
    · cases h
      exact .refused
    · split_ifs at h
      split at h
      · cases h
      · cases h
        exact .refused
      · split at h <;> cases h
        · exact .refused
        · exact .created ‹_› ‹_›

theorem SetupStepped.changes {pc : SetupPc} (h : SetupStepped inp s pc s' own) :
    ∃ methods, s' = { s with methods := methods } := by
  cases h <;> exact ⟨_, rfl⟩

variable (i inp s)

inductive ActivateStepped : ActivatePc → FactorState → FactorFlow → Prop
  | refused {request error} : ActivateStepped (.read request) s (.done (some error))
  | found {request r pc} (hr : s.methods.committed request.methodId = some r)
      (huser : r.ofUser request.userId = true) (hjudge : request.judge r = .ok pc) :
      ActivateStepped (.read request) s (.activate (.check request pc))
  | passed {request evidence} :
      ActivateStepped (.check request (.passed evidence)) s
        (.activate (.mark request evidence))
  | failed {request error} :
      ActivateStepped (.check request (.refused error)) s (.done (some error))
  | checked {request pc pc' s'} (hcheck : CheckStepped inp s request.userId pc s' pc') :
      ActivateStepped (.check request pc) s' (.activate (.check request pc'))
  | marked {request evidence s'} (hmark : s.mark request.methodId = some s') :
      ActivateStepped (.mark request evidence) s' (.activate (.primary request))
  | settled {request} (hfound : (s.findPrimary request.userId).isSome) :
      ActivateStepped (.primary request) s (.activate (.recovery request))
  | unsettled {request} : ActivateStepped (.primary request) s (.activate (.demote request))
  | scanned {request} :
      ActivateStepped (.demote request) s
        (.activate (.unset request (s.methods.scan i (MethodRow.primaryOf request.userId))))
  | demoted {request} : ActivateStepped (.unset request []) s (.activate (.promote request))
  | unset {request : Activation} {left : List Uuid} {v : Pg.Db.Visit MethodRow}
      {methods : MethodDb} (hmem : inp.row ∈ left)
      (hvisit : s.methods.visit i inp.row (MethodRow.primaryOf request.userId)
        (MethodRow.setPrimary false) = some (v, methods)) :
      ActivateStepped (.unset request left) { s with methods := methods }
        (.activate (.unset request (left.erase inp.row)))
  | stuck {request : Activation} {left : List Uuid} {methods : MethodDb}
      (hvisit : s.methods.visit i inp.row (MethodRow.primaryOf request.userId)
        (MethodRow.setPrimary false) = some (.violation, methods)) :
      ActivateStepped (.unset request left) { s with methods := methods.rollback i }
        (.done (some .internal))
  | promoted {request v methods} (hpromote : promoteRow s.methods i request.methodId
        (fun r => !r.deleted && r.val.isVerified) = some (v, methods)) (hv : v ≠ .violation) :
      ActivateStepped (.promote request) { s with methods := methods }
        (.activate (.commit request))
  | turnedDown {request methods} (hpromote : promoteRow s.methods i request.methodId
        (fun r => !r.deleted && r.val.isVerified) = some (.violation, methods)) :
      ActivateStepped (.promote request) { s with methods := methods.rollback i }
        (.done (some .internal))
  | committed {request} :
      ActivateStepped (.commit request) { s with methods := s.methods.commit i }
        (.activate (.recovery request))
  | replaced {request s'} (hreplace : s.replaceRecovery request.userId inp.fresh = some s') :
      ActivateStepped (.recovery request) s' (.done none)

variable {i inp s}

theorem activateStepped {pc : ActivatePc} (h : activateStep i inp s pc = some (s', own)) :
    ActivateStepped i inp s pc s' own := by
  unfold activateStep at h
  split at h
  · split at h
    · cases h
      exact .refused
    · rename_i hfind
      obtain ⟨hr, huser⟩ := Option.filter_eq_some_iff.mp hfind
      split at h
      · cases h
        exact .refused
      · split at h <;> cases h
        · exact .refused
        · exact .found hr huser ‹_›
  · cases h
    exact .passed
  · cases h
    exact .failed
  · split at h <;> cases h
    exact .checked (checkStepped ‹_›)
  · split at h <;> cases h
    exact .marked ‹_›
  · cases h
    split
    · exact .settled ‹_›
    · exact .unsettled
  · cases h
    exact .scanned
  · cases h
    exact .demoted
  · split_ifs at h
    split at h <;> cases h
    · exact .stuck ‹_›
    · exact .unset ‹_› ‹_›
  · split at h <;> cases h
    · exact .turnedDown ‹_›
    · rename_i hv hpromote
      exact .promoted hpromote hv
  · cases h
    exact .committed
  · split at h <;> cases h
    exact .replaced ‹_›

theorem ActivateStepped.frame {pc : ActivatePc} (h : ActivateStepped i inp s pc s' own) :
    OwnFrame s s' := by
  cases h with
  | checked hcheck => exact (hcheck.frame).toOwnFrame
  | marked hmark =>
    obtain ⟨_, rfl⟩ := mark_changes hmark
    exact ⟨rfl, rfl, rfl, rfl, rfl⟩
  | replaced hreplace => exact (replaceRecovery_frame hreplace).toOwnFrame
  | _ => exact ⟨rfl, rfl, rfl, rfl, rfl⟩

theorem ActivateStepped.tables {pc : ActivatePc} (h : ActivateStepped i inp s pc s' own) :
    s'.userLocks = s.userLocks ∧ s'.factors = s.factors ∧ s'.linking = s.linking := by
  cases h with
  | checked hcheck =>
    have hframe := hcheck.frame
    exact ⟨hframe.userLocks, hframe.factors, hframe.linking⟩
  | marked hmark =>
    obtain ⟨_, rfl⟩ := mark_changes hmark
    exact ⟨rfl, rfl, rfl⟩
  | replaced hreplace =>
    have hframe := replaceRecovery_frame hreplace
    exact ⟨hframe.userLocks, hframe.factors, hframe.linking⟩
  | _ => exact ⟨rfl, rfl, rfl⟩

variable (i inp s)

inductive DisableStepped : DisablePc → FactorState → FactorFlow → Prop
  | refused {request error} : DisableStepped (.reauth request) s (.done (some error))
  | proven {request} : DisableStepped (.reauth request) s (.disable (.lock request))
  | locked {request s'} (hlock : s.lockRow i request.userId = some s') :
      DisableStepped (.lock request) s' (.disable (.delete request))
  | deleted {request r methods} (hvisit : s.methods.visit i request.methodId
        (MethodRow.removable request.methodId request.userId request.methodType)
        MethodRow.delete = some (.updated r, methods)) :
      DisableStepped (.delete request) { s with methods := methods }
        (.disable (if r.val.isPrimary then .promote request else .count request))
  | missed {request v methods} (hvisit : s.methods.visit i request.methodId
        (MethodRow.removable request.methodId request.userId request.methodType)
        MethodRow.delete = some (v, methods)) (hv : ∀ r, v ≠ .updated r) :
      DisableStepped (.delete request) ({ s with methods := methods }.rollback i)
        (.done (some .notFound))
  | noneLeft {request} (hnil : FactorState.oldest (s.verifiedSeen i request.userId) = []) :
      DisableStepped (.promote request) s (.disable (.count request))
  | picked {request} (hmem : inp.row ∈ FactorState.oldest (s.verifiedSeen i request.userId)) :
      DisableStepped (.promote request) s (.disable (.promoteRow request inp.row))
  | turnedDown {request id methods}
      (hpromote : promoteRow s.methods i id (!·.deleted) = some (.violation, methods)) :
      DisableStepped (.promoteRow request id) ({ s with methods := methods }.rollback i)
        (.done (some .internal))
  | promoted {request id v methods}
      (hpromote : promoteRow s.methods i id (!·.deleted) = some (v, methods))
      (hv : v ≠ .violation) :
      DisableStepped (.promoteRow request id) { s with methods := methods }
        (.disable (.count request))
  | counted {request} :
      DisableStepped (.count request) s
        (.disable (.admin request (s.verifiedSeen i request.userId).isEmpty))
  | guarded {request codes error} :
      DisableStepped (.admin request codes) (s.rollback i) (.done (some error))
  | passed {request codes} :
      DisableStepped (.admin request codes) s (.disable (.commit request codes))
  | committed {request codes} :
      DisableStepped (.commit request codes)
        { s.releaseRows i with
          methods := s.methods.commit i
          recoveryCodes := if codes then
            s.recoveryCodes.filter fun c => c.userId ≠ request.userId else s.recoveryCodes }
        (.done none)

variable {i inp s}

theorem disableStepped {pc : DisablePc} (h : disableStep i inp s pc = some (s', own)) :
    DisableStepped i inp s pc s' own := by
  unfold disableStep at h
  split at h
  · split at h <;> cases h
    · exact .refused
    · exact .proven
  · split at h <;> cases h
    exact .locked ‹_›
  · split at h <;> cases h
    · exact .deleted ‹_›
    · rename_i hv hvisit
      exact .missed hvisit hv
  · split at h
    · cases h
      exact .noneLeft ‹_›
    · split_ifs at h
      cases h
      exact .picked ‹_›
  · split at h <;> cases h
    · exact .turnedDown ‹_›
    · rename_i hv hpromote
      exact .promoted hpromote hv
  · cases h
    exact .counted
  · split at h <;> cases h
    · exact .guarded
    · exact .passed
  · cases h
    exact .committed

variable (i inp s)

inductive ResetMoved : ResetPc → FactorState → FactorFlow → Prop
  | spared {userId since s'} (htouch : s.touchRow i userId = some s') :
      ResetMoved (.list userId since) s' (.reset (.revoke ⟨userId, none, none, [], false⟩))
  | touched {userId tokenCreatedAt since s'} (htouch : s.touchRow i userId = some s') :
      ResetMoved (.list userId tokenCreatedAt) s' (.reset (.lock userId since))
  | locked {userId since s'} (hlock : s.lockRow i userId = some s') :
      ResetMoved (.lock userId since) s' (.reset (.select userId since))
  | selected {userId since kept} :
      ResetMoved (.select userId since) s
        (.reset (.methods ⟨userId, some since, kept, [], false⟩ since))
  | scanned {d since} :
      ResetMoved (.methods d since) s
        (.reset (.delete d since (s.methods.scan i (d.takes since))))
  | cleared {d since} : ResetMoved (.delete d since []) s (.reset (.passkeys d since))
  | deleted {d since left v methods}
      (hvisit : s.methods.visit i inp.row (d.takes since) MethodRow.delete = some (v, methods)) :
      ResetMoved (.delete d since left) { s with methods := methods }
        (.reset (.delete d since (left.erase inp.row)))
  | passkeys {d since} :
      ResetMoved (.passkeys d since) s
        (.reset (.identities { d with factors := (s.taken d.userId fun f => f.kind.isPasskey &&
          since < f.createdAt && d.kept ≠ some (.passkey f.id)) ++ d.factors } since))
  | identities {d since} :
      ResetMoved (.identities d since) s
        (.reset (.promote { d with factors := (s.taken d.userId fun f =>
          !f.kind.isPasskey && since < f.createdAt) ++ d.factors }))
  | unpromoted {d} (hwhy : (s.methods.viewed i).any (·.primaryOf d.userId) = true ∨
        FactorState.oldest (s.verifiedSeen i d.userId) = []) :
      ResetMoved (.promote d) s (.reset (.codes d))
  | picked {d} (hmem : inp.row ∈ FactorState.oldest (s.verifiedSeen i d.userId)) :
      ResetMoved (.promote d) s (.reset (.promoteRow d inp.row))
  | promoted {d id v methods}
      (hpromote : promoteRow s.methods i id (!·.deleted) = some (v, methods))
      (hv : v ≠ .violation) :
      ResetMoved (.promoteRow d id) { s with methods := methods } (.reset (.codes d))
  | counted {d} :
      ResetMoved (.codes d) s
        (.reset (.revoke { d with codes := (s.verifiedSeen i d.userId).isEmpty }))
  | drops {d} :
      ResetMoved (.revoke d) s
        (.reset (.drop { d with
            factors := s.taken d.userId (fun _ => true) ++ d.factors
            codes := true }
          (s.methods.scan i (MethodRow.ofUser d.userId))))
  | revoked {d} : ResetMoved (.revoke d) s (.reset (.commit d))
  | dropped {d} : ResetMoved (.drop d []) s (.reset (.commit d))
  | dropping {d left v methods} (hvisit : s.methods.visit i inp.row
        (MethodRow.ofUser d.userId) MethodRow.delete = some (v, methods)) :
      ResetMoved (.drop d left) { s with methods := methods }
        (.reset (.drop d (left.erase inp.row)))

variable {i inp s}

theorem resetMoved {pc : ResetPc} (h : resetStep i inp s session pc = some (s', own)) :
    ResetMoved i inp s pc s' own := by
  unfold resetStep at h
  dsimp only at h
  split at h
  · split at h
    · split at h
      · cases h
      · split at h <;> cases h
        · exact .spared ‹_›
        · exact .touched ‹_›
    · cases h
  · split at h <;> cases h
    exact .locked ‹_›
  · split at h
    · cases h
      exact .selected
    · split at h
      · cases h
        exact .selected
      · split_ifs at h
        cases h
        exact .selected
  · cases h
    exact .scanned
  · cases h
    exact .cleared
  · split_ifs at h
    split at h <;> cases h
    exact .deleted ‹_›
  · cases h
    exact .passkeys
  · cases h
    exact .identities
  · split at h
    · cases h
      exact .unpromoted (.inl ‹_›)
    · split at h
      · cases h
        exact .unpromoted (.inr ‹_›)
      · split_ifs at h
        cases h
        exact .picked ‹_›
  · split at h <;> cases h
    rename_i hv hpromote
    exact .promoted hpromote hv
  · cases h
    exact .counted
  · split at h
    · split at h <;> cases h
      · exact .drops
      · exact .revoked
    · cases h
  · cases h
    exact .dropped
  · split_ifs at h
    split at h <;> cases h
    exact .dropping ‹_›
  · cases h
  · cases h

theorem DisableStepped.changes {pc : DisablePc} (h : DisableStepped i inp s pc s' own) :
    ∃ userLocks methods linking recoveryCodes,
      s' = { s with
        userLocks := userLocks
        methods := methods
        linking := linking
        recoveryCodes := recoveryCodes } := by
  cases h with
  | locked hlock => exact ⟨_, _, _, _, (FactorState.lockRow_eq_some hlock).2.2⟩
  | _ => exact ⟨_, _, _, _, rfl⟩

theorem ResetMoved.changes {pc : ResetPc} (h : ResetMoved i inp s pc s' own) :
    ∃ userLocks methods, s' = { s with userLocks := userLocks, methods := methods } := by
  cases h with
  | locked hlock => exact ⟨_, _, (FactorState.lockRow_eq_some hlock).2.2⟩
  | spared htouch | touched htouch => exact ⟨_, _, (FactorState.touchRow_eq_some htouch).2⟩
  | _ => exact ⟨_, _, rfl⟩

variable (i inp s)

inductive EnrolStepped : EnrolPc → FactorState → FactorFlow → Prop
  | refused {pc error} (hpc : ∀ request, pc ≠ .commit request) :
      EnrolStepped pc s (.done (some error))
  | authenticated {request} : EnrolStepped (.auth request) s (.enrol (.start request))
  | started {request} : EnrolStepped (.start request) s (.enrol (.insert request s.dbNow))
  | registered {request startedAt} (hfree : s.referable i request.userId = true) :
      EnrolStepped (.insert request startedAt)
        { s with
          ids := inp.uuid :: s.ids
          factors := ⟨inp.uuid, request.userId, request.kind, startedAt, request.sessionId,
            s.dbNow⟩ :: s.factors }
        (.done none)
  | linked {request startedAt} (hfree : s.referable i request.userId = true) :
      EnrolStepped (.insert request startedAt)
        { s with
          ids := inp.uuid :: s.ids
          linking := (i, ⟨inp.uuid, request.userId, request.kind, startedAt, request.sessionId,
            s.dbNow⟩) :: s.linking }
        (.enrol (.commit request))
  | committed {request} :
      EnrolStepped (.commit request)
        { s with
          factors := ((s.linking.filter fun (j, _) => j = i).map Prod.snd) ++ s.factors
          linking := s.linking.filter fun (j, _) => j ≠ i }
        (.done none)

variable {i inp s}

theorem enrolStepped {pc : EnrolPc} (h : enrolStep i inp s session pc = some (s', own)) :
    EnrolStepped i inp s pc s' own := by
  unfold enrolStep at h
  split at h
  · split at h <;> cases h
    · exact .authenticated
    · exact .refused nofun
  · split at h <;> cases h
    · exact .refused nofun
    · exact .started
  · split_ifs at h with hblocked
    · cases h
      exact .refused nofun
    · simp only [Bool.or_eq_true, not_or, Bool.not_eq_true', Bool.not_eq_false] at hblocked
      split at h
      · cases h
      · obtain ⟨-, rfl⟩ := FactorState.drawId_eq_some ‹_›
        split at h <;> cases h
        · exact .registered hblocked.1
        · exact .linked hblocked.1
  · cases h
    exact .committed

theorem EnrolStepped.changes {pc : EnrolPc} (h : EnrolStepped i inp s pc s' own) :
    ∃ factors linking ids,
      s' = { s with factors := factors, linking := linking, ids := ids } := by
  cases h <;> exact ⟨_, _, _, rfl⟩

variable (inp s code)

inductive CompletionStepped : Flow → CompletionPc → FactorState → FactorFlow → Prop
  | refused {request challenge pc error} :
      CompletionStepped (.complete (.verify request challenge)) pc s
        (.complete code (.check (.refused error)))
  | totp {request challenge} (hfactor : request.factor = .totp) :
      CompletionStepped (.complete (.verify request challenge)) .load s (.complete code .primary)
  | email {request challenge} (hfactor : request.factor = .email) :
      CompletionStepped (.complete (.verify request challenge)) .load s
        (.complete code (.check (.findOtp (some request.challengeId) code)))
  | recoveryCode {request challenge} (hfactor : request.factor = .recoveryCode) :
      CompletionStepped (.complete (.verify request challenge)) .load s
        (.complete code (.check (.findRecovery code)))
  | read {request challenge secret} :
      CompletionStepped (.complete (.verify request challenge)) .primary s
        (.complete code (.check (.verify secret code)))
  | checked {request challenge pc s' pc'} (hcheck : CheckStepped inp s challenge.userId pc s' pc') :
      CompletionStepped (.complete (.verify request challenge)) (.check pc) s'
        (.complete code (.check pc'))

variable {inp s code}

theorem completionStepped {pc : CompletionPc}
    (h : completionStep inp s flow code pc = some (s', own)) :
    CompletionStepped inp s code flow pc s' own := by
  unfold completionStep at h
  split at h
  · split at h <;> cases h
    · exact .refused
    · exact .totp ‹_›
    · exact .email ‹_›
    · exact .recoveryCode ‹_›
  · split at h
    · cases h
      exact .refused
    · split at h <;> cases h
      · exact .refused
      · exact .read
  · split at h <;> cases h
    exact .checked (checkStepped ‹_›)
  · cases h

theorem CompletionStepped.frame {pc : CompletionPc}
    (h : CompletionStepped inp s code flow pc s' own) : CodesFrame s s' := by
  cases h with
  | checked hcheck => exact hcheck.frame
  | _ => exact .refl s

theorem mailStepped (h : mailStep inp s flow sent = some (s', own)) :
    own = .signIn true ∧ ∃ userId challenge, s.createOtp inp userId challenge = some s' := by
  unfold mailStep at h
  split at h
  · split_ifs at h
    split at h <;> cases h
    exact ⟨rfl, _, _, ‹_›⟩
  · cases h

theorem mailStep_frame (h : mailStep inp s flow sent = some (s', own)) : CodesFrame s s' := by
  obtain ⟨-, _, _, hcreate⟩ := mailStepped h
  exact createOtp_frame hcreate

theorem ownStep_frame (h : ownStep i inp s p = some (s', own)) : OwnFrame s s' := by
  unfold ownStep at h
  split at h
  · cases h
  · obtain ⟨_, rfl⟩ := (setupStepped h).changes
    exact ⟨rfl, rfl, rfl, rfl, rfl⟩
  · exact (activateStepped h).frame
  · obtain ⟨_, _, _, _, rfl⟩ := (disableStepped h).changes
    exact ⟨rfl, rfl, rfl, rfl, rfl⟩
  · obtain ⟨_, _, rfl⟩ := (resetMoved h).changes
    exact ⟨rfl, rfl, rfl, rfl, rfl⟩
  · obtain ⟨_, _, _, rfl⟩ := (enrolStepped h).changes
    exact ⟨rfl, rfl, rfl, rfl, rfl⟩
  · exact (mailStep_frame h).toOwnFrame
  · exact ((completionStepped h).frame).toOwnFrame
  · split at h <;> cases h
    exact (createOtp_frame ‹_›).toOwnFrame
  · split at h <;> cases h
    exact (replaceRecovery_frame ‹_›).toOwnFrame
  · cases h

/-! ## Where the own code goes on -/

/-- The requests, by what they are for. -/
inductive RequestKind where
  | setup
  | activate
  | disable
  | reset
  | enrol
  | signIn
  | complete
  | sendCode
  | regenerate
deriving DecidableEq

def FactorFlow.kind : FactorFlow → Option RequestKind
  | .idle => none
  | .setup _ => some .setup
  | .activate _ => some .activate
  | .disable _ => some .disable
  | .reset _ => some .reset
  | .enrol _ => some .enrol
  | .signIn _ => some .signIn
  | .complete _ _ => some .complete
  | .sendCode _ _ => some .sendCode
  | .regenerate _ => some .regenerate
  | .done _ => none

theorem FactorFlow.eq_activate (h : own.kind = some .activate) : ∃ pc, own = .activate pc := by
  cases own with
  | activate pc => exact ⟨pc, rfl⟩
  | _ => cases h

theorem FactorFlow.eq_disable (h : own.kind = some .disable) : ∃ pc, own = .disable pc := by
  cases own with
  | disable pc => exact ⟨pc, rfl⟩
  | _ => cases h

theorem FactorFlow.eq_reset (h : own.kind = some .reset) : ∃ pc, own = .reset pc := by
  cases own with
  | reset pc => exact ⟨pc, rfl⟩
  | _ => cases h

/-- A request goes on as what it is, or ends. -/
def FactorFlow.Next (own own' : FactorFlow) : Prop :=
  own'.kind = own.kind ∨ ∃ error, own' = .done error

theorem SetupStepped.next {pc : SetupPc} (h : SetupStepped inp s pc s' own) :
    (FactorFlow.setup pc).Next own := by
  cases h <;> first | exact .inl rfl | exact .inr ⟨_, rfl⟩

theorem ActivateStepped.next {pc : ActivatePc} (h : ActivateStepped i inp s pc s' own) :
    (FactorFlow.activate pc).Next own := by
  cases h <;> first | exact .inl rfl | exact .inr ⟨_, rfl⟩

theorem DisableStepped.next {pc : DisablePc} (h : DisableStepped i inp s pc s' own) :
    (FactorFlow.disable pc).Next own := by
  cases h <;> first | exact .inl rfl | exact .inr ⟨_, rfl⟩

theorem ResetMoved.next {pc : ResetPc} (h : ResetMoved i inp s pc s' own) :
    (FactorFlow.reset pc).Next own := by
  cases h <;> exact .inl rfl

theorem EnrolStepped.next {pc : EnrolPc} (h : EnrolStepped i inp s pc s' own) :
    (FactorFlow.enrol pc).Next own := by
  cases h <;> first | exact .inl rfl | exact .inr ⟨_, rfl⟩

theorem mailStep_next (h : mailStep inp s flow sent = some (s', own)) :
    (FactorFlow.signIn sent).Next own :=
  .inl (by rw [(mailStepped h).1]; rfl)

theorem completionStep_next {pc : CompletionPc}
    (h : completionStep inp s flow code pc = some (s', own)) :
    (FactorFlow.complete code pc).Next own := by
  cases completionStepped h <;> exact .inl rfl

theorem ownStep_next (h : ownStep i inp s p = some (s', own)) : p.own.Next own := by
  unfold ownStep at h
  split at h <;> rename_i hown
  · cases h
  · exact hown ▸ (setupStepped h).next
  · exact hown ▸ (activateStepped h).next
  · exact hown ▸ (disableStepped h).next
  · exact hown ▸ (resetMoved h).next
  · exact hown ▸ (enrolStepped h).next
  · exact hown ▸ mailStep_next h
  · exact hown ▸ completionStep_next h
  · split at h <;> cases h
    exact .inr ⟨_, rfl⟩
  · split at h <;> cases h
    exact .inr ⟨_, rfl⟩
  · cases h

/-! ## Everything a step can be -/

inductive FactorStepped (i : Nat) (s : FactorState) (p : FactorProc) :
    FactorAct → FactorState → FactorProc → Prop
  | account {a account q} (hadmits : admits s p a = true)
      (h : accountProgram i a s.account p.account = some (account, q)) :
      FactorStepped i s p (.account a) (settle i s p account q a).1 (settle i s p account q a).2
  /-- A request that calls nothing in the account system. -/
  | entered {call own} (hidle : p.own = .idle) (hflow : p.account.flow = .idle)
      (hcall : call.entry = (own, none)) : FactorStepped i s p (.start call) s { p with own := own }
  | called {call own callee account q} (hidle : p.own = .idle) (hflow : p.account.flow = .idle)
      (hcall : call.entry = (own, some callee))
      (h : accountProgram i (.start callee) s.account p.account = some (account, q)) :
      FactorStepped i s p (.start call) { s with account := account } ⟨own, q⟩
  | go {inp : FactorInput} {s' : FactorState} {own : FactorFlow}
      (h : ownStep i inp s p = some (s', own)) :
      FactorStepped i s p (.go inp) s' { p with own := own }
  | drift (ahead : Int) : FactorStepped i s p (.drift ahead) { s with ahead := ahead } p
  | sweep (left : List UsedTotpCode) :
      FactorStepped i s p (.sweep left)
        { s with
          usedCodes := s.usedCodes.filter fun u =>
            !(u.usedAt < s.dbNow - usedCodeRetention) || u ∈ left }
        p
  | failed {account q} (hrunning : p.own.running = true)
      (h : failStep i s.account p.account = some (account, q)) :
      FactorStepped i s p .fail ({ s with account := account }.rollback i)
        ⟨.done (some .internal), q⟩
  | failedAlone (hrunning : p.own.running = true) (h : failStep i s.account p.account = none) :
      FactorStepped i s p .fail (s.rollback i) { p with own := .done (some .internal) }

theorem factorStepped (h : factorProgram i a s p = some (s', p')) :
    FactorStepped i s p a s' p' := by
  cases a with
  | account a =>
    simp only [factorProgram] at h
    split_ifs at h with hadmits
    split at h
    · rename_i account q hprog
      cases hsettle : settle i s p account q a
      rw [hsettle] at h
      cases h
      have hstep := FactorStepped.account hadmits hprog
      rw [hsettle] at hstep
      exact hstep
    · cases h
  | start call =>
    simp only [factorProgram, enter] at h
    split at h
    · rename_i hidle hflow
      split at h
      · rename_i hcall
        cases h
        exact .entered hidle hflow hcall
      · rename_i hcall
        split at h <;> cases h
        rename_i hprog
        exact .called hidle hflow hcall hprog
    · cases h
  | go inp =>
    simp only [factorProgram] at h
    split at h <;> cases h
    exact .go ‹_›
  | drift ahead =>
    cases h
    exact .drift ahead
  | sweep left =>
    cases h
    exact .sweep left
  | fail =>
    simp only [factorProgram, abort] at h
    split_ifs at h with hrunning
    split at h <;> cases h
    · exact .failed hrunning ‹_›
    · exact .failedAlone hrunning ‹_›

/-- Where in its own code the statement is that an action executes, if it
executes one. -/
def FactorAct.executes (own : FactorFlow) : FactorAct → FactorFlow
  | .go _ => own
  | _ => .idle

theorem settle_config (account : AccountState) (q : Request) (a : AccountAct) :
    (settle i s p account q a).1.config = s.config := by
  cases a with
  | session =>
    simp only [settle, settleSession]
    split
    · rfl
    · split <;> rfl
    · rfl
  | _ => rfl

theorem FactorStepped.config (h : FactorStepped i s p a s' p') : s'.config = s.config := by
  cases h with
  | account _ _ => exact settle_config _ _ _
  | go h => exact (ownStep_frame h).config
  | _ => rfl

/-- The tables are as they were, but for a sweep. -/
structure TablesFrame (s s' : FactorState) : Prop where
  userLocks : s'.userLocks = s.userLocks
  methods : s'.methods = s.methods
  factors : s'.factors = s.factors
  linking : s'.linking = s.linking
  recoveryCodes : s'.recoveryCodes = s.recoveryCodes

/-- What becomes of the place a process is at in its own code. -/
inductive OwnMoved (i : Nat) (s : FactorState) (p : FactorProc) (a : FactorAct)
    (s' : FactorState) : FactorFlow → Prop
  | stays (h : a.executes p.own = .idle) (hframe : TablesFrame s s') : OwnMoved i s p a s' p.own
  | enters (call : FactorCall) (h : a.executes p.own = .idle) (hidle : p.own = .idle)
      (hframe : TablesFrame s s') : OwnMoved i s p a s' call.entry.1
  | ends (error : Option AppError) (ha : a = .fail)
      (hmethods : s'.methods = s.methods.rollback i) : OwnMoved i s p a s' (.done error)
  | commits {d} (h : a.executes p.own = .idle) (hown : p.own = .reset (.commit d))
      (hmethods : s'.methods = s.methods.commit i) : OwnMoved i s p a s' (.reset .after)
  /-- The session code of a reset has failed. -/
  | givesUp {d} (h : a.executes p.own = .idle) (hown : p.own = .reset (.revoke d))
      (hmethods : s'.methods = s.methods.rollback i) : OwnMoved i s p a s' (.reset .after)
  | goes {inp : FactorInput} {own : FactorFlow} (ha : a = .go inp)
      (h : ownStep i inp s p = some (s', own)) : OwnMoved i s p a s' own

theorem FactorStepped.moved (h : FactorStepped i s p a s' p') : OwnMoved i s p a s' p'.own := by
  cases h with
  | @account a account q _ _ =>
    cases a with
    | session ch =>
      simp only [settle, settleSession]
      split
      · rename_i hown
        exact .commits rfl hown rfl
      · rename_i hown
        split
        · exact .givesUp rfl hown rfl
        · exact hown ▸ .stays rfl ⟨rfl, rfl, rfl, rfl, rfl⟩
      · exact .stays rfl ⟨rfl, rfl, rfl, rfl, rfl⟩
    | _ => exact .stays rfl ⟨rfl, rfl, rfl, rfl, rfl⟩
  | @entered call own hidle _ hcall =>
    have hmoved : OwnMoved i s p (.start call) s call.entry.1 :=
      .enters call rfl hidle ⟨rfl, rfl, rfl, rfl, rfl⟩
    rw [hcall] at hmoved
    exact hmoved
  | @called call own _ account _ hidle _ hcall _ =>
    have hmoved : OwnMoved i s p (.start call) { s with account := account } call.entry.1 :=
      .enters call rfl hidle ⟨rfl, rfl, rfl, rfl, rfl⟩
    rw [hcall] at hmoved
    exact hmoved
  | go h => exact .goes rfl h
  | drift | sweep => exact .stays rfl ⟨rfl, rfl, rfl, rfl, rfl⟩
  | failed _ _ | failedAlone _ _ => exact .ends _ rfl rfl

theorem config_run (h : Steps factorProgram ok c c') : c'.shared.config = c.shared.config :=
  h.invariant (I := fun c' => c'.shared.config = c.shared.config)
    (fun _ _ _ _ _ hc _ hprog => (factorStepped hprog).config.trans hc) rfl

/-! ## The account system inside -/

theorem settle_account (account : AccountState) (q : Request) (a : AccountAct) :
    (settle i s p account q a).1.account = account := by
  cases a with
  | session =>
    simp only [settle, settleSession]
    split
    · rfl
    · split <;> rfl
    · rfl
  | _ => rfl

theorem settle_request (account : AccountState) (q : Request) (a : AccountAct) :
    (settle i s p account q a).2.account = q := by
  cases a with
  | session =>
    simp only [settle, settleSession]
    split
    · rfl
    · split <;> rfl
    · rfl
  | _ => rfl

theorem FactorStepped.account_part (h : FactorStepped i s p a s' p') :
    (s'.account = s.account ∧ p'.account = p.account) ∨
      ∃ b, accountProgram i b s.account p.account = some (s'.account, p'.account) := by
  cases h with
  | account _ h =>
    rw [settle_account, settle_request]
    exact .inr ⟨_, h⟩
  | entered | drift | sweep | failedAlone => exact .inl ⟨rfl, rfl⟩
  | called _ _ _ h => exact .inr ⟨_, h⟩
  | go h => exact .inl ⟨(ownStep_frame h).account, rfl⟩
  | failed _ h => exact .inr ⟨.fail, h⟩

theorem FactorStepped.session_part (h : FactorStepped i s p a s' p') :
    SessionPart i s.account p.account s'.account p'.account := by
  rcases h.account_part with ⟨hs, hp⟩ | ⟨b, hb⟩
  · exact .same (by rw [hs]) (by rw [hp])
  · exact accountProgram_part hb

def accountOf (c : FactorConf) : AccountConf :=
  ⟨c.shared.account, fun i => (c.procs i).account⟩

theorem accountOf_set (c : FactorConf) (i : Nat) (s : FactorState) (p : FactorProc) :
    accountOf (c.set i s p) = (accountOf c).set i s.account p.account := by
  simp only [accountOf, Conf.set, Conf.mk.injEq, true_and]
  funext j
  by_cases h : j = i
  · subst h
    simp
  · simp [h]

theorem accountOf_step {i : Nat} {s : FactorState} {p : FactorProc}
    (h : factorProgram i a c.shared (c.procs i) = some (s, p)) :
    Steps accountProgram Free (accountOf c) (accountOf (c.set i s p)) := by
  rw [accountOf_set]
  rcases (factorStepped h).account_part with ⟨hs, hp⟩ | ⟨b, hb⟩
  · have hsame : (accountOf c).set i s.account p.account = accountOf c := by
      simp only [accountOf, Conf.set, hs, hp, Conf.mk.injEq, true_and]
      exact Function.update_eq_self i _
    rw [hsame]
    exact .refl
  · exact .single (.mk trivial hb)

/-- Every run is one of the account system. -/
theorem steps_accountOf (h : Steps factorProgram ok c c') :
    Steps accountProgram Free (accountOf c) (accountOf c') :=
  h.simulate fun _ _ _ _ _ _ hprog => accountOf_step hprog

end AuthApi
