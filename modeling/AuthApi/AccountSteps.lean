import AuthApi.AccountSystem

/-!
# What a step of a request can be

One inversion for each kind of request: the approval and the redemption of
a code, a device flow, a sign-in, the completion of a challenge, and a
password change with the purge of the account's challenges. `accountMoved`
puts them together; what later modules prove of every step is a case
analysis on it. Where only challenges, passwords and sign-ins count, the
statements of the other requests are one case (`accountStepped`).
-/

namespace AuthApi

open Conc Pg

/-! ## Statement by statement -/

/-- The account whose index a request is working on. -/
def Flow.listing : Flow → Option Uuid
  | .signIn (.count challenge) => some challenge.userId
  | .signIn (.evict challenge _) => some challenge.userId
  | .signIn (.drop challenge _ _) => some challenge.userId
  | .signIn (.expire challenge) => some challenge.userId
  | .password (.members userId) => some userId
  | .password (.drop userId _) => some userId
  | _ => none

/-- The request is another one than a sign-in or a password change. -/
def Flow.aloof : Flow → Bool
  | .idle => false
  | .signIn _ => false
  | .complete _ => false
  | .password _ => false
  | .done (.passwordChanged _) => false
  | _ => true

section Inversions

variable (i : Nat) (inp : Input) (s : AccountState) (p : Request)

inductive ApproveStepped : ApprovePc → AccountState → Request → Prop
  | refused {approval error} : ApproveStepped (.checks approval) s (p.refuse error)
  | checked {approval} :
      ApproveStepped (.checks approval) s
        (p.goto (.approve (.insert approval
          (consent approval.requested (inp.held approval.userId)))))
  | clashed {approval scopes} (hfresh : s.drawn inp.tokenHash = none) :
      ApproveStepped (.insert approval scopes)
        { s with
          drawn := Function.update s.drawn inp.tokenHash (some i)
          codes := s.codes.rollback i }
        (p.refuse .internal)
  | inserted {approval : CodeApproval} {scopes : Option (List String)} {codes : CodeDb}
      (hfresh : s.drawn inp.tokenHash = none)
      (hins : s.codes.insert i (approval.code scopes inp.tokenHash s.sessions.clock)
        = some codes) :
      ApproveStepped (.insert approval scopes)
        { s with drawn := Function.update s.drawn inp.tokenHash (some i), codes := codes }
        (p.goto (.approve (.commit (approval.code scopes inp.tokenHash s.sessions.clock))))
  | committed {code} :
      ApproveStepped (.commit code)
        { s with
          codes := s.codes.commit i
          given := (.code code.codeHash, code.userId) :: s.given }
        (p.answer (.code code.codeHash))

inductive RedeemStepped : RedeemPc → AccountState → Request → Prop
  | began {request} :
      RedeemStepped (.start request) s
      (p.goto (.redeem (.consume request s.sessions.now)))
  | found {request startedAt}
      (hrow : (s.codes.view i request.codeHash).any (·.redeemable startedAt) = true) :
      RedeemStepped (.consume request startedAt) s
        (p.goto (.redeem (.visit request startedAt)))
  | missed {request startedAt}
      (hrow : (s.codes.view i request.codeHash).any (·.redeemable startedAt) = false) :
      RedeemStepped (.consume request startedAt)
        { s with codes := s.codes.rollback i } (p.goto (.redeem (.replay request)))
  | took {request : Redemption} {startedAt : OffsetDateTime} {entry : AuthorizationCode}
      {codes : CodeDb} (hvisit : s.codes.visit i request.codeHash (·.redeemable startedAt)
        (fun code => some (code.consume startedAt)) = some (.updated entry, codes)) :
      RedeemStepped (.visit request startedAt) { s with codes := codes }
        (p.goto (.redeem (if entry.answeredBy request then .checks request entry
          else .burn entry .invalidAuthorizationCode)))
  | lost {request : Redemption} {startedAt : OffsetDateTime} {v : Db.Visit AuthorizationCode}
      {codes : CodeDb} (hvisit : s.codes.visit i request.codeHash (·.redeemable startedAt)
        (fun code => some (code.consume startedAt)) = some (v, codes))
      (hv : ∀ entry, v ≠ .updated entry) :
      RedeemStepped (.visit request startedAt)
        { s with codes := codes.rollback i } (p.goto (.redeem (.replay request)))
  | revokes {request seen sessionId} (hseen : s.codes.committed request.codeHash = some seen)
      (hconsumed : seen.consumedAt.isSome) (hclient : seen.clientId = request.clientId)
      (hproof : inp.confidential = true ∨ seen.codeChallenge = request.codeChallenge)
      (hsession : seen.sessionId = some sessionId) (hidle : p.session = .idle)
      (hpresent : (s.sessions.findById sessionId).isSome) :
      RedeemStepped (.replay request) s
        ⟨.redeem .revoke, .revoke (.familyStart sessionId)⟩
  | spares {request}
      (hwhy : ∀ seen, s.codes.committed request.codeHash = some seen → seen.consumedAt.isSome →
        seen.clientId = request.clientId →
        inp.confidential = true ∨ seen.codeChallenge = request.codeChallenge →
        seen.sessionId = none) :
      RedeemStepped (.replay request) s (p.refuse .invalidAuthorizationCode)
  | revoked {outcome} (hdone : p.session = .done outcome) :
      RedeemStepped .revoke s (p.refuse .invalidAuthorizationCode)
  | burned {entry error} :
      RedeemStepped (.burn entry error) { s with codes := s.codes.commit i }
        (p.refuse error)
  | refused {request entry error} :
      RedeemStepped (.checks request entry) s (p.goto (.redeem (.burn entry error)))
  | issues {request entry} (hidle : p.session = .idle) :
      RedeemStepped (.checks request entry) s
        ⟨.redeem (.issue entry), .issue (.clock (entry.issueArgs request))⟩
  | attached {entry sessionId} (hdone : p.session = .done (.tokens sessionId)) :
      RedeemStepped (.issue entry)
        { s with codes := s.codes.write i (entry.attachSession sessionId) }
        (p.goto (.redeem (.commit entry sessionId)))
  | failed {entry error} (hdone : p.session = .done (.error error)) :
      RedeemStepped (.issue entry) { s with codes := s.codes.rollback i } (p.refuse error)
  | committed {entry sessionId} :
      RedeemStepped (.commit entry sessionId) { s with codes := s.codes.commit i }
        (p.answer (.redeemed sessionId entry.nonce))

/-- What a step of `initiate`, `verify`, `update_status` or `poll` can
be. -/
inductive DeviceStepped : DevicePc → AccountState → Request → Prop
  | drawn {request s'} (hdraw : s.draw i inp.tokenHash = some s') :
      DeviceStepped (.initiate request) s'
        (p.goto (.device (.reserve request inp.tokenHash userCodeAttempts)))
  | taken {request hash attempts} (hget : (s.userCodes.get s.now inp.userCode).isSome) :
      DeviceStepped (.reserve request hash (attempts + 1)) s
        (p.goto (.device (.reserve request hash attempts)))
  | reserved {request hash attempts} (hget : s.userCodes.get s.now inp.userCode = none) :
      DeviceStepped (.reserve request hash (attempts + 1))
        { s with
          userCodes := s.userCodes.setEx s.now inp.userCode hash
            (s.deviceAuth.ttlSecs * nanosPerSec) }
        (p.goto (.device (.store request hash inp.userCode)))
  | stored {request hash userCode} :
      DeviceStepped (.store request hash userCode)
        { s with
          devices := s.devices.setEx s.now hash (request.entry userCode s.sessions.clock)
            (s.deviceAuth.ttlSecs * nanosPerSec) }
        (p.answer (.initiated hash userCode))
  | found {userCode userId hash} (hget : s.userCodes.get s.now userCode = some hash) :
      DeviceStepped (.lookup userCode userId) s
        (p.goto (.device (.read userCode userId hash)))
  | shown {userCode userId hash entry} (hget : s.devices.get s.now hash = some entry) :
      DeviceStepped (.read userCode userId hash) s
        (p.goto (.device (.checks userCode userId entry.clientId)))
  | passed {userCode userId clientId} :
      DeviceStepped (.checks userCode userId clientId) s
        (p.goto (.device (.target ⟨userCode, .authorized, userId, inp.authTime⟩)))
  | targeted {decision hash} (hget : s.userCodes.get s.now decision.userCode = some hash) :
      DeviceStepped (.target decision) s (p.goto (.device (.current decision hash)))
  | weighed {decision hash entry} (hget : s.devices.get s.now hash = some entry)
      (hpending : entry.status = .pending) :
      DeviceStepped (.current decision hash) s
        (p.goto (.device (.swap decision hash entry
          (entry.decided decision (inp.held decision.userId)))))
  | decided {decision hash raw updated} (hget : s.devices.get s.now hash = some raw) :
      DeviceStepped (.swap decision hash raw updated)
        { s with
          devices := s.devices.alter s.now hash fun _ => some updated
          given := if decision.status = .authorized then
            (.device hash, decision.userId) :: s.given else s.given }
        (p.answer .decided)
  | waits {request entry} (hget : s.devices.get s.now request.deviceHash = some entry) :
      DeviceStepped (.poll request) s (p.goto (.device (.pace request.deviceHash)))
  | denied {request entry} (hget : s.devices.get s.now request.deviceHash = some entry)
      (hstatus : entry.status = .denied) :
      DeviceStepped (.poll request) s
        (p.goto (.device (.forget request.deviceHash entry.userCode)))
  | approved {request entry userId clientId}
      (hget : s.devices.get s.now request.deviceHash = some entry)
      (hclient : entry.clientId = some request.clientId)
      (houtcome : pollOutcome entry.status entry.userId entry.clientId
        = .authorized userId clientId) :
      DeviceStepped (.poll request) s
        (p.goto (.device (.quota request entry userId clientId)))
  | paced {hash error} :
      DeviceStepped (.pace hash)
        { s with
          paced := s.paced.setNx s.now hash ()
            (max s.deviceAuth.pollIntervalSecs 1 * nanosPerSec) }
        (p.refuse error)
  | forgot {hash userCode} :
      DeviceStepped (.forget hash userCode) { s with devices := s.devices.del hash }
        (p.goto (.device (.forgotten hash userCode)))
  | unforgot {hash userCode} :
      DeviceStepped (.forget hash userCode) s
        (p.goto (.device (.forgotten hash userCode)))
  | freed {hash userCode} :
      DeviceStepped (.forgotten hash userCode)
        { s with userCodes := s.userCodes.del userCode } (p.refuse .deviceAccessDenied)
  | admitted {request entry userId clientId} :
      DeviceStepped (.quota request entry userId clientId) s
        (p.goto (.device (.claim request entry userId clientId)))
  | claimed {request entry userId clientId}
      (hlive : (s.devices.get s.now request.deviceHash).isSome) :
      DeviceStepped (.claim request entry userId clientId)
        { s with devices := s.devices.del request.deviceHash }
        (p.goto (.device (.claimed request entry userId clientId)))
  | issuing {request entry userId clientId s'} (hidle : p.session = .idle)
      (hs : s' = s ∨ s' = { s with userCodes := s.userCodes.del entry.userCode }) :
      DeviceStepped (.claimed request entry userId clientId) s'
        ⟨.device (.issue request.deviceHash userId),
          .issue (.clock (entry.issueArgs request userId clientId))⟩
  | finished {hash userId sessionId} (hdone : p.session = .done (.tokens sessionId)) :
      DeviceStepped (.issue hash userId) s (p.answer (.tokens sessionId))
  | refused {pc error} : DeviceStepped pc s (p.refuse error)

inductive SignInStepped : SignInPc → AccountState → Request → Prop
  | checked {request} :
      SignInStepped (.check request) s
        (p.goto (.signIn (.method request (s.passwordVersion request.userId))))
  | issuing {request version} (hidle : p.session = .idle) :
      SignInStepped (.method request version) s
        ⟨.signIn (.issue request.userId version), .issue (.clock request.issueArgs)⟩
  | drew {request version method} (hfresh : s.drawn inp.tokenHash = none) :
      SignInStepped (.method request version)
        { s with drawn := Function.update s.drawn inp.tokenHash (some i) }
        (p.goto (.signIn (.store ⟨request.userId, version, inp.tokenHash, method⟩
          request.rememberMe)))
  | stored {challenge rememberMe} :
      SignInStepped (.store challenge rememberMe)
        { s with
          preAuth := s.preAuth.setEx s.now challenge.id
            ⟨challenge.userId, rememberMe, some challenge.method⟩ (preAuthTtlSecs * nanosPerSec)
          openedWith := Function.update s.openedWith challenge.id (some challenge.version) }
        (p.goto (.signIn (.count challenge)))
  | counted {challenge} (rounds : Nat) :
      SignInStepped (.count challenge) s (p.goto (.signIn (.evict challenge rounds)))
  | listed {challenge} (hup : inp.redisUp = true) :
      SignInStepped (.evict challenge 0)
        { s with
          userPreAuth := s.userPreAuth.alter s.now challenge.userId (addMember challenge.id) }
        (p.goto (.signIn (.expire challenge)))
  | notListed {challenge} (hdown : inp.redisUp = false) :
      SignInStepped (.evict challenge 0) s (p.goto (.signIn (.expire challenge)))
  | popped {challenge rounds} (hmem : inp.member ∈ s.members challenge.userId) :
      SignInStepped (.evict challenge (rounds + 1))
        { s with
          userPreAuth := s.userPreAuth.alter s.now challenge.userId (removeMember inp.member) }
        (p.goto (.signIn (.drop challenge rounds inp.member)))
  | stopped {challenge rounds} :
      SignInStepped (.evict challenge (rounds + 1)) s
        (p.goto (.signIn (.evict challenge 0)))
  | dropped {challenge rounds id} (hup : inp.redisUp = true) :
      SignInStepped (.drop challenge rounds id)
        { s with preAuth := s.preAuth.del id } (p.goto (.signIn (.evict challenge rounds)))
  | notDropped {challenge rounds id} (hdown : inp.redisUp = false) :
      SignInStepped (.drop challenge rounds id) s
        (p.goto (.signIn (.evict challenge rounds)))
  | renewed {challenge} (hup : inp.redisUp = true) :
      SignInStepped (.expire challenge)
        { s with
          userPreAuth := s.userPreAuth.expire s.now challenge.userId
            (preAuthTtlSecs * nanosPerSec) }
        (p.goto (.signIn (.send challenge)))
  | notRenewed {challenge} (hdown : inp.redisUp = false) :
      SignInStepped (.expire challenge) s (p.goto (.signIn (.send challenge)))
  | ended {pc answer} (hpc : (Flow.signIn pc).listing = none)
      (hanswer : (Flow.done answer).aloof = true) : SignInStepped pc s (p.answer answer)

inductive CompleteStepped : CompletePc → AccountState → Request → Prop
  | loaded {request challenge} (hget : s.preAuth.get s.now request.challengeId = some challenge)
      (hanswers : request.factor.answers challenge = true) :
      CompleteStepped (.load request) s (p.goto (.complete (.verify request challenge)))
  | verified {request challenge} (hrefusal : inp.refusal = none) :
      CompleteStepped (.verify request challenge) s
        (p.goto (.complete (.take request challenge)))
  | taken {request challenge} (hget : (s.preAuth.get s.now request.challengeId).isSome) :
      CompleteStepped (.take request challenge)
        { s with preAuth := s.preAuth.del request.challengeId }
        (p.goto (.complete (.unindex request challenge)))
  | unlisted {request challenge} (hidle : p.session = .idle) :
      CompleteStepped (.unindex request challenge)
        (if inp.redisUp then
          { s with
            userPreAuth := s.userPreAuth.alter s.now challenge.userId
              (removeMember request.challengeId) }
          else s)
        ⟨.complete (.issue request.challengeId challenge.userId),
          .issue (.clock (request.issueArgs challenge))⟩
  | ended {pc answer} (hanswer : (Flow.done answer).aloof = true) :
      CompleteStepped pc s (p.answer answer)

inductive PasswordStepped : PasswordPc → AccountState → Request → Prop
  | changed {userId rev} (hdone : p.session = .done (.revoked rev)) :
      PasswordStepped (.change userId) s (p.goto (.password (.members userId)))
  | refused {userId error} (hdone : p.session = .done (.error error)) :
      PasswordStepped (.change userId) s (p.refuse error)
  | cutOff {userId} (hinp : inp.refusal ≠ none) :
      PasswordStepped (.members userId) s (p.answer (.passwordChanged userId))
  | read {userId} :
      PasswordStepped (.members userId) s
        (p.goto (.password (.drop userId (if inp.redisUp then s.members userId else []))))
  | deleted {userId id ids} :
      PasswordStepped (.drop userId (id :: ids))
        (if inp.redisUp then { s with preAuth := s.preAuth.del id } else s)
        (p.goto (.password (.drop userId ids)))
  | cleared {userId} :
      PasswordStepped (.drop userId [])
        (if inp.redisUp then { s with userPreAuth := s.userPreAuth.del userId } else s)
        (p.answer (.passwordChanged userId))

end Inversions

section Stepped

variable {i : Nat} {inp : Input} {s s' : AccountState} {p p' : Request} {call : Call} {flow : Flow}

theorem AccountState.draw_eq_some {hash : TokenHash} (h : s.draw i hash = some s') :
    s.drawn hash = none ∧ s' = { s with drawn := Function.update s.drawn hash (some i) } := by
  unfold AccountState.draw at h
  split at h <;> cases h
  exact ⟨‹_›, rfl⟩

theorem AccountState.call_eq_some (h : s.call i p call flow = some (s', p')) :
    p.session = .idle ∧ call.admitted s.sessions = true ∧ s' = s ∧ p' = ⟨flow, call.entry⟩ := by
  unfold AccountState.call at h
  split at h <;> cases h
  rename_i sessions pc hstart
  cases stepped hstart with
  | start hidle hadmitted => exact ⟨hidle, hadmitted, rfl, rfl⟩

theorem approveStepped {pc : ApprovePc} (h : approveStep i inp s p pc = some (s', p')) :
    ApproveStepped i inp s p pc s' p' := by
  cases pc with
  | checks =>
    simp only [approveStep] at h
    split at h <;> cases h
    · exact .refused
    · exact .checked
  | insert =>
    simp only [approveStep] at h
    split at h
    · cases h
    · rename_i hdraw
      obtain ⟨hfresh, rfl⟩ := s.draw_eq_some hdraw
      split at h <;> cases h
      · exact .clashed hfresh
      · exact .inserted hfresh ‹_›
  | commit =>
    cases h
    exact .committed

theorem redeemStepped {pc : RedeemPc} (h : redeemStep i inp s p pc = some (s', p')) :
    RedeemStepped i inp s p pc s' p' := by
  cases pc with
  | start =>
    cases h
    exact .began
  | consume request startedAt =>
    simp only [redeemStep] at h
    split at h <;> cases h
    · rename_i hrow
      exact .found hrow
    · rename_i hrow
      exact .missed (Bool.not_eq_true _ ▸ hrow)
  | visit request startedAt =>
    simp only [redeemStep] at h
    split at h <;> cases h
    · rename_i hvisit
      exact .took hvisit
    · rename_i hv hvisit
      exact .lost hvisit hv
  | replay request =>
    simp only [redeemStep] at h
    split at h
    · rename_i seen hseen
      split at h
      · rename_i hmatch
        simp only [Bool.and_eq_true, Bool.or_eq_true, decide_eq_true_eq] at hmatch
        split at h
        · rename_i sessionId hsession
          obtain ⟨hidle, hpresent, rfl, rfl⟩ := AccountState.call_eq_some h
          exact .revokes hseen hmatch.1.1 hmatch.1.2 hmatch.2 hsession hidle hpresent
        · rename_i hsession
          cases h
          refine .spares fun seen' hseen' _ _ _ => ?_
          rw [hseen] at hseen'
          cases hseen'
          exact hsession
      · rename_i hmatch
        cases h
        refine .spares fun seen' hseen' hconsumed hclient hproof => ?_
        rw [hseen] at hseen'
        cases hseen'
        refine absurd ?_ hmatch
        simp only [Bool.and_eq_true, Bool.or_eq_true, decide_eq_true_eq]
        exact ⟨⟨hconsumed, hclient⟩, hproof⟩
    · rename_i hseen
      cases h
      refine .spares fun seen' hseen' _ _ _ => ?_
      rw [hseen] at hseen'
      cases hseen'
  | revoke =>
    simp only [redeemStep] at h
    split at h <;> cases h
    rename_i hdone
    exact .revoked hdone
  | burn =>
    cases h
    exact .burned
  | checks =>
    simp only [redeemStep] at h
    split at h
    · cases h
      exact .refused
    · obtain ⟨hidle, -, rfl, rfl⟩ := AccountState.call_eq_some h
      exact .issues hidle
  | issue entry =>
    simp only [redeemStep] at h
    split at h <;> cases h
    · rename_i hdone
      exact .attached hdone
    · rename_i hdone
      exact .failed hdone
  | commit =>
    cases h
    exact .committed

theorem pollStepped {request : DevicePoll}
    (h : deviceStep i inp s p (.poll request) = some (s', p')) :
    DeviceStepped i inp s p (.poll request) s' p' := by
  simp only [deviceStep] at h
  split at h
  · cases h
    exact .refused
  · rename_i entry hget
    split at h
    · cases h
      exact .refused
    · rename_i hclient
      split at h <;> rename_i houtcome
      · cases h
        exact .waits hget
      · cases h
        refine .denied hget ?_
        unfold pollOutcome at houtcome
        split at houtcome <;> cases houtcome
        assumption
      · cases h
        exact .refused
      · cases h
        exact .refused
      · cases h
        exact .approved hget (not_not.mp hclient) houtcome

theorem deviceStepped {pc : DevicePc} (h : deviceStep i inp s p pc = some (s', p')) :
    DeviceStepped i inp s p pc s' p' := by
  cases pc with
  | initiate request =>
    simp only [deviceStep, initiateStep] at h
    split at h <;> cases h
    rename_i hdraw
    exact .drawn hdraw
  | reserve request hash attempts =>
    cases attempts with
    | zero =>
      cases h
      exact .refused
    | succ =>
      simp only [deviceStep] at h
      cases hget : s.userCodes.get s.now inp.userCode with
      | some =>
        rw [hget, Redis.Store.setNx_of_get hget] at h
        cases h
        exact .taken (by rw [hget]; rfl)
      | none =>
        rw [hget, Redis.Store.setNx_of_absent hget] at h
        cases h
        exact .reserved hget
  | store =>
    cases h
    exact .stored
  | lookup userCode userId =>
    simp only [deviceStep] at h
    split at h
    · cases h
      exact .refused
    · split at h <;> cases h
      · rename_i hget
        exact .found hget
      · exact .refused
  | read userCode userId hash =>
    simp only [deviceStep] at h
    split at h <;> cases h
    · rename_i hget
      exact .shown hget
    · exact .refused
  | checks =>
    simp only [deviceStep] at h
    split at h <;> cases h
    · exact .refused
    · exact .passed
  | target decision =>
    simp only [deviceStep] at h
    split at h
    · cases h
      exact .refused
    · split at h <;> cases h
      · rename_i hget
        exact .targeted hget
      · exact .refused
  | current decision hash =>
    simp only [deviceStep] at h
    split at h
    · rename_i hget
      split at h <;> cases h
      · rename_i hpending
        exact .weighed hget (of_decide_eq_true hpending)
      · exact .refused
    · cases h
      exact .refused
  | swap decision hash raw updated =>
    simp only [deviceStep] at h
    split at h <;> cases h
    · rename_i hget
      exact .decided hget
    · exact .refused
  | poll => exact pollStepped h
  | pace =>
    cases h
    exact .paced
  | forget =>
    cases h
    split
    · exact .forgot
    · exact .unforgot
  | forgotten =>
    cases h
    split
    · exact .freed
    · exact .refused
  | quota =>
    simp only [deviceStep] at h
    split at h <;> cases h
    · exact .refused
    · exact .admitted
  | claim request entry userId clientId =>
    simp only [deviceStep] at h
    split at h <;> cases h
    · rename_i hlive
      exact .claimed hlive
    · exact .refused
  | claimed =>
    obtain ⟨hidle, -, rfl, rfl⟩ := AccountState.call_eq_some h
    refine .issuing hidle ?_
    split
    · exact .inr rfl
    · exact .inl rfl
  | issue hash userId =>
    simp only [deviceStep] at h
    split at h <;> cases h
    · rename_i hdone
      exact .finished hdone
    · exact .refused

theorem signInStepped {pc : SignInPc} (h : signInStep i inp s p pc = some (s', p')) :
    SignInStepped i inp s p pc s' p' := by
  cases pc with
  | check =>
    simp only [signInStep] at h
    split at h <;> cases h
    · exact .ended rfl rfl
    · exact .checked
  | method request version =>
    simp only [signInStep] at h
    split at h
    · obtain ⟨hidle, -, rfl, rfl⟩ := AccountState.call_eq_some h
      exact .issuing hidle
    · split at h <;> cases h
      rename_i hdraw
      obtain ⟨hfresh, rfl⟩ := s.draw_eq_some hdraw
      exact .drew hfresh
  | store =>
    simp only [signInStep] at h
    split at h <;> cases h
    · exact .ended rfl rfl
    · exact .stored
  | count =>
    cases h
    exact .counted _
  | evict challenge rounds =>
    cases rounds with
    | zero =>
      cases h
      split
      · exact .listed ‹_›
      · exact .notListed (Bool.eq_false_of_not_eq_true ‹_›)
    | succ rounds =>
      simp only [signInStep] at h
      split at h
      · split at h <;> cases h
        exact .popped ‹_›
      · cases h
        exact .stopped
  | drop challenge rounds id =>
    cases h
    split
    · exact .dropped ‹_›
    · exact .notDropped (Bool.eq_false_of_not_eq_true ‹_›)
  | expire challenge =>
    cases h
    split
    · exact .renewed ‹_›
    · exact .notRenewed (Bool.eq_false_of_not_eq_true ‹_›)
  | send =>
    simp only [signInStep] at h
    split at h <;> cases h
    · split <;> exact .ended rfl rfl
    · exact .ended rfl rfl
  | issue =>
    simp only [signInStep] at h
    split at h <;> cases h <;> exact .ended rfl rfl

theorem completeStepped {pc : CompletePc} (h : completeStep i inp s p pc = some (s', p')) :
    CompleteStepped inp s p pc s' p' := by
  cases pc with
  | load request =>
    simp only [completeStep] at h
    split at h
    · split at h <;> cases h
      · exact .loaded ‹_› ‹_›
      · exact .ended rfl
    · cases h
      exact .ended rfl
  | verify =>
    simp only [completeStep] at h
    split at h <;> cases h
    · exact .ended rfl
    · exact .verified ‹_›
  | take request challenge =>
    simp only [completeStep] at h
    split at h
    · cases h
      exact .ended rfl
    · split at h <;> cases h
      · exact .taken ‹_›
      · exact .ended rfl
  | unindex =>
    obtain ⟨hidle, -, rfl, rfl⟩ := AccountState.call_eq_some h
    exact .unlisted hidle
  | issue =>
    simp only [completeStep] at h
    split at h <;> cases h <;> exact .ended rfl

theorem passwordStepped {pc : PasswordPc} (h : passwordStep inp s p pc = some (s', p')) :
    PasswordStepped inp s p pc s' p' := by
  cases pc with
  | change userId =>
    simp only [passwordStep] at h
    split at h <;> cases h
    · exact .changed ‹_›
    · exact .refused ‹_›
  | members =>
    simp only [passwordStep] at h
    split at h <;> cases h
    · exact .cutOff (by simp [*])
    · exact .read
  | drop userId ids =>
    cases ids <;> cases h
    · exact .cleared
    · exact .deleted

/-- The step leaves challenges, passwords and sign-ins alone. -/
structure Untouched (s s' : AccountState) : Prop where
  preAuth : s'.preAuth = s.preAuth
  userPreAuth : s'.userPreAuth = s.userPreAuth
  openedWith : s'.openedWith = s.openedWith
  passwordVersion : s'.passwordVersion = s.passwordVersion
  signedIn : s'.signedIn = s.signedIn
  now : s'.now = s.now
  drawn : ∀ id j, s.drawn id = some j → s'.drawn id = some j

theorem Untouched.refl : Untouched s s := ⟨rfl, rfl, rfl, rfl, rfl, rfl, fun _ _ h => h⟩

theorem drawn_grows {id : TokenHash} (hfresh : s.drawn id = none) (id' : TokenHash) (j : Nat)
    (hj : s.drawn id' = some j) : Function.update s.drawn id (some i) id' = some j := by
  have hne : id' ≠ id := by
    rintro rfl
    rw [hfresh] at hj
    cases hj
  rw [Function.update_of_ne hne, hj]

theorem ApproveStepped.aloof {pc : ApprovePc} (h : ApproveStepped i inp s p pc s' p') :
    Untouched s s' ∧ p'.flow.aloof = true := by
  cases h with
  | clashed hfresh | inserted hfresh =>
    exact ⟨⟨rfl, rfl, rfl, rfl, rfl, rfl, drawn_grows hfresh⟩, rfl⟩
  | _ => exact ⟨⟨rfl, rfl, rfl, rfl, rfl, rfl, fun _ _ h => h⟩, rfl⟩

theorem RedeemStepped.aloof {pc : RedeemPc} (h : RedeemStepped i inp s p pc s' p') :
    Untouched s s' ∧ p'.flow.aloof = true := by
  cases h <;> exact ⟨⟨rfl, rfl, rfl, rfl, rfl, rfl, fun _ _ h => h⟩, rfl⟩

theorem DeviceStepped.aloof {pc : DevicePc} (h : DeviceStepped i inp s p pc s' p') :
    Untouched s s' ∧ p'.flow.aloof = true := by
  cases h with
  | drawn hdraw =>
    obtain ⟨hfresh, rfl⟩ := s.draw_eq_some hdraw
    exact ⟨⟨rfl, rfl, rfl, rfl, rfl, rfl, drawn_grows hfresh⟩, rfl⟩
  | issuing _ hs =>
    rcases hs with rfl | rfl <;> exact ⟨⟨rfl, rfl, rfl, rfl, rfl, rfl, fun _ _ h => h⟩, rfl⟩
  | _ => exact ⟨⟨rfl, rfl, rfl, rfl, rfl, rfl, fun _ _ h => h⟩, rfl⟩

inductive Entered (p : Request) : AccountCall → Request → Prop
  | signIn (request : SignInRequest) :
      Entered p (.signIn request) (p.goto (.signIn (.check request)))
  | complete (request : Completion) :
      Entered p (.complete request) (p.goto (.complete (.load request)))
  | resetPassword (userId : Uuid) :
      Entered p (.resetPassword userId)
        ⟨.password (.change userId), (AuthApi.resetPassword userId).entry⟩
  | changePassword (userId currentSessionId : Uuid) (keepCurrentSession : Bool) :
      Entered p (.changePassword userId currentSessionId keepCurrentSession)
        ⟨.password (.change userId),
          (AuthApi.changePassword userId currentSessionId keepCurrentSession).entry⟩
  | aloof {call : AccountCall} {p' : Request} (h : p'.flow.aloof = true) : Entered p call p'

theorem entered {call : AccountCall} (h : call.enter i s p = some (s', p')) :
    s' = s ∧ Entered p call p' := by
  cases call with
  | session =>
    obtain ⟨-, -, rfl, rfl⟩ := AccountState.call_eq_some h
    exact ⟨rfl, .aloof rfl⟩
  | signIn request =>
    cases h
    exact ⟨rfl, .signIn request⟩
  | complete request =>
    cases h
    exact ⟨rfl, .complete request⟩
  | resetPassword userId =>
    obtain ⟨-, -, rfl, rfl⟩ := AccountState.call_eq_some h
    exact ⟨rfl, .resetPassword userId⟩
  | changePassword =>
    obtain ⟨-, -, rfl, rfl⟩ := AccountState.call_eq_some h
    exact ⟨rfl, .changePassword ..⟩
  | _ =>
    cases h
    exact ⟨rfl, .aloof rfl⟩

end Stepped

def AccountAct.base : AccountAct → Option Act
  | .tick t => some (.tick t)
  | .configure cfg => some (.configure cfg)
  | .session ch => some (.go ch)
  | _ => none

section

variable (i : Nat) (s : AccountState) (p : Request)

inductive AccountMoved : AccountAct → AccountState → Request → Prop
  | session {a b s' p'} (hact : a.base = some b) (h : sessionStep i b s p = some (s', p')) :
      AccountMoved a s' p'
  | start {call : AccountCall} {s' : AccountState} {p' : Request} (hidle : p.flow = .idle)
      (h : call.enter i s p = some (s', p')) : AccountMoved (.start call) s' p'
  | approve {inp pc s' p'} (hp : p.flow = .approve pc) (h : ApproveStepped i inp s p pc s' p') :
      AccountMoved (.go inp) s' p'
  | redeem {inp pc s' p'} (hp : p.flow = .redeem pc) (h : RedeemStepped i inp s p pc s' p') :
      AccountMoved (.go inp) s' p'
  | device {inp pc s' p'} (hp : p.flow = .device pc) (h : DeviceStepped i inp s p pc s' p') :
      AccountMoved (.go inp) s' p'
  | signIn {inp pc s' p'} (hp : p.flow = .signIn pc) (h : SignInStepped i inp s p pc s' p') :
      AccountMoved (.go inp) s' p'
  | complete {inp pc s' p'} (hp : p.flow = .complete pc) (h : CompleteStepped inp s p pc s' p') :
      AccountMoved (.go inp) s' p'
  | password {inp pc s' p'} (hp : p.flow = .password pc) (h : PasswordStepped inp s p pc s' p') :
      AccountMoved (.go inp) s' p'
  | failed {sessions pc} (hrunning : p.flow.running = true)
      (hfail : sessionProgram i .fail s.sessions p.session = some (sessions, pc)) :
      AccountMoved .fail { s with sessions := sessions, codes := s.codes.rollback i }
        ⟨.done (.error .internal), pc⟩
  | gaveUp (hrunning : p.flow.running = true)
      (hfail : sessionProgram i .fail s.sessions p.session = none) :
      AccountMoved .fail { s with codes := s.codes.rollback i } (p.refuse .internal)

/-- Everything a step can be, as far as challenges go. -/
inductive AccountStepped : AccountAct → AccountState → Request → Prop
  | session {a b s' p'} (hact : a.base = some b) (h : sessionStep i b s p = some (s', p')) :
      AccountStepped a s' p'
  | start {call : AccountCall} {p' : Request} (hidle : p.flow = .idle) (h : Entered p call p') :
      AccountStepped (.start call) s p'
  | signIn {inp pc s' p'} (hp : p.flow = .signIn pc) (h : SignInStepped i inp s p pc s' p') :
      AccountStepped (.go inp) s' p'
  | complete {inp pc s' p'} (hp : p.flow = .complete pc) (h : CompleteStepped inp s p pc s' p') :
      AccountStepped (.go inp) s' p'
  | password {inp pc s' p'} (hp : p.flow = .password pc) (h : PasswordStepped inp s p pc s' p') :
      AccountStepped (.go inp) s' p'
  | aloof {inp s' p'} (hp : p.flow.aloof = true) (hp' : p'.flow.aloof = true) (h : Untouched s s') :
      AccountStepped (.go inp) s' p'
  | fail {s' p'} (hp' : p'.flow = .done (.error .internal)) (h : Untouched s s') :
      AccountStepped .fail s' p'

end

section Moved

variable {i : Nat} {a : AccountAct} {s s' : AccountState} {p p' : Request}

theorem accountMoved (h : accountProgram i a s p = some (s', p')) : AccountMoved i s p a s' p' := by
  cases a with
  | tick | configure | session => exact .session rfl h
  | start =>
    simp only [accountProgram] at h
    split at h
    · exact .start ‹_› h
    · cases h
  | go =>
    simp only [accountProgram, flowStep] at h
    split at h
    · cases h
    · cases h
    · exact .approve ‹_› (approveStepped h)
    · exact .redeem ‹_› (redeemStepped h)
    · exact .device ‹_› (deviceStepped h)
    · exact .signIn ‹_› (signInStepped h)
    · exact .complete ‹_› (completeStepped h)
    · exact .password ‹_› (passwordStepped h)
    · cases h
  | fail =>
    simp only [accountProgram, failStep] at h
    split at h
    · split at h <;> cases h
      · exact .failed ‹_› ‹_›
      · exact .gaveUp ‹_› ‹_›
    · cases h

theorem accountStepped (h : accountProgram i a s p = some (s', p')) :
    AccountStepped i s p a s' p' := by
  cases accountMoved h with
  | session hact h => exact .session hact h
  | start hidle h =>
    obtain ⟨rfl, hentered⟩ := entered h
    exact .start hidle hentered
  | approve hp h => exact .aloof (hp ▸ rfl) h.aloof.2 h.aloof.1
  | redeem hp h => exact .aloof (hp ▸ rfl) h.aloof.2 h.aloof.1
  | device hp h => exact .aloof (hp ▸ rfl) h.aloof.2 h.aloof.1
  | signIn hp h => exact .signIn hp h
  | complete hp h => exact .complete hp h
  | password hp h => exact .password hp h
  | failed _ hfail =>
    cases stepped hfail with
    | fail => exact .fail rfl ⟨rfl, rfl, rfl, rfl, rfl, rfl, fun _ _ h => h⟩
  | gaveUp => exact .fail rfl ⟨rfl, rfl, rfl, rfl, rfl, rfl, fun _ _ h => h⟩

end Moved

/-! ## What the session code leaves alone, and what it records -/

def Flow.changing : Flow → Option Uuid
  | .password (.change userId) => some userId
  | _ => none

section Records

variable {i : Nat} {b : Act} {s s' : AccountState} {p p' : Request}

section

variable (h : sessionStep i b s p = some (s', p'))
include h

theorem sessionStepped :
    ∃ sessions pc, sessionProgram i b s.sessions p.session = some (sessions, pc) ∧
      s' = (({ s with sessions := sessions }).recordChange p pc).recordIssue p pc ∧
      p' = { p with session := pc } := by
  unfold sessionStep at h
  split at h <;> cases h
  exact ⟨_, _, ‹_›, rfl, rfl⟩

theorem sessionStep_fields :
    p'.flow = p.flow ∧ s'.preAuth = s.preAuth ∧ s'.userPreAuth = s.userPreAuth ∧
      s'.openedWith = s.openedWith ∧ s'.drawn = s.drawn := by
  obtain ⟨_, _, -, rfl, rfl⟩ := sessionStepped h
  refine ⟨rfl, ?_⟩
  simp only [AccountState.recordIssue, AccountState.recordChange]
  (repeat' split) <;> exact ⟨rfl, rfl, rfl, rfl⟩

theorem sessionStep_version (userId : Uuid) :
    s'.passwordVersion userId = s.passwordVersion userId +
      if p.flow.changing = some userId ∧ p.session.committed = false ∧ p'.session.committed = true
        then 1 else 0 := by
  obtain ⟨_, pc, -, rfl, rfl⟩ := sessionStepped h
  have hissue : ∀ s : AccountState, (s.recordIssue p pc).passwordVersion = s.passwordVersion := by
    intro s
    unfold AccountState.recordIssue
    split <;> rfl
  rw [hissue]
  unfold AccountState.recordChange
  split
  · rename_i user hflow
    simp only [hflow, Flow.changing, Option.some.injEq]
    by_cases huser : user = userId
    · subst huser
      cases pc.committed <;> cases p.session.committed <;> simp
    · split <;> simp [huser, Ne.symm huser]
  · rename_i hflow
    have hnone : p.flow.changing = none := by
      unfold Flow.changing
      split
      · rename_i user heq
        exact absurd heq (hflow user)
      · rfl
    simp [hnone]

theorem sessionStep_signedIn :
    s'.signedIn = s.signedIn ∨ ∃ userId version sessionId pc,
      s'.signedIn = ⟨userId, version, sessionId⟩ :: s.signedIn ∧
        p.flow.proven s = some (userId, version) ∧ p.session = .issue pc ∧
        p'.session = .done (.tokens sessionId) := by
  obtain ⟨sessions, pc, -, rfl, rfl⟩ := sessionStepped h
  have hsigned : ∀ s : AccountState, (s.recordChange p pc).signedIn = s.signedIn := by
    intro s
    unfold AccountState.recordChange
    (repeat' split) <;> rfl
  have hproven : ∀ s : AccountState, p.flow.proven (s.recordChange p pc) = p.flow.proven s := by
    intro s
    unfold AccountState.recordChange
    (repeat' split) <;> rfl
  unfold AccountState.recordIssue
  split
  · rename_i sessionId hsession
    rw [hproven, hsigned]
    cases hpair : p.flow.proven s with
    | none =>
      left
      rw [show p.flow.proven { s with sessions := sessions } = none from hpair]
      rfl
    | some pair =>
      right
      refine ⟨pair.1, pair.2, sessionId, _, ?_, rfl, hsession, rfl⟩
      rw [show p.flow.proven { s with sessions := sessions } = some pair from hpair]
      rfl
  · exact .inl (hsigned _)

end

end Records

end AuthApi
