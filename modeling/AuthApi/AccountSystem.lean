import AuthApi.Approval
import AuthApi.SessionSystem

/-!
# Sign-ins in two requests, statement by statement

The requests of `SessionSystem` create, rotate and revoke sessions. Here
are the requests around them, as processes over a larger shared state:

* `approve` and `redeem` of an authorization code;
* `initiate`, `verify`, `deny` and `poll` of a device request;
* a sign-in from the check of its first factor on
  (`first_factor_proven`), and the three completions of a second-factor
  challenge;
* `reset_password` and `change_password`, with the purge of the account's
  challenges at the end.

A request is a pair: where it is in its own code (`Flow`), and where it
is in the session code it calls (`Pc`). A step is either a step of the
session system or one statement of the request's own.

Redis keys of different kinds have different prefixes; each kind is a
store of its own. The attempt budgets and the email-change flow have
their own keys and are not modelled: whether a check outside the model
passes is an input of the step (`Input.refusal`). Where the code ignores a
Redis error, `Input.redisUp` says whether the command went through; where
it gives up with an internal error, the request may fail
(`AccountAct.fail`).
-/

namespace AuthApi

open Conc

/-! ## The shared state -/

abbrev CodeDb := Pg.Db (fun code : AuthorizationCode => code.codeHash)

structure DeviceAuthConfig where
  ttlSecs : Nat
  pollIntervalSecs : Nat
deriving DecidableEq

/-- An approval, by the digest of what carries it. -/
inductive Approval where
  | code (codeHash : TokenHash)
  | device (deviceHash : TokenHash)
deriving DecidableEq

/-- A session that was issued on the strength of an approval. -/
structure Issuance where
  approval : Approval
  userId : Uuid
  sessionId : Uuid
deriving DecidableEq

/-- A session that a sign-in has yielded, with the password version that
was current when its first factor was checked. -/
structure SignedIn where
  userId : Uuid
  version : Nat
  sessionId : Uuid
deriving DecidableEq

/-- The last six fields record what has happened; no request reads
them. -/
structure AccountState where
  sessions : Shared
  deviceAuth : DeviceAuthConfig
  codes : CodeDb
  /-- `device:{hash}`. -/
  devices : Redis.Store TokenHash DeviceAuthState
  /-- `device_uc:{user_code}`. -/
  userCodes : Redis.Store String TokenHash
  /-- `device_poll:{hash}`. -/
  paced : Redis.Store TokenHash Unit
  /-- `pre_auth:{id}`. -/
  preAuth : Redis.Store TokenHash PreAuthState
  /-- `user_pre_auth:{user}`, a set. -/
  userPreAuth : Redis.Store Uuid (List TokenHash)
  /-- The random values drawn so far, and the request that drew each. -/
  drawn : TokenHash → Option Nat
  /-- How often the password of an account was changed. -/
  passwordVersion : Uuid → Nat
  /-- The challenges opened so far, with the password version that was
  current when the first factor was checked. -/
  openedWith : TokenHash → Option Nat
  /-- The approvals given so far, and by whom. -/
  given : List (Approval × Uuid)
  issued : List Issuance
  signedIn : List SignedIn

def AccountState.now (s : AccountState) : Int := s.sessions.clock.nanos

/-- `crypto::generate_token` by request `i`: a value not seen before. -/
def AccountState.draw (s : AccountState) (i : Nat) (hash : TokenHash) : Option AccountState :=
  match s.drawn hash with
  | none => some { s with drawn := Function.update s.drawn hash (some i) }
  | some _ => none

/-! ## Program points -/

inductive ApprovePc where
  | checks (approval : CodeApproval)
  | insert (approval : CodeApproval) (scopes : Option (List String))
  | commit (code : AuthorizationCode)

/-- `authorize::redeem`. `consume` takes the snapshot of the `UPDATE`,
`visit` writes the row; `burn` commits the consumption of a code that is
refused; `replay` and `revoke` are `revoke_on_replay`. -/
inductive RedeemPc where
  | start (request : Redemption)
  | consume (request : Redemption) (startedAt : OffsetDateTime)
  | visit (request : Redemption) (startedAt : OffsetDateTime)
  | replay (request : Redemption)
  | revoke
  | burn (entry : AuthorizationCode) (error : AppError)
  | checks (request : Redemption) (entry : AuthorizationCode)
  | issue (entry : AuthorizationCode)
  | commit (entry : AuthorizationCode) (sessionId : Uuid)

/-- `device::initiate` (`initiate`, `reserve`, `store`), `device::verify`
(`lookup`, `read`, `checks`), `update_status` (`target`, `current`,
`swap`), and `device::poll` (the others). -/
inductive DevicePc where
  | initiate (request : DeviceInit)
  | reserve (request : DeviceInit) (hash : TokenHash) (attempts : Nat)
  | store (request : DeviceInit) (hash : TokenHash) (userCode : String)
  | lookup (userCode : String) (userId : Uuid)
  | read (userCode : String) (userId : Uuid) (hash : TokenHash)
  | checks (userCode : String) (userId : Uuid) (clientId : Option String)
  | target (decision : DeviceDecision)
  | current (decision : DeviceDecision) (hash : TokenHash)
  | swap (decision : DeviceDecision) (hash : TokenHash) (raw updated : DeviceAuthState)
  | poll (request : DevicePoll)
  | pace (hash : TokenHash)
  | forget (hash : TokenHash) (userCode : String)
  | forgotten (hash : TokenHash) (userCode : String)
  | quota (request : DevicePoll) (entry : DeviceAuthState) (userId : Uuid) (clientId : String)
  | claim (request : DevicePoll) (entry : DeviceAuthState) (userId : Uuid) (clientId : String)
  | claimed (request : DevicePoll) (entry : DeviceAuthState) (userId : Uuid) (clientId : String)
  | issue (hash : TokenHash) (userId : Uuid)

/-- The challenge a sign-in is opening. -/
structure Challenge where
  userId : Uuid
  version : Nat
  id : TokenHash
  method : ChallengeMethod
deriving DecidableEq

/-- A sign-in. `check` is the reading of what the first factor is checked
against; `method` is `find_primary_by_user`; then `SET`, `SCARD`, the
loop of `SPOP` and `DEL` (`evict` with the rounds left, `drop`), `SADD`
(`evict` with none left), `EXPIRE`, and the mail of the code. -/
inductive SignInPc where
  | check (request : SignInRequest)
  | method (request : SignInRequest) (version : Nat)
  | store (challenge : Challenge) (rememberMe : Bool)
  | count (challenge : Challenge)
  | evict (challenge : Challenge) (rounds : Nat)
  | drop (challenge : Challenge) (rounds : Nat) (dropped : TokenHash)
  | expire (challenge : Challenge)
  | send (challenge : Challenge)
  | issue (userId : Uuid) (version : Nat)

/-- The completion of a challenge; `take` and `unindex` are
`take_pre_auth`. -/
inductive CompletePc where
  | load (request : Completion)
  | verify (request : Completion) (challenge : PreAuthState)
  | take (request : Completion) (challenge : PreAuthState)
  | unindex (request : Completion) (challenge : PreAuthState)
  | issue (challengeId : TokenHash) (userId : Uuid)

/-- `reset_password` and `change_password`: the session code up to the
markers, then `purge_user_pre_auth_and_email_change`. -/
inductive PasswordPc where
  | change (userId : Uuid)
  | members (userId : Uuid)
  | drop (userId : Uuid) (ids : List TokenHash)

inductive Answer where
  | code (codeHash : TokenHash)
  | redeemed (sessionId : Uuid) (nonce : Option String)
  | initiated (deviceHash : TokenHash) (userCode : String)
  | decided
  | tokens (sessionId : Uuid)
  | twoFactorRequired (challengeId : TokenHash)
  | passwordChanged (userId : Uuid)
  | error (error : AppError)
deriving DecidableEq

/-- Where a request is in its own code; `plain` is a request of the
session system. -/
inductive Flow where
  | idle
  | plain
  | approve (pc : ApprovePc)
  | redeem (pc : RedeemPc)
  | device (pc : DevicePc)
  | signIn (pc : SignInPc)
  | complete (pc : CompletePc)
  | password (pc : PasswordPc)
  | done (answer : Answer)

structure Request where
  flow : Flow
  session : Pc

/-! ## Steps -/

/-- The inputs of a step that the model leaves open. -/
structure Input where
  /-- A check outside the model fails, with this error. -/
  refusal : Option AppError := none
  tokenHash : TokenHash := 0
  userCode : String := ""
  /-- The permissions each account holds. -/
  held : Uuid → List String := fun _ => []
  authTime : Option Int := none
  /-- The account's primary second factor. -/
  method : Option ChallengeMethod := none
  /-- The member `SPOP` takes. -/
  member : TokenHash := 0
  /-- The client authenticates with a secret. -/
  confidential : Bool := false
  redisUp : Bool := true

abbrev AccountStep := Option (AccountState × Request)

def Request.goto (p : Request) (flow : Flow) : Request := { p with flow := flow }

def Request.answer (p : Request) (answer : Answer) : Request := p.goto (.done answer)

def Request.refuse (p : Request) (error : AppError) : Request := p.answer (.error error)

def AccountState.call (s : AccountState) (i : Nat) (p : Request) (call : Call) (flow : Flow) :
    AccountStep :=
  match sessionProgram i (.start call) s.sessions p.session with
  | some (sessions, pc) => some ({ s with sessions := sessions }, ⟨flow, pc⟩)
  | none => none

def approveStep (i : Nat) (inp : Input) (s : AccountState) (p : Request) :
    ApprovePc → AccountStep
  | .checks approval =>
    match inp.refusal with
    | some error => some (s, p.refuse error)
    | none =>
      some (s, p.goto (.approve (.insert approval
        (consent approval.requested (inp.held approval.userId)))))
  | .insert approval scopes =>
    match s.draw i inp.tokenHash with
    | none => none
    | some s' =>
      let code := approval.code scopes inp.tokenHash s.sessions.clock
      match s'.codes.insert i code with
      | none => some ({ s' with codes := s'.codes.rollback i }, p.refuse .internal)
      | some codes => some ({ s' with codes := codes }, p.goto (.approve (.commit code)))
  | .commit code =>
    some ({ s with
        codes := s.codes.commit i
        given := (.code code.codeHash, code.userId) :: s.given },
      p.answer (.code code.codeHash))

def redeemStep (i : Nat) (inp : Input) (s : AccountState) (p : Request) :
    RedeemPc → AccountStep
  | .start request => some (s, p.goto (.redeem (.consume request s.sessions.now)))
  | .consume request startedAt =>
    if (s.codes.view i request.codeHash).any (·.redeemable startedAt) then
      some (s, p.goto (.redeem (.visit request startedAt)))
    else some ({ s with codes := s.codes.rollback i }, p.goto (.redeem (.replay request)))
  | .visit request startedAt =>
    match s.codes.visit i request.codeHash (·.redeemable startedAt)
        (fun code => some (code.consume startedAt)) with
    | none => none
    | some (.updated entry, codes) =>
      some ({ s with codes := codes },
        p.goto (.redeem (if entry.answeredBy request then .checks request entry
          else .burn entry .invalidAuthorizationCode)))
    | some (_, codes) =>
      some ({ s with codes := codes.rollback i }, p.goto (.redeem (.replay request)))
  | .replay request =>
    match s.codes.committed request.codeHash with
    | some seen =>
      if seen.consumedAt.isSome && decide (seen.clientId = request.clientId) &&
          (inp.confidential || decide (seen.codeChallenge = request.codeChallenge)) then
        match seen.sessionId with
        | some sessionId => s.call i p (.revokeFamily sessionId) (.redeem .revoke)
        | none => some (s, p.refuse .invalidAuthorizationCode)
      else some (s, p.refuse .invalidAuthorizationCode)
    | none => some (s, p.refuse .invalidAuthorizationCode)
  | .revoke =>
    match p.session with
    | .done _ => some (s, p.refuse .invalidAuthorizationCode)
    | _ => none
  | .burn _ error => some ({ s with codes := s.codes.commit i }, p.refuse error)
  | .checks request entry =>
    match inp.refusal with
    | some error => some (s, p.goto (.redeem (.burn entry error)))
    | none => s.call i p (.issueTokens (entry.issueArgs request)) (.redeem (.issue entry))
  | .issue entry =>
    match p.session with
    | .done (.tokens sessionId) =>
      some ({ s with codes := s.codes.write i (entry.attachSession sessionId) },
        p.goto (.redeem (.commit entry sessionId)))
    | .done (.error error) =>
      some ({ s with codes := s.codes.rollback i }, p.refuse error)
    | _ => none
  | .commit entry sessionId =>
    some ({ s with codes := s.codes.commit i }, p.answer (.redeemed sessionId entry.nonce))

/-- Draws before `initiate` gives up finding a free user code. -/
def userCodeAttempts : Nat := 5

def alreadyDecided : AppError := .conflict "device_request_already_decided"

def initiateStep (i : Nat) (inp : Input) (s : AccountState) (p : Request)
    (request : DeviceInit) : AccountStep :=
  match s.draw i inp.tokenHash with
  | none => none
  | some s' => some (s', p.goto (.device (.reserve request inp.tokenHash userCodeAttempts)))

def deviceStep (i : Nat) (inp : Input) (s : AccountState) (p : Request) :
    DevicePc → AccountStep
  | .initiate request => initiateStep i inp s p request
  | .reserve _ _ 0 => some (s, p.refuse .internal)
  | .reserve request hash (attempts + 1) =>
    some ({ s with
        userCodes := s.userCodes.setNx s.now inp.userCode hash
          (s.deviceAuth.ttlSecs * nanosPerSec) },
      p.goto (.device (if (s.userCodes.get s.now inp.userCode).isSome then
        .reserve request hash attempts else .store request hash inp.userCode)))
  | .store request hash userCode =>
    some ({ s with
        devices := s.devices.setEx s.now hash (request.entry userCode s.sessions.clock)
          (s.deviceAuth.ttlSecs * nanosPerSec) },
      p.answer (.initiated hash userCode))
  | .lookup userCode userId =>
    match inp.refusal with
    | some error => some (s, p.refuse error)
    | none =>
      match s.userCodes.get s.now userCode with
      | some hash => some (s, p.goto (.device (.read userCode userId hash)))
      | none => some (s, p.refuse .notFound)
  | .read userCode userId hash =>
    match s.devices.get s.now hash with
    | some pending => some (s, p.goto (.device (.checks userCode userId pending.clientId)))
    | none => some (s, p.refuse .notFound)
  | .checks userCode userId _ =>
    match inp.refusal with
    | some error => some (s, p.refuse error)
    | none =>
      some (s, p.goto (.device (.target ⟨userCode, .authorized, userId, inp.authTime⟩)))
  | .target decision =>
    match inp.refusal with
    | some error => some (s, p.refuse error)
    | none =>
      match s.userCodes.get s.now decision.userCode with
      | some hash => some (s, p.goto (.device (.current decision hash)))
      | none => some (s, p.refuse .notFound)
  | .current decision hash =>
    match s.devices.get s.now hash with
    | some entry =>
      if entry.status.isUndecided then
        some (s, p.goto (.device (.swap decision hash entry
          (entry.decided decision (inp.held decision.userId)))))
      else some (s, p.refuse alreadyDecided)
    | none => some (s, p.refuse .notFound)
  | .swap decision hash raw updated =>
    if s.devices.get s.now hash = some raw then
      some ({ s with
          devices := s.devices.alter s.now hash fun _ => some updated
          given := if decision.status = .authorized then
            (.device hash, decision.userId) :: s.given else s.given },
        p.answer .decided)
    else some (s, p.refuse alreadyDecided)
  | .poll request =>
    match s.devices.get s.now request.deviceHash with
    | none => some (s, p.refuse .deviceCodeExpired)
    | some entry =>
      if entry.clientId ≠ some request.clientId then
        some (s, p.refuse .invalidAuthorizationCode)
      else
        match pollOutcome entry.status entry.userId entry.clientId with
        | .pending => some (s, p.goto (.device (.pace request.deviceHash)))
        | .denied => some (s, p.goto (.device (.forget request.deviceHash entry.userCode)))
        | .missingUser => some (s, p.refuse .internal)
        | .missingClient => some (s, p.refuse .deviceClientUnknown)
        | .authorized userId clientId =>
          some (s, p.goto (.device (.quota request entry userId clientId)))
  | .pace hash =>
    some ({ s with
        paced := s.paced.setNx s.now hash ()
          (max s.deviceAuth.pollIntervalSecs 1 * nanosPerSec) },
      p.refuse (if (s.paced.get s.now hash).isSome then .deviceSlowDown
        else .deviceAuthPending))
  | .forget hash userCode =>
    some (if inp.redisUp then { s with devices := s.devices.del hash } else s,
      p.goto (.device (.forgotten hash userCode)))
  | .forgotten _ userCode =>
    some (if inp.redisUp then { s with userCodes := s.userCodes.del userCode } else s,
      p.refuse .deviceAccessDenied)
  | .quota request entry userId clientId =>
    match inp.refusal with
    | some error => some (s, p.refuse error)
    | none => some (s, p.goto (.device (.claim request entry userId clientId)))
  | .claim request entry userId clientId =>
    if (s.devices.get s.now request.deviceHash).isSome then
      some ({ s with devices := s.devices.del request.deviceHash },
        p.goto (.device (.claimed request entry userId clientId)))
    else some (s, p.refuse .deviceCodeExpired)
  | .claimed request entry userId clientId =>
    AccountState.call
      (if inp.redisUp then { s with userCodes := s.userCodes.del entry.userCode } else s)
      i p (.issueTokens (entry.issueArgs request userId clientId))
      (.device (.issue request.deviceHash userId))
  | .issue _ _ =>
    match p.session with
    | .done (.tokens sessionId) => some (s, p.answer (.tokens sessionId))
    | .done (.error error) => some (s, p.refuse error)
    | _ => none

/-- `SADD`. -/
def addMember (id : TokenHash) (members : Option (List TokenHash)) : Option (List TokenHash) :=
  some ((members.getD []).insert id)

/-- `SREM`, and what `SPOP` does to the set: one that is empty is no key. -/
def removeMember (id : TokenHash) (members : Option (List TokenHash)) :
    Option (List TokenHash) :=
  match (members.getD []).erase id with
  | [] => none
  | rest => some rest

def AccountState.members (s : AccountState) (userId : Uuid) : List TokenHash :=
  (s.userPreAuth.get s.now userId).getD []

def signInStep (i : Nat) (inp : Input) (s : AccountState) (p : Request) :
    SignInPc → AccountStep
  | .check request =>
    match inp.refusal with
    | some error => some (s, p.refuse error)
    | none => some (s, p.goto (.signIn (.method request (s.passwordVersion request.userId))))
  | .method request version =>
    match inp.method with
    | none =>
      s.call i p (.issueTokens request.issueArgs) (.signIn (.issue request.userId version))
    | some method =>
      match s.draw i inp.tokenHash with
      | none => none
      | some s' =>
        some (s', p.goto (.signIn (.store ⟨request.userId, version, inp.tokenHash, method⟩
          request.rememberMe)))
  | .store challenge rememberMe =>
    if !inp.redisUp then some (s, p.refuse .serviceUnavailable)
    else
      some ({ s with
          preAuth := s.preAuth.setEx s.now challenge.id
            ⟨challenge.userId, rememberMe, some challenge.method⟩ (preAuthTtlSecs * nanosPerSec)
          openedWith := Function.update s.openedWith challenge.id (some challenge.version) },
        p.goto (.signIn (.count challenge)))
  | .count challenge =>
    let opened := if inp.redisUp then (s.members challenge.userId).length else 0
    some (s, p.goto (.signIn (.evict challenge (opened - (maxOpenChallenges - 1)))))
  | .evict challenge 0 =>
    some (if inp.redisUp then
        { s with
          userPreAuth := s.userPreAuth.alter s.now challenge.userId
            (addMember challenge.id) }
        else s,
      p.goto (.signIn (.expire challenge)))
  | .evict challenge (rounds + 1) =>
    if inp.redisUp && !(s.members challenge.userId).isEmpty then
      if inp.member ∈ s.members challenge.userId then
        some ({ s with
            userPreAuth := s.userPreAuth.alter s.now challenge.userId
              (removeMember inp.member) },
          p.goto (.signIn (.drop challenge rounds inp.member)))
      else none
    else some (s, p.goto (.signIn (.evict challenge 0)))
  | .drop challenge rounds dropped =>
    some (if inp.redisUp then { s with preAuth := s.preAuth.del dropped } else s,
      p.goto (.signIn (.evict challenge rounds)))
  | .expire challenge =>
    some (if inp.redisUp then
        { s with
          userPreAuth := s.userPreAuth.expire s.now challenge.userId
            (preAuthTtlSecs * nanosPerSec) }
        else s,
      p.goto (.signIn (.send challenge)))
  | .send challenge =>
    -- Only a code by mail is sent; one sent lately still holds.
    match challenge.method, inp.refusal with
    | .email, some error =>
      some (s, if error = .rateLimitExceeded then p.answer (.twoFactorRequired challenge.id)
        else p.refuse error)
    | _, _ => some (s, p.answer (.twoFactorRequired challenge.id))
  | .issue _ _ =>
    match p.session with
    | .done (.tokens sessionId) => some (s, p.answer (.tokens sessionId))
    | .done (.error error) => some (s, p.refuse error)
    | _ => none

def completeStep (i : Nat) (inp : Input) (s : AccountState) (p : Request) :
    CompletePc → AccountStep
  | .load request =>
    match s.preAuth.get s.now request.challengeId with
    | some challenge =>
      if request.factor.answers challenge then
        some (s, p.goto (.complete (.verify request challenge)))
      else some (s, p.refuse .tokenInvalid)
    | none => some (s, p.refuse .tokenInvalid)
  | .verify request challenge =>
    match inp.refusal with
    | some error => some (s, p.refuse error)
    | none => some (s, p.goto (.complete (.take request challenge)))
  | .take request challenge =>
    if !inp.redisUp then some (s, p.refuse .serviceUnavailable)
    else if (s.preAuth.get s.now request.challengeId).isSome then
      some ({ s with preAuth := s.preAuth.del request.challengeId },
        p.goto (.complete (.unindex request challenge)))
    else some (s, p.refuse .tokenInvalid)
  | .unindex request challenge =>
    AccountState.call
      (if inp.redisUp then
        { s with
          userPreAuth := s.userPreAuth.alter s.now challenge.userId
            (removeMember request.challengeId) }
        else s)
      i p (.issueTokens (request.issueArgs challenge))
      (.complete (.issue request.challengeId challenge.userId))
  | .issue _ _ =>
    match p.session with
    | .done (.tokens sessionId) => some (s, p.answer (.tokens sessionId))
    | .done (.error error) => some (s, p.refuse error)
    | _ => none

def passwordStep (inp : Input) (s : AccountState) (p : Request) : PasswordPc → AccountStep
  | .change userId =>
    match p.session with
    | .done (.revoked _) => some (s, p.goto (.password (.members userId)))
    | .done (.error error) => some (s, p.refuse error)
    | _ => none
  | .members userId =>
    -- Without a connection the purge is given up.
    match inp.refusal with
    | some _ => some (s, p.answer (.passwordChanged userId))
    | none =>
      some (s, p.goto (.password (.drop userId (if inp.redisUp then s.members userId else []))))
  | .drop userId (id :: ids) =>
    some (if inp.redisUp then { s with preAuth := s.preAuth.del id } else s,
      p.goto (.password (.drop userId ids)))
  | .drop userId [] =>
    some (if inp.redisUp then { s with userPreAuth := s.userPreAuth.del userId } else s,
      p.answer (.passwordChanged userId))

def flowStep (i : Nat) (inp : Input) (s : AccountState) (p : Request) : AccountStep :=
  match p.flow with
  | .idle => none
  | .plain => none
  | .approve pc => approveStep i inp s p pc
  | .redeem pc => redeemStep i inp s p pc
  | .device pc => deviceStep i inp s p pc
  | .signIn pc => signInStep i inp s p pc
  | .complete pc => completeStep i inp s p pc
  | .password pc => passwordStep inp s p pc
  | .done _ => none

/-! ## What is recorded -/

def Pc.committed : Pc → Bool
  | .revoke (.familyIds _ _) => true
  | .revoke (.forget _ _) => true
  | .done (.revoked _) => true
  | _ => false

/-- The approval a request has claimed, and whose it is. -/
def Flow.grant : Flow → Option (Approval × Uuid)
  | .redeem (.checks _ entry) => some (.code entry.codeHash, entry.userId)
  | .redeem (.issue entry) => some (.code entry.codeHash, entry.userId)
  | .device (.claimed request _ userId _) => some (.device request.deviceHash, userId)
  | .device (.issue hash userId) => some (.device hash, userId)
  | _ => none

/-- The password version that was current when the first factor of a
challenge was checked. -/
def AccountState.versionOf (s : AccountState) (challengeId : TokenHash) : Nat :=
  (s.openedWith challengeId).getD 0

/-- The account a request signs in, and the password version its first
factor was checked against. -/
def Flow.proven (s : AccountState) : Flow → Option (Uuid × Nat)
  | .signIn (.issue userId version) => some (userId, version)
  | .complete (.issue challengeId userId) => some (userId, s.versionOf challengeId)
  | _ => none

/-- A password change takes effect when its transaction commits. -/
def AccountState.recordChange (s : AccountState) (p : Request) (pc : Pc) : AccountState :=
  match p.flow with
  | .password (.change userId) =>
    if pc.committed && !p.session.committed then
      { s with
        passwordVersion := Function.update s.passwordVersion userId
          (s.passwordVersion userId + 1) }
    else s
  | _ => s

/-- A session is issued when its transaction commits. -/
def AccountState.recordIssue (s : AccountState) (p : Request) (pc : Pc) : AccountState :=
  match p.session, pc with
  | .issue _, .done (.tokens sessionId) =>
    { s with
      issued := (p.flow.grant.map fun (approval, userId) =>
        ⟨approval, userId, sessionId⟩).toList ++ s.issued
      signedIn := ((p.flow.proven s).map fun (userId, version) =>
        ⟨userId, version, sessionId⟩).toList ++ s.signedIn }
  | _, _ => s

def sessionStep (i : Nat) (a : Act) (s : AccountState) (p : Request) : AccountStep :=
  match sessionProgram i a s.sessions p.session with
  | some (sessions, pc) =>
    some ((({ s with sessions := sessions }).recordChange p pc).recordIssue p pc,
      { p with session := pc })
  | none => none

/-! ## The program -/

inductive AccountCall where
  | session (call : Call)
  | approve (approval : CodeApproval)
  | redeem (request : Redemption)
  | initiateDevice (request : DeviceInit)
  | verifyDevice (userCode : String) (userId : Uuid)
  | denyDevice (userCode : String) (userId : Uuid)
  | pollDevice (request : DevicePoll)
  | signIn (request : SignInRequest)
  | complete (request : Completion)
  | resetPassword (userId : Uuid)
  | changePassword (userId currentSessionId : Uuid) (keepCurrentSession : Bool)

def AccountCall.enter (i : Nat) (s : AccountState) (p : Request) : AccountCall → AccountStep
  | .session call => s.call i p call .plain
  | .approve approval => some (s, p.goto (.approve (.checks approval)))
  | .redeem request => some (s, p.goto (.redeem (.start request)))
  | .initiateDevice request => some (s, p.goto (.device (.initiate request)))
  | .verifyDevice userCode userId => some (s, p.goto (.device (.lookup userCode userId)))
  | .denyDevice userCode userId =>
    some (s, p.goto (.device (.target ⟨userCode, .denied, userId, none⟩)))
  | .pollDevice request => some (s, p.goto (.device (.poll request)))
  | .signIn request => some (s, p.goto (.signIn (.check request)))
  | .complete request => some (s, p.goto (.complete (.load request)))
  | .resetPassword userId =>
    s.call i p (AuthApi.resetPassword userId) (.password (.change userId))
  | .changePassword userId currentSessionId keepCurrentSession =>
    s.call i p (AuthApi.changePassword userId currentSessionId keepCurrentSession)
      (.password (.change userId))

inductive AccountAct where
  | tick (t : OffsetDateTime)
  | configure (cfg : JwtConfig)
  | start (call : AccountCall)
  | session (ch : Choice)
  | go (inp : Input)
  | fail

def Flow.running : Flow → Bool
  | .idle => false
  | .done _ => false
  | _ => true

/-- The request gives up: both its transactions are rolled back. -/
def failStep (i : Nat) (s : AccountState) (p : Request) : AccountStep :=
  if p.flow.running then
    match sessionProgram i .fail s.sessions p.session with
    | some (sessions, pc) =>
      some ({ s with sessions := sessions, codes := s.codes.rollback i },
        ⟨.done (.error .internal), pc⟩)
    | none => some ({ s with codes := s.codes.rollback i }, p.refuse .internal)
  else none

def accountProgram : Program AccountState Request AccountAct := fun i a s p =>
  match a with
  | .tick t => sessionStep i (.tick t) s p
  | .configure cfg => sessionStep i (.configure cfg) s p
  | .start call =>
    match p.flow with
    | .idle => call.enter i s p
    | _ => none
  | .session ch => sessionStep i (.go ch) s p
  | .go inp => flowStep i inp s p
  | .fail => failStep i s p

abbrev AccountConf := Conf AccountState Request

def accountInitial (cfg : JwtConfig) (deviceAuth : DeviceAuthConfig) (clock : OffsetDateTime) :
    AccountConf where
  shared :=
    { sessions := (initial cfg clock).shared
      deviceAuth := deviceAuth
      codes := .empty
      devices := .empty
      userCodes := .empty
      paced := .empty
      preAuth := .empty
      userPreAuth := .empty
      drawn := fun _ => none
      passwordVersion := fun _ => 0
      openedWith := fun _ => none
      given := []
      issued := []
      signedIn := [] }
  procs := fun _ => ⟨.idle, .idle⟩

def AccountReachable (c : AccountConf) : Prop :=
  ∃ cfg deviceAuth clock, Steps accountProgram Free (accountInitial cfg deviceAuth clock) c

/-! ## Schedules -/

def Flow.answer : Flow → Option Answer
  | .done answer => some answer
  | _ => none

/-- Request `r` resets the password of an account that has no session, up
to the `COMMIT`. -/
def resetSchedule (r : Nat) (userId : Uuid) : List (Nat × AccountAct) :=
  [(r, .start (.resetPassword userId)), (r, .session {}), (r, .session {}), (r, .session {})]

/-- What is left to do for it after the `COMMIT` when the account has no
challenge. -/
def purgeSchedule (r : Nat) : List (Nat × AccountAct) :=
  [(r, .session {}), (r, .go {}), (r, .go {}), (r, .go {})]

/-- Request `i` issues the session it was to issue. -/
def issueSchedule (i : Nat) (tokenHash : TokenHash) (family id : Uuid) : List (Nat × AccountAct) :=
  [(i, .session { tokenHash := tokenHash }), (i, .session {}),
    (i, .session { family := family, uuid := id }), (i, .session {})]

end AuthApi
