import AuthApi.Session

/-!
# What is stored between two requests

Three kinds of sign-in take two requests, and what the first one leaves
for the second is data of its own:

* an authorization code, a row of `authorization_codes` that a client
  redeems once;
* a device request, an entry in Redis that the user decides on and the
  device polls;
* a second-factor challenge, an entry in Redis that the account's second
  factor answers.

This file has their fields and the rules that read nothing else. Codes
and tokens are stored as SHA-256 digests, so a digest is what identifies
each of them here. The columns and fields are those a modelled function
reads: the session's `auth_time`, which both approvals pass on, is left
out.
-/

namespace AuthApi

/-! ## Scopes -/

/-- `domain::oidc::SCOPES`. -/
def oidcScopes : List String := ["openid", "profile", "email"]

def isOidcScope (scope : String) : Bool := oidcScopes.contains scope

/-- What an approval grants: the requested scopes the user holds and those
of OpenID Connect, or everything when the request named none. -/
def consent (requested : Option (List String)) (held : List String) : Option (List String) :=
  requested.map fun scopes => scopes.filter fun scope => isOidcScope scope || held.contains scope

/-! ## Authorization codes -/

def codeTtlSecs : Int := 60

structure AuthorizationCode where
  codeHash : TokenHash
  userId : Uuid
  clientId : String
  redirectUri : String
  codeChallenge : String
  scopes : Option (List String)
  expiresAt : OffsetDateTime
  consumedAt : Option OffsetDateTime
  /-- The session issued from the code, revoked if the code is replayed. -/
  sessionId : Option Uuid
  nonce : Option String
deriving DecidableEq

/-- What a user approves: `authorize::Approval`. -/
structure CodeApproval where
  userId : Uuid
  clientId : String
  redirectUri : String
  codeChallenge : String
  requested : Option (List String)
  nonce : Option String
deriving DecidableEq

/-- The row `approve` inserts, its clock read at `now`. -/
def CodeApproval.code (approval : CodeApproval) (scopes : Option (List String))
    (codeHash : TokenHash) (now : OffsetDateTime) : AuthorizationCode where
  codeHash := codeHash
  userId := approval.userId
  clientId := approval.clientId
  redirectUri := approval.redirectUri
  codeChallenge := approval.codeChallenge
  scopes := scopes
  expiresAt := (now.saturatingAdd (codeTtlSecs * nanosPerSec)).toMicros
  consumedAt := none
  sessionId := none
  nonce := approval.nonce

/-- What a client presents: `authorize::Redemption`. Its verifier counts
only through its digest, the challenge it answers. -/
structure Redemption where
  codeHash : TokenHash
  codeChallenge : String
  clientId : String
  redirectUri : String
  ip : Option IpAddr
  userAgent : Option String
  deviceName : Option String
deriving DecidableEq

namespace AuthorizationCode

/-- The `WHERE` of `consume`, in a transaction that started at `now`. -/
def redeemable (now : OffsetDateTime) (code : AuthorizationCode) : Bool :=
  code.consumedAt.isNone && decide (now < code.expiresAt)

/-- The `SET` of `consume`. -/
def consume (now : OffsetDateTime) (code : AuthorizationCode) : AuthorizationCode :=
  { code with consumedAt := some now }

/-- The `SET` of `attach_session`. -/
def attachSession (sessionId : Uuid) (code : AuthorizationCode) : AuthorizationCode :=
  { code with sessionId := some sessionId }

/-- The code was issued for this client and redirect, and the verifier
answers its challenge. -/
def answeredBy (code : AuthorizationCode) (request : Redemption) : Bool :=
  code.clientId = request.clientId && code.redirectUri = request.redirectUri &&
    code.codeChallenge = request.codeChallenge

/-- `redeem`'s call of `issue_tokens`. -/
def issueArgs (code : AuthorizationCode) (request : Redemption) : IssueArgs where
  userId := code.userId
  ip := request.ip
  userAgent := request.userAgent
  deviceName := request.deviceName
  rememberMe := false
  sessionType := .device
  clientId := some code.clientId
  scopes := code.scopes
  secondFactor := some false

theorem consume_redeemable (now : OffsetDateTime) (code : AuthorizationCode) :
    (code.consume now).redeemable now = false := rfl

end AuthorizationCode

/-! ## Device requests -/

inductive DeviceAuthStatus where
  | pending
  | authorized
  | denied
deriving DecidableEq, Repr

def DeviceAuthStatus.isUndecided (status : DeviceAuthStatus) : Bool := status = .pending

structure DeviceAuthState where
  userCode : String
  status : DeviceAuthStatus
  userId : Option Uuid
  clientId : Option String
  clientIp : Option IpAddr
  userAgent : Option String
  createdAt : Int
  scopes : Option (List String)
  authTime : Option Int
deriving DecidableEq

structure DeviceInit where
  clientIp : Option IpAddr
  userAgent : Option String
  clientId : String
  scopes : Option (List String)
deriving DecidableEq

/-- The entry `initiate` stores under the user code it has reserved. -/
def DeviceInit.entry (request : DeviceInit) (userCode : String) (now : OffsetDateTime) :
    DeviceAuthState where
  userCode := userCode
  status := .pending
  userId := none
  clientId := some request.clientId
  clientIp := request.clientIp
  userAgent := request.userAgent
  createdAt := now.nanos / nanosPerSec
  scopes := request.scopes
  authTime := none

structure DeviceDecision where
  userCode : String
  status : DeviceAuthStatus
  userId : Uuid
  authTime : Option Int
deriving DecidableEq

/-- The entry `update_status` writes. Only an approval names its user, and
only an approval narrows the scopes. -/
def DeviceAuthState.decided (entry : DeviceAuthState) (decision : DeviceDecision)
    (held : List String) : DeviceAuthState :=
  { entry with
    status := decision.status
    userId := if decision.status = .authorized then some decision.userId else none
    scopes := if decision.status = .authorized then consent entry.scopes held else entry.scopes
    authTime := decision.authTime }

inductive PollOutcome where
  | pending
  | denied
  | authorized (userId : Uuid) (clientId : String)
  | missingUser
  | missingClient
deriving DecidableEq

def pollOutcome : DeviceAuthStatus → Option Uuid → Option String → PollOutcome
  | .pending, _, _ => .pending
  | .denied, _, _ => .denied
  | .authorized, none, _ => .missingUser
  | .authorized, some _, none => .missingClient
  | .authorized, some userId, some clientId => .authorized userId clientId

theorem pollOutcome_eq_authorized {status : DeviceAuthStatus} {user : Option Uuid}
    {client : Option String} {userId : Uuid} {clientId : String}
    (h : pollOutcome status user client = .authorized userId clientId) :
    status = .authorized ∧ user = some userId ∧ client = some clientId := by
  unfold pollOutcome at h
  split at h <;> cases h
  exact ⟨rfl, rfl, rfl⟩

structure DevicePoll where
  deviceHash : TokenHash
  clientId : String
  ip : Option IpAddr
  userAgent : Option String
  deviceName : Option String
deriving DecidableEq

/-- `poll`'s call of `issue_tokens`. -/
def DeviceAuthState.issueArgs (entry : DeviceAuthState) (poll : DevicePoll) (userId : Uuid)
    (clientId : String) : IssueArgs where
  userId := userId
  ip := poll.ip
  userAgent := poll.userAgent
  deviceName := poll.deviceName
  rememberMe := false
  sessionType := .device
  clientId := some clientId
  scopes := entry.scopes
  secondFactor := some false

/-! ## Second-factor challenges -/

def preAuthTtlSecs : Int := 300

def maxOpenChallenges : Nat := 5

inductive ChallengeMethod where
  | totp
  | email
deriving DecidableEq, Repr

structure PreAuthState where
  userId : Uuid
  rememberMe : Bool
  /-- None only in entries older than the field. -/
  method : Option ChallengeMethod
deriving DecidableEq

structure SignInRequest where
  userId : Uuid
  ip : Option IpAddr
  userAgent : Option String
  deviceName : Option String
  rememberMe : Bool
deriving DecidableEq

/-- `first_factor_proven`'s call of `issue_tokens`. -/
def SignInRequest.issueArgs (request : SignInRequest) : IssueArgs where
  userId := request.userId
  ip := request.ip
  userAgent := request.userAgent
  deviceName := request.deviceName
  rememberMe := request.rememberMe
  sessionType := .web
  clientId := none
  scopes := none
  secondFactor := some false

/-- The three ways to answer a challenge. -/
inductive SecondFactor where
  | totp
  | email
  | recoveryCode
deriving DecidableEq, Repr

/-- Each way answers the challenges issued for it (`expect_method`); a
recovery code stands in for any method. -/
def SecondFactor.answers : SecondFactor → PreAuthState → Bool
  | .totp, challenge => challenge.method = some .totp
  | .email, challenge => challenge.method = some .email
  | .recoveryCode, challenge => challenge.method.isSome

structure Completion where
  challengeId : TokenHash
  factor : SecondFactor
  ip : Option IpAddr
  userAgent : Option String
  deviceName : Option String
deriving DecidableEq

/-- The completions' call of `issue_tokens`; the one with a recovery code
names no device. -/
def Completion.issueArgs (request : Completion) (challenge : PreAuthState) : IssueArgs where
  userId := challenge.userId
  ip := request.ip
  userAgent := request.userAgent
  deviceName := if request.factor = .recoveryCode then none else request.deviceName
  rememberMe := challenge.rememberMe
  sessionType := .web
  clientId := none
  scopes := none
  secondFactor := some true

end AuthApi
