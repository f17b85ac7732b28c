import AuthApi.Clients
import AuthApi.TokenHashes

/-!
# The token endpoint, statement by statement

A client gets its tokens from `services::oauth::token`: for an
authorization code, for a device request that was approved, or for a
refresh token. Each of these ends in the session code (`SessionSystem`),
and what this file adds is everything around it that decides what the
tokens carry: the client is authenticated, a refresh may ask for less than
was granted, a new session is counted against the client's limit under an
advisory lock, the access token is built from the roles and permissions of
the user and the row of the client as they are at that moment, and an ID
token is added if the scopes ask for one.

Sign-ins and refreshes of the service's own pages build access tokens in
the same way and are here too, as is the deletion of a client, which ends
its sessions in the transaction that removes its row.

What was approved (the row of a code, the entry of a device request) is
part of the request here: `AccountSystem` has where it comes from and
that it is used once. Whoever shows a refresh token was given it or made
it up, so a token that is shown is in the table or was never drawn
(`Shared.seeToken`). Row locks on `registered_clients` are not modelled,
nor the one a redemption holds on its code, for which the deletion of
the client waits by the cascade. That only adds interleavings.
-/

namespace AuthApi

open Conc

/-! ## The shared state -/

structure OauthState where
  sessions : Shared
  clients : String → Option RegisteredClient
  /-- `user_client_quotas`. -/
  quotas : Uuid → String → Option Int
  roles : Uuid → List String
  permissions : Uuid → List PermissionRow
  profiles : Uuid → Option UserProfile
  /-- The holder of `client_sessions:{user}:{client}`. -/
  locks : Uuid → String → Option Nat
  /-- The access tokens built so far, the last one first; no request reads
  them. -/
  tokens : List AccessToken

/-- The `WHERE` of `count_active_by_client`, at `now`. -/
def Session.countedFor (userId : Uuid) (clientId : String) (now : OffsetDateTime) (s : Session) :
    Bool :=
  s.userId = userId && s.clientId = some clientId && s.sessionType = .device &&
    s.revokedAt.isNone && decide (now < s.expiresAt)

/-- The sessions `count_active_by_client` counts. -/
def Shared.activeByClient (s : Shared) (userId : Uuid) (clientId : String) : Finset Uuid :=
  s.db.keys.toFinset.filter fun id =>
    (s.findById id).any (·.countedFor userId clientId s.now)

def Shared.countActiveByClient (s : Shared) (userId : Uuid) (clientId : String) : Nat :=
  (s.activeByClient userId clientId).card

def Shared.seeToken (s : Shared) (tokenHash : TokenHash) : Option Shared :=
  if tokenHash ∈ s.tokens then
    if (s.findByTokenHash tokenHash).isSome then some s else none
  else some { s with tokens := tokenHash :: s.tokens }

/-! ## Requests -/

/-- What a client presents at the token endpoint. -/
inductive Grant where
  | authorizationCode (entry : AuthorizationCode) (request : Redemption)
  | deviceCode (entry : DeviceAuthState) (request : DevicePoll)
  /-- With the `scope` parameter, if there is one. -/
  | refreshToken (clientId : String) (tokenHash : TokenHash) (ip : Option IpAddr)
      (userAgent : Option String) (scope : Option (List String))

def Grant.clientId : Grant → String
  | .authorizationCode _ request => request.clientId
  | .deviceCode _ request => request.clientId
  | .refreshToken clientId _ _ _ _ => clientId

/-- An approval that is exchanged for a session. -/
inductive Exchange where
  | code (entry : AuthorizationCode) (request : Redemption)
  | device (entry : DeviceAuthState) (request : DevicePoll) (userId : Uuid) (clientId : String)

namespace Exchange

def userId : Exchange → Uuid
  | .code entry _ => entry.userId
  | .device _ _ userId _ => userId

def clientId : Exchange → String
  | .code entry _ => entry.clientId
  | .device _ _ _ clientId => clientId

/-- The call of `issue_tokens`. -/
def args : Exchange → IssueArgs
  | .code entry request => entry.issueArgs request
  | .device entry request userId clientId => entry.issueArgs request userId clientId

/-- How many sessions the client allows. For a device even the primary
client has a limit. -/
def allowed (client : RegisteredClient) (quota : Option Int) : Exchange → Option Int
  | .code _ _ => client.sessionLimit quota
  | .device _ _ _ _ => client.sessionLimit quota <|> some client.defaultMaxSessions

/-- The approval is claimed once the session may be issued; a code was
consumed before. -/
def claims : Exchange → Bool
  | .code _ _ => false
  | .device _ _ _ _ => true

@[simp] theorem args_userId (exchange : Exchange) : exchange.args.userId = exchange.userId := by
  cases exchange <;> rfl

@[simp] theorem args_clientId (exchange : Exchange) :
    exchange.args.clientId = some exchange.clientId := by
  cases exchange <;> rfl

end Exchange

/-- What the session code is called for. -/
inductive Task where
  /-- A sign-in on the service's own pages. -/
  | signIn (args : IssueArgs)
  /-- A refresh by the service's own pages. -/
  | renew (request : RefreshRequest)
  | exchange (approval : Exchange)
  /-- A refresh by a client, and the scopes its access token is to be
  narrowed to. -/
  | refresh (request : RefreshRequest) (scope : Option (List String))

def Task.call : Task → Call
  | .signIn args => .issueTokens args
  | .renew request => .refreshToken request
  | .exchange approval => .issueTokens approval.args
  | .refresh request _ => .refreshToken request

def Task.clientId : Task → Option String
  | .signIn args => args.clientId
  | .renew request => request.clientId
  | .exchange approval => some approval.clientId
  | .refresh request _ => request.clientId

inductive OauthErrorCode where
  | invalidClient
  | invalidScope
deriving DecidableEq, Repr

/-- `TokenResponse`: the scopes it names and what its ID token releases. -/
structure TokenResponse where
  sessionId : Uuid
  scopes : Option (List String)
  idToken : Option UserClaims
deriving DecidableEq

inductive OauthAnswer where
  /-- The tokens of the service's own pages. -/
  | tokens (sessionId : Uuid)
  | response (response : TokenResponse)
  | deleted (clientId : String)
  | error (error : AppError)
  | refused (code : OauthErrorCode)
deriving DecidableEq

/-- Where a request is in its own code. `client` to `claim` are what comes
before a session is issued (`redeem`, `poll`); `inSession` is the
session code; `rbac` and `build` are `build_access_token`; `commit` ends the
transaction that holds the advisory lock; `identity` is the ID token.
`delete` and `deletion` are `admin::clients::delete`; `plain` is a request
of the session system that builds no token. -/
inductive OauthFlow where
  | idle
  | plain
  | authenticate (grant : Grant)
  | narrow (request : RefreshRequest) (scope : List String)
  | client (exchange : Exchange)
  | lock (exchange : Exchange) (client : RegisteredClient)
  | quota (exchange : Exchange) (client : RegisteredClient)
  | count (exchange : Exchange) (client : RegisteredClient) (quota : Option Int)
  | claim (exchange : Exchange)
  | call (task : Task)
  | inSession (task : Task)
  | rbac (task : Task) (session : Session) (scopes : Option (List String))
  | build (task : Task) (session : Session) (scopes : Option (List String))
      (roles : List String) (held : List PermissionRow)
  | commit (session : Session)
  | identity (session : Session) (scopes : Option (List String))
  | delete (clientId : String)
  | deletion (clientId : String)
  | done (answer : OauthAnswer)

structure OauthRequest where
  flow : OauthFlow
  session : Pc

def OauthRequest.goto (p : OauthRequest) (flow : OauthFlow) : OauthRequest :=
  { p with flow := flow }

/-! ## Steps -/

structure OauthInput where
  /-- A check outside the model fails, with this error. -/
  refusal : Option AppError := none
  /-- The `DEL` of the device request removed it. -/
  claimed : Bool := true

abbrev OauthStep := Option (OauthState × OauthRequest)

/-- The end of the transaction of request `i` releases its lock. -/
def OauthState.release (s : OauthState) (i : Nat) : OauthState :=
  { s with
    locks := fun userId clientId =>
      if s.locks userId clientId = some i then none else s.locks userId clientId }

def OauthState.answer (s : OauthState) (i : Nat) (p : OauthRequest) (answer : OauthAnswer) :
    OauthStep :=
  some (s.release i, p.goto (.done answer))

def OauthState.call (s : OauthState) (i : Nat) (p : OauthRequest) (call : Call)
    (flow : OauthFlow) : OauthStep :=
  match sessionProgram i (.start call) s.sessions p.session with
  | some (sessions, pc) => some ({ s with sessions := sessions }, ⟨flow, pc⟩)
  | none => none

/-- Where an authenticated request goes on. A code is for its own client,
and so is a device request. -/
def Grant.entry : Grant → Except AppError OauthFlow
  | .authorizationCode entry request =>
    if entry.answeredBy request then .ok (.client (.code entry request))
    else .error .invalidAuthorizationCode
  | .deviceCode entry request =>
    if entry.clientId ≠ some request.clientId then .error .invalidAuthorizationCode
    else
      match pollOutcome entry.status entry.userId entry.clientId with
      | .pending => .error .deviceAuthPending
      | .denied => .error .deviceAccessDenied
      | .missingUser => .error .internal
      | .missingClient => .error .deviceClientUnknown
      | .authorized userId clientId => .ok (.client (.device entry request userId clientId))
  | .refreshToken clientId tokenHash ip userAgent scope =>
    match scope with
    | none => .ok (.call (.refresh ⟨tokenHash, some clientId, ip, userAgent⟩ none))
    | some scope => .ok (.narrow ⟨tokenHash, some clientId, ip, userAgent⟩ scope)

/-- The scopes a refresh asks for are among those of the session, if the
session is there and has any. -/
def OauthState.within (s : OauthState) (request : RefreshRequest) (scope : List String) : Bool :=
  ((s.sessions.findByTokenHash request.tokenHash).bind Session.scopes).all fun granted =>
    scope.all granted.contains

/-- What `build_access_token` is called with for a session. -/
def Session.tokenArgs (session : Session) (scopes : Option (List String)) : TokenArgs where
  userId := session.userId
  sessionId := session.id
  scopes := scopes
  clientId := session.clientId
  sessionType := session.sessionType

/-- What follows an access token that was built for `scopes`. -/
def Task.built (task : Task) (session : Session) (scopes : Option (List String)) : OauthFlow :=
  match task with
  | .signIn _ => .done (.tokens session.id)
  | .renew _ => .done (.tokens session.id)
  | .exchange _ => .commit session
  | .refresh _ none => .identity session scopes
  | .refresh request (some narrowed) => .rbac (.refresh request none) session (some narrowed)

/-- The response, unless the user of an ID token is gone. -/
def OauthState.respond (s : OauthState) (session : Session) (scopes : Option (List String)) :
    Option TokenResponse :=
  if requestsIdentity scopes then
    (s.profiles session.userId).map fun user =>
      ⟨session.id, scopes, some (userClaims user (scopes.getD []))⟩
  else some ⟨session.id, scopes, none⟩

def primaryClientManaged : AppError := .conflict "primary_client_managed_by_command_line"

def tokenStep (i : Nat) (inp : OauthInput) (s : OauthState) (p : OauthRequest) :
    OauthFlow → OauthStep
  | .authenticate grant =>
    match inp.refusal with
    | some error => s.answer i p (.error error)
    | none =>
      match s.clients grant.clientId with
      | none => s.answer i p (.refused .invalidClient)
      | some _ =>
        match grant.entry with
        | .ok flow => some (s, p.goto flow)
        | .error error => s.answer i p (.error error)
  | .narrow request scope =>
    if s.within request scope then
      some (s, p.goto (.call (.refresh request (some scope))))
    else s.answer i p (.refused .invalidScope)
  | .client exchange =>
    match s.clients exchange.clientId with
    | none => s.answer i p (.error .deviceClientUnknown)
    | some client =>
      match inp.refusal with
      | some error => s.answer i p (.error error)
      | none => some (s, p.goto (.lock exchange client))
  | .lock exchange client =>
    match s.locks exchange.userId exchange.clientId with
    | some _ => none
    | none =>
      some ({ s with
          locks := Function.update s.locks exchange.userId
            (Function.update (s.locks exchange.userId) exchange.clientId (some i)) },
        p.goto (.quota exchange client))
  | .quota exchange client =>
    some (s, p.goto (.count exchange client (s.quotas exchange.userId exchange.clientId)))
  | .count exchange client quota =>
    if (exchange.allowed client quota).any fun allowed : Int =>
        decide (allowed ≤ s.sessions.countActiveByClient exchange.userId exchange.clientId) then
      s.answer i p (.error .deviceSessionLimitReached)
    else some (s, p.goto (.claim exchange))
  | .claim exchange =>
    if exchange.claims && !inp.claimed then s.answer i p (.error .deviceCodeExpired)
    else some (s, p.goto (.call (.exchange exchange)))
  | .call task => s.call i p task.call (.inSession task)
  | .inSession _ =>
    match p.session with
    | .done (.error error) => s.answer i p (.error error)
    -- The token was replayed and its family is revoked.
    | .done (.revoked _) => s.answer i p (.error .tokenInvalid)
    | _ => none
  | .rbac task session scopes =>
    some (s, p.goto (.build task session scopes (s.roles session.userId)
      (s.permissions session.userId)))
  | .build task session scopes roles held =>
    some ({ s with
        tokens := AccessToken.build (session.tokenArgs scopes) roles held
          (session.clientId.bind s.clients) :: s.tokens },
      p.goto (task.built session scopes))
  | .commit session => some (s.release i, p.goto (.identity session session.scopes))
  | .identity session scopes =>
    match s.respond session scopes with
    | some response => some (s, p.goto (.done (.response response)))
    | none => s.answer i p (.error .tokenInvalid)
  | .delete clientId =>
    match inp.refusal with
    | some error => s.answer i p (.error error)
    | none =>
      if (s.clients clientId).any RegisteredClient.isPrimary then
        s.answer i p (.error primaryClientManaged)
      else s.call i p (deleteClient clientId) (.deletion clientId)
  | .deletion clientId =>
    match p.session with
    | .done (.error error) => s.answer i p (.error error)
    | .done (.revoked _) => some (s, p.goto (.done (.deleted clientId)))
    | _ => none
  | _ => none

/-- The row a commit of the session code returns. -/
def Pc.returnedRow (pc : Pc) : Option SessionRow := pc.commits.bind StoreOp.added

/-- The client is gone with its quotas. -/
def OauthState.removeClient (s : OauthState) (clientId : String) : OauthState :=
  { s with
    clients := Function.update s.clients clientId none
    quotas := fun userId => Function.update (s.quotas userId) clientId none }

/-- The next statement of the session code. The session it commits is what
the access token is built for, in `issue_tokens` and in `refresh_token`.
The deletion of a client removes its row in the transaction that revokes
its sessions, and is rolled back if there is none. -/
def innerStep (i : Nat) (ch : Choice) (s : OauthState) (p : OauthRequest) : OauthStep :=
  match sessionProgram i (.go ch) s.sessions p.session with
  | none => none
  | some (sessions, pc) =>
    match p.flow with
    | .plain => some ({ s with sessions := sessions }, ⟨.plain, pc⟩)
    | .inSession task =>
      some ({ s with sessions := sessions },
        match p.session.returnedRow with
        | some row => ⟨.rbac task row.val row.val.scopes, pc⟩
        | none => ⟨.inSession task, pc⟩)
    | .deletion clientId =>
      if p.session.commits.isSome then
        match s.clients clientId with
        | some _ =>
          some ({ s with sessions := sessions }.removeClient clientId,
            ⟨.deletion clientId, pc⟩)
        | none =>
          some ({ s with sessions := { s.sessions with db := s.sessions.db.rollback i } },
            ⟨.done (.error .notFound), .done (.error .internal)⟩)
      else some ({ s with sessions := sessions }, ⟨.deletion clientId, pc⟩)
    | _ => none

/-! ## The program -/

/-- What a process can be asked to do, next to the requests of the session
system. -/
inductive OauthCall where
  | token (grant : Grant)
  | signIn (args : IssueArgs)
  | refresh (request : RefreshRequest)
  | deleteClient (clientId : String)

/-- The service's own pages name no client and no scopes. -/
def OauthCall.admitted : OauthCall → Bool
  | .signIn args => args.clientId.isNone && args.scopes.isNone
  | .refresh request => request.clientId.isNone
  | _ => true

def OauthCall.shows : OauthCall → Option TokenHash
  | .token (.refreshToken _ tokenHash _ _ _) => some tokenHash
  | .refresh request => some request.tokenHash
  | _ => none

def OauthCall.entry : OauthCall → OauthFlow
  | .token grant => .authenticate grant
  | .signIn args => .call (.signIn args)
  | .refresh request => .call (.renew request)
  | .deleteClient clientId => .delete clientId

/-- A request of the session system that builds no token. -/
def Call.plain : Call → Bool
  | .issueTokens _ => false
  | .refreshToken _ => false
  | _ => true

inductive OauthAct where
  | tick (t : OffsetDateTime)
  | configure (cfg : JwtConfig)
  /-- `admin::clients::save`, or the command line. -/
  | saveClient (client : RegisteredClient)
  | setQuota (userId : Uuid) (clientId : String) (quota : Option Int)
  | setRbac (userId : Uuid) (roles : List String) (permissions : List PermissionRow)
  | setProfile (userId : Uuid) (profile : Option UserProfile)
  | start (call : OauthCall)
  | plain (call : Call)
  /-- The next statement of the session code. -/
  | session (ch : Choice)
  /-- The next statement outside it. -/
  | go (inp : OauthInput)
  | fail

def OauthFlow.answer : OauthFlow → Option OauthAnswer
  | .done answer => some answer
  | _ => none

def OauthFlow.response : OauthFlow → Option TokenResponse
  | .done (.response response) => some response
  | _ => none

theorem OauthFlow.response_eq_some {flow : OauthFlow} {response : TokenResponse}
    (h : flow.response = some response) : flow = .done (.response response) := by
  cases flow with
  | done answer =>
    cases answer with
    | response =>
      cases h
      rfl
    | _ => cases h
  | _ => cases h

def OauthFlow.running : OauthFlow → Bool
  | .idle => false
  | .done _ => false
  | _ => true

/-- What a request that fails leaves of its session code. -/
def OauthRequest.dropped (p : OauthRequest) (i : Nat) (s : Shared) : Shared × Pc :=
  if p.session.running then ({ s with db := s.db.rollback i }, .done (.error .internal))
  else (s, p.session)

def oauthProgram : Program OauthState OauthRequest OauthAct := fun i a s p =>
  match a with
  | .tick t =>
    if s.sessions.clock ≤ t then
      some ({ s with sessions := { s.sessions with clock := t } }, p)
    else none
  | .configure cfg => some ({ s with sessions := { s.sessions with config := cfg } }, p)
  | .saveClient client =>
    some ({ s with clients := Function.update s.clients client.clientId (some client) }, p)
  | .setQuota userId clientId quota =>
    some ({ s with
        quotas := Function.update s.quotas userId
          (Function.update (s.quotas userId) clientId quota) }, p)
  | .setRbac userId roles permissions =>
    some ({ s with
        roles := Function.update s.roles userId roles
        permissions := Function.update s.permissions userId permissions }, p)
  | .setProfile userId profile =>
    some ({ s with profiles := Function.update s.profiles userId profile }, p)
  | .start call =>
    match p.flow with
    | .idle =>
      if call.admitted then
        match call.shows with
        | none => some (s, p.goto call.entry)
        | some tokenHash =>
          match s.sessions.seeToken tokenHash with
          | some sessions => some ({ s with sessions := sessions }, p.goto call.entry)
          | none => none
      else none
    | _ => none
  | .plain call =>
    match p.flow with
    | .idle => if call.plain then s.call i p call .plain else none
    | _ => none
  | .session ch => innerStep i ch s p
  | .go inp => tokenStep i inp s p p.flow
  | .fail =>
    if p.flow.running then
      some ({ s with sessions := (p.dropped i s.sessions).1 }.release i,
        ⟨.done (.error .internal), (p.dropped i s.sessions).2⟩)
    else none

abbrev OauthConf := Conf OauthState OauthRequest

def oauthInitial (cfg : JwtConfig) (clock : OffsetDateTime) : OauthConf where
  shared :=
    { sessions := (initial cfg clock).shared
      clients := fun _ => none
      quotas := fun _ _ => none
      roles := fun _ => []
      permissions := fun _ => []
      profiles := fun _ => none
      locks := fun _ _ => none
      tokens := [] }
  procs := fun _ => ⟨.idle, .idle⟩

end AuthApi
