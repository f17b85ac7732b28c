import AuthApi.Conc
import AuthApi.Pg
import AuthApi.Redis
import AuthApi.Session

/-!
# Requests that touch sessions, statement by statement

Every request of the service that reads or writes sessions, as a process
of `Conc`: sign-ins (`issue_tokens`), refreshes with their rotation and
their replay handling, logouts and token revocations, the operations that
revoke sessions in bulk, and the per-request token check. One step is one
SQL statement, one Redis command or one reading of the clock, so that two
requests interleave exactly as they do on the database and on Redis.

Three things are left open, as inputs of a step (`Choice`): values drawn
at random, what tables outside the model answer (is the account allowed
to sign in, is the client the primary one), and which of the rows of an
`UPDATE` is visited next. A request may fail at any step, and its
transaction is then rolled back (`Act.fail`).

Random values do not repeat: a token hash is drawn once, and a family is
drawn once, by one request (`Shared.families`). Locks on other tables are
not modelled, which only adds interleavings.
-/

namespace AuthApi

open Conc

/-! ## The shared state -/

abbrev SessionDb := Pg.Db (fun r : SessionRow => r.val.id)

inductive RedisKey where
  | session (id : Uuid)
  | jti (jti : Uuid)
  | refresh (tokenHash : TokenHash)
deriving DecidableEq

structure Shared where
  config : JwtConfig
  clock : OffsetDateTime
  /-- The families drawn so far, and the request that drew each. -/
  families : Uuid → Option Nat
  tokens : List TokenHash
  db : SessionDb
  redis : Redis.Store RedisKey UInt8

/-- `NOW()` in a transaction that starts here. -/
def Shared.now (s : Shared) : OffsetDateTime := s.clock.toMicros

def Shared.findById (s : Shared) (id : Uuid) : Option Session :=
  (s.db.committed id).map Subtype.val

def Shared.findByTokenHash (s : Shared) (tokenHash : TokenHash) : Option Session :=
  (s.db.rows.map Subtype.val).find? fun session => session.tokenHash = tokenHash

def Shared.findActiveByUser (s : Shared) (userId : Uuid) : List Session :=
  (s.db.rows.map Subtype.val).filter fun session =>
    session.userId = userId && session.revokedAt.isNone

def Shared.familySessionIds (s : Shared) (id : Uuid) : List Uuid :=
  match s.findById id with
  | some session =>
    ((s.db.rows.map Subtype.val).filter fun other =>
      other.sessionFamilyId = session.sessionFamilyId).map Session.id
  | none => []

/-- A row of `FIND_VALIDATION_BY_ID_SQL`. -/
structure SessionValidation where
  expiresAt : OffsetDateTime
  revokedAt : Option OffsetDateTime
  sessionType : SessionType
  isScoped : Bool
  forClient : Bool
  primaryClient : Bool
deriving DecidableEq

/-- The columns read from a session; `isPrimary` is the answer of the
joined client, if the session has one. -/
def Session.validation (s : Session) (isPrimary : Bool) : SessionValidation where
  expiresAt := s.expiresAt
  revokedAt := s.revokedAt
  sessionType := s.sessionType
  isScoped := s.scopes.isSome
  forClient := s.clientId.isSome
  primaryClient := s.clientId.isSome && isPrimary

def SessionValidation.isActive (v : SessionValidation) (now : OffsetDateTime) : Bool :=
  v.revokedAt.isNone && decide (now < v.expiresAt)

def SessionValidation.firstParty (v : SessionValidation) : Bool :=
  isFirstParty v.sessionType v.isScoped v.forClient v.primaryClient

/-! ## Revocations -/

/-- The statements that revoke sessions: `revoke`, the `UPDATE` of
`revoke_session_family`, `revoke_all_by_user` (and its `_returning`
form), `revoke_others`, `revoke_by_client`. -/
inductive Revocation where
  | one (id : Uuid)
  | family (familyId : Uuid)
  | allByUser (userId : Uuid)
  | others (userId keep : Uuid)
  | byClient (clientId : String)
deriving DecidableEq

/-- The sessions a revocation is about, revoked or not. -/
def Revocation.covers : Revocation → Session → Bool
  | .one id, s => s.id = id
  | .family familyId, s => s.sessionFamilyId = familyId
  | .allByUser userId, s => s.userId = userId
  | .others userId keep, s => s.userId = userId && s.id ≠ keep
  | .byClient clientId, s => s.clientId = some clientId

/-- The `WHERE` of the statement. The family function also takes the
revoked sessions it has yet to mark as compromised. -/
def Revocation.selects (rev : Revocation) (s : Session) : Bool :=
  match rev with
  | .family _ =>
    rev.covers s &&
      (s.revokedAt.isNone || s.compromisedAt.isNone || s.compromiseReason.isNone)
  | _ => rev.covers s && s.revokedAt.isNone

/-- The `SET` of the statement. -/
def Revocation.set (rev : Revocation) (now : OffsetDateTime) (s : Session) : Session :=
  match rev with
  | .family _ =>
    { s with
      revokedAt := s.revokedAt <|> some now
      compromisedAt := s.compromisedAt <|> some now
      compromiseReason := s.compromiseReason <|> some .refreshTokenReuse }
  | _ => { s with revokedAt := some now }

/-- The new version of a row, if it passes the constraints. -/
def Revocation.apply (rev : Revocation) (now : OffsetDateTime) (r : SessionRow) :
    Option SessionRow :=
  (rev.set now r.val).checked

/-! ## Redis commands sent after a commit -/

def sessionCacheTtlSecs : Nat := 5

/-- A marker of `invalidate_session_caches`, `blocklist_jti`,
`blocklist_refresh_token`. -/
inductive Command where
  | markEnded (id : Uuid)
  | blocklistJti (jti : Uuid) (tokenExp : Int)
  | blocklistRefreshToken (tokenHash : TokenHash) (expiresAt : OffsetDateTime)
deriving DecidableEq

def Command.run (s : Shared) : Command → Redis.Store RedisKey UInt8
  | .markEnded id =>
    s.redis.setEx s.clock.nanos (.session id) cachedEnded (sessionCacheTtlSecs * nanosPerSec)
  | .blocklistJti jti tokenExp =>
    let ttl := tokenExp - s.clock.nanos / nanosPerSec
    if ttl ≤ 0 then s.redis
    else s.redis.setEx s.clock.nanos (.jti jti) 1 (ttl * nanosPerSec)
  | .blocklistRefreshToken tokenHash expiresAt =>
    let ttl := wholeSeconds (expiresAt.nanos - s.clock.nanos)
    if ttl ≤ 0 then s.redis
    else s.redis.setEx s.clock.nanos (.refresh tokenHash) 1 (ttl * nanosPerSec)

/-- `forget_sessions`, and what `revoke_all` does to the sessions it
listed. -/
def forgetSessions (sessions : List Session) : List Command :=
  (sessions.map fun s => .markEnded s.id) ++
    sessions.map fun s => .blocklistRefreshToken s.tokenHash s.expiresAt

/-! ## Program points

Each constructor stands before the statement it names, with the local
variables the rest of the request uses. -/

structure RefreshRequest where
  tokenHash : TokenHash
  clientId : Option String
  ip : Option IpAddr
  userAgent : Option String
deriving DecidableEq

/-- `issue_tokens`: read the clock and draw the token, `BEGIN`, `INSERT`,
`COMMIT`. The statements in between write other tables. -/
inductive IssuePc where
  | clock (args : IssueArgs)
  | start (args : IssueArgs) (cfg : JwtConfig) (now : OffsetDateTime) (tokenHash : TokenHash)
  | insert (args : IssueArgs) (cfg : JwtConfig) (now : OffsetDateTime) (tokenHash : TokenHash)
      (startedAt : OffsetDateTime)
  | commit (new : SessionRow)

/-- `refresh_token` up to its call of `rotate`, and the handling of its
`RowNotFound` (`lost`, `lostJudge`). `compare` is the query of
`rotated_by_this_client`. -/
inductive RefreshPc where
  | blocklist (req : RefreshRequest)
  | lookup (req : RefreshRequest)
  | judge (req : RefreshRequest) (session : Session)
  | compare (req : RefreshRequest) (sessionId nextId : Uuid)
  | user (req : RefreshRequest) (session : Session)
  | expiry (req : RefreshRequest) (session : Session)
  | lost (req : RefreshRequest) (sessionId : Uuid)
  | lostJudge (req : RefreshRequest) (current : Session)

inductive RotatePc where
  | start (req : RefreshRequest) (sessionId : Uuid) (input : NewSession)
  | lock (req : RefreshRequest) (sessionId : Uuid) (input : NewSession)
      (startedAt : OffsetDateTime)
  | insert (input : NewSession) (startedAt : OffsetDateTime) (old : SessionRow)
  | update (startedAt : OffsetDateTime) (old new : SessionRow)
  | commit (old rotated new : SessionRow)

/-- Which sessions are marked in the cache once a revocation has
committed: those listed before, those the statement returned, or those of
the family, read again. -/
inductive Forget where
  | listed (commands : List Command)
  | returned
  | family (sessionId : Uuid)

/-- Revocations: what is read before (`list`, `logout`, `oauth`,
`familySelect`), the `UPDATE` with its snapshot and its rows, the commit
(`visit` with no row left), and the Redis commands after it. -/
inductive RevokePc where
  | list (userId : Uuid) (keep : Option Uuid) (blocklist : Bool)
  | logout (sessionId jti : Uuid) (tokenExp : Int)
  | oauth (clientId : String) (tokenHash : TokenHash)
  | familyStart (sessionId : Uuid)
  | familySelect (sessionId : Uuid) (startedAt : OffsetDateTime)
  | start (rev : Revocation) (forget : Forget)
  | scan (rev : Revocation) (forget : Forget) (startedAt : OffsetDateTime)
  | visit (rev : Revocation) (forget : Forget) (startedAt : OffsetDateTime)
      (left : List Uuid) (returned : List Session)
  | familyIds (rev : Revocation) (sessionId : Uuid)
  | forget (rev : Revocation) (commands : List Command)

inductive VerifyPc where
  | blocklist (jti sessionId : Uuid)
  | cache (blocked : Bool) (sessionId : Uuid)
  | lookup (sessionId : Uuid)
  | clock (sessionId : Uuid) (validation : SessionValidation)
  | set (sessionId : Uuid) (active firstParty : Bool)

inductive AppError where
  | tokenInvalid
  | tokenExpired
  | unauthorized
  | rateLimitExceeded
  | serviceUnavailable
  | internal
  /-- An internal error too: a constraint refused the row. -/
  | violation
  | invalidCredentials
  | twoFactorFailed
  | invalidAuthorizationCode
  | deviceSessionLimitReached
  | deviceCodeExpired
  | deviceSlowDown
  | deviceAuthPending
  | deviceAccessDenied
  | deviceClientUnknown
  | notFound
  | forbidden
  | accountLocked
  | reauthenticationFailed
  | reauthenticationRequired
  | conflict (code : String)
deriving DecidableEq, Repr

inductive Outcome where
  | tokens (sessionId : Uuid)
  | revoked (rev : Revocation)
  | nothing
  | firstParty (answer : Bool)
  | error (error : AppError)
deriving DecidableEq

inductive Pc where
  | idle
  | issue (pc : IssuePc)
  | refresh (pc : RefreshPc)
  | rotate (pc : RotatePc)
  | revoke (pc : RevokePc)
  | verify (pc : VerifyPc)
  | done (outcome : Outcome)

/-! ## Steps -/

/-- The inputs of a step that the model leaves open. -/
structure Choice where
  uuid : Uuid := 0
  family : Uuid := 0
  tokenHash : TokenHash := 0
  /-- The row an `UPDATE` visits next. -/
  row : Uuid := 0
  /-- The attempts are within budget, the account may sign in. -/
  allowed : Bool := true
  isPrimary : Bool := false
  redisUp : Bool := true
  /-- Where the code goes on after a failed query. -/
  dbUp : Bool := true

/-- `crypto::generate_token`: a value not seen before. -/
def Shared.drawToken (s : Shared) (tokenHash : TokenHash) : Option Shared :=
  if tokenHash ∈ s.tokens then none else some { s with tokens := tokenHash :: s.tokens }

/-- `Uuid::new_v4` for a family, by request `i`. -/
def Shared.drawFamily (s : Shared) (i : Nat) (family : Uuid) : Option Shared :=
  match s.families family with
  | none => some { s with families := Function.update s.families family (some i) }
  | some _ => none

def issueStep (i : Nat) (ch : Choice) (s : Shared) : IssuePc → Option (Shared × Pc)
  | .clock args =>
    match s.drawToken ch.tokenHash with
    | some s' => some (s', .issue (.start args s.config s.clock ch.tokenHash))
    | none => none
  | .start args cfg now tokenHash => some (s, .issue (.insert args cfg now tokenHash s.now))
  | .insert args cfg now tokenHash startedAt =>
    match s.drawFamily i ch.family with
    | none => none
    | some s' =>
      match ((args.newSession cfg now tokenHash ch.family).create startedAt
          ch.uuid).checked with
      | none => some ({ s' with db := s'.db.rollback i }, .done (.error .violation))
      | some new =>
        match s'.db.insert i new with
        | none => some ({ s' with db := s'.db.rollback i }, .done (.error .violation))
        | some db => some ({ s' with db := db }, .issue (.commit new))
  | .commit new => some ({ s with db := s.db.commit i }, .done (.tokens new.val.id))

def refreshReuseGrace : Int := nanosPerSec

def JwtConfig.refreshPolicy (cfg : JwtConfig) : RefreshPolicy :=
  ⟨refreshReuseGrace, cfg.maxSessionLifetimeSecs, cfg.strictSessionBinding⟩

/-- Where `rotated_by_this_client` goes on: its query if the session names
a replacement, and otherwise what follows a `false`, the replay. -/
def compareOrReplay (req : RefreshRequest) (session : Session) : Pc :=
  match session.replacedBySessionId with
  | some next => .refresh (.compare req session.id next)
  | none => .revoke (.familyStart session.id)

def refreshStep (ch : Choice) (s : Shared) : RefreshPc → Option (Shared × Pc)
  | .blocklist req =>
    if !ch.allowed then some (s, .done (.error .rateLimitExceeded))
    else if ch.redisUp && (s.redis.get s.clock.nanos (.refresh req.tokenHash)).isSome then
      some (s, .done (.error .tokenInvalid))
    else some (s, .refresh (.lookup req))
  | .lookup req =>
    match s.findByTokenHash req.tokenHash with
    | none => some (s, .done (.error .tokenInvalid))
    | some session =>
      if session.clientId ≠ req.clientId then some (s, .done (.error .tokenInvalid))
      else some (s, .refresh (.judge req session))
  | .judge req session =>
    match session.refreshVerdict s.clock req.ip s.config.refreshPolicy with
    | .rotate => some (s, .refresh (.user req session))
    | .concurrentRefresh => some (s, compareOrReplay req session)
    | .replay => some (s, .revoke (.familyStart session.id))
    | .expired => some (s, .done (.error .tokenExpired))
    | .addressMismatch => some (s, .done (.error .tokenInvalid))
  | .compare req sessionId nextId =>
    match if ch.dbUp then s.findById nextId else none with
    | some next =>
      if next.heldByClient req.ip req.userAgent then
        some (s, .done (.error .tokenInvalid))
      else some (s, .revoke (.familyStart sessionId))
    | none => some (s, .revoke (.familyStart sessionId))
  | .user req session =>
    if ch.allowed then some (s, .refresh (.expiry req session))
    else some (s, .done (.error .unauthorized))
  | .expiry req session =>
    match s.drawToken ch.tokenHash with
    | some s' =>
      some (s', .rotate (.start req session.id
        (session.rotation s.config s.clock req.ip req.userAgent ch.tokenHash)))
    | none => none
  | .lost req sessionId =>
    match if ch.dbUp then s.findById sessionId else none with
    | some current => some (s, .refresh (.lostJudge req current))
    | none => some (s, .revoke (.familyStart sessionId))
  | .lostJudge req current =>
    if current.rotatedWithin refreshReuseGrace s.clock then
      some (s, compareOrReplay req current)
    else some (s, .revoke (.familyStart current.id))

def rotateStep (i : Nat) (ch : Choice) (s : Shared) : RotatePc → Option (Shared × Pc)
  | .start req sessionId input => some (s, .rotate (.lock req sessionId input s.now))
  | .lock req sessionId input startedAt =>
    match s.db.selectForUpdate i sessionId with
    | none => none
    | some (none, db) =>
      some ({ s with db := db.rollback i }, .refresh (.lost req sessionId))
    | some (some old, db) =>
      if old.val.revokedAt.isSome then
        some ({ s with db := db.rollback i }, .refresh (.lost req sessionId))
      else some ({ s with db := db }, .rotate (.insert input startedAt old))
  | .insert input startedAt old =>
    match (input.replace startedAt ch.uuid old.val).checked with
    | none => some ({ s with db := s.db.rollback i }, .done (.error .violation))
    | some new =>
      match s.db.insert i new with
      | none => some ({ s with db := s.db.rollback i }, .done (.error .violation))
      | some db => some ({ s with db := db }, .rotate (.update startedAt old new))
  | .update startedAt old new =>
    match (old.val.rotatedInto startedAt new.val.id).checked with
    | none => some ({ s with db := s.db.rollback i }, .done (.error .violation))
    | some rotated =>
      some ({ s with db := s.db.write i rotated }, .rotate (.commit old rotated new))
  | .commit _ _ new => some ({ s with db := s.db.commit i }, .done (.tokens new.val.id))

/-- Which sessions of a user are revoked when one may be kept. -/
def revocationKeeping (userId : Uuid) : Option Uuid → Revocation
  | some keep => .others userId keep
  | none => .allByUser userId

def revokeStep (i : Nat) (ch : Choice) (s : Shared) : RevokePc → Option (Shared × Pc)
  | .list userId keep blocklist =>
    let active := (s.findActiveByUser userId).filter fun session => some session.id ≠ keep
    let commands := if blocklist then forgetSessions active
      else active.map fun session => .markEnded session.id
    some (s, .revoke (.start (revocationKeeping userId keep) (.listed commands)))
  | .logout sessionId jti tokenExp =>
    let commands := [.markEnded sessionId, .blocklistJti jti tokenExp] ++
      match s.findById sessionId with
      | some session => [.blocklistRefreshToken session.tokenHash session.expiresAt]
      | none => []
    some (s, .revoke (.start (.one sessionId) (.listed commands)))
  | .oauth clientId tokenHash =>
    match s.findByTokenHash tokenHash with
    | some session =>
      if session.clientId = some clientId && session.revokedAt.isNone then
        some (s, .revoke (.start (.one session.id) (.listed
          [.markEnded session.id,
            .blocklistRefreshToken session.tokenHash session.expiresAt])))
      else some (s, .done .nothing)
    | none => some (s, .done .nothing)
  | .familyStart sessionId => some (s, .revoke (.familySelect sessionId s.now))
  | .familySelect sessionId startedAt =>
    match s.findById sessionId with
    | some session =>
      some (s, .revoke (.scan (.family session.sessionFamilyId) (.family sessionId)
        startedAt))
    | none => some ({ s with db := s.db.rollback i }, .done (.error .internal))
  | .start rev forget => some (s, .revoke (.scan rev forget s.now))
  | .scan rev forget startedAt =>
    some (s, .revoke (.visit rev forget startedAt
      (s.db.scan i fun r => rev.selects r.val) []))
  | .visit rev forget startedAt left returned =>
    match left with
    | [] =>
      let s' := { s with db := s.db.commit i }
      match forget with
      | .listed commands => some (s', .revoke (.forget rev commands))
      | .returned => some (s', .revoke (.forget rev (forgetSessions returned)))
      | .family sessionId => some (s', .revoke (.familyIds rev sessionId))
    | _ :: _ =>
      if ch.row ∈ left then
        match s.db.visit i ch.row (fun r => rev.selects r.val) (rev.apply startedAt) with
        | none => none
        | some (.skipped, db) =>
          some ({ s with db := db },
            .revoke (.visit rev forget startedAt (left.erase ch.row) returned))
        | some (.updated r, db) =>
          some ({ s with db := db }, .revoke (.visit rev forget startedAt
            (left.erase ch.row) (returned ++ [r.val])))
        | some (.violation, db) =>
          some ({ s with db := db.rollback i }, .done (.error .violation))
      else none
  | .familyIds rev sessionId =>
    some (s, .revoke (.forget rev ((s.familySessionIds sessionId).map .markEnded)))
  | .forget rev [] => some (s, .done (.revoked rev))
  | .forget rev (command :: rest) =>
    some (if ch.redisUp then { s with redis := command.run s } else s,
      .revoke (.forget rev rest))

def verifyStep (ch : Choice) (s : Shared) : VerifyPc → Option (Shared × Pc)
  | .blocklist jti sessionId =>
    if ch.redisUp then
      some (s, .verify (.cache (s.redis.get s.clock.nanos (.jti jti)).isSome sessionId))
    else some (s, .done (.error .serviceUnavailable))
  | .cache blocked sessionId =>
    if ch.redisUp then
      match tokenState blocked (s.redis.get s.clock.nanos (.session sessionId)) with
      | .revoked => some (s, .done (.error .tokenInvalid))
      | .active firstParty => some (s, .done (.firstParty firstParty))
      | .ended => some (s, .done (.error .unauthorized))
      | .unknown => some (s, .verify (.lookup sessionId))
    else some (s, .done (.error .serviceUnavailable))
  | .lookup sessionId =>
    match s.findById sessionId with
    | some session => some (s, .verify (.clock sessionId (session.validation ch.isPrimary)))
    | none => some (s, .done (.error .unauthorized))
  | .clock sessionId validation =>
    some (s, .verify (.set sessionId (validation.isActive s.clock) validation.firstParty))
  | .set sessionId active firstParty =>
    -- A failed `SET` is ignored.
    some (if ch.redisUp then
        { s with
          redis := s.redis.setNx s.clock.nanos (.session sessionId)
            (cachedValue active firstParty) (sessionCacheTtlSecs * nanosPerSec) }
        else s,
      .done (if active then .firstParty firstParty else .error .unauthorized))

/-! ## The program -/

inductive Call where
  | issueTokens (args : IssueArgs)
  | refreshToken (req : RefreshRequest)
  | logout (sessionId jti : Uuid) (tokenExp : Int)
  | oauthRevoke (clientId : String) (tokenHash : TokenHash)
  /-- List the sessions of a user, revoke them (all, or all but one), mark
  those listed. -/
  | revokeListed (userId : Uuid) (keep : Option Uuid) (blocklist : Bool)
  /-- Revoke sessions and mark those the statement returned. -/
  | revokeReturning (rev : Revocation)
  /-- `revoke_family` of a session known from elsewhere. -/
  | revokeFamily (sessionId : Uuid)
  | verifyTokenState (jti sessionId : Uuid)

def resetPassword (userId : Uuid) : Call := .revokeListed userId none false

def changePassword (userId currentSessionId : Uuid) (keepCurrentSession : Bool) : Call :=
  .revokeListed userId (if keepCurrentSession then some currentSessionId else none) false

/-- `services::session::revoke_all`, the only one of the three that also
blocks the refresh tokens. -/
def revokeAll (userId currentSessionId : Uuid) (keepCurrentSession : Bool) : Call :=
  .revokeListed userId (if keepCurrentSession then some currentSessionId else none) true

def suspend (userId : Uuid) : Call := .revokeReturning (.allByUser userId)

def deleteClient (clientId : String) : Call := .revokeReturning (.byClient clientId)

def Call.entry : Call → Pc
  | .issueTokens args => .issue (.clock args)
  | .refreshToken req => .refresh (.blocklist req)
  | .logout sessionId jti tokenExp => .revoke (.logout sessionId jti tokenExp)
  | .oauthRevoke clientId tokenHash => .revoke (.oauth clientId tokenHash)
  | .revokeListed userId keep blocklist => .revoke (.list userId keep blocklist)
  | .revokeReturning rev => .revoke (.start rev .returned)
  | .revokeFamily sessionId => .revoke (.familyStart sessionId)
  | .verifyTokenState jti sessionId => .verify (.blocklist jti sessionId)

/-- A session known from elsewhere is named by a foreign key: it is there. -/
def Call.admitted (s : Shared) : Call → Bool
  | .revokeFamily sessionId => (s.findById sessionId).isSome
  | _ => true

inductive Act where
  | tick (t : OffsetDateTime)
  | configure (cfg : JwtConfig)
  | start (call : Call)
  | go (ch : Choice)
  | fail

def Act.proceeds : Act → Bool
  | .go _ => true
  | _ => false

/-- The rows a running `UPDATE` has still to visit. -/
def Pc.scanning : Pc → List Uuid
  | .revoke (.visit _ _ _ left _) => left
  | _ => []

variable {pc pc' : Pc} {a : Act} {i : Nat} {s s' : Shared} {ch : Choice}

theorem Pc.eq_visit_of_scanning (h : pc.scanning ≠ []) :
    ∃ rev forget startedAt left returned,
      pc = .revoke (.visit rev forget startedAt left returned) := by
  cases pc with
  | revoke q =>
    cases q with
    | visit => exact ⟨_, _, _, _, _, rfl⟩
    | _ => exact absurd rfl h
  | _ => exact absurd rfl h

def advance (i : Nat) (ch : Choice) (s : Shared) : Pc → Option (Shared × Pc)
  | .idle => none
  | .issue pc => issueStep i ch s pc
  | .refresh pc => refreshStep ch s pc
  | .rotate pc => rotateStep i ch s pc
  | .revoke pc => revokeStep i ch s pc
  | .verify pc => verifyStep ch s pc
  | .done _ => none

def Pc.running : Pc → Bool
  | .idle => false
  | .done _ => false
  | _ => true

def sessionProgram : Program Shared Pc Act := fun i a s pc =>
  match a with
  | .tick t => if s.clock ≤ t then some ({ s with clock := t }, pc) else none
  | .configure cfg => some ({ s with config := cfg }, pc)
  | .start call =>
    match pc with
    | .idle => if call.admitted s then some (s, call.entry) else none
    | _ => none
  | .go ch => advance i ch s pc
  | .fail =>
    if pc.running then some ({ s with db := s.db.rollback i }, .done (.error .internal))
    else none

inductive Stepped (i : Nat) (s : Shared) (pc : Pc) : Act → Shared → Pc → Prop
  | tick {t} (hle : s.clock ≤ t) : Stepped i s pc (.tick t) { s with clock := t } pc
  | configure (cfg : JwtConfig) : Stepped i s pc (.configure cfg) { s with config := cfg } pc
  | start {call} (hidle : pc = .idle) (hadmitted : call.admitted s = true) :
      Stepped i s pc (.start call) s call.entry
  | go {ch : Choice} {s' : Shared} {pc' : Pc} (h : advance i ch s pc = some (s', pc')) :
      Stepped i s pc (.go ch) s' pc'
  | fail (hrunning : pc.running = true) :
      Stepped i s pc .fail { s with db := s.db.rollback i } (.done (.error .internal))

theorem stepped (h : sessionProgram i a s pc = some (s', pc')) : Stepped i s pc a s' pc' := by
  cases a with
  | tick =>
    simp only [sessionProgram] at h
    split_ifs at h with hle
    cases h
    exact .tick hle
  | configure cfg =>
    cases h
    exact .configure cfg
  | start =>
    simp only [sessionProgram] at h
    split at h
    · split_ifs at h with hadmitted
      cases h
      exact .start rfl hadmitted
    · cases h
  | go => exact .go h
  | fail =>
    simp only [sessionProgram] at h
    split_ifs at h with hrunning
    cases h
    exact .fail hrunning

section Inversions

variable (i s ch)

/-- What a statement of `issue_tokens` does. -/
inductive IssueStepped : IssuePc → Shared → Pc → Prop
  | drew {args} (hfresh : ch.tokenHash ∉ s.tokens) :
      IssueStepped (.clock args) { s with tokens := ch.tokenHash :: s.tokens }
        (.issue (.start args s.config s.clock ch.tokenHash))
  | began {args cfg now hash} :
      IssueStepped (.start args cfg now hash) s (.issue (.insert args cfg now hash s.now))
  | refused {args cfg now hash startedAt} (hfamily : s.families ch.family = none) :
      IssueStepped (.insert args cfg now hash startedAt)
        { s with
          families := Function.update s.families ch.family (some i)
          db := s.db.rollback i } (.done (.error .violation))
  | inserted {args cfg now hash startedAt new db} (hfamily : s.families ch.family = none)
      (hval : new.val = (args.newSession cfg now hash ch.family).create startedAt ch.uuid)
      (hins : s.db.insert i new = some db) :
      IssueStepped (.insert args cfg now hash startedAt)
        { s with families := Function.update s.families ch.family (some i), db := db }
        (.issue (.commit new))
  | committed {new} :
      IssueStepped (.commit new) { s with db := s.db.commit i } (.done (.tokens new.val.id))

/-- What a statement of `refresh_token` does before the rotation, and after
one that was lost. -/
inductive RefreshStepped : RefreshPc → Shared → Pc → Prop
  | refused {pc error} : RefreshStepped pc s (.done (.error error))
  | allowed {req} : RefreshStepped (.blocklist req) s (.refresh (.lookup req))
  | found {req session} (hfind : s.findByTokenHash req.tokenHash = some session)
      (hclient : session.clientId = req.clientId) :
      RefreshStepped (.lookup req) s (.refresh (.judge req session))
  | rotates {req session} : RefreshStepped (.judge req session) s (.refresh (.user req session))
  | compares {req session next} :
      RefreshStepped (.judge req session) s (.refresh (.compare req session.id next))
  | replayed {req session} :
      RefreshStepped (.judge req session) s (.revoke (.familyStart session.id))
  | differs {req sessionId nextId} :
      RefreshStepped (.compare req sessionId nextId) s (.revoke (.familyStart sessionId))
  | active {req session} : RefreshStepped (.user req session) s (.refresh (.expiry req session))
  | drew {req session} (hfresh : ch.tokenHash ∉ s.tokens) :
      RefreshStepped (.expiry req session) { s with tokens := ch.tokenHash :: s.tokens }
        (.rotate (.start req session.id
          (session.rotation s.config s.clock req.ip req.userAgent ch.tokenHash)))
  | reread {req sessionId current} (hfind : s.findById sessionId = some current) :
      RefreshStepped (.lost req sessionId) s (.refresh (.lostJudge req current))
  | unread {req sessionId} :
      RefreshStepped (.lost req sessionId) s (.revoke (.familyStart sessionId))
  | comparesLost {req current next} :
      RefreshStepped (.lostJudge req current) s (.refresh (.compare req current.id next))
  | replayedLost {req current} :
      RefreshStepped (.lostJudge req current) s (.revoke (.familyStart current.id))

inductive RotateStepped : RotatePc → Shared → Pc → Prop
  | refused {pc : RotatePc} :
      RotateStepped pc { s with db := s.db.rollback i } (.done (.error .violation))
  | began {req sessionId input} :
      RotateStepped (.start req sessionId input) s (.rotate (.lock req sessionId input s.now))
  | lost {req sessionId input startedAt row db}
      (hselect : s.db.selectForUpdate i sessionId = some (row, db)) :
      RotateStepped (.lock req sessionId input startedAt) { s with db := db.rollback i }
        (.refresh (.lost req sessionId))
  | locked {req sessionId input startedAt old db}
      (hselect : s.db.selectForUpdate i sessionId = some (some old, db))
      (hlive : old.val.revokedAt = none) :
      RotateStepped (.lock req sessionId input startedAt) { s with db := db }
        (.rotate (.insert input startedAt old))
  | inserted {input startedAt old new db}
      (hval : new.val = input.replace startedAt ch.uuid old.val)
      (hinsert : s.db.insert i new = some db) :
      RotateStepped (.insert input startedAt old) { s with db := db }
        (.rotate (.update startedAt old new))
  | updated {startedAt old new rotated}
      (hval : rotated.val = old.val.rotatedInto startedAt new.val.id) :
      RotateStepped (.update startedAt old new) { s with db := s.db.write i rotated }
        (.rotate (.commit old rotated new))
  | committed {old rotated new} :
      RotateStepped (.commit old rotated new) { s with db := s.db.commit i }
        (.done (.tokens new.val.id))

inductive RevokeStepped : RevokePc → Shared → Pc → Prop
  | listed {userId keep blocklist commands}
      (hmarks : ∀ session ∈ (s.findActiveByUser userId).filter
        (fun session => some session.id ≠ keep), Command.markEnded session.id ∈ commands) :
      RevokeStepped (.list userId keep blocklist) s
        (.revoke (.start (revocationKeeping userId keep) (.listed commands)))
  | loggedOut {sessionId jti tokenExp commands} (hmarks : .markEnded sessionId ∈ commands) :
      RevokeStepped (.logout sessionId jti tokenExp) s
        (.revoke (.start (.one sessionId) (.listed commands)))
  | oauth {clientId tokenHash session commands}
      (hfind : s.findByTokenHash tokenHash = some session)
      (hmarks : .markEnded session.id ∈ commands) :
      RevokeStepped (.oauth clientId tokenHash) s
        (.revoke (.start (.one session.id) (.listed commands)))
  | nothing {clientId tokenHash} :
      RevokeStepped (.oauth clientId tokenHash) s (.done .nothing)
  | familyStarted {sessionId} :
      RevokeStepped (.familyStart sessionId) s (.revoke (.familySelect sessionId s.now))
  | selected {sessionId startedAt session} (hfind : s.findById sessionId = some session) :
      RevokeStepped (.familySelect sessionId startedAt) s
        (.revoke (.scan (.family session.sessionFamilyId) (.family sessionId) startedAt))
  | unknown {sessionId startedAt} (hfind : s.findById sessionId = none) :
      RevokeStepped (.familySelect sessionId startedAt) { s with db := s.db.rollback i }
        (.done (.error .internal))
  | started {rev forget} :
      RevokeStepped (.start rev forget) s (.revoke (.scan rev forget s.now))
  | scanned {rev forget startedAt} :
      RevokeStepped (.scan rev forget startedAt) s (.revoke (.visit rev forget startedAt
        (s.db.scan i fun r => rev.selects r.val) []))
  | skipped {rev forget startedAt left returned db} (hmem : ch.row ∈ left)
      (hvisit : s.db.visit i ch.row (fun r => rev.selects r.val) (rev.apply startedAt) =
        some (.skipped, db)) :
      RevokeStepped (.visit rev forget startedAt left returned) { s with db := db }
        (.revoke (.visit rev forget startedAt (left.erase ch.row) returned))
  | updated {rev forget startedAt left returned r db} (hmem : ch.row ∈ left)
      (hvisit : s.db.visit i ch.row (fun r => rev.selects r.val) (rev.apply startedAt) =
        some (.updated r, db)) :
      RevokeStepped (.visit rev forget startedAt left returned) { s with db := db }
        (.revoke (.visit rev forget startedAt (left.erase ch.row) (returned ++ [r.val])))
  | violated {rev forget startedAt left returned db} (hmem : ch.row ∈ left)
      (hvisit : s.db.visit i ch.row (fun r => rev.selects r.val) (rev.apply startedAt) =
        some (.violation, db)) :
      RevokeStepped (.visit rev forget startedAt left returned) { s with db := db.rollback i }
        (.done (.error .violation))
  /-- The `COMMIT`, with the commands the revocation came with, or those for
  the rows it has revoked. -/
  | committed {rev forget startedAt returned commands} :
      RevokeStepped (.visit rev forget startedAt [] returned) { s with db := s.db.commit i }
        (.revoke (.forget rev commands))
  | committedFamily {rev sessionId startedAt returned} :
      RevokeStepped (.visit rev (.family sessionId) startedAt [] returned)
        { s with db := s.db.commit i } (.revoke (.familyIds rev sessionId))
  | familyIds {rev sessionId commands} :
      RevokeStepped (.familyIds rev sessionId) s (.revoke (.forget rev commands))
  | forgot {rev} : RevokeStepped (.forget rev []) s (.done (.revoked rev))
  | forgets {rev command rest} :
      RevokeStepped (.forget rev (command :: rest))
        (if ch.redisUp then { s with redis := command.run s } else s)
        (.revoke (.forget rev rest))

inductive VerifyStepped : VerifyPc → Shared → Pc → Prop
  | refused {pc error} : VerifyStepped pc s (.done (.error error))
  | looked {jti sessionId blocked} :
      VerifyStepped (.blocklist jti sessionId) s (.verify (.cache blocked sessionId))
  | cached {blocked sessionId firstParty} (hstate : tokenState blocked
        (s.redis.get s.clock.nanos (.session sessionId)) = .active firstParty) :
      VerifyStepped (.cache blocked sessionId) s (.done (.firstParty firstParty))
  | uncached {blocked sessionId} :
      VerifyStepped (.cache blocked sessionId) s (.verify (.lookup sessionId))
  | read {sessionId session} (hfind : s.findById sessionId = some session) :
      VerifyStepped (.lookup sessionId) s
        (.verify (.clock sessionId (session.validation ch.isPrimary)))
  | judged {sessionId validation} :
      VerifyStepped (.clock sessionId validation) s
        (.verify (.set sessionId (validation.isActive s.clock) validation.firstParty))
  | answered {sessionId active firstParty} :
      VerifyStepped (.set sessionId active firstParty)
        (if ch.redisUp then
          { s with
            redis := s.redis.setNx s.clock.nanos (.session sessionId)
              (cachedValue active firstParty) (sessionCacheTtlSecs * nanosPerSec) }
          else s)
        (.done (if active then .firstParty firstParty else .error .unauthorized))

variable {i s ch}

theorem issueStepped {pc : IssuePc} (h : issueStep i ch s pc = some (s', pc')) :
    IssueStepped i s ch pc s' pc' := by
  cases pc with
  | clock =>
    simp only [issueStep, Shared.drawToken] at h
    split at h <;> cases h
    rename_i hdraw
    split_ifs at hdraw with hmem
    cases hdraw
    exact .drew hmem
  | start =>
    cases h
    exact .began
  | insert =>
    simp only [issueStep, Shared.drawFamily] at h
    split at h
    · cases h
    · rename_i hdraw
      split at hdraw <;> cases hdraw
      rename_i hnone
      split at h
      · cases h
        exact .refused hnone
      · rename_i hnew
        split at h <;> cases h
        · exact .refused hnone
        · rename_i hins
          exact .inserted hnone (Session.checked_eq_some.mp hnew) hins
  | commit =>
    cases h
    exact .committed

theorem refreshStepped {pc : RefreshPc} (h : refreshStep ch s pc = some (s', pc')) :
    RefreshStepped s ch pc s' pc' := by
  cases pc <;> simp only [refreshStep, compareOrReplay, Shared.drawToken] at h
  case expiry =>
    split at h <;> cases h
    rename_i hdraw
    split_ifs at hdraw with hmem
    cases hdraw
    exact .drew hmem
  case lost =>
    split at h <;> cases h
    · rename_i hfind
      split_ifs at hfind
      exact .reread hfind
    · exact .unread
  all_goals repeat' split at h
  all_goals cases h
  any_goals exact .refused
  · exact .allowed
  · exact .found ‹_› (not_not.mp ‹_›)
  · exact .rotates
  · exact .compares
  · exact .replayed
  · exact .replayed
  · exact .differs
  · exact .differs
  · exact .active
  · exact .comparesLost
  · exact .replayedLost
  · exact .replayedLost

theorem rotateStepped {pc : RotatePc} (h : rotateStep i ch s pc = some (s', pc')) :
    RotateStepped i s ch pc s' pc' := by
  cases pc <;> simp only [rotateStep] at h <;> repeat' split at h
  all_goals cases h
  any_goals exact .refused
  · exact .began
  · exact .lost ‹_›
  · exact .lost ‹_›
  · exact .locked ‹_› (Option.not_isSome_iff_eq_none.mp ‹_›)
  · exact .inserted (Session.checked_eq_some.mp ‹_›) ‹_›
  · exact .updated (Session.checked_eq_some.mp ‹_›)
  · exact .committed

theorem revokeStepped {pc : RevokePc} (h : revokeStep i ch s pc = some (s', pc')) :
    RevokeStepped i s ch pc s' pc' := by
  cases pc with
  | list _ _ blocklist =>
    cases h
    refine .listed fun session hsession => ?_
    cases blocklist with
    | false => exact List.mem_map.mpr ⟨session, hsession, rfl⟩
    | true => exact List.mem_append_left _ (List.mem_map.mpr ⟨session, hsession, rfl⟩)
  | logout =>
    cases h
    exact .loggedOut (List.mem_append_left _ List.mem_cons_self)
  | oauth =>
    simp only [revokeStep] at h
    split at h
    · split at h <;> cases h
      · exact .oauth ‹_› List.mem_cons_self
      · exact .nothing
    · cases h
      exact .nothing
  | familyStart =>
    cases h
    exact .familyStarted
  | familySelect =>
    simp only [revokeStep] at h
    split at h <;> cases h
    · exact .selected ‹_›
    · exact .unknown ‹_›
  | start =>
    cases h
    exact .started
  | scan =>
    cases h
    exact .scanned
  | visit _ forget _ left =>
    cases left with
    | nil =>
      cases forget <;> cases h
      · exact .committed
      · exact .committed
      · exact .committedFamily
    | cons =>
      simp only [revokeStep] at h
      split_ifs at h with hmem
      split at h <;> cases h
      · exact .skipped hmem ‹_›
      · exact .updated hmem ‹_›
      · exact .violated hmem ‹_›
  | familyIds =>
    cases h
    exact .familyIds
  | forget _ commands =>
    cases commands <;> cases h
    · exact .forgot
    · exact .forgets

theorem verifyStepped {pc : VerifyPc} (h : verifyStep ch s pc = some (s', pc')) :
    VerifyStepped s ch pc s' pc' := by
  cases pc
  case set =>
    cases h
    exact .answered
  all_goals simp only [verifyStep] at h
  all_goals repeat' split at h
  all_goals cases h
  any_goals exact .refused
  · exact .looked
  · exact .cached ‹_›
  · exact .uncached
  · exact .read ‹_›
  · exact .judged

end Inversions

theorem issue_commits {pc : IssuePc} {sessionId : Uuid}
    (h : sessionProgram i a s (.issue pc) = some (s', pc'))
    (hdone : pc' = .done (.tokens sessionId)) :
    ∃ ch new, a = .go ch ∧ pc = .commit new ∧ new.val.id = sessionId ∧
      s' = { s with db := s.db.commit i } := by
  cases stepped h with
  | @go ch _ _ h =>
    cases issueStepped h with
    | committed =>
      cases hdone
      exact ⟨ch, _, rfl, rfl, rfl, rfl⟩
    | _ => cases hdone
  | start hidle => cases hidle
  | _ => cases hdone

/-- What request the session code serves when it issues a session: the
arguments, up to the row it commits. -/
def Pc.issuesWith (args : IssueArgs) : Pc → Prop
  | .issue (.clock args') => args' = args
  | .issue (.start args' _ _ _) => args' = args
  | .issue (.insert args' _ _ _ _) => args' = args
  | .issue (.commit new) => new.val.userId = args.userId ∧ new.val.clientId = args.clientId ∧
      new.val.scopes = args.scopes
  | .done _ => True
  | _ => False

theorem Pc.issuesWith_step {args : IssueArgs} {b : Act} {sessions sessions' : Shared}
    (hpc : pc.issuesWith args) (h : sessionProgram i b sessions pc = some (sessions', pc')) :
    pc'.issuesWith args := by
  cases stepped h with
  | tick | configure => exact hpc
  | start hidle =>
    subst hidle
    cases hpc
  | fail => trivial
  | @go ch _ _ h =>
    cases pc with
    | issue pc =>
      cases issueStepped h with
      | drew | began => exact hpc
      | refused | committed => trivial
      | @inserted args' cfg now hash startedAt new _ _ hval =>
        obtain rfl : args' = args := hpc
        show new.val.userId = _ ∧ new.val.clientId = _ ∧ new.val.scopes = _
        rw [hval]
        exact ⟨rfl, rfl, rfl⟩
    | done => cases h
    | _ => cases hpc

def Pc.outcome : Pc → Option Outcome
  | .done outcome => some outcome
  | _ => none

theorem Pc.outcome_step (h : sessionProgram i a s pc = some (s', pc')) (hpc : pc.outcome.isSome) :
    pc' = pc := by
  cases pc with
  | done =>
    cases stepped h with
    | tick | configure => rfl
    | start hidle => cases hidle
    | go h => cases h
    | fail hrunning => cases hrunning
  | _ => cases hpc

abbrev SessionConf := Conf Shared Pc

def initial (cfg : JwtConfig) (clock : OffsetDateTime) : SessionConf where
  shared :=
    { config := cfg
      clock := clock
      families := fun _ => none
      tokens := []
      db := .empty
      redis := .empty }
  procs := fun _ => .idle

/-- The states of the service: reached from an empty table by any
interleaving of any requests. -/
def Reachable (c : SessionConf) : Prop :=
  ∃ cfg clock, Steps sessionProgram Free (initial cfg clock) c

/-! ## Where revocations come from -/

/-- No revocation is under way: either none was asked for, or the replay of
a refresh token is about to start one. -/
def Pc.calm : Pc → Bool
  | .revoke (.familyStart _) => true
  | .revoke _ => false
  | .done (.revoked _) => false
  | _ => true

theorem advance_calm (hpc : ∀ q, pc ≠ .revoke q) (h : advance i ch s pc = some (s', pc')) :
    pc'.calm = true := by
  cases pc with
  | idle | done => cases h
  | issue pc => cases issueStepped h <;> rfl
  | refresh pc => cases refreshStepped h <;> rfl
  | rotate pc => cases rotateStepped h <;> rfl
  | revoke pc => exact absurd rfl (hpc pc)
  | verify pc =>
    cases verifyStepped h with
    | @answered _ active => cases active <;> rfl
    | _ => rfl

/-! ## Schedules -/

/-- Request `i` signs in, with the values it draws. -/
def signInSchedule (i : Nat) (args : IssueArgs) (tokenHash : TokenHash) (family id : Uuid) :
    List (Nat × Act) :=
  [(i, .start (.issueTokens args)), (i, .go { tokenHash := tokenHash }), (i, .go {}),
    (i, .go { family := family, uuid := id }), (i, .go {})]

/-- Request `i` looks up the token it presents and is let through, up to
the call of `rotate`. -/
def refreshSchedule (i : Nat) (req : RefreshRequest) (tokenHash : TokenHash) :
    List (Nat × Act) :=
  [(i, .start (.refreshToken req)), (i, .go {}), (i, .go {}), (i, .go {}), (i, .go {}),
    (i, .go { tokenHash := tokenHash })]

/-- Request `i` rotates the session, up to its `COMMIT`. -/
def rotateSchedule (i : Nat) (id : Uuid) : List (Nat × Act) :=
  [(i, .go {}), (i, .go {}), (i, .go { uuid := id }), (i, .go {})]

/-- The configuration after a schedule, from the empty table. -/
def runFrom (cfg : JwtConfig) (clock : OffsetDateTime) (schedule : List (Nat × Act)) :
    Option SessionConf :=
  exec sessionProgram Free (initial cfg clock) schedule

theorem reachable_of_runFrom {cfg : JwtConfig} {clock : OffsetDateTime}
    {schedule : List (Nat × Act)} {c : SessionConf} (h : runFrom cfg clock schedule = some c) :
    Reachable c :=
  ⟨cfg, clock, steps_of_exec h⟩

end AuthApi
