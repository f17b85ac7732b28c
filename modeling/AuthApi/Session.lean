import AuthApi.Timestamp
import Mathlib.Data.BitVec

/-!
# The sessions table: rows, constraints, rules

A row of `sessions` is one refresh token. A refresh rotates the session
into a new row of the same family, and the rules of this file decide
what a presented token leads to: `Session.refreshVerdict` for a refresh,
`tokenState` for the per-request check, `cappedExpiry` for how long the
next session may run.

The columns are those a modelled statement reads or writes
(`last_used_at`, which only orders listings, is left out). The `CHECK`
constraints of the table are one decidable predicate, `Session.Checks`,
and a stored row is a session together with the proof that it passes
them (`SessionRow`): no statement of the model can store another.
-/

namespace AuthApi

/-! ## Columns -/

/-- A 128-bit identifier; only its equality is ever used. -/
abbrev Uuid := Nat

/-- SHA-256 of a token. The 32 octets `sessions_token_hash_length` asks
for are in the type. -/
abbrev TokenHash := BitVec 256

instance : LawfulBEq TokenHash := inferInstance

inductive IpAddr where
  | v4 (bits : BitVec 32)
  | v6 (bits : BitVec 128)
deriving DecidableEq

inductive SessionType where
  | web
  | device
  | personalAccessToken
deriving DecidableEq, Repr

inductive SessionCompromiseReason where
  | refreshTokenReuse
  | manualSecurityAction
  | credentialsRotated
deriving DecidableEq, Repr

structure Session where
  id : Uuid
  userId : Uuid
  sessionFamilyId : Uuid
  expiresAt : OffsetDateTime
  createdAt : OffsetDateTime
  /-- When the family's first session was created: the absolute lifetime
  is measured from it. -/
  familyCreatedAt : OffsetDateTime
  scopes : Option (List String)
  revokedAt : Option OffsetDateTime
  rotatedAt : Option OffsetDateTime
  compromisedAt : Option OffsetDateTime
  replacedBySessionId : Option Uuid
  ipAddress : Option IpAddr
  deviceName : Option String
  rememberMe : Bool
  tokenHash : TokenHash
  userAgent : Option String
  sessionType : SessionType
  clientId : Option String
  compromiseReason : Option SessionCompromiseReason
  mfa : Bool
  authTime : Option OffsetDateTime
deriving DecidableEq

/-- `NewSession`: what `create` and `rotate` are called with. -/
structure NewSession where
  userId : Uuid
  sessionFamilyId : Uuid
  expiresAt : OffsetDateTime
  ipAddress : Option IpAddr
  deviceName : Option String
  rememberMe : Bool
  tokenHash : TokenHash
  userAgent : Option String
  sessionType : SessionType
  clientId : Option String
  /-- `none` for a new sign-in (now), the previous session's value for a
  rotation. -/
  familyCreatedAt : Option OffsetDateTime
  scopes : Option (List String)
  mfa : Bool
deriving DecidableEq

namespace Session

/-! ## Constraints -/

/-- `sessions_replacement_metadata_consistency`. -/
def ReplacementConsistent (s : Session) : Prop :=
  (s.replacedBySessionId = none ∧ s.rotatedAt = none) ∨
    (s.replacedBySessionId.isSome ∧ s.rotatedAt.isSome ∧ s.revokedAt.isSome)

/-- `sessions_compromise_metadata_consistency`. -/
def CompromiseConsistent (s : Session) : Prop :=
  (s.compromisedAt = none ∧ s.compromiseReason = none) ∨
    (s.compromisedAt.isSome ∧ s.compromiseReason.isSome ∧ s.revokedAt.isSome)

/-- The `CHECK` constraints of the table. -/
structure Checks (s : Session) : Prop where
  expires_after_creation : s.createdAt < s.expiresAt
  revoked_after_creation : ∀ t ∈ s.revokedAt, s.createdAt ≤ t
  rotated_after_creation : ∀ t ∈ s.rotatedAt, s.createdAt ≤ t
  compromised_after_creation : ∀ t ∈ s.compromisedAt, s.createdAt ≤ t
  replacement_metadata_consistency : s.ReplacementConsistent
  compromise_metadata_consistency : s.CompromiseConsistent
  not_self_replaced : s.replacedBySessionId ≠ some s.id

instance (s : Session) : Decidable s.ReplacementConsistent := by
  unfold ReplacementConsistent
  infer_instance

instance (s : Session) : Decidable s.CompromiseConsistent := by
  unfold CompromiseConsistent
  infer_instance

instance (s : Session) : Decidable s.Checks :=
  decidable_of_iff
    (s.createdAt < s.expiresAt ∧ (∀ t ∈ s.revokedAt, s.createdAt ≤ t) ∧
      (∀ t ∈ s.rotatedAt, s.createdAt ≤ t) ∧ (∀ t ∈ s.compromisedAt, s.createdAt ≤ t) ∧
      s.ReplacementConsistent ∧ s.CompromiseConsistent ∧
      s.replacedBySessionId ≠ some s.id)
    ⟨fun ⟨h₁, h₂, h₃, h₄, h₅, h₆, h₇⟩ => ⟨h₁, h₂, h₃, h₄, h₅, h₆, h₇⟩,
      fun h => ⟨h.1, h.2, h.3, h.4, h.5, h.6, h.7⟩⟩

theorem Checks.replacedBy_none {s : Session} (h : s.Checks) (hrev : s.revokedAt = none) :
    s.replacedBySessionId = none := by
  rcases h.replacement_metadata_consistency with ⟨hnone, -⟩ | ⟨-, -, hsome⟩
  · exact hnone
  · simp [hrev] at hsome

end Session

/-- A stored row: a session that passes the constraints. -/
abbrev SessionRow := { s : Session // s.Checks }

/-- What the constraints let through: `none` is a violation, which aborts
the statement. -/
def Session.checked (s : Session) : Option SessionRow :=
  if h : s.Checks then some ⟨s, h⟩ else none

variable {s : Session}

theorem Session.checked_eq_some {r : SessionRow} : s.checked = some r ↔ r.val = s := by
  unfold Session.checked
  constructor
  · intro h
    split at h <;> cases h
    rfl
  · rintro rfl
    simp [r.property]

theorem Session.checked_eq_none : s.checked = none ↔ ¬ s.Checks := by
  unfold Session.checked
  split <;> simp_all

/-! ## Lifetimes -/

/-- `i64::try_from(secs).unwrap_or(i64::MAX)`. -/
def i64OfU64 (secs : Nat) : Int := min secs (2 ^ 63 - 1)

/-- `time::Duration::seconds`, in nanoseconds. -/
def seconds (secs : Nat) : Int := i64OfU64 secs * nanosPerSec

/-- When a session issued or rotated at `now` expires: its refresh
lifetime, cut short by the absolute lifetime of the sign-in. -/
def cappedExpiry (now : OffsetDateTime) (ttlSecs : Nat) (familyStartedAt : OffsetDateTime)
    (maxLifetimeSecs : Nat) : OffsetDateTime :=
  min (now.saturatingAdd (seconds ttlSecs))
    (familyStartedAt.saturatingAdd (seconds maxLifetimeSecs))

namespace Session

def isActive (s : Session) (now : OffsetDateTime) : Bool :=
  s.revokedAt.isNone && decide (now < s.expiresAt)

/-- Rotated within `grace` (nanoseconds) and not for a compromise. -/
def rotatedWithin (s : Session) (grace : Int) (now : OffsetDateTime) : Bool :=
  s.compromisedAt.isNone &&
    match s.rotatedAt with
    | some rotated => decide (now.nanos - rotated.nanos ≤ grace)
    | none => false

end Session

/-! ## Refreshing -/

inductive RefreshVerdict where
  | rotate
  | concurrentRefresh
  | replay
  | expired
  | addressMismatch
deriving DecidableEq, Repr

structure RefreshPolicy where
  reuseGrace : Int
  maxLifetimeSecs : Nat
  strictBinding : Bool

/-- Judge a refresh presented at `now`: revocation first, so that a replay
is detected even once its session has expired. -/
def Session.refreshVerdict (s : Session) (now : OffsetDateTime) (requestIp : Option IpAddr)
    (policy : RefreshPolicy) : RefreshVerdict :=
  if s.revokedAt.isSome then
    if s.rotatedWithin policy.reuseGrace now then .concurrentRefresh else .replay
  else if !s.isActive now then .expired
  else if i64OfU64 policy.maxLifetimeSecs
      ≤ wholeSeconds (now.nanos - s.familyCreatedAt.nanos) then .expired
  else if policy.strictBinding && decide (s.ipAddress ≠ requestIp) then .addressMismatch
  else .rotate

theorem Session.refreshVerdict_eq_rotate {now : OffsetDateTime} {requestIp : Option IpAddr}
    {policy : RefreshPolicy} (h : s.refreshVerdict now requestIp policy = .rotate) :
    s.revokedAt = none ∧ now < s.expiresAt ∧
      wholeSeconds (now.nanos - s.familyCreatedAt.nanos) < i64OfU64 policy.maxLifetimeSecs := by
  unfold refreshVerdict at h
  split at h
  · split at h <;> cases h
  · rename_i hrev
    split at h
    · cases h
    · rename_i hactive
      split at h
      · cases h
      · rename_i hlife
        simp only [isActive, Bool.not_eq_true, Bool.not_eq_false', Bool.and_eq_true,
          decide_eq_true_eq] at hactive
        refine ⟨by simpa using hrev, hactive.2, by omega⟩

/-- The network a session's address is compared by: /24 for IPv4, /48 for
IPv6. -/
def IpAddr.network : IpAddr → IpAddr
  | .v4 bits => .v4 (bits >>> 8 <<< 8)
  | .v6 bits => .v6 (bits >>> 80 <<< 80)

def sameNetwork (a b : Option IpAddr) : Option Bool := do
  let a ← a
  let b ← b
  return decide (a.network = b.network)

/-- The test of `rotated_by_this_client` once it holds the replacement. -/
def Session.heldByClient (next : Session) (ip : Option IpAddr) (userAgent : Option String) :
    Bool :=
  (match next.ipAddress, ip with
    | none, none => true
    | a, b => sameNetwork a b == some true) &&
  decide (next.userAgent = userAgent)

/-! ## Rows the repository writes -/

/-- The settings sessions depend on. -/
structure JwtConfig where
  refreshExpirySecs : Nat
  shortSessionExpirySecs : Nat
  maxSessionLifetimeSecs : Nat
  strictSessionBinding : Bool
deriving DecidableEq

/-- Long with "remember me", short otherwise. -/
def JwtConfig.sessionTtlSecs (cfg : JwtConfig) (rememberMe : Bool) : Nat :=
  if rememberMe then cfg.refreshExpirySecs else cfg.shortSessionExpirySecs

/-- `session::create`, the row of a sign-in; `now` is `NOW()`. -/
def NewSession.create (input : NewSession) (now : OffsetDateTime) (id : Uuid) : Session where
  id := id
  userId := input.userId
  sessionFamilyId := input.sessionFamilyId
  expiresAt := input.expiresAt.toMicros
  createdAt := now
  familyCreatedAt := input.familyCreatedAt.getD now
  scopes := input.scopes
  revokedAt := none
  rotatedAt := none
  compromisedAt := none
  replacedBySessionId := none
  ipAddress := input.ipAddress
  deviceName := input.deviceName
  rememberMe := input.rememberMe
  tokenHash := input.tokenHash
  userAgent := input.userAgent
  sessionType := input.sessionType
  clientId := input.clientId
  compromiseReason := none
  mfa := input.mfa
  authTime := none

/-- The `INSERT` of `session::rotate`: as `create`, but the second factor
and the authentication time come from the row just locked, and so do the
family's start and the scopes where the input leaves them open. -/
def NewSession.replace (input : NewSession) (now : OffsetDateTime) (id : Uuid)
    (old : Session) : Session :=
  { input.create now id with
    familyCreatedAt := input.familyCreatedAt.getD old.familyCreatedAt
    scopes := input.scopes <|> old.scopes
    mfa := old.mfa
    authTime := old.authTime }

/-- The `UPDATE` of `session::rotate`. -/
def Session.rotatedInto (old : Session) (now : OffsetDateTime) (newId : Uuid) : Session :=
  { old with
    revokedAt := some now
    rotatedAt := some now
    replacedBySessionId := some newId }

/-! ### Device labels -/

def deviceNameMaxChars : Nat := 100

/-- `char::is_control`: the category Cc. -/
def isControl (c : Char) : Bool :=
  c.toNat < 0x20 || (0x7f ≤ c.toNat && c.toNat ≤ 0x9f)

/-- `char::is_whitespace`: the property White_Space. -/
def isWhitespace (c : Char) : Bool :=
  (9 ≤ c.toNat && c.toNat ≤ 13) || (0x2000 ≤ c.toNat && c.toNat ≤ 0x200a) ||
    c.toNat ∈ [0x20, 0x85, 0xa0, 0x1680, 0x2028, 0x2029, 0x202f, 0x205f, 0x3000]

def trimEnd (cs : List Char) : List Char := (cs.reverse.dropWhile isWhitespace).reverse

/-- A client-supplied device name without control characters, trimmed, of
at most `deviceNameMaxChars` characters; `none` when nothing is left. -/
def deviceLabel (raw : String) : Option String :=
  let cleaned := raw.toList.filter (!isControl ·)
  let label := trimEnd ((trimEnd (cleaned.dropWhile isWhitespace)).take deviceNameMaxChars)
  if label.isEmpty then none else some (String.ofList label)

/-! ### Sign-ins and rotations -/

/-- The arguments of `issue_tokens`. `secondFactor` is none where the
caller passes no `SignIn`. -/
structure IssueArgs where
  userId : Uuid
  ip : Option IpAddr
  userAgent : Option String
  deviceName : Option String
  rememberMe : Bool
  sessionType : SessionType
  clientId : Option String
  scopes : Option (List String)
  secondFactor : Option Bool
deriving DecidableEq

/-- The session `issue_tokens` asks for, its clock read at `now`. -/
def IssueArgs.newSession (args : IssueArgs) (cfg : JwtConfig) (now : OffsetDateTime)
    (tokenHash : TokenHash) (family : Uuid) : NewSession where
  userId := args.userId
  sessionFamilyId := family
  expiresAt := cappedExpiry now (cfg.sessionTtlSecs args.rememberMe) now
    cfg.maxSessionLifetimeSecs
  ipAddress := args.ip
  deviceName := args.deviceName.bind deviceLabel
  rememberMe := args.rememberMe
  tokenHash := tokenHash
  userAgent := args.userAgent
  sessionType := args.sessionType
  clientId := args.clientId
  familyCreatedAt := none
  scopes := args.scopes
  mfa := args.secondFactor.getD false

/-- The session `refresh_token` rotates `session` into, its clock read at
`now`. The account is the one looked up by `session.user_id`. -/
def Session.rotation (session : Session) (cfg : JwtConfig) (now : OffsetDateTime)
    (ip : Option IpAddr) (userAgent : Option String) (tokenHash : TokenHash) :
    NewSession where
  userId := session.userId
  sessionFamilyId := session.sessionFamilyId
  expiresAt := cappedExpiry now (cfg.sessionTtlSecs session.rememberMe)
    session.familyCreatedAt cfg.maxSessionLifetimeSecs
  ipAddress := ip
  deviceName := session.deviceName
  rememberMe := session.rememberMe
  tokenHash := tokenHash
  userAgent := userAgent
  sessionType := session.sessionType
  clientId := session.clientId
  familyCreatedAt := some session.familyCreatedAt
  scopes := none
  mfa := session.mfa

/-! ## The per-request check -/

/-- Whether a session acts for the account itself rather than for a client
the account delegated to. -/
def isFirstParty (sessionType : SessionType) (isScoped forClient primaryClient : Bool) : Bool :=
  decide (sessionType ≠ .personalAccessToken) && !isScoped && (!forClient || primaryClient)

inductive TokenState where
  | revoked
  | active (firstParty : Bool)
  | ended
  | unknown
deriving DecidableEq, Repr

def cachedEnded : UInt8 := 0
def cachedFirstParty : UInt8 := 1
def cachedDelegated : UInt8 := 2

def cachedValue (active firstParty : Bool) : UInt8 :=
  match active, firstParty with
  | false, _ => cachedEnded
  | true, true => cachedFirstParty
  | true, false => cachedDelegated

/-- The blocklist wins; only the two active values mean active. -/
def tokenState (blocklisted : Bool) (cached : Option UInt8) : TokenState :=
  match blocklisted, cached with
  | true, _ => .revoked
  | false, none => .unknown
  | false, some value =>
    if value = cachedFirstParty then .active true
    else if value = cachedDelegated then .active false
    else .ended

/-- A token is found active in the cache only through a value that
`cachedValue` gives to active sessions. -/
theorem tokenState_eq_active {blocklisted : Bool} {cached : Option UInt8} {firstParty : Bool}
    (h : tokenState blocklisted cached = .active firstParty) :
    cached = some (cachedValue true firstParty) := by
  cases blocklisted with
  | true => simp [tokenState] at h
  | false =>
    cases cached with
    | none => simp [tokenState] at h
    | some value =>
      simp only [tokenState] at h
      split at h
      · cases h
        simp_all [cachedValue]
      · split at h <;> cases h
        simp_all [cachedValue]

end AuthApi
