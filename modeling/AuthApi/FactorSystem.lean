import AuthApi.AccountSystem
import AuthApi.PgIndex
import AuthApi.TwoFactor

/-!
# Second factors, statement by statement

`AccountSystem` leaves two things to its inputs: which method an account
has as its primary one, and whether a submitted code is right. Here are
the tables that answer both, and the requests that change them, as
processes over a state that contains the account system's:

* the setup of a method and its restart, both `verify_setup`s with the
  promotion to primary, `disable_method`;
* the removals of `reset_password`, which share the transaction of the
  session revocation;
* the checks of a TOTP code, a mailed code and a recovery code, for the
  three completions of a challenge;
* `register` of a passkey and `complete_link` of an identity, after the
  check of the session that authenticates them;
* the sweep of the used TOTP codes.

A process is a pair again: where the request is in this code
(`FactorFlow`) and where it is in the code of the account system it
calls. The account system's steps are admitted where the request has got
to them (`admits`): a sign-in is told the primary method the table has, a
completion goes on with the verdict its check came to, and a reset
revokes sessions and commits only after its own statements.

The methods are a table of `Pg` with its unique indexes. Of the row in
`users` only the lock is modelled. The transactions on the three tables
of codes take one step each; so does each `DELETE` of a reset on the
tables of passkeys and identities, whose rows nobody else locks for longer
than one statement. What a transaction deletes there is kept in its program
point until it commits. The database has its own clock, `ahead` of the
application's by any amount. Attempt budgets, mails and audit entries are
not modelled: whether such a check refuses is an input
(`FactorInput.refusal`).
-/

namespace AuthApi

open Conc

/-! ## The shared state -/

structure FactorConfig where
  totpSkew : Nat
  resetRevokesFactorsAddedHours : Nat
  recoveryCodeExpiryDays : Nat
  /-- The code of a secret in a time step. -/
  totp : Secret → Nat → Code

abbrev MethodDb := Pg.Db (fun r : MethodRow => r.val.id)

/-- The lock of a row of `users`: of `SELECT … FOR UPDATE`, or the weaker
one of an `UPDATE`, which lets foreign keys refer to the row. -/
structure UserLock where
  holder : Nat
  forUpdate : Bool
deriving DecidableEq

/-- A TOTP code that was right when it was checked: of which secret, when,
and whether TOTP was the account's primary method then. -/
structure Reading where
  secret : Secret
  code : Code
  readAt : Int
  backed : Bool
deriving DecidableEq

/-- What a check was passed with. -/
inductive Evidence where
  | totp (reading : Reading)
  /-- With whether email was the account's primary method when the code was
  consumed. -/
  | mailed (id : Uuid) (backed : Bool)
  | recovery (id : Uuid)
deriving DecidableEq

/-- A session that the completion of a challenge has yielded, with the
account it is of. -/
structure CompletedSignIn where
  challengeId : TokenHash
  userId : Uuid
  sessionId : Uuid
  evidence : Evidence
deriving DecidableEq

/-- A reset that has committed, with the sessions it has revoked. -/
structure ResetRecord where
  userId : Uuid
  /-- The start of the window, if factors were removed. -/
  since : Option Int
  revoked : List Uuid
deriving DecidableEq

/-- The last four fields record what has happened; no request reads
them. -/
structure FactorState where
  account : AccountState
  config : FactorConfig
  /-- How far the database's clock is ahead. -/
  ahead : Int
  userLocks : Uuid → Option UserLock
  methods : MethodDb
  /-- The committed passkeys and linked identities. -/
  factors : List AccessFactor
  /-- Inserted and not committed, with the transaction, which has locked the
  account's row `FOR KEY SHARE`. -/
  linking : List (Nat × AccessFactor)
  emailCodes : List Email2faCode
  recoveryCodes : List RecoveryCode
  usedCodes : List UsedTotpCode
  /-- `totp_used:{user}:{code}`. -/
  totpUsed : Redis.Store (Uuid × Code) Unit
  /-- The ids given so far to mailed codes, recovery codes and factors. -/
  ids : List Uuid
  /-- The challenges stored so far. -/
  stored : TokenHash → Option PreAuthState
  completed : List CompletedSignIn
  resets : List ResetRecord

namespace FactorState

def now (s : FactorState) : Int := s.account.now

/-- `NOW()` in a transaction that starts here. -/
def dbNow (s : FactorState) : Int := toMicros (s.now + s.ahead)

/-- `gen_random_uuid()`: a value not seen before. -/
def drawId (s : FactorState) (id : Uuid) : Option FactorState :=
  if id ∈ s.ids then none else some { s with ids := id :: s.ids }

/-! ### The row of the account -/

/-- `lock_row`; `none` while another transaction has locked the row. -/
def lockRow (s : FactorState) (i : Nat) (userId : Uuid) : Option FactorState :=
  if (s.userLocks userId).all (·.holder = i) &&
      s.linking.all fun (j, f) => j = i || f.userId ≠ userId then
    some { s with userLocks := Function.update s.userLocks userId (some ⟨i, true⟩) }
  else none

/-- The lock of an `UPDATE` of the row. -/
def touchRow (s : FactorState) (i : Nat) (userId : Uuid) : Option FactorState :=
  if (s.userLocks userId).all (·.holder = i) then
    some { s with userLocks := Function.update s.userLocks userId (some ⟨i, false⟩) }
  else none

/-- A row that refers to the account can be inserted by transaction `i`. -/
def referable (s : FactorState) (i : Nat) (userId : Uuid) : Bool :=
  (s.userLocks userId).all fun l => l.holder = i || !l.forUpdate

def releaseRows (s : FactorState) (i : Nat) : FactorState :=
  { s with
    userLocks := fun userId =>
      if (s.userLocks userId).any (·.holder = i) then none else s.userLocks userId }

/-! ### Methods -/

def findPrimary (s : FactorState) (userId : Uuid) : Option MethodRow :=
  s.methods.rows.find? (·.primaryOf userId)

def hasPrimary (s : FactorState) (userId : Uuid) (methodType : TwoFactorType) : Bool :=
  s.methods.rows.any fun r =>
    r.primaryOf userId && r.val.isVerified && r.val.methodType = methodType

/-- The rows `ORDER BY created_at LIMIT 1` may return. -/
def oldest (rows : List MethodRow) : List Uuid :=
  (rows.filter fun r => rows.all fun r' => r.val.createdAt ≤ r'.val.createdAt).map (·.val.id)

/-- The verified methods transaction `i` sees. -/
def verifiedSeen (s : FactorState) (i : Nat) (userId : Uuid) : List MethodRow :=
  (s.methods.viewed i).filter (·.verifiedOf userId)

end FactorState

/-- `UPDATE … SET is_primary = TRUE` on the row `k`, with
`idx_2fa_user_primary`. -/
def promoteRow (db : MethodDb) (i : Nat) (k : Uuid) (p : MethodRow → Bool) :
    Option (Pg.Db.Visit MethodRow × MethodDb) :=
  match db.visit i k p (MethodRow.setPrimary true) with
  | some (.updated r, db') =>
    match db.conflict MethodRow.primaryIndex i r with
    | .wait => none
    | .violation => some (.violation, db)
    | .clear => some (.updated r, db')
  | visited => visited

/-! ## Program points -/

/-- What a request has to come to before a code counts as right. `replay`
and `remember` are the Redis side of the replay guard, for sign-ins only;
`clock` is the second reading of the clock, `consume` the transaction of
`try_consume_totp_code`. -/
inductive CheckPc where
  | verify (secret : Secret) (code : Code)
  | replay (reading : Reading)
  | clock (reading : Reading)
  | consume (reading : Reading) (now : Int)
  | remember (reading : Reading)
  | findOtp (challenge : Option TokenHash) (code : Code)
  | takeOtp (id : Uuid)
  | findRecovery (code : Code)
  | takeRecovery (id : Uuid)
  | passed (evidence : Evidence)
  | refused (error : AppError)

/-- `create_or_restart_method`, after the re-authentication: the snapshot
of `replace_pending`, the row it found, `create`. -/
inductive SetupPc where
  | reauth (new : NewTwoFactorMethod)
  | find (new : NewTwoFactorMethod)
  | restart (new : NewTwoFactorMethod) (id : Uuid) (startedAt : Int)
  | create (new : NewTwoFactorMethod)

/-- What `verify_setup` is called with, at the endpoint of which type. -/
structure Activation where
  userId : Uuid
  methodId : Uuid
  endpoint : TwoFactorType
  code : Code
deriving DecidableEq

/-- `verify_setup`; from `demote` to `commit` it is in `set_primary`. The
mark does not use what the check was passed with. -/
inductive ActivatePc where
  | read (request : Activation)
  | check (request : Activation) (pc : CheckPc)
  | mark (request : Activation) (evidence : Evidence)
  | primary (request : Activation)
  | demote (request : Activation)
  | unset (request : Activation) (left : List Uuid)
  | promote (request : Activation)
  | commit (request : Activation)
  | recovery (request : Activation)

structure Disabling where
  userId : Uuid
  methodId : Uuid
  methodType : TwoFactorType
deriving DecidableEq

/-- `disable_method`; `delete` to `count` is `remove_method`, `admin` is
`keep_a_second_factor_for_administrators`. -/
inductive DisablePc where
  | reauth (request : Disabling)
  | lock (request : Disabling)
  | delete (request : Disabling)
  | promote (request : Disabling)
  | promoteRow (request : Disabling) (id : Uuid)
  | count (request : Disabling)
  | admin (request : Disabling) (codes : Bool)
  | commit (request : Disabling) (codes : Bool)

/-- The factor an administrator keeps. -/
inductive KeptFactor where
  | method (id : Uuid)
  | passkey (id : Uuid)
deriving DecidableEq

/-- What a reset knows of its removals: the passkeys and identities it has
deleted, and whether the recovery codes went. -/
structure Removal where
  userId : Uuid
  since : Option Int
  kept : Option KeptFactor
  factors : List Uuid
  codes : Bool
deriving DecidableEq

/-- `reset_password` around the session code: `list` before its `BEGIN`,
`password` is the `UPDATE` of the account's row, `select` to `codes` is
`drop_access_factors_since`; during `revoke` the session code runs;
`pending` and `drop` are for an account that was not verified yet. -/
inductive ResetPc where
  | list (userId : Uuid) (tokenCreatedAt : Int)
  | lock (userId : Uuid) (since : Int)
  | select (userId : Uuid) (since : Int)
  | methods (d : Removal) (since : Int)
  | delete (d : Removal) (since : Int) (left : List Uuid)
  | passkeys (d : Removal) (since : Int)
  | identities (d : Removal) (since : Int)
  | promote (d : Removal)
  | promoteRow (d : Removal) (id : Uuid)
  | codes (d : Removal)
  | revoke (d : Removal)
  | drop (d : Removal) (left : List Uuid)
  | commit (d : Removal)
  | after

/-- A request that adds a way in, and the session that authenticates
it. -/
structure Enrolment where
  userId : Uuid
  sessionId : Uuid
  kind : FactorKind
deriving DecidableEq

/-- `register` and `complete_link`. -/
inductive EnrolPc where
  | auth (request : Enrolment)
  | start (request : Enrolment)
  | insert (request : Enrolment) (startedAt : Int)
  | commit (request : Enrolment)

/-- A completion beside the account system's; `load` until that has the
challenge. -/
inductive CompletionPc where
  | load
  | primary
  | check (pc : CheckPc)

inductive FactorFlow where
  | idle
  | setup (pc : SetupPc)
  | activate (pc : ActivatePc)
  | disable (pc : DisablePc)
  | reset (pc : ResetPc)
  | enrol (pc : EnrolPc)
  | signIn (sent : Bool)
  | complete (code : Code) (pc : CompletionPc)
  | sendCode (userId : Uuid) (challenge : Option TokenHash)
  | regenerate (userId : Uuid)
  | done (error : Option AppError)

structure FactorProc where
  own : FactorFlow
  account : Request

/-! ## Steps -/

/-- The inputs of a step that the model leaves open. -/
structure FactorInput where
  /-- A check outside the model fails, with this error. -/
  refusal : Option AppError := none
  uuid : Uuid := 0
  /-- The row a statement visits or picks next. -/
  row : Uuid := 0
  /-- The code drawn for a mail. -/
  code : Code := 0
  /-- The recovery codes drawn, with their ids. -/
  fresh : List (Uuid × Code) := []
  administrator : Bool := false
  kept : KeptFactor := .method 0
  /-- The account was not verified yet. -/
  pending : Bool := false
  redisUp : Bool := true

abbrev FactorStep := Option (FactorState × FactorFlow)

/-- The codes of a list `ORDER BY created_at DESC LIMIT 1` may return. -/
def latestCodes (codes : List Email2faCode) : List Uuid :=
  (codes.filter fun c => codes.all fun c' => c'.createdAt ≤ c.createdAt).map (·.id)

/-- `find_active_by_user_and_hash`: the rows it may return. -/
def FactorState.matchingOtp (s : FactorState) (digest : OtpDigest) : List Uuid :=
  latestCodes (s.emailCodes.filter fun c =>
    c.userId = digest.userId && c.codeHash = digest && c.active s.dbNow)

/-- `email_2fa::consume`: the code and the account's other unused ones are
used. -/
def FactorState.consumeOtp (s : FactorState) (userId : Uuid) : FactorState :=
  { s with
    emailCodes := s.emailCodes.map fun c =>
      if c.userId = userId && c.usedAt.isNone then { c with usedAt := some s.dbNow } else c }

def FactorState.consumeRecovery (s : FactorState) (id : Uuid) : FactorState :=
  { s with
    recoveryCodes := s.recoveryCodes.map fun c =>
      if c.id = id then { c with usedAt := some s.dbNow } else c }

/-- The rows `try_consume_totp_code` leaves, its clock read at `now`. -/
def FactorState.recentCodes (s : FactorState) (userId : Uuid) (now : Int) : List UsedTotpCode :=
  s.usedCodes.filter fun u =>
    !(u.userId = userId && u.usedAt < toMicros (now - totpReplayWindowSecs * nanosPerSec))

def totpUsedTtlSecs : Int := 60

/-- The next statement of a check; `signIn` says for what. -/
def checkStep (inp : FactorInput) (s : FactorState) (userId : Uuid) (signIn : Bool) :
    CheckPc → Option (FactorState × CheckPc)
  | .verify secret code =>
    match verifyCode s.config.totp s.config.totpSkew secret code (s.now / nanosPerSec) with
    | none => some (s, .refused .internal)
    | some false => some (s, .refused .twoFactorFailed)
    | some true =>
      let reading : Reading := ⟨secret, code, s.now, s.hasPrimary userId .totp⟩
      some (s, if signIn then .replay reading else .clock reading)
  | .replay reading =>
    if inp.redisUp && (s.totpUsed.get s.now (userId, reading.code)).isSome then
      some (s, .refused .twoFactorFailed)
    else some (s, .clock reading)
  | .clock reading => some (s, .consume reading s.now)
  | .consume reading now =>
    let recent := s.recentCodes userId now
    if recent.any fun u => u.userId = userId && u.code = reading.code then
      some ({ s with usedCodes := recent }, .refused .twoFactorFailed)
    else
      some ({ s with usedCodes := ⟨userId, reading.code, toMicros now⟩ :: recent },
        if signIn then .remember reading else .passed (.totp reading))
  | .remember reading =>
    some (if inp.redisUp then
        { s with
          totpUsed := s.totpUsed.setEx s.now (userId, reading.code) ()
            (totpUsedTtlSecs * nanosPerSec) }
        else s,
      .passed (.totp reading))
  | .findOtp challenge code =>
    match s.matchingOtp ⟨userId, challenge, code⟩ with
    | [] => some (s, .refused .twoFactorFailed)
    | ids => if inp.row ∈ ids then some (s, .takeOtp inp.row) else none
  | .takeOtp id =>
    if s.emailCodes.any fun c => c.id = id && c.active s.dbNow then
      some (s.consumeOtp userId, .passed (.mailed id (s.hasPrimary userId .email)))
    else some (s, .refused .twoFactorFailed)
  | .findRecovery code =>
    match s.recoveryCodes.find? fun c => c.codeHash = code && c.usable s.dbNow with
    | some c =>
      some (s, if c.userId = userId then .takeRecovery c.id else .refused .twoFactorFailed)
    | none => some (s, .refused .twoFactorFailed)
  | .takeRecovery id =>
    if s.recoveryCodes.any fun c => c.id = id && c.usable s.dbNow then
      some (s.consumeRecovery id, .passed (.recovery id))
    else some (s, .refused .twoFactorFailed)
  | .passed _ => none
  | .refused _ => none

/-- `email_2fa::create`: the account's latest unused code survives the new
one. The `DELETE` and the `INSERT` are one step: two calls do not overlap
here. -/
def FactorState.createOtp (s : FactorState) (inp : FactorInput) (userId : Uuid)
    (challenge : Option TokenHash) : Option FactorState :=
  let unused := s.emailCodes.filter fun c => c.userId = userId && c.usedAt.isNone
  if unused.isEmpty || inp.row ∈ latestCodes unused then
    match s.drawId inp.uuid with
    | none => none
    | some s' =>
      some { s' with
        emailCodes :=
          { id := inp.uuid
            userId := userId
            codeHash := ⟨userId, challenge, inp.code⟩
            createdAt := s.dbNow
            expiresAt := toMicros (s.now + otpExpirySecs * nanosPerSec)
            usedAt := none } ::
          s.emailCodes.filter fun c =>
            !(c.userId = userId && c.usedAt.isNone && c.id ≠ inp.row) }
  else none

def recoveryCodeCount : Nat := 10

/-- `create_recovery_codes`: the account's codes are replaced. -/
def FactorState.replaceRecovery (s : FactorState) (userId : Uuid) (fresh : List (Uuid × Code)) :
    Option FactorState :=
  let ids := fresh.map Prod.fst
  let kept := s.recoveryCodes.filter fun c => c.userId ≠ userId
  if fresh.length = recoveryCodeCount ∧ ids.Nodup ∧ (∀ id ∈ ids, id ∉ s.ids) ∧
      (fresh.map Prod.snd).Nodup ∧ ∀ c ∈ kept, c.codeHash ∉ fresh.map Prod.snd then
    some { s with
      ids := ids ++ s.ids
      recoveryCodes :=
        (fresh.zipIdx.map fun ((id, code), n) =>
          { id := id
            userId := userId
            codeHash := code
            codePosition := n + 1
            expiresAt := if s.config.recoveryCodeExpiryDays = 0 then none
              else some (toMicros (s.now + s.config.recoveryCodeExpiryDays * 86400 * nanosPerSec))
            usedAt := none }) ++ kept }
  else none

def setupStep (i : Nat) (inp : FactorInput) (s : FactorState) : SetupPc → FactorStep
  | .reauth new =>
    match inp.refusal with
    | some error => some (s, .done (some error))
    | none => some (s, .setup (.find new))
  | .find new =>
    match s.methods.scan i (MethodRow.restartable new) with
    | [] => some (s, .setup (.create new))
    | id :: _ => some (s, .setup (.restart new id s.dbNow))
  | .restart new id startedAt =>
    match s.methods.update id (MethodRow.restartable new) (MethodRow.restart new startedAt) with
    | none => none
    | some (.updated _, methods) => some ({ s with methods := methods }, .done none)
    | some (.skipped, _) => some (s, .setup (.create new))
    | some (.violation, _) => some (s, .done (some .internal))
  | .create new =>
    match new.row inp.uuid s.dbNow with
    | none => some (s, .done (some .internal))
    | some row =>
      if !s.referable i new.userId then none
      else
        match s.methods.conflict MethodRow.typeIndex i row with
        | .wait => none
        | .violation => some (s, .done (some (.conflict "two_factor_already_enabled")))
        | .clear =>
          match s.methods.insertNow row with
          | none => some (s, .done (some .internal))
          | some methods => some ({ s with methods := methods }, .done none)

/-- `mark_verified`. -/
def FactorState.mark (s : FactorState) (id : Uuid) : Option FactorState :=
  match s.methods.update id (fun r => !r.deleted) (MethodRow.markVerified s.dbNow) with
  | none => none
  | some (_, methods) => some { s with methods := methods }

/-- What `verify_setup` makes of the method it has read. Only the endpoint
for TOTP needs a secret; neither looks at the type. -/
def Activation.judge (request : Activation) (r : MethodRow) : Except AppError CheckPc :=
  if r.val.isVerified then .error (.conflict "already_verified")
  else
    match request.endpoint with
    | .email => .ok (.findOtp none request.code)
    | .totp =>
      match r.val.totpSecret with
      | none => .error .notFound
      | some secret => .ok (.verify secret request.code)

def activateStep (i : Nat) (inp : FactorInput) (s : FactorState) : ActivatePc → FactorStep
  | .read request =>
    match (s.methods.committed request.methodId).filter (·.ofUser request.userId) with
    | none => some (s, .done (some .notFound))
    | some r =>
      match request.judge r with
      | .error error => some (s, .done (some error))
      | .ok pc =>
        match inp.refusal with
        | some error => some (s, .done (some error))
        | none => some (s, .activate (.check request pc))
  | .check request (.passed evidence) => some (s, .activate (.mark request evidence))
  | .check _ (.refused error) => some (s, .done (some error))
  | .check request pc =>
    match checkStep inp s request.userId false pc with
    | none => none
    | some (s', pc') => some (s', .activate (.check request pc'))
  | .mark request _ =>
    match s.mark request.methodId with
    | none => none
    | some s' => some (s', .activate (.primary request))
  | .primary request =>
    some (s, .activate (if (s.findPrimary request.userId).isSome then .recovery request
      else .demote request))
  | .demote request =>
    some (s, .activate (.unset request (s.methods.scan i (MethodRow.primaryOf request.userId))))
  | .unset request [] => some (s, .activate (.promote request))
  | .unset request left =>
    if inp.row ∈ left then
      match s.methods.visit i inp.row (MethodRow.primaryOf request.userId)
          (MethodRow.setPrimary false) with
      | none => none
      | some (.violation, methods) =>
        some ({ s with methods := methods.rollback i }, .done (some .internal))
      | some (_, methods) =>
        some ({ s with methods := methods },
          .activate (.unset request (left.erase inp.row)))
    else none
  | .promote request =>
    match promoteRow s.methods i request.methodId fun r => !r.deleted && r.val.isVerified with
    | none => none
    | some (.violation, methods) =>
      some ({ s with methods := methods.rollback i }, .done (some .internal))
    | some (_, methods) => some ({ s with methods := methods }, .activate (.commit request))
  | .commit request =>
    some ({ s with methods := s.methods.commit i }, .activate (.recovery request))
  | .recovery request =>
    match s.replaceRecovery request.userId inp.fresh with
    | none => none
    | some s' => some (s', .done none)

/-- The end of a removal's transaction that is given up. -/
def FactorState.rollback (s : FactorState) (i : Nat) : FactorState :=
  { s.releaseRows i with
    methods := s.methods.rollback i
    linking := s.linking.filter fun (j, _) => j ≠ i }

def disableStep (i : Nat) (inp : FactorInput) (s : FactorState) : DisablePc → FactorStep
  | .reauth request =>
    match inp.refusal with
    | some error => some (s, .done (some error))
    | none => some (s, .disable (.lock request))
  | .lock request =>
    match s.lockRow i request.userId with
    | none => none
    | some s' => some (s', .disable (.delete request))
  | .delete request =>
    match s.methods.visit i request.methodId
        (MethodRow.removable request.methodId request.userId request.methodType)
        MethodRow.delete with
    | none => none
    | some (.updated r, methods) =>
      some ({ s with methods := methods },
        .disable (if r.val.isPrimary then .promote request else .count request))
    | some (_, methods) =>
      some (({ s with methods := methods } : FactorState).rollback i, .done (some .notFound))
  | .promote request =>
    match FactorState.oldest (s.verifiedSeen i request.userId) with
    | [] => some (s, .disable (.count request))
    | ids => if inp.row ∈ ids then some (s, .disable (.promoteRow request inp.row)) else none
  | .promoteRow request id =>
    match promoteRow s.methods i id fun r => !r.deleted with
    | none => none
    | some (.violation, methods) =>
      some (({ s with methods := methods } : FactorState).rollback i, .done (some .internal))
    | some (_, methods) => some ({ s with methods := methods }, .disable (.count request))
  | .count request =>
    some (s, .disable (.admin request (s.verifiedSeen i request.userId).isEmpty))
  | .admin request codes =>
    match inp.refusal with
    | some error => some (s.rollback i, .done (some error))
    | none => some (s, .disable (.commit request codes))
  | .commit request codes =>
    some ({ s.releaseRows i with
        methods := s.methods.commit i
        recoveryCodes := if codes then
          s.recoveryCodes.filter fun c => c.userId ≠ request.userId else s.recoveryCodes },
      .done none)

/-! ### Removals of a reset -/

/-- What an administrator may keep: the second factors added since, unless
there is an older one. -/
def FactorState.keepable (s : FactorState) (i : Nat) (userId : Uuid) (since : Int) :
    List (KeptFactor × Int) :=
  let methods := s.verifiedSeen i userId
  let passkeys := s.factors.filter fun f => f.userId = userId && f.kind.isPasskey
  if methods.any (·.val.createdAt ≤ since) || passkeys.any (·.createdAt ≤ since) then []
  else
    methods.map (fun r => (.method r.val.id, r.val.createdAt)) ++
      passkeys.map fun f => (.passkey f.id, f.createdAt)

/-- The first of them. -/
def FactorState.keepers (s : FactorState) (i : Nat) (userId : Uuid)
    (since : Int) : List KeptFactor :=
  ((s.keepable i userId since).filter fun k =>
    (s.keepable i userId since).all fun k' => k.2 ≤ k'.2).map Prod.fst

/-- The `WHERE` of the first `DELETE`. -/
def Removal.takes (d : Removal) (since : Int) (r : MethodRow) : Bool :=
  r.ofUser d.userId && since < r.val.createdAt && d.kept ≠ some (.method r.val.id)

/-- The ids of the passkeys, or identities, a `DELETE` takes. -/
def FactorState.taken (s : FactorState) (userId : Uuid) (p : AccessFactor → Bool) : List Uuid :=
  (s.factors.filter fun f => f.userId = userId && p f).map (·.id)

/-- The reset's own statements; `session` is where the session code is. -/
def resetStep (i : Nat) (inp : FactorInput) (s : FactorState) (session : Pc) :
    ResetPc → FactorStep
  | .list userId tokenCreatedAt =>
    match session with
    | .revoke (.scan _ _ _) =>
      match s.touchRow i userId with
      | none => none
      | some s' =>
        let hours := s.config.resetRevokesFactorsAddedHours
        if hours = 0 then some (s', .reset (.revoke ⟨userId, none, none, [], false⟩))
        else some (s', .reset (.lock userId (tokenCreatedAt - hours * 3600 * nanosPerSec)))
    | _ => none
  | .lock userId since =>
    match s.lockRow i userId with
    | none => none
    | some s' => some (s', .reset (.select userId since))
  | .select userId since =>
    let d : Removal := ⟨userId, some since, none, [], false⟩
    if !inp.administrator then some (s, .reset (.methods d since))
    else
      match s.keepers i userId since with
      | [] => some (s, .reset (.methods d since))
      | kept =>
        if inp.kept ∈ kept then
          some (s, .reset (.methods { d with kept := some inp.kept } since))
        else none
  | .methods d since =>
    some (s, .reset (.delete d since (s.methods.scan i (d.takes since))))
  | .delete d since [] => some (s, .reset (.passkeys d since))
  | .delete d since left =>
    if inp.row ∈ left then
      match s.methods.visit i inp.row (d.takes since) MethodRow.delete with
      | none => none
      | some (_, methods) =>
        some ({ s with methods := methods }, .reset (.delete d since (left.erase inp.row)))
    else none
  | .passkeys d since =>
    let taken := s.taken d.userId fun f =>
      f.kind.isPasskey && since < f.createdAt && d.kept ≠ some (.passkey f.id)
    some (s, .reset (.identities { d with factors := taken ++ d.factors } since))
  | .identities d since =>
    let taken := s.taken d.userId fun f => !f.kind.isPasskey && since < f.createdAt
    some (s, .reset (.promote { d with factors := taken ++ d.factors }))
  | .promote d =>
    if (s.methods.viewed i).any (·.primaryOf d.userId) then some (s, .reset (.codes d))
    else
      match FactorState.oldest (s.verifiedSeen i d.userId) with
      | [] => some (s, .reset (.codes d))
      | ids => if inp.row ∈ ids then some (s, .reset (.promoteRow d inp.row)) else none
  | .promoteRow d id =>
    -- A reset that the index refuses can only give up (`abort`).
    match promoteRow s.methods i id fun r => !r.deleted with
    | none => none
    | some (.violation, _) => none
    | some (_, methods) => some ({ s with methods := methods }, .reset (.codes d))
  | .codes d =>
    some (s, .reset (.revoke { d with codes := (s.verifiedSeen i d.userId).isEmpty }))
  | .revoke d =>
    match session with
    | .revoke (.visit _ _ _ [] _) =>
      if inp.pending then
        some (s, .reset (.drop { d with
            factors := s.taken d.userId (fun _ => true) ++ d.factors
            codes := true }
          (s.methods.scan i (MethodRow.ofUser d.userId))))
      else some (s, .reset (.commit d))
    | _ => none
  | .drop d [] => some (s, .reset (.commit d))
  | .drop d left =>
    if inp.row ∈ left then
      match s.methods.visit i inp.row (MethodRow.ofUser d.userId) MethodRow.delete with
      | none => none
      | some (_, methods) =>
        some ({ s with methods := methods }, .reset (.drop d (left.erase inp.row)))
    else none
  | .commit _ => none
  | .after => none

/-- The sessions the `UPDATE` of a revocation has returned. -/
def Pc.returned : Pc → List Session
  | .revoke (.visit _ _ _ _ returned) => returned
  | _ => []

/-- The end of a reset's transaction, when the session code stood at
`session`. -/
def FactorState.commitReset (s : FactorState) (i : Nat) (session : Pc) (d : Removal) :
    FactorState :=
  { s.releaseRows i with
    methods := s.methods.commit i
    factors := s.factors.filter fun f => f.id ∉ d.factors
    recoveryCodes := if d.codes then s.recoveryCodes.filter fun c => c.userId ≠ d.userId
      else s.recoveryCodes
    resets := ⟨d.userId, d.since, session.returned.map Session.id⟩ :: s.resets }

/-! ### Other requests -/

def FactorKind.conflict : FactorKind → AppError
  | .passkey _ => .conflict "passkey_already_registered"
  | .identity _ _ => .conflict "external_identity_already_linked"

def enrolStep (i : Nat) (inp : FactorInput) (s : FactorState) (session : Pc) :
    EnrolPc → FactorStep
  | .auth request =>
    match session with
    | .done (.firstParty _) => some (s, .enrol (.start request))
    | .done _ => some (s, .done (some .unauthorized))
    | _ => none
  | .start request =>
    match inp.refusal with
    | some error => some (s, .done (some error))
    | none => some (s, .enrol (.insert request s.dbNow))
  | .insert request startedAt =>
    if !s.referable i request.userId ||
        s.linking.any fun (j, f) => j ≠ i && request.kind.clashes request.userId f then none
    else if s.factors.any (request.kind.clashes request.userId) then
      some (s, .done (some request.kind.conflict))
    else
      match s.drawId inp.uuid with
      | none => none
      | some s' =>
        let f : AccessFactor :=
          ⟨inp.uuid, request.userId, request.kind, startedAt, request.sessionId, s.dbNow⟩
        match request.kind with
        | .passkey _ => some ({ s' with factors := f :: s.factors }, .done none)
        | .identity _ _ =>
          some ({ s' with linking := (i, f) :: s.linking }, .enrol (.commit request))
  | .commit _ =>
    some ({ s with
        factors := ((s.linking.filter fun (j, _) => j = i).map Prod.snd) ++ s.factors
        linking := s.linking.filter fun (j, _) => j ≠ i },
      .done none)

/-- The completion's check, once the account system's part of the request
(`flow`) has loaded the challenge. -/
def completionStep (inp : FactorInput) (s : FactorState) (flow : Flow) (code : Code)
    (pc : CompletionPc) : FactorStep :=
  match flow, pc with
  | .complete (.verify request _), .load =>
    match inp.refusal, request.factor with
    | some error, _ => some (s, .complete code (.check (.refused error)))
    | none, .totp => some (s, .complete code .primary)
    | none, .email =>
      some (s, .complete code (.check (.findOtp (some request.challengeId) code)))
    | none, .recoveryCode => some (s, .complete code (.check (.findRecovery code)))
  | .complete (.verify _ challenge), .primary =>
    match (s.findPrimary challenge.userId).filter (·.val.methodType = .totp) with
    | none => some (s, .complete code (.check (.refused .tokenInvalid)))
    | some r =>
      match r.val.totpSecret with
      | none => some (s, .complete code (.check (.refused .unauthorized)))
      | some secret => some (s, .complete code (.check (.verify secret code)))
  | .complete (.verify _ challenge), .check pc =>
    match checkStep inp s challenge.userId true pc with
    | none => none
    | some (s', pc') => some (s', .complete code (.check pc'))
  | _, _ => none

def mailStep (inp : FactorInput) (s : FactorState) (flow : Flow) (sent : Bool) : FactorStep :=
  match flow, sent with
  | .signIn (.send challenge), false =>
    if challenge.method = .email then
      match s.createOtp inp challenge.userId (some challenge.id) with
      | none => none
      | some s' => some (s', .signIn true)
    else none
  | _, _ => none

def ownStep (i : Nat) (inp : FactorInput) (s : FactorState) (p : FactorProc) : FactorStep :=
  match p.own with
  | .idle => none
  | .setup pc => setupStep i inp s pc
  | .activate pc => activateStep i inp s pc
  | .disable pc => disableStep i inp s pc
  | .reset pc => resetStep i inp s p.account.session pc
  | .enrol pc => enrolStep i inp s p.account.session pc
  | .signIn sent => mailStep inp s p.account.flow sent
  | .complete code pc => completionStep inp s p.account.flow code pc
  | .sendCode userId challenge =>
    match s.createOtp inp userId challenge with
    | none => none
    | some s' => some (s', .done none)
  | .regenerate userId =>
    match s.replaceRecovery userId inp.fresh with
    | none => none
    | some s' => some (s', .done none)
  | .done _ => none

/-! ## Steps of the account system -/

/-- The calls that go through this system's code. -/
def AccountCall.direct : AccountCall → Bool
  | .signIn _ => false
  | .complete _ => false
  | .resetPassword _ => false
  | _ => true

/-- Where the session code of a reset may run. -/
def ResetPc.runsSession (session : Pc) : ResetPc → Bool
  | .list _ _ =>
    match session with
    | .revoke (.list _ _ _) => true
    | .revoke (.start _ _) => true
    | _ => false
  | .revoke _ =>
    match session with
    | .revoke (.scan _ _ _) => true
    | .revoke (.visit _ _ _ (_ :: _) _) => true
    | _ => false
  | .commit _ =>
    match session with
    | .revoke (.visit _ _ _ [] _) => true
    | _ => false
  | .after => true
  | _ => false

/-- What the own code of a request says to a step of its flow: the primary
method of the account, whether the code was mailed, the verdict of the
check. -/
def FactorFlow.admitsGo (s : FactorState) (flow : Flow) (inp : Input) : FactorFlow → Bool
  | .idle => true
  | .signIn sent =>
    match flow with
    | .signIn (.method request _) =>
      inp.method = (s.findPrimary request.userId).map (·.val.methodType.challengeMethod)
    | .signIn (.send challenge) => challenge.method ≠ .email || inp.refusal.isNone = sent
    | _ => true
  | .complete _ pc =>
    match flow with
    | .complete (.verify _ _) =>
      match pc with
      | .check (.passed _) => inp.refusal.isNone
      | .check (.refused error) => inp.refusal = some error
      | _ => false
    | _ => true
  | .reset .after => true
  | _ => false

def admits (s : FactorState) (p : FactorProc) : AccountAct → Bool
  | .tick _ => true
  | .configure _ => true
  | .start call =>
    match p.own with
    | .idle => call.direct
    | _ => false
  | .session _ =>
    match p.own with
    | .reset pc => pc.runsSession p.account.session
    | _ => true
  | .go inp => p.own.admitsGo s p.account.flow inp
  | .fail =>
    match p.own with
    | .idle => true
    | _ => false

/-- A session is issued to the completion of a challenge. -/
def FactorProc.completes (p : FactorProc) (q : Request) : Option CompletedSignIn :=
  match p.own, p.account.flow, p.account.session, q.session with
  | .complete _ (.check (.passed evidence)), .complete (.issue challengeId _),
      .issue (.commit new), .done (.tokens sessionId) =>
      some ⟨challengeId, new.val.userId, sessionId, evidence⟩
  | _, _, _, _ => none

/-- What a step of the session code entails here: the transaction of a
reset ends with it. -/
def settleSession (i : Nat) (s : FactorState) (p : FactorProc) (account : AccountState)
    (q : Request) : FactorState × FactorProc :=
  match p.own with
  | .reset (.commit d) =>
    ({ s with account := account }.commitReset i p.account.session d, ⟨.reset .after, q⟩)
  | .reset (.revoke d) =>
    if q.session.outcome.isSome then
      ({ s with account := account }.rollback i, ⟨.reset .after, q⟩)
    else ({ s with account := account }, ⟨.reset (.revoke d), q⟩)
  | own =>
    ({ s with
        account := account
        completed := (p.completes q).toList ++ s.completed },
      ⟨own, q⟩)

def FactorProc.stores (p : FactorProc) (q : Request) : Option (TokenHash × PreAuthState) :=
  match p.account.flow, q.flow with
  | .signIn (.store challenge rememberMe), .signIn (.count _) =>
    some (challenge.id, ⟨challenge.userId, rememberMe, some challenge.method⟩)
  | _, _ => none

def settleGo (s : FactorState) (p : FactorProc) (account : AccountState) (q : Request) :
    FactorState × FactorProc :=
  ({ s with
      account := account
      stored := match p.stores q with
        | some (id, challenge) => Function.update s.stored id (some challenge)
        | none => s.stored },
    { p with account := q })

def settle (i : Nat) (s : FactorState) (p : FactorProc) (account : AccountState) (q : Request) :
    AccountAct → FactorState × FactorProc
  | .session _ => settleSession i s p account q
  | .go _ => settleGo s p account q
  | _ => ({ s with account := account }, { p with account := q })

/-! ## The program -/

inductive FactorCall where
  | setup (new : NewTwoFactorMethod)
  | verifySetup (request : Activation)
  | disableMethod (request : Disabling)
  | resetPassword (userId : Uuid) (tokenCreatedAt : Int)
  | enrol (request : Enrolment) (jti : Uuid)
  | signIn (request : SignInRequest)
  | complete (request : Completion) (code : Code)
  | sendCode (userId : Uuid) (challenge : Option TokenHash)
  | regenerate (userId : Uuid)

/-- Where a request begins, and what it calls in the account system. -/
def FactorCall.entry : FactorCall → FactorFlow × Option AccountCall
  | .setup new => (.setup (.reauth new), none)
  | .verifySetup request => (.activate (.read request), none)
  | .disableMethod request => (.disable (.reauth request), none)
  | .resetPassword userId tokenCreatedAt =>
    (.reset (.list userId tokenCreatedAt), some (.resetPassword userId))
  | .enrol request jti =>
    (.enrol (.auth request), some (.session (.verifyTokenState jti request.sessionId)))
  | .signIn request => (.signIn false, some (.signIn request))
  | .complete request code => (.complete code .load, some (.complete request))
  | .sendCode userId challenge => (.sendCode userId challenge, none)
  | .regenerate userId => (.regenerate userId, none)

inductive FactorAct where
  | account (a : AccountAct)
  | start (call : FactorCall)
  | go (inp : FactorInput)
  /-- The database's clock is set. -/
  | drift (ahead : Int)
  /-- `cleanup_used_totp_codes`, up to the rows it leaves for later. -/
  | sweep (left : List UsedTotpCode)
  | fail

def FactorFlow.running : FactorFlow → Bool
  | .idle => false
  | .reset .after => false
  | .done _ => false
  | _ => true

def abort (i : Nat) (s : FactorState) (p : FactorProc) : Option (FactorState × FactorProc) :=
  if p.own.running then
    match failStep i s.account p.account with
    | some (account, q) =>
      some ({ s with account := account }.rollback i, ⟨.done (some .internal), q⟩)
    | none => some (s.rollback i, { p with own := .done (some .internal) })
  else none

def enter (i : Nat) (s : FactorState) (p : FactorProc) (call : FactorCall) :
    Option (FactorState × FactorProc) :=
  match p.own, p.account.flow with
  | .idle, .idle =>
    match call.entry with
    | (own, none) => some (s, { p with own := own })
    | (own, some call) =>
      match accountProgram i (.start call) s.account p.account with
      | some (account, q) => some ({ s with account := account }, ⟨own, q⟩)
      | none => none
  | _, _ => none

def factorProgram : Program FactorState FactorProc FactorAct := fun i a s p =>
  match a with
  | .account a =>
    if admits s p a then
      match accountProgram i a s.account p.account with
      | some (account, q) => some (settle i s p account q a)
      | none => none
    else none
  | .start call => enter i s p call
  | .go inp =>
    match ownStep i inp s p with
    | some (s', own) => some (s', { p with own := own })
    | none => none
  | .drift ahead => some ({ s with ahead := ahead }, p)
  | .sweep left =>
    some ({ s with
        usedCodes := s.usedCodes.filter fun u =>
          !(u.usedAt < s.dbNow - usedCodeRetention) || u ∈ left },
      p)
  | .fail => abort i s p

abbrev FactorConf := Conf FactorState FactorProc

def factorInitial (config : FactorConfig) (cfg : JwtConfig) (deviceAuth : DeviceAuthConfig)
    (clock : OffsetDateTime) (ahead : Int) : FactorConf where
  shared :=
    { account := (accountInitial cfg deviceAuth clock).shared
      config := config
      ahead := ahead
      userLocks := fun _ => none
      methods := .empty
      factors := []
      linking := []
      emailCodes := []
      recoveryCodes := []
      usedCodes := []
      totpUsed := .empty
      ids := []
      stored := fun _ => none
      completed := []
      resets := [] }
  procs := fun _ => ⟨.idle, ⟨.idle, .idle⟩⟩

/-! ## Schedules -/

/-- The defaults, with an authenticator whose codes a reader can check:
those of secret 7 run from 7000 on. -/
def defaultFactors : FactorConfig where
  totpSkew := 1
  resetRevokesFactorsAddedHours := 72
  recoveryCodeExpiryDays := 365
  totp := fun secret step => (secret * 1000 + step) % 1000000

/-- Request `i` sets a method up: a new one, with the id given, or the one
it finds pending. -/
def setupSchedule (i : Nat) (new : NewTwoFactorMethod) (id : Uuid) : List (Nat × FactorAct) :=
  [(i, .start (.setup new)), (i, .go {}), (i, .go {}), (i, .go { uuid := id })]

/-- Request `i` submits a code for a TOTP method, up to the mark. -/
def proveSetupSchedule (i : Nat) (request : Activation) : List (Nat × FactorAct) :=
  (i, .start (.verifySetup request)) :: List.replicate 5 (i, .go {})

/-- What is left for it when the account has no primary method: from the
mark to the recovery codes, whose ids start at `base`. -/
def finishSetupSchedule (i : Nat) (base : Nat) : List (Nat × FactorAct) :=
  List.replicate 6 (i, .go {}) ++
    [(i, .go { fresh := (List.range recoveryCodeCount).map fun n => (base + n, base + n) })]

/-- Request `r` resets the password of account `userId`, which has no
session, when there is no method to delete or to promote, up to the
`COMMIT`. What an administrator keeps is in `select`. -/
def resetFactorsSchedule (r : Nat) (userId : Uuid) (tokenCreatedAt : Int) (select : FactorInput) :
    List (Nat × FactorAct) :=
  [(r, .start (.resetPassword userId tokenCreatedAt)), (r, .account (.session {})),
    (r, .account (.session {})), (r, .go {}), (r, .go {}), (r, .go select)] ++
    List.replicate 6 (r, .go {}) ++ [(r, .account (.session {})), (r, .go {})]

end AuthApi
