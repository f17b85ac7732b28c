import AuthApi.PgIndex
import AuthApi.SessionSystem

/-!
# Registrations, verification links and resets, statement by statement

An account is created pending. It becomes active when someone follows a
verification link with the password of the registration that sent it
(`verify_email`), or resets its password (`reset_password`). A second
registration on a pending address does not touch the account: its link
carries the credentials it chose, and activates the account with them.

One step is one SQL statement; an `UPDATE` takes one step for its snapshot
and one for each row it has found, for which it may have to wait. The
transaction of a request that fails is rolled back. Left open, as inputs of
a step, are random values, the row an `UPDATE` comes to next, and refusals
by the budgets, by the check for breached passwords and of a username.
-/

namespace AuthApi

open Conc

/-! ## Rows -/

/-- Verification accepts a hash exactly for the password it was made from. -/
structure PasswordHash where
  password : String
  salt : Nat
deriving DecidableEq

def PasswordHash.accepts (hash : PasswordHash) (password : String) : Bool :=
  hash.password = password

inductive UserStatus where
  | active
  | inactive
  | suspended
  | pendingVerification
deriving DecidableEq

/-- A row of `users`. Addresses are in lower case, as they are compared. -/
structure Account where
  id : Uuid
  email : String
  status : UserStatus
  passwordHash : PasswordHash
  username : String
  preferredLocale : String
deriving DecidableEq

structure PendingCredentials where
  passwordHash : PasswordHash
  username : String
  preferredLocale : String
deriving DecidableEq

structure EmailVerificationToken where
  id : Uuid
  userId : Uuid
  createdAt : Int
  expiresAt : Int
  usedAt : Option Int
  credentials : Option PendingCredentials
deriving DecidableEq

structure PasswordResetToken where
  id : Uuid
  userId : Uuid
  expiresAt : Int
  usedAt : Option Int
deriving DecidableEq

/-- `verdict`: expiry is reported first. -/
def tokenVerdict (expiresAt : Int) (usedAt : Option Int) (now : Int) : Option AppError :=
  if expiresAt < now then some .tokenExpired
  else if usedAt.isSome then some .tokenInvalid
  else none

def emailTokenExpirySecs : Int := 86400
def resetTokenExpirySecs : Int := 1800

/-! ## The shared state -/

/-- An account that a commit has activated, the hash stored for it then,
and the password submitted in the call. -/
structure ActivatedAccount where
  userId : Uuid
  stored : PasswordHash
  submitted : String
deriving DecidableEq

structure RegistrationState where
  /-- Nanoseconds. -/
  now : Int
  users : Pg.Db Account.id
  verifications : Pg.Db EmailVerificationToken.id
  resets : Pg.Db PasswordResetToken.id
  /-- What has happened; no request reads it. -/
  activations : List ActivatedAccount

def RegistrationState.findByEmail (s : RegistrationState) (email : String) : Option Account :=
  s.users.rows.find? (·.email = email)

/-- Whether another account holds the username, as transaction `i` sees it. -/
def RegistrationState.usernameHeld (s : RegistrationState) (i : Nat) (username : String)
    (id : Uuid) : Bool :=
  (s.users.viewed i).any fun o => o.username.toLower = username.toLower && o.id ≠ id

/-- The unique indexes of `users`. -/
def Account.emailIndex (a : Account) : Option String := some a.email

def Account.usernameIndex (a : Account) : Option String := some a.username.toLower

def RegistrationState.rollback (s : RegistrationState) (i : Nat) : RegistrationState :=
  { s with
    users := s.users.rollback i
    verifications := s.verifications.rollback i
    resets := s.resets.rollback i }

/-- The accounts that the transaction of `i` activates. -/
def RegistrationState.activated (s : RegistrationState) (i : Nat) (submitted : String) :
    List ActivatedAccount :=
  s.users.keys.filterMap fun k =>
    match s.users.committed k, s.users.view i k with
    | some before, some after =>
      if before.status = .pendingVerification ∧ after.status = .active then
        some ⟨k, after.passwordHash, submitted⟩
      else none
    | _, _ => none

/-- `COMMIT`, in a call in which `submitted` was given. -/
def RegistrationState.commit (s : RegistrationState) (i : Nat) (submitted : String) :
    RegistrationState :=
  { s with
    users := s.users.commit i
    verifications := s.verifications.commit i
    resets := s.resets.commit i
    activations := s.activated i submitted ++ s.activations }

/-! ## Requests -/

structure Registrant where
  email : String
  password : String
  username : String
  preferredLocale : String
deriving DecidableEq

/-- What activates an account: a link, or a reset. -/
inductive Activating where
  | link
  | reset
deriving DecidableEq

/-- A transaction that may activate `userId`, in a call with `password`. -/
structure ActivationJob where
  kind : Activating
  userId : Uuid
  password : String
deriving DecidableEq

/-- The `UPDATE`s of one row of `users`. Whether another account holds the
username of `adopt_pending_credentials` is read in its snapshot. -/
inductive UserUpdate where
  | adoptPendingCredentials (credentials : PendingCredentials) (held : Bool)
  | markEmailVerified
  | updatePasswordHash (hash : PasswordHash)
  | adoptLatestRegistrationIdentity (credentials : PendingCredentials)
  | verifyIfPending
deriving DecidableEq

def Account.isPending (a : Account) : Bool := a.status = .pendingVerification

def UserUpdate.applies : UserUpdate → Account → Bool
  | .adoptPendingCredentials _ _, a => a.isPending
  | .markEmailVerified, _ => true
  | .updatePasswordHash _, _ => true
  | .adoptLatestRegistrationIdentity _, a => a.isPending
  | .verifyIfPending, a => a.isPending

def UserUpdate.apply : UserUpdate → Account → Account
  | .adoptPendingCredentials credentials held, a =>
    { a with
      passwordHash := credentials.passwordHash
      preferredLocale := credentials.preferredLocale
      username := if held then a.username else credentials.username }
  | .markEmailVerified, a => { a with status := if a.isPending then .active else a.status }
  | .updatePasswordHash hash, a => { a with passwordHash := hash }
  | .adoptLatestRegistrationIdentity credentials, a =>
    { a with
      username := credentials.username
      preferredLocale := credentials.preferredLocale }
  | .verifyIfPending, a => { a with status := .active }

inductive RegistrationPc where
  | idle
  /-- `register_account`. -/
  | register (registrant : Registrant)
  | create (account : Account)
  | createLink (userId : Uuid) (password : String)
  | commitCreate (password : String)
  /-- `issue_verification`. -/
  | issue (userId : Uuid) (credentials : Option PendingCredentials)
  | resend (email : String)
  /-- `verify_email`. -/
  | verify (tokenId : Uuid) (password : String)
  | ownHash (token : EmailVerificationToken) (password : String)
  | consume (token : EmailVerificationToken) (password : String)
  | adopt (job : ActivationJob) (credentials : PendingCredentials)
  /-- `forgot_password`, `reset_password`. -/
  | forgot (email : String)
  | reset (tokenId : Uuid) (password : String)
  | consumeReset (token : PasswordResetToken) (hash : PasswordHash)
  | revokeResets (job : ActivationJob)
  | revokeEachReset (job : ActivationJob) (left : List Uuid)
  | identity (job : ActivationJob)
  /-- Both: an `UPDATE` of the account before and after its snapshot, the
  revocation of the account's links, and the end. -/
  | update (job : ActivationJob) (change : UserUpdate)
  | write (job : ActivationJob) (change : UserUpdate)
  | revoke (job : ActivationJob)
  | revokeEach (job : ActivationJob) (left : List Uuid)
  | commit (job : ActivationJob)
  | done (result : Option AppError)

/-- Where the transaction goes on after an `UPDATE`. -/
def UserUpdate.next (job : ActivationJob) : UserUpdate → Bool → RegistrationPc
  | .adoptPendingCredentials _ _, _ => .revoke job
  | .markEmailVerified, _ => .commit job
  | .updatePasswordHash _, _ => .revokeResets job
  | .adoptLatestRegistrationIdentity _, _ => .update job .verifyIfPending
  | .verifyIfPending, updated => if updated then .revoke job else .commit job

structure RegistrationInput where
  uuid : Uuid := 0
  salt : Nat := 0
  refusal : Option AppError := none
  /-- Whether the account's budget of mails is spent. -/
  spent : Bool := false
  row : Uuid := 0

abbrev RegistrationStep := Option (RegistrationState × RegistrationPc)

/-- The request ends with an error, and its transaction is rolled back. -/
def RegistrationState.abort (s : RegistrationState) (i : Nat) (error : AppError) :
    RegistrationStep :=
  some (s.rollback i, .done (some error))

/-! ### `register_account` -/

def registerStep (i : Nat) (inp : RegistrationInput) (s : RegistrationState) :
    RegistrationPc → RegistrationStep
  | .register registrant =>
    match inp.refusal with
    | some error => some (s, .done (some error))
    | none =>
      let hash : PasswordHash := ⟨registrant.password, inp.salt⟩
      match s.findByEmail registrant.email with
      | some existing =>
        some (s, if existing.status = .pendingVerification then
            .issue existing.id (some ⟨hash, registrant.username, registrant.preferredLocale⟩)
          else .done none)
      | none =>
        some (s, .create ⟨inp.uuid, registrant.email, .pendingVerification, hash,
          registrant.username, registrant.preferredLocale⟩)
  | .create account =>
    match s.users.conflict Account.emailIndex i account,
        s.users.conflict Account.usernameIndex i account with
    -- A concurrent registration on the address: the answer is the same.
    | .violation, _ => some (s, .done none)
    | .wait, _ => none
    | .clear, .violation => some (s, .done (some (.conflict "username_taken")))
    | .clear, .wait => none
    | .clear, .clear =>
      match s.users.insert i account with
      | none => some (s, .done (some .internal))
      | some users =>
        some ({ s with users := users }, .createLink account.id account.passwordHash.password)
  | .createLink userId password =>
    match s.verifications.insert i
        ⟨inp.uuid, userId, s.now, s.now + emailTokenExpirySecs * nanosPerSec, none, none⟩ with
    | none => s.abort i .internal
    | some verifications =>
      some ({ s with verifications := verifications }, .commitCreate password)
  | .commitCreate password => some (s.commit i password, .done none)
  | .issue userId credentials =>
    if inp.spent then some (s, .done none)
    else if (s.users.committed userId).isNone then some (s, .done (some .internal))
    else
      match s.verifications.insertNow ⟨inp.uuid, userId, s.now,
          s.now + emailTokenExpirySecs * nanosPerSec, none, credentials⟩ with
      | none => some (s, .done (some .internal))
      | some verifications => some ({ s with verifications := verifications }, .done none)
  | .resend email =>
    match inp.refusal with
    | some error => some (s, .done (some error))
    | none =>
      match s.findByEmail email with
      | some user =>
        some (s, if user.status = .pendingVerification then .issue user.id none
          else .done none)
      | none => some (s, .done none)
  | _ => none

/-! ### `verify_email` -/

def EmailVerificationToken.unused (t : EmailVerificationToken) : Bool := t.usedAt.isNone

def EmailVerificationToken.use (now : Int) (t : EmailVerificationToken) :
    Option EmailVerificationToken :=
  some { t with usedAt := some now }

def verifyEmailStep (i : Nat) (inp : RegistrationInput) (s : RegistrationState) :
    RegistrationPc → RegistrationStep
  | .verify tokenId password =>
    match inp.refusal with
    | some error => some (s, .done (some error))
    | none =>
      match s.verifications.committed tokenId with
      | none => some (s, .done (some .tokenInvalid))
      | some token =>
        match tokenVerdict token.expiresAt token.usedAt s.now with
        | some error => some (s, .done (some error))
        | none =>
          match token.credentials with
          | none => some (s, .ownHash token password)
          | some carried =>
            some (s, if carried.passwordHash.accepts password then
                .consume token password
              else .done (some .invalidCredentials))
  | .ownHash token password =>
    match s.users.committed token.userId with
    | none => some (s, .done (some .tokenInvalid))
    | some user =>
      some (s, if user.passwordHash.accepts password then .consume token password
        else .done (some .invalidCredentials))
  | .consume token password =>
    let job : ActivationJob := ⟨.link, token.userId, password⟩
    match s.verifications.visit i token.id EmailVerificationToken.unused
        (EmailVerificationToken.use s.now) with
    | none => none
    | some (.updated _, verifications) =>
      some ({ s with verifications := verifications },
        match token.credentials with
        | some credentials => .adopt job credentials
        | none => .revoke job)
    | some (_, _) => s.abort i .tokenInvalid
  | .adopt job credentials =>
    some (s, .update job (.adoptPendingCredentials credentials
      (s.usernameHeld i credentials.username job.userId)))
  | _ => none

/-! ### `forgot_password` and `reset_password` -/

def PasswordResetToken.unused (t : PasswordResetToken) : Bool := t.usedAt.isNone

def PasswordResetToken.use (now : Int) (t : PasswordResetToken) : Option PasswordResetToken :=
  some { t with usedAt := some now }

/-- The unused links of the account that carry credentials, as transaction
`i` sees them; of these, those made last. -/
def RegistrationState.latestRegistrations (s : RegistrationState) (i : Nat) (userId : Uuid) :
    List EmailVerificationToken :=
  let links := (s.verifications.viewed i).filter fun t =>
    t.userId = userId && t.credentials.isSome && t.unused
  links.filter fun t => links.all fun t' => t'.createdAt ≤ t.createdAt

def resetPasswordStep (i : Nat) (inp : RegistrationInput) (s : RegistrationState) :
    RegistrationPc → RegistrationStep
  | .forgot email =>
    match inp.refusal, s.findByEmail email with
    | some error, _ => some (s, .done (some error))
    | none, none => some (s, .done none)
    | none, some user =>
      if inp.spent then some (s, .done none)
      else
        match s.resets.insertNow
            ⟨inp.uuid, user.id, s.now + resetTokenExpirySecs * nanosPerSec, none⟩ with
        | none => some (s, .done (some .internal))
        | some resets => some ({ s with resets := resets }, .done none)
  | .reset tokenId password =>
    match inp.refusal with
    | some error => some (s, .done (some error))
    | none =>
      match s.resets.committed tokenId with
      | none => some (s, .done (some .tokenInvalid))
      | some token =>
        match tokenVerdict token.expiresAt token.usedAt s.now with
        | some error => some (s, .done (some error))
        | none => some (s, .consumeReset token ⟨password, inp.salt⟩)
  | .consumeReset token hash =>
    match s.resets.visit i token.id PasswordResetToken.unused (PasswordResetToken.use s.now) with
    | none => none
    | some (.updated _, resets) =>
      some ({ s with resets := resets },
        .update ⟨.reset, token.userId, hash.password⟩ (.updatePasswordHash hash))
    | some (_, _) => s.abort i .tokenInvalid
  | .revokeResets job =>
    some (s, .revokeEachReset job (s.resets.scan i fun t => t.userId = job.userId && t.unused))
  | .revokeEachReset job [] => some (s, .identity job)
  | .revokeEachReset job left =>
    if inp.row ∈ left then
      match s.resets.visit i inp.row (fun t => t.userId = job.userId && t.unused)
          (PasswordResetToken.use s.now) with
      | none => none
      | some (_, resets) =>
        some ({ s with resets := resets }, .revokeEachReset job (left.erase inp.row))
    else none
  | .identity job =>
    match s.latestRegistrations i job.userId with
    | [] => some (s, .update job .verifyIfPending)
    | links =>
      -- Links made at the same time: any of them may come first.
      match links.find? (·.id = inp.row) with
      | none => none
      | some link =>
        some (s, match link.credentials with
          | some credentials =>
            if s.usernameHeld i credentials.username job.userId then
              .update job .verifyIfPending
            else .update job (.adoptLatestRegistrationIdentity credentials)
          | none => .update job .verifyIfPending)
  | _ => none

/-! ### What both transactions do to the account -/

def activationStep (i : Nat) (inp : RegistrationInput) (s : RegistrationState) :
    RegistrationPc → RegistrationStep
  | .update job change =>
    some (s, if (s.users.view i job.userId).any change.applies then .write job change
      else change.next job false)
  | .write job change =>
    match s.users.visit i job.userId change.applies (some ∘ change.apply) with
    | none => none
    | some (.updated r, users) =>
      match s.users.conflict Account.usernameIndex i r with
      | .wait => none
      | .violation => s.abort i .internal
      | .clear => some ({ s with users := users }, change.next job true)
    | some (_, users) => some ({ s with users := users }, change.next job false)
  | .revoke job =>
    some (s, .revokeEach job
      (s.verifications.scan i fun t => t.userId = job.userId && t.unused))
  | .revokeEach job [] =>
    some (s, match job.kind with
      | .link => .update job .markEmailVerified
      | .reset => .commit job)
  | .revokeEach job left =>
    if inp.row ∈ left then
      match s.verifications.visit i inp.row (fun t => t.userId = job.userId && t.unused)
          (EmailVerificationToken.use s.now) with
      | none => none
      | some (_, verifications) =>
        some ({ s with verifications := verifications }, .revokeEach job (left.erase inp.row))
    else none
  | .commit job => some (s.commit i job.password, .done none)
  | _ => none

/-! ## The program -/

inductive RegistrationAct where
  /-- A request starts. -/
  | start (pc : RegistrationPc)
  | go (inp : RegistrationInput)
  /-- The request fails, or the process is gone. -/
  | fail
  | elapse (nanos : Nat)

def RegistrationPc.entry : RegistrationPc → Bool
  | .register _ | .resend _ | .verify _ _ | .forgot _ | .reset _ _ => true
  | _ => false

def RegistrationPc.running : RegistrationPc → Bool
  | .idle | .done _ => false
  | _ => true

def registrationStep (i : Nat) (inp : RegistrationInput) (s : RegistrationState)
    (pc : RegistrationPc) : RegistrationStep :=
  match pc with
  | .register _ | .create _ | .createLink _ _ | .commitCreate _ | .issue _ _ | .resend _ =>
    registerStep i inp s pc
  | .verify _ _ | .ownHash _ _ | .consume _ _ | .adopt _ _ => verifyEmailStep i inp s pc
  | .forgot _ | .reset _ _ | .consumeReset _ _ | .revokeResets _ | .revokeEachReset _ _
  | .identity _ => resetPasswordStep i inp s pc
  | .update _ _ | .write _ _ | .revoke _ | .revokeEach _ _ | .commit _ =>
    activationStep i inp s pc
  | .idle | .done _ => none

def registrationProgram : Program RegistrationState RegistrationPc RegistrationAct :=
  fun i a s pc =>
    match a with
    | .start pc' =>
      match pc with
      | .idle | .done _ => if pc'.entry then some (s, pc') else none
      | _ => none
    | .go inp => registrationStep i inp s pc
    | .fail => if pc.running then s.abort i .internal else none
    | .elapse nanos => some ({ s with now := s.now + nanos }, pc)

abbrev RegistrationConf := Conf RegistrationState RegistrationPc

/-- Nobody has begun. The accounts may be in any state, and every link
belongs to one. -/
structure RegistrationConf.AtRest (c : RegistrationConf) : Prop where
  procs : ∀ i, c.procs i = .idle
  users : ∀ k, c.shared.users.holder k = none
  verifications : ∀ k, c.shared.verifications.holder k = none
  resets : ∀ k, c.shared.resets.holder k = none
  linked : ∀ k t, c.shared.verifications.committed k = some t →
    (c.shared.users.committed t.userId).isSome
  resetLinked : ∀ k t, c.shared.resets.committed k = some t →
    (c.shared.users.committed t.userId).isSome
  activations : c.shared.activations = []

end AuthApi
