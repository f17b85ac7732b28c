import AuthApi.Approval

/-!
# Second factors: rows, codes, rules

The tables behind a second factor: the methods an account has enrolled,
the codes mailed during a challenge, the recovery codes, and the TOTP codes
used lately. Passkeys and linked identities are here too, since a password
reset takes them along.

What the `CHECK` constraints of `two_factor_methods` say is part of a row
(`MethodRow`). A `DELETE` leaves the row with a mark that no statement
matches, so that a statement waiting for its lock can find it gone.

Secrets are the plain ones: encryption is undone wherever a secret is
read. Codes are compared, never computed with, so a code stands for its
own digest; what a mailed code's digest is bound to is part of it
(`OtpDigest`). Times of the database are nanoseconds.
-/

namespace AuthApi

/-- Nanoseconds as a `TIMESTAMPTZ` column keeps them. -/
def toMicros (n : Int) : Int := n / 1000 * 1000

/-! ## Methods -/

inductive TwoFactorType where
  | totp
  | email
deriving DecidableEq, Repr

/-- The method a challenge is issued for. -/
def TwoFactorType.challengeMethod : TwoFactorType → ChallengeMethod
  | .totp => .totp
  | .email => .email

abbrev Secret := Nat

/-- What a user submits: six digits, or a recovery code. -/
abbrev Code := Nat

/-- `last_used_at` and `updated_at` are read by no modelled statement. -/
structure TwoFactorMethod where
  id : Uuid
  userId : Uuid
  createdAt : Int
  methodType : TwoFactorType
  isPrimary : Bool
  isVerified : Bool
  totpSecret : Option Secret
deriving DecidableEq

/-- `two_factor_primary_requires_verification` and
`two_factor_method_payload`. -/
structure TwoFactorMethod.Checks (m : TwoFactorMethod) : Prop where
  primary : m.isPrimary = true → m.isVerified = true
  payload : m.totpSecret.isSome = decide (m.methodType = .totp)

instance (m : TwoFactorMethod) : Decidable m.Checks :=
  decidable_of_iff ((m.isPrimary = true → m.isVerified = true) ∧
      m.totpSecret.isSome = decide (m.methodType = .totp))
    ⟨fun h => ⟨h.1, h.2⟩, fun h => ⟨h.primary, h.payload⟩⟩

structure MethodRow where
  val : TwoFactorMethod
  checks : val.Checks
  /-- A `DELETE` has taken the row. -/
  deleted : Bool
  /-- When `mark_verified` was last executed; not a column. -/
  verifiedAt : Option Int

structure NewTwoFactorMethod where
  userId : Uuid
  methodType : TwoFactorType
  totpSecret : Option Secret
deriving DecidableEq

namespace MethodRow

/-- Another version of the row, if it passes the constraints. -/
def update (r : MethodRow) (m : TwoFactorMethod) : Option MethodRow :=
  if h : m.Checks then some { r with val := m, checks := h } else none

def ofUser (userId : Uuid) (r : MethodRow) : Bool := !r.deleted && r.val.userId = userId

def verifiedOf (userId : Uuid) (r : MethodRow) : Bool := r.ofUser userId && r.val.isVerified

def primaryOf (userId : Uuid) (r : MethodRow) : Bool := r.ofUser userId && r.val.isPrimary

/-- The `WHERE` of `replace_pending`. -/
def restartable (new : NewTwoFactorMethod) (r : MethodRow) : Bool :=
  r.ofUser new.userId && r.val.methodType = new.methodType && !r.val.isVerified

/-- The `SET` of `replace_pending`. -/
def restart (new : NewTwoFactorMethod) (now : Int) (r : MethodRow) : Option MethodRow :=
  r.update { r.val with totpSecret := new.totpSecret, createdAt := now }

/-- The `SET` of `mark_verified`. -/
def markVerified (now : Int) (r : MethodRow) : Option MethodRow :=
  (r.update { r.val with isVerified := true }).map fun r' => { r' with verifiedAt := some now }

/-- The `SET` of the statements that make a method primary, or no longer
so. -/
def setPrimary (isPrimary : Bool) (r : MethodRow) : Option MethodRow :=
  r.update { r.val with isPrimary := isPrimary }

def delete (r : MethodRow) : Option MethodRow := some { r with deleted := true }

/-- The `WHERE` of `remove_method`. -/
def removable (id userId : Uuid) (methodType : TwoFactorType) (r : MethodRow) : Bool :=
  r.ofUser userId && r.val.id = id && r.val.methodType = methodType

/-- What `idx_2fa_user_primary` is about: one primary method per account. -/
def primaryIndex (r : MethodRow) : Option Uuid :=
  if !r.deleted && r.val.isPrimary then some r.val.userId else none

/-- `idx_2fa_user_totp` and `idx_2fa_user_email`: one method of a type per
account. -/
def typeIndex (r : MethodRow) : Option (Uuid × TwoFactorType) :=
  if r.deleted then none else some (r.val.userId, r.val.methodType)

end MethodRow

/-- The row `create` inserts, with the database's defaults. -/
def NewTwoFactorMethod.row (new : NewTwoFactorMethod) (id : Uuid) (now : Int) :
    Option MethodRow :=
  let m : TwoFactorMethod :=
    { id := id
      userId := new.userId
      createdAt := now
      methodType := new.methodType
      isPrimary := false
      isVerified := false
      totpSecret := new.totpSecret }
  if h : m.Checks then some ⟨m, h, false, none⟩ else none

/-! ## Codes of an authenticator -/

def maxTotpSkew : Nat := 1

def totpStepSecs : Nat := 30

def totpReplayWindowSecs : Int := (2 * maxTotpSkew + 2) * 30

/-- The code is a text of six digits. -/
def Code.sixDigits (code : Code) : Bool := code < 1000000

/-- `totp::verify_code`, where `totp` gives the code of a secret in a time
step. `none` is an error: a time the library cannot handle. -/
def verifyCode (totp : Secret → Nat → Code) (skew : Nat) (secret : Secret) (code : Code)
    (now : Int) : Option Bool :=
  if now < 0 then none
  else if now.toNat < skew * totpStepSecs then none
  else if !code.sixDigits then some false
  else
    some ((List.range (2 * skew + 1)).any fun d =>
      totp secret (now.toNat / totpStepSecs - skew + d) = code)

structure UsedTotpCode where
  userId : Uuid
  code : Code
  usedAt : Int
deriving DecidableEq

/-- Retention of the sweep of `used_totp_codes`: 10 minutes. -/
def usedCodeRetention : Int := 600 * nanosPerSec

/-! ## Mailed codes and recovery codes -/

/-- The keyed digest of a mailed code: `code_subject` and the code. -/
structure OtpDigest where
  userId : Uuid
  challenge : Option TokenHash
  code : Code
deriving DecidableEq

def otpExpirySecs : Int := 600

structure Email2faCode where
  id : Uuid
  userId : Uuid
  codeHash : OtpDigest
  createdAt : Int
  expiresAt : Int
  usedAt : Option Int
deriving DecidableEq

/-- Unused and unexpired. -/
def Email2faCode.active (c : Email2faCode) (now : Int) : Bool :=
  c.usedAt.isNone && now < c.expiresAt

structure RecoveryCode where
  id : Uuid
  userId : Uuid
  codeHash : Code
  codePosition : Nat
  expiresAt : Option Int
  usedAt : Option Int
deriving DecidableEq

def RecoveryCode.usable (c : RecoveryCode) (now : Int) : Bool :=
  c.usedAt.isNone && c.expiresAt.all fun t => now < t

/-! ## Passkeys and linked identities -/

inductive FactorKind where
  | passkey (credentialId : Nat)
  | identity (provider subject : Nat)
deriving DecidableEq

def FactorKind.isPasskey : FactorKind → Bool
  | .passkey _ => true
  | .identity _ _ => false

/-- A row of `passkeys` or of `external_identities`. The last two fields
are no columns: the session that authenticated the request, and when the
`INSERT` was executed (`created_at` is when its transaction began). -/
structure AccessFactor where
  id : Uuid
  userId : Uuid
  kind : FactorKind
  createdAt : Int
  addedBy : Uuid
  insertedAt : Int
deriving DecidableEq

/-- `passkeys_credential_id_key`, `external_identities_subject_key` and
`external_identities_one_per_provider`. -/
def FactorKind.clashes (kind : FactorKind) (userId : Uuid) (f : AccessFactor) : Bool :=
  match kind, f.kind with
  | .passkey credential, .passkey credential' => credential = credential'
  | .identity provider subject, .identity provider' subject' =>
    provider = provider' && (subject = subject' || f.userId = userId)
  | _, _ => false

end AuthApi
