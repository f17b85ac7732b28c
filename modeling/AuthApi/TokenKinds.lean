import AuthApi.Session
import Mathlib.Data.List.Basic

/-!
# Access tokens and ID tokens

The service signs both kinds with one key. What tells them apart is the
type in the header, which no verifier reads, the claims `sid` and `jti`,
which only access tokens have, and the audience: a list from the
configuration, or the id of the client the ID token is for. Who takes which
kind is `accepted_is_access_token`; where the two verifiers differ on
access tokens is `verifiers_agree`.

Uuids are written and parsed by functions `uuidText` and `parseUuid` that
nothing is assumed of. A signature verifies with a key if the token was
signed with it. `validated` is what the crate `jsonwebtoken` checks for the
Rust verifier: no source of the service has these comparisons, so they are
assumptions on that crate.
-/

namespace AuthApi

/-! ## Claims -/

inductive JsonValue where
  | text (s : String)
  | number (n : Int)
  | bool (b : Bool)
  | list (l : List String)
deriving DecidableEq

/-- An object; a field without a value is skipped. -/
def object (fields : List (String × Option JsonValue)) : List (String × JsonValue) :=
  fields.filterMap fun f => f.2.map fun v => (f.1, v)

/-- `skip_serializing_if = "Vec::is_empty"`. -/
def nonEmpty (l : List String) : Option JsonValue := if l.isEmpty then none else some (.list l)

def JsonValue.toText : JsonValue → Option String
  | .text s => some s
  | _ => none

def JsonValue.toNumber : JsonValue → Option Int
  | .number n => some n
  | _ => none

def JsonValue.toList : JsonValue → Option (List String)
  | .list l => some l
  | _ => none

/-- `aud` is one audience or a list of them. -/
def JsonValue.audiences : JsonValue → List String
  | .text s => [s]
  | .list l => l
  | _ => []

/-- A token: its header, its payload and the key it was signed with. -/
structure Jwt where
  alg : String
  typ : String
  kid : Option String
  payload : List (String × JsonValue)
  key : Nat

variable {α : Type}

def Jwt.required (t : Jwt) (name : String) (read : JsonValue → Option α) : Option α :=
  (t.payload.lookup name).bind read

/-- A field that may be missing, but not of another type. -/
def Jwt.defaulted (t : Jwt) (name : String) (read : JsonValue → Option α) (default : α) :
    Option α :=
  match t.payload.lookup name with
  | none => some default
  | some v => read v

section Uuids

variable (uuidText : Uuid → String) (parseUuid : String → Option Uuid)

/-- `jwt::Claims`. -/
structure JwtClaims where
  sub : Uuid
  sid : Uuid
  jti : Uuid
  exp : Int
  iat : Int
  nbf : Option Int
  iss : Option String
  aud : List String
  roles : List String
  permissions : List String
  clientId : Option String
  subType : Option String
  sessionType : Option String

def encodeToken (claims : JwtClaims) (key : Nat) (kid : Option String) : Jwt where
  alg := "ES256"
  typ := "at+jwt"
  kid := kid
  key := key
  payload := object [("sub", some (.text (uuidText claims.sub))),
    ("sid", some (.text (uuidText claims.sid))), ("jti", some (.text (uuidText claims.jti))),
    ("exp", some (.number claims.exp)), ("iat", some (.number claims.iat)),
    ("nbf", claims.nbf.map .number), ("iss", claims.iss.map .text), ("aud", nonEmpty claims.aud),
    ("roles", nonEmpty claims.roles), ("permissions", nonEmpty claims.permissions),
    ("client_id", claims.clientId.map .text), ("sub_type", claims.subType.map .text),
    ("session_type", claims.sessionType.map .text)]

/-- `oidc::IdTokenClaims`, with the claims about the user. -/
structure IdTokenClaims where
  iss : String
  sub : Uuid
  aud : String
  azp : String
  exp : Int
  iat : Int
  authTime : Int
  nonce : Option String
  atHash : String
  preferredUsername : Option String
  locale : Option String
  updatedAt : Option Int
  email : Option String
  emailVerified : Option Bool

/-- `encode_claims`, of an ID token. -/
def encodeClaims (claims : IdTokenClaims) (key : Nat) (kid : Option String) : Jwt where
  alg := "ES256"
  typ := "JWT"
  kid := kid
  key := key
  payload := object [("iss", some (.text claims.iss)), ("sub", some (.text (uuidText claims.sub))),
    ("aud", some (.text claims.aud)), ("azp", some (.text claims.azp)),
    ("exp", some (.number claims.exp)), ("iat", some (.number claims.iat)),
    ("auth_time", some (.number claims.authTime)), ("nonce", claims.nonce.map .text),
    ("at_hash", some (.text claims.atHash)),
    ("preferred_username", claims.preferredUsername.map .text),
    ("locale", claims.locale.map .text), ("updated_at", claims.updatedAt.map .number),
    ("email", claims.email.map .text), ("email_verified", claims.emailVerified.map .bool)]

inductive SignedToken where
  | access (claims : JwtClaims)
  | identity (claims : IdTokenClaims)

def SignedToken.jwt (key : Nat) (kid : Option String) : SignedToken → Jwt
  | .access claims => encodeToken uuidText claims key kid
  | .identity claims => encodeClaims uuidText claims key kid

/-! ## Verifiers -/

def readUuid (v : JsonValue) : Option Uuid := v.toText.bind parseUuid

def optional (read : JsonValue → Option α) (v : JsonValue) : Option (Option α) :=
  (read v).map some

/-- What `serde` makes of the payload. -/
def Jwt.claims (t : Jwt) : Option JwtClaims := do
  return {
    sub := ← t.required "sub" (readUuid parseUuid)
    sid := ← t.required "sid" (readUuid parseUuid)
    jti := ← t.required "jti" (readUuid parseUuid)
    exp := ← t.required "exp" JsonValue.toNumber
    iat := ← t.required "iat" JsonValue.toNumber
    nbf := ← t.defaulted "nbf" (optional JsonValue.toNumber) none
    iss := ← t.defaulted "iss" (optional JsonValue.toText) none
    aud := ← t.defaulted "aud" JsonValue.toList []
    roles := ← t.defaulted "roles" JsonValue.toList []
    permissions := ← t.defaulted "permissions" JsonValue.toList []
    clientId := ← t.defaulted "client_id" (optional JsonValue.toText) none
    subType := ← t.defaulted "sub_type" (optional JsonValue.toText) none
    sessionType := ← t.defaulted "session_type" (optional JsonValue.toText) none }

/-- `decode_token_inner` and `check_time_claims`. -/
def decodeTokenInner (t : Jwt) (key : Nat) (now : Int) : Option JwtClaims :=
  if t.alg = "ES256" ∧ t.key = key then
    (t.claims parseUuid).filter fun claims =>
      now < claims.exp && claims.nbf.all fun nbf => nbf ≤ now
  else none

def decodeTokenWithKeys (t : Jwt) (keys : List (String × Nat)) (now : Int) : Option JwtClaims :=
  match t.kid.bind fun kid => keys.lookup kid with
  | some key => decodeTokenInner parseUuid t key now
  | none => keys.findSome? fun k => decodeTokenInner parseUuid t k.2 now

def validateIssAud (claims : JwtClaims) (expectedIss expectedAud : String) : Bool :=
  claims.iss = some expectedIss && expectedAud ∈ claims.aud

/-- What the service signs with and for whom. -/
structure TokenService where
  publicUrl : String
  accessExpirySecs : Nat
  clientIds : List String
  kid : String
  key : Nat
  verifyingKeys : List (String × Nat)

/-- Any access token, and the ID tokens `id_token` makes. -/
def TokenService.Signs (service : TokenService) : SignedToken → Prop
  | .access _ => True
  | .identity claims =>
    claims.iss = service.publicUrl ∧ claims.aud ∈ service.clientIds ∧ claims.azp = claims.aud ∧
      claims.exp = min (claims.iat + service.accessExpirySecs) (2 ^ 63 - 1)

def TokenService.verifiedClaims (service : TokenService) (now : Int) (t : Jwt) :
    Option JwtClaims :=
  (decodeTokenWithKeys parseUuid t service.verifyingKeys now).filter fun claims =>
    validateIssAud claims service.publicUrl service.publicUrl

/-- The bearer check of the service; it is its own audience. -/
def TokenService.bearerAccepts (service : TokenService) (now : Int) (t : Jwt) : Bool :=
  (service.verifiedClaims parseUuid now t).isSome

/-- The `active` that `introspect` answers: `live` is what it finds out about
the claims of the token, from the session, the blocklist and the client that
asks. -/
def TokenService.introspect (service : TokenService) (live : JwtClaims → Bool) (now : Int)
    (t : Jwt) : Bool :=
  (service.verifiedClaims parseUuid now t).any live

/-- Of both verifiers. The introspection, if it is configured, says of each
token whether it is active; it may have the answer from its cache. -/
structure VerifierConfig where
  issuer : String
  audience : String
  leeway : Int
  keys : String → Option Nat
  introspection : Option (Jwt → Bool)

/-- The verifiers take the configuration, and it is one for the service: it
names its issuer, has its keys, and asks its introspection. The cache knows
a token by its `jti`. -/
structure VerifierConfig.For (cfg : VerifierConfig) (service : TokenService) : Prop where
  given : cfg.issuer ≠ "" ∧ cfg.audience ≠ ""
  issuer : cfg.issuer = service.publicUrl
  key : cfg.keys service.kid = some service.key
  introspection : ∀ active ∈ cfg.introspection, ∀ t, active t = true →
    ∃ t' live now, t'.payload.lookup "jti" = t.payload.lookup "jti" ∧
      service.introspect parseUuid live now t' = true

/-- `jsonwebtoken::decode`, with the leeway, the issuer, the audience and
`validate_nbf` set. -/
def validated (cfg : VerifierConfig) (now : Int) (t : Jwt) : Bool :=
  (t.required "exp" JsonValue.toNumber).any (fun exp => now - cfg.leeway ≤ exp) &&
    (t.required "nbf" JsonValue.toNumber).all (fun nbf => nbf ≤ now + cfg.leeway) &&
    t.required "iss" JsonValue.toText = some cfg.issuer &&
    (t.payload.lookup "aud").any (fun aud => cfg.audience ∈ aud.audiences)

/-- `Verifier::verify`. -/
def rustVerify (cfg : VerifierConfig) (now : Int) (t : Jwt) : Bool :=
  t.alg = "ES256" && (t.kid.bind cfg.keys).any (· = t.key) && validated cfg now t &&
    (t.required "sub" (readUuid parseUuid)).isSome &&
    (t.required "sid" (readUuid parseUuid)).isSome &&
    (t.required "jti" (readUuid parseUuid)).isSome &&
    (t.defaulted "roles" JsonValue.toList []).isSome &&
    (t.defaulted "permissions" JsonValue.toList []).isSome &&
    (t.defaulted "client_id" (optional JsonValue.toText) none).isSome &&
    cfg.introspection.all (· t)

/-- `verify` of the JavaScript verifier. -/
def jsVerify (cfg : VerifierConfig) (now : Int) (t : Jwt) : Bool :=
  t.alg = "ES256" && (t.kid.bind cfg.keys).any (· = t.key) &&
    t.required "iss" JsonValue.toText = some cfg.issuer &&
    (t.payload.lookup "aud").any (fun aud => cfg.audience ∈ aud.audiences) &&
    (t.required "exp" JsonValue.toNumber).any (fun exp => now < exp + cfg.leeway) &&
    (t.required "nbf" JsonValue.toNumber).all (fun nbf => nbf - cfg.leeway ≤ now) &&
    cfg.introspection.all (· t)

end Uuids

/-! ## What an ID token lacks -/

theorem lookup_object_none {fields : List (String × Option JsonValue)} {name : String}
    (h : name ∉ fields.map Prod.fst) : (object fields).lookup name = none := by
  rw [List.lookup_eq_none_iff]
  intro p hp
  simp only [object, List.mem_filterMap, Option.map_eq_some_iff] at hp
  obtain ⟨f, hf, v, -, rfl⟩ := hp
  simp only [bne_iff_ne, ne_eq]
  rintro rfl
  exact h (List.mem_map_of_mem hf)

variable {uuidText : Uuid → String} {parseUuid : String → Option Uuid} {claims : IdTokenClaims}
  {key : Nat} {kid : Option String} {now : Int} {cfg : VerifierConfig} {service : TokenService}
  {t : Jwt}

theorem encodeClaims_jti :
    (encodeClaims uuidText claims key kid).payload.lookup "jti" = none :=
  lookup_object_none (by simp)

theorem encodeClaims_aud :
    (encodeClaims uuidText claims key kid).payload.lookup "aud" = some (.text claims.aud) :=
  rfl

theorem verifiedClaims_of_no_jti (h : t.payload.lookup "jti" = none) :
    service.verifiedClaims parseUuid now t = none := by
  have hinner : ∀ key, decodeTokenInner parseUuid t key now = none := fun key => by
    simp [decodeTokenInner, Jwt.claims, Jwt.required, h]
  have hdecode : decodeTokenWithKeys parseUuid t service.verifyingKeys now = none := by
    unfold decodeTokenWithKeys
    split
    · exact hinner _
    · exact List.findSome?_eq_none_iff.mpr fun k _ => hinner k.2
  rw [TokenService.verifiedClaims, hdecode, Option.filter_none]

theorem rustVerify_of_no_jti (h : t.payload.lookup "jti" = none) :
    rustVerify parseUuid cfg now t = false := by
  simp [rustVerify, Jwt.required, h]

/-- The introspection of the service knows no ID token, and has answered
none that a cache could take for one. -/
theorem jsVerify_of_introspection (hcfg : cfg.For parseUuid service)
    (hasks : cfg.introspection.isSome = true) (h : t.payload.lookup "jti" = none) :
    jsVerify cfg now t = false := by
  obtain ⟨active, hactive⟩ := Option.isSome_iff_exists.mp hasks
  have hinactive : active t = false := by
    by_contra hyes
    obtain ⟨t', live, now', hjti, hanswer⟩ :=
      hcfg.introspection active hactive t (eq_true_of_ne_false hyes)
    rw [TokenService.introspect, verifiedClaims_of_no_jti (hjti.trans h)] at hanswer
    cases hanswer
  simp [jsVerify, hactive, hinactive]

theorem audience_of_jsVerify (h : jsVerify cfg now (encodeClaims uuidText claims key kid) = true) :
    cfg.audience = claims.aud := by
  by_contra hne
  simp [jsVerify, encodeClaims_aud, JsonValue.audiences, hne] at h

/-- Without introspection nothing keeps out an ID token of the service for
the client the verifier takes itself for, until it has expired. -/
theorem jsVerify_encodeClaims (hcfg : cfg.For parseUuid service) (hasks : cfg.introspection = none)
    (hiss : claims.iss = service.publicUrl) (haud : claims.aud = cfg.audience)
    (hnow : now < claims.exp + cfg.leeway) :
    jsVerify cfg now (encodeClaims uuidText claims service.key (some service.kid)) = true := by
  set t := encodeClaims uuidText claims service.key (some service.kid)
  have halg : t.alg = "ES256" := rfl
  have hkey : t.kid.bind cfg.keys = some t.key := hcfg.key
  have hissuer : t.required "iss" JsonValue.toText = some claims.iss := rfl
  have haudience : t.payload.lookup "aud" = some (.text claims.aud) := encodeClaims_aud
  have hexp : t.required "exp" JsonValue.toNumber = some claims.exp := rfl
  have hnbf : t.required "nbf" JsonValue.toNumber = none :=
    congrArg (Option.bind · JsonValue.toNumber) (lookup_object_none (by simp))
  simp [jsVerify, halg, hkey, hissuer, haudience, hexp, hnbf, JsonValue.audiences, hasks, haud,
    hiss, hcfg.issuer, hnow]

/-- **Only access tokens are accepted**, of all that the service signs, by
the service and by both verifiers at any time, exactly if the verifiers
introspect or their audience is not the id of a client. -/
theorem accepted_is_access_token (uuidText : Uuid → String) (parseUuid : String → Option Uuid)
    {service : TokenService} {cfg : VerifierConfig} (hcfg : cfg.For parseUuid service) :
    (∀ signed now, service.Signs signed →
      let t := signed.jwt uuidText service.key (some service.kid)
      service.bearerAccepts parseUuid now t = true ∨ rustVerify parseUuid cfg now t = true ∨
        jsVerify cfg now t = true →
      ∃ claims, signed = .access claims) ↔
    cfg.introspection.isSome = true ∨ cfg.audience ∉ service.clientIds := by
  constructor
  · intro hall
    by_contra hcond
    obtain ⟨hasks, haud⟩ := not_or.mp hcond
    rw [Option.not_isSome_iff_eq_none] at hasks
    let claims : IdTokenClaims := ⟨service.publicUrl, 0, cfg.audience, cfg.audience,
      min (0 + service.accessExpirySecs) (2 ^ 63 - 1), 0, 0, none, "", none, none, none, none, none⟩
    have hjs : jsVerify cfg (claims.exp + cfg.leeway - 1)
        (encodeClaims uuidText claims service.key (some service.kid)) = true :=
      jsVerify_encodeClaims hcfg hasks rfl rfl (sub_one_lt _)
    obtain ⟨_, h⟩ := hall (.identity claims) _ ⟨rfl, not_not.mp haud, rfl, rfl⟩ (.inr (.inr hjs))
    cases h
  · intro hcond signed now hsigns t haccepted
    cases signed with
    | access claims => exact ⟨claims, rfl⟩
    | identity claims =>
      exfalso
      have hjti : t.payload.lookup "jti" = none := encodeClaims_jti
      rcases haccepted with hbearer | hrust | hjs
      · rw [TokenService.bearerAccepts, verifiedClaims_of_no_jti hjti] at hbearer
        cases hbearer
      · cases (rustVerify_of_no_jti hjti).symm.trans hrust
      · rcases hcond with hasks | haud
        · cases (jsVerify_of_introspection hcfg hasks hjti).symm.trans hjs
        · exact haud (audience_of_jsVerify hjs ▸ hsigns.2.1)

def tokenService : TokenService where
  publicUrl := "issuer"
  accessExpirySecs := 900
  clientIds := ["app"]
  kid := "k"
  key := 1
  verifyingKeys := [("k", 1)]

def apiVerifier (audience : String) : VerifierConfig where
  issuer := "issuer"
  audience := audience
  leeway := 30
  keys kid := if kid = "k" then some 1 else none
  introspection := none

/-- A verifier that takes itself for a client and introspects: it accepts
an access token, and no ID token. -/
theorem access_token_accepted :
    let parseUuid : String → Option Uuid := fun _ => some 0
    let cfg : VerifierConfig := { apiVerifier "app" with
      introspection := some (tokenService.introspect parseUuid (fun _ => true) 10) }
    let claims : JwtClaims := ⟨1, 2, 3, 900, 0, some 0, some "issuer", ["app", "issuer"],
      [], [], none, some "user", some "web"⟩
    let t := (SignedToken.access claims).jwt (fun _ => "uuid") 1 (some "k")
    cfg.For parseUuid tokenService ∧ tokenService.bearerAccepts parseUuid 10 t = true ∧
      rustVerify parseUuid cfg 10 t = true ∧ jsVerify cfg 10 t = true ∧
      ∀ signed now, tokenService.Signs signed →
        jsVerify cfg now (signed.jwt (fun _ => "uuid") 1 (some "k")) = true →
        ∃ claims, signed = .access claims := by
  intro parseUuid cfg claims t
  have hcfg : cfg.For parseUuid tokenService := by
    refine ⟨by decide, rfl, rfl, ?_⟩
    rintro _ ⟨⟩ t h
    exact ⟨t, _, 10, rfl, h⟩
  refine ⟨hcfg, by decide +kernel, by decide +kernel, by decide +kernel, ?_⟩
  intro signed now hsigns hjs
  exact (accepted_is_access_token (fun _ => "uuid") parseUuid hcfg).mpr (.inl rfl) signed now hsigns
    (.inr (.inr hjs))

/-- An ID token passes for an access token where the verifier was given the
client's id as its audience. -/
theorem id_token_accepted :
    let signed : SignedToken := .identity ⟨"issuer", 1, "app", "app", 900, 0, 0, none, "hash",
      none, none, none, none, none⟩
    (apiVerifier "app").For (fun _ => some 0) tokenService ∧ tokenService.Signs signed ∧
      jsVerify (apiVerifier "app") 10 (signed.jwt (fun _ => "uuid") 1 (some "k")) = true ∧
      ∀ claims, signed ≠ .access claims := by
  refine ⟨⟨by decide, rfl, rfl, ?_⟩, by simp [TokenService.Signs, tokenService],
    by decide +kernel, ?_⟩
  · rintro _ ⟨⟩
  · rintro _ ⟨⟩

/-! ## The two verifiers -/

/-- **The verifiers agree** on every token whose claims can be read, except
in one second: the Rust verifier takes the token in the last one of the
leeway, the JavaScript one no longer does. -/
theorem verifiers_agree {claims : JwtClaims} (h : t.claims parseUuid = some claims) :
    jsVerify cfg now t =
      (rustVerify parseUuid cfg now t && decide (now ≠ claims.exp + cfg.leeway)) := by
  have hlate : ∀ exp : Int, decide (now < exp + cfg.leeway) =
      (decide (now - cfg.leeway ≤ exp) && decide (now ≠ exp + cfg.leeway)) := by
    intro exp
    rw [← Bool.decide_and, decide_eq_decide]
    omega
  -- Each field was read.
  unfold Jwt.claims at h
  iterate 13
    replace h := Option.bind_eq_some_iff.mp h
    obtain ⟨_, _, h⟩ := h
  cases h
  simp only [jsVerify, rustVerify, validated, *, sub_le_iff_le_add, Option.any_some,
    Option.isSome_some, Bool.and_true]
  ac_rfl

theorem verifiers_differ_once :
    let t := encodeToken (fun _ => "uuid") ⟨1, 2, 3, 900, 0, none, some "issuer", ["api"], [],
      [], none, none, none⟩ 1 (some "k")
    rustVerify (fun _ => some 0) (apiVerifier "api") 930 t = true ∧
      jsVerify (apiVerifier "api") 930 t = false := by
  intro t
  have h : t.claims (fun _ => some 0) = some ⟨0, 0, 0, 900, 0, none, some "issuer", ["api"], [],
    [], none, none, none⟩ := by rfl
  exact ⟨by decide +kernel, (verifiers_agree h).trans (by decide +kernel)⟩

end AuthApi
