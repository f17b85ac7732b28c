import AuthApi.SessionFamily
import AuthApi.TokenScopes

/-!
# An ID token needs a consent to identity

The scopes of a session are a list, or absent when the approval named
none and the client has none: then the session is unrestricted, which is
meant for permissions. The check of a refresh that asks for scopes of
its own passes for such a session whatever it asks for, and the ID token
is decided by what was asked for. So a client whose users never
consented to `openid` gets an ID token with their address by asking for
it at a refresh (`identity_without_consent`).

Where only sessions with a list of scopes are refreshed for `openid`
(`OauthFlow.identityListed`), an ID token is returned only if the scopes
stored for the session have `openid`, and releases only what they name
(`id_token_as_consented`).
-/

namespace AuthApi

open Conc

/-- A refresh that asks for `openid` is of a session with a list of
scopes. -/
def OauthFlow.identityListed (s : OauthState) : OauthFlow → Bool
  | .narrow request scope =>
    !scope.contains "openid" ||
      (s.sessions.findByTokenHash request.tokenHash).all fun session => session.scopes.isSome
  | _ => true

/-- What is asked for is granted, and identity only out of a list. -/
structure Consented (list : List String) (stored : Option (List String)) : Prop where
  included : Included list stored
  listed : "openid" ∈ list → ∃ granted, stored = some granted

variable {c : OauthConf}

theorem consented_checks (h : HashesApart (sessionConf c)) {i : Nat}
    (hlisted : (c.procs i).flow.identityListed c.shared = true) : Checks Consented c i := by
  intro request scope hflow hwithin k r hr heq
  refine ⟨included_checks h i request scope hflow hwithin k r hr heq, fun hopenid => ?_⟩
  obtain ⟨session, row, hfind, hrow, hval⟩ :
      ∃ session row, c.shared.sessions.findByTokenHash request.tokenHash = some session ∧
        c.shared.sessions.store k = some row ∧ row.val = session := h.find hr heq
  rw [hflow, OauthFlow.identityListed, hfind, Option.all_some,
    List.contains_iff_mem.mpr hopenid] at hlisted
  rw [hr] at hrow
  obtain rfl := Option.some.inj hrow
  exact Option.isSome_iff_exists.mp (hval ▸ hlisted)

theorem consentedFacts_of_steps {cfg : JwtConfig} {clock : OffsetDateTime}
    (hrun : Steps oauthProgram (fun c i _ => (c.procs i).flow.identityListed c.shared = true)
      (oauthInitial cfg clock) c) :
    OauthFacts Consented c :=
  hrun.invariant (fun _ _ _ _ _ h hlisted hprog => h.set (consented_checks h.apart hlisted) hprog)
    (oauthFacts_initial cfg clock)

theorem GrantedScopes.listed {s : Shared} {session : Session} {scopes : Option (List String)}
    (h : GrantedScopes Consented s session scopes) (hidentity : requestsIdentity scopes = true)
    {scope : String} (hscope : scope ∈ scopes.getD []) :
    ∃ granted, session.scopes = some granted ∧ scope ∈ granted := by
  obtain ⟨list, rfl, hopenid⟩ := requestsIdentity_eq_true hidentity
  rcases h.scopes with heq | ⟨list', heq, hconsented⟩
  · exact ⟨list, heq.symm, hscope⟩
  · obtain rfl := Option.some.inj heq
    obtain ⟨granted, hgranted⟩ := hconsented.listed hopenid
    exact ⟨granted, hgranted, hconsented.included granted hgranted hscope⟩

theorem StoreReachable.kin_of_family {t : Store} (h : StoreReachable t) {k₁ k₂ : Uuid}
    {r₁ r₂ : SessionRow} (hr₁ : t k₁ = some r₁) (hr₂ : t k₂ = some r₂)
    (hfamily : r₁.val.sessionFamilyId = r₂.val.sessionFamilyId) : Kin r₁.val r₂.val := by
  obtain ⟨path, hpath⟩ := h.familyPath r₂.val.sessionFamilyId
  exact hpath.kin h.linked hr₁ hr₂ hfamily rfl

/-- **An ID token is returned only for a session that was granted
`openid`, and releases only what it was granted**, in every run in which
only sessions with a list of scopes are refreshed for `openid`. The session
a response is about has all the scopes of the session that was issued, and
of every other one in its family. -/
theorem id_token_as_consented {cfg : JwtConfig} {clock : OffsetDateTime} {c : OauthConf}
    (hrun : Steps oauthProgram (fun c i _ => (c.procs i).flow.identityListed c.shared = true)
      (oauthInitial cfg clock) c) {i : Nat} {response : TokenResponse}
    (hdone : (c.procs i).flow = .done (.response response)) :
    ∃ row, c.shared.sessions.store response.sessionId = some row ∧
      ∀ k issued, c.shared.sessions.store k = some issued →
        issued.val.sessionFamilyId = row.val.sessionFamilyId →
        ∀ claims, response.idToken = some claims →
          (∃ list, issued.val.scopes = some list ∧ "openid" ∈ list) ∧
          (claims.profile → ∃ list, issued.val.scopes = some list ∧ "profile" ∈ list) ∧
          (claims.address → ∃ list, issued.val.scopes = some list ∧ "email" ∈ list) := by
  have hfacts := consentedFacts_of_steps hrun
  have hknows := hfacts.knows i
  rw [hdone] at hknows
  obtain ⟨session, hid, hgranted, hclaims⟩ := hknows
  obtain ⟨row, hrow, hkin⟩ := hgranted.copy
  refine ⟨row, hid ▸ hrow, fun k issued hissued hfamily claims hidToken => ?_⟩
  obtain ⟨hidentity, user, rfl⟩ := hclaims claims hidToken
  have hscopes : session.scopes = issued.val.scopes :=
    ((hfacts.reachable.kin_of_family hissued hrow hfamily).trans hkin).scopes.symm
  have hlisted : ∀ scope ∈ response.scopes.getD [],
      ∃ list, issued.val.scopes = some list ∧ scope ∈ list :=
    fun scope hscope => hscopes ▸ hgranted.listed hidentity hscope
  obtain ⟨list, hlist, hopenid⟩ := requestsIdentity_eq_true hidentity
  refine ⟨hlisted _ ?_, fun hprofile => hlisted _ (mem_of_userClaims_profile hprofile),
    fun haddress => hlisted _ (mem_of_userClaims_address haddress)⟩
  rw [hlist]
  exact hopenid

/-! ### A refresh for identity, with a list of scopes and without -/

def someone : UserProfile := ⟨"someone", "en", 0, "someone", true⟩

/-- Request 1 redeems a code for `granted`, and request 2 refreshes the
session for `asked`. -/
def identityRefresh (granted : Option (List String)) (asked : List String) :
    List (Nat × OauthAct) :=
  [(0, .saveClient (appClient [])), (0, .setProfile 1 (some someone))] ++
  redemptionSchedule 1 granted 7 1 1 ++ respondSchedule 1 ++
  clientRefreshSchedule 2 7 asked ++ clientRotateSchedule 2 8 2 ++
  [(2, .go {}), (2, .go {}), (2, .go {}), (2, .go {}), (2, .go {})]

theorem identity_with_consent :
    ∃ (c : OauthConf) (response : TokenResponse),
      Steps oauthProgram (fun c i _ => (c.procs i).flow.identityListed c.shared = true)
        (oauthInitial shortSessions (instant 0)) c ∧
      (c.procs 2).flow = .done (.response response) ∧
      (∃ claims, response.idToken = some claims ∧ claims.email = some "someone") ∧
      ∃ row, c.shared.sessions.store response.sessionId = some row ∧
        ∃ list, row.val.scopes = some list ∧ "email" ∈ list := by
  obtain ⟨c, hexec, response, hresponse, claims, hclaims, hemail⟩ :
      ∃ c ∈ exec oauthProgram (fun c i _ => (c.procs i).flow.identityListed c.shared = true)
      (oauthInitial shortSessions (instant 0))
      (identityRefresh (some ["openid", "profile", "email"]) ["openid", "email"]),
      ∃ response ∈ (c.procs 2).flow.response, ∃ claims ∈ response.idToken,
      claims.email = some "someone" := by
    decide +kernel
  have hdone := OauthFlow.response_eq_some hresponse
  have hsteps := steps_of_exec hexec
  obtain ⟨row, hrow, hconsented⟩ := id_token_as_consented hsteps hdone
  refine ⟨c, response, hsteps, hdone, ⟨claims, hclaims, hemail⟩, row, hrow, ?_⟩
  exact (hconsented _ row hrow rfl claims hclaims).2.2 (.inl (by rw [hemail]; rfl))

/-- The session has no list of scopes, and the client gets an ID token with
the address of its user. -/
theorem identity_without_consent :
    ∃ (c : OauthConf) (response : TokenResponse) (row : SessionRow),
      Steps oauthProgram Free (oauthInitial shortSessions (instant 0)) c ∧
      (c.procs 2).flow = .done (.response response) ∧
      c.shared.sessions.store response.sessionId = some row ∧ row.val.clientId = some "app" ∧
      row.val.scopes = none ∧
      ∃ claims, response.idToken = some claims ∧ claims.email = some "someone" := by
  obtain ⟨c, hexec, response, hresponse, ⟨row, hrow, hclient, hscopes⟩, hidToken⟩ :
      ∃ c ∈ exec oauthProgram Free (oauthInitial shortSessions (instant 0))
      (identityRefresh none ["openid", "email"]), ∃ response ∈ (c.procs 2).flow.response,
      (∃ row ∈ c.shared.sessions.store response.sessionId, row.val.clientId = some "app" ∧
      row.val.scopes = none) ∧ ∃ claims ∈ response.idToken, claims.email = some "someone" := by
    decide +kernel
  exact ⟨c, response, row, steps_of_exec hexec, OauthFlow.response_eq_some hresponse, hrow,
    hclient, hscopes, hidToken⟩

end AuthApi
