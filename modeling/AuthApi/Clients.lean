import AuthApi.Approval

/-!
# Registered clients and what their tokens carry

The application a session was issued to bounds its access tokens three
times: by the scopes the session was granted, by the scopes the client is
registered with, and by the permissions its user holds. In the first two an
absent list means everything, which is where the two narrowings
(`withinClientScopes`, `restrictToConsent`) have to be read together:
`AccessToken.build` is `build_access_token` with what it has read.

The scopes of OpenID Connect pass both narrowings, as they are no
permissions: a permission is named `resource:action`.
-/

namespace AuthApi

/-! ## Clients -/

/-- A row of `registered_clients`, the columns that are read here. -/
structure RegisteredClient where
  clientId : String
  isPrimary : Bool
  /-- Empty means unrestricted. -/
  scopes : List String
  defaultMaxSessions : Int
deriving DecidableEq

/-- Concurrent device sessions a user may hold for the client: the user's
quota if there is one, and otherwise the client's default, or no limit for
the primary client. -/
def RegisteredClient.sessionLimit (client : RegisteredClient) (quota : Option Int) :
    Option Int :=
  match quota with
  | some maxSessions => some maxSessions
  | none => if client.isPrimary then none else some client.defaultMaxSessions

/-! ## Permissions and scopes -/

structure PermissionRow where
  resource : String
  action : String
deriving DecidableEq

/-- The generated column `name`. -/
def PermissionRow.name (permission : PermissionRow) : String :=
  permission.resource ++ ":" ++ permission.action

theorem PermissionRow.not_oidc (permission : PermissionRow) :
    isOidcScope permission.name = false := by
  have hcolon : ':' ∈ permission.name.toList := by simp [PermissionRow.name]
  rw [isOidcScope, List.contains_eq_mem, decide_eq_false_iff_not]
  intro hmem
  simp only [oidcScopes, List.mem_cons, List.not_mem_nil, or_false] at hmem
  rcases hmem with heq | heq | heq <;> rw [heq] at hcolon <;> revert hcolon <;> decide

/-- The scopes a session was granted, narrowed to those its client is
registered with now. -/
def withinClientScopes (consented clientScopes : Option (List String)) : Option (List String) :=
  match clientScopes with
  | some (first :: rest) =>
    some (match consented with
      | some consented =>
        consented.filter fun scope => isOidcScope scope || (first :: rest).contains scope
      | none => first :: rest)
  | _ => consented

/-- The roles and permissions of a token, given the user's own and the
consent. -/
def restrictToConsent (roles permissions : List String) (consent : Option (List String)) :
    List String × List String :=
  match consent with
  | none => (roles, permissions)
  | some consent => ([], permissions.filter consent.contains)

/-! ## Access tokens -/

structure TokenArgs where
  userId : Uuid
  sessionId : Uuid
  scopes : Option (List String)
  clientId : Option String
  sessionType : SessionType
deriving DecidableEq

/-- An access token, with what it was built from: the roles and permissions
of its user and the row of its client, as they were read. -/
structure AccessToken where
  args : TokenArgs
  heldRoles : List String
  held : List PermissionRow
  client : Option RegisteredClient
  roles : List String
  permissions : List String
deriving DecidableEq

/-- The claims of a token: a client that is not the primary one never
carries roles. -/
def AccessToken.build (args : TokenArgs) (roles : List String) (held : List PermissionRow)
    (client : Option RegisteredClient) : AccessToken :=
  let narrowed := withinClientScopes args.scopes (client.map RegisteredClient.scopes)
  let restricted := restrictToConsent roles (held.map PermissionRow.name) narrowed
  { args := args
    heldRoles := roles
    held := held
    client := client
    roles := if client.any fun client => !client.isPrimary then [] else restricted.1
    permissions := restricted.2 }

section Build

variable {args : TokenArgs} {roles permissions consented : List String} {held : List PermissionRow}
  {client : Option RegisteredClient} {row : RegisteredClient}

theorem restrictToConsent_subset (consent : Option (List String)) :
    (restrictToConsent roles permissions consent).2 ⊆ permissions := by
  cases consent with
  | none => exact List.Subset.refl _
  | some => exact List.filter_subset_self _

theorem mem_of_restrictToConsent {consent : List String} {name : String}
    (h : name ∈ (restrictToConsent roles permissions (some consent)).2) : name ∈ consent := by
  have hmem := (List.mem_filter.mp h).2
  exact List.contains_iff_mem.mp hmem

theorem withinClientScopes_of_consented (consented : List String)
    (clientScopes : Option (List String)) :
    ∃ narrowed, withinClientScopes (some consented) clientScopes = some narrowed ∧
      narrowed ⊆ consented := by
  unfold withinClientScopes
  split
  · exact ⟨_, rfl, List.filter_subset_self _⟩
  · exact ⟨consented, rfl, List.Subset.refl _⟩

/-- What is left of a consent is registered, identity scopes apart. -/
theorem withinClientScopes_of_registered {registered : List String} (hne : registered ≠ [])
    (consented : Option (List String)) :
    ∃ narrowed, withinClientScopes consented (some registered) = some narrowed ∧
      ∀ scope ∈ narrowed, isOidcScope scope = true ∨ scope ∈ registered := by
  obtain ⟨first, rest, rfl⟩ := List.exists_cons_of_ne_nil hne
  cases consented with
  | none => exact ⟨first :: rest, rfl, fun scope hscope => .inr hscope⟩
  | some =>
    refine ⟨_, rfl, fun scope hscope => ?_⟩
    have hkept := (List.mem_filter.mp hscope).2
    rw [Bool.or_eq_true] at hkept
    exact hkept.imp id List.contains_iff_mem.mp

theorem AccessToken.permissions_held :
    (AccessToken.build args roles held client).permissions ⊆ held.map PermissionRow.name :=
  restrictToConsent_subset _

theorem AccessToken.permissions_consented (h : args.scopes = some consented) :
    (AccessToken.build args roles held client).permissions ⊆ consented := by
  obtain ⟨narrowed, heq, hsub⟩ :=
    withinClientScopes_of_consented consented (client.map RegisteredClient.scopes)
  intro name hname
  simp only [AccessToken.build, h, heq] at hname
  exact hsub (mem_of_restrictToConsent hname)

theorem AccessToken.permissions_registered (h : client = some row) (hne : row.scopes ≠ []) :
    (AccessToken.build args roles held client).permissions ⊆ row.scopes := by
  obtain ⟨narrowed, heq, hsub⟩ := withinClientScopes_of_registered hne args.scopes
  intro name hname
  have hheld := AccessToken.permissions_held hname
  obtain ⟨permission, -, rfl⟩ := List.mem_map.mp hheld
  simp only [AccessToken.build, h, Option.map_some, heq] at hname
  rcases hsub _ (mem_of_restrictToConsent hname) with hoidc | hmem
  · rw [permission.not_oidc] at hoidc
    cases hoidc
  · exact hmem

theorem AccessToken.roles_thirdParty (h : client = some row) (hprimary : row.isPrimary = false) :
    (AccessToken.build args roles held client).roles = [] := by
  simp [AccessToken.build, h, hprimary]

end Build

/-! ## Identity -/

/-- Whether a session's scopes make it an OpenID Connect session. -/
def requestsIdentity (scopes : Option (List String)) : Bool :=
  scopes.any fun scopes => scopes.contains "openid"

/-- The columns of `users` an ID token may release. -/
structure UserProfile where
  username : String
  preferredLocale : String
  updatedAt : Int
  email : String
  emailVerified : Bool
deriving DecidableEq

structure UserClaims where
  preferredUsername : Option String
  locale : Option String
  updatedAt : Option Int
  email : Option String
  emailVerified : Option Bool
deriving DecidableEq

/-- The claims the granted scopes release about the user. -/
def userClaims (user : UserProfile) (scopes : List String) : UserClaims :=
  let profile := scopes.contains "profile"
  let email := scopes.contains "email"
  { preferredUsername := if profile then some user.username else none
    locale := if profile then some user.preferredLocale else none
    updatedAt := if profile then some user.updatedAt else none
    email := if email then some user.email else none
    emailVerified := if email then some user.emailVerified else none }

def UserClaims.profile (claims : UserClaims) : Prop :=
  claims.preferredUsername.isSome ∨ claims.locale.isSome ∨ claims.updatedAt.isSome

def UserClaims.address (claims : UserClaims) : Prop :=
  claims.email.isSome ∨ claims.emailVerified.isSome

variable {scopes : List String} {user : UserProfile}

theorem mem_of_userClaims_profile (h : (userClaims user scopes).profile) : "profile" ∈ scopes := by
  by_contra hnot
  simp [UserClaims.profile, userClaims, hnot] at h

theorem mem_of_userClaims_address (h : (userClaims user scopes).address) : "email" ∈ scopes := by
  by_contra hnot
  simp [UserClaims.address, userClaims, hnot] at h

theorem requestsIdentity_eq_true {scopes : Option (List String)}
    (h : requestsIdentity scopes = true) : ∃ list, scopes = some list ∧ "openid" ∈ list := by
  rw [requestsIdentity, Option.any_eq_true] at h
  obtain ⟨list, rfl, hmem⟩ := h
  exact ⟨list, rfl, List.contains_iff_mem.mp hmem⟩

end AuthApi
