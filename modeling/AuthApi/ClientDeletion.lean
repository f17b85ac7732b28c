import AuthApi.TokenScopes

/-!
# Roles of a client that is deleted

A client that is not the primary one never carries the roles of its
users: `build_access_token` drops them when the row of the client says
so. It reads that row after the session is committed, and a client that
is deleted in between has no row: to the code the token is then one of
the service's own pages, and a session without scopes gets the roles of
its user. The deletion revokes the session, but the token is built all
the same (`deleted_client_with_roles`).

Where a client is deleted only while none of its token requests is under
way (`SparesClient`), every request finds the client it was
authenticated as, and no token of a client that is not primary carries
roles (`third_party_token_without_roles`).
-/

namespace AuthApi

open Conc

/-- The client whose token request is under way: it is authenticated, and
an access token is still to be built. -/
def OauthFlow.serves : OauthFlow → Option String
  | .narrow request _ => request.clientId
  | .client exchange => some exchange.clientId
  | .lock exchange _ => some exchange.clientId
  | .quota exchange _ => some exchange.clientId
  | .count exchange _ _ => some exchange.clientId
  | .claim exchange => some exchange.clientId
  | .call task => task.clientId
  | .inSession task => task.clientId
  | .rbac task _ _ => task.clientId
  | .build task _ _ _ _ => task.clientId
  | _ => none

/-- The client whose row a step removes. -/
def OauthRequest.removes (p : OauthRequest) : OauthAct → Option String
  | .session _ =>
    match p.flow with
    | .deletion clientId => if p.session.commits.isSome then some clientId else none
    | _ => none
  | _ => none

/-- The step does not remove the client request `j` is for. -/
def SparesClient (c : OauthConf) (i : Nat) (a : OauthAct) (j : Nat) : Prop :=
  ∀ clientId ∈ (c.procs i).removes a, (c.procs j).flow.serves ≠ some clientId

instance (c : OauthConf) (i : Nat) (a : OauthAct) (j : Nat) : Decidable (SparesClient c i a j) :=
  inferInstanceAs (Decidable (∀ clientId ∈ (c.procs i).removes a,
    (c.procs j).flow.serves ≠ some clientId))

variable {a : OauthAct} {c : OauthConf} {i : Nat}

theorem SparesClient.of_idle {j : Nat} (h : (c.procs j).flow = .idle) : SparesClient c i a j := by
  intro clientId _ hserves
  rw [h] at hserves
  cases hserves

section Steps

variable {i : Nat} {a : OauthAct} {s s' : OauthState} {p p' : OauthRequest} {clientId : String}

theorem OauthStepped.clients (h : OauthStepped i s p a s' p')
    (hclient : (s.clients clientId).isSome = true) :
    (s'.clients clientId).isSome = true ∨ p.removes a = some clientId := by
  cases h with
  | saved client =>
    left
    show (Function.update s.clients client.clientId (some client) clientId).isSome = true
    by_cases heq : clientId = client.clientId
    · rw [heq, Function.update_self]
      rfl
    · rw [Function.update_of_ne heq]
      exact hclient
  | @removed ch sessions pc removed client hstep hflow hcommit hpresent =>
    by_cases heq : clientId = removed
    · right
      simp only [OauthRequest.removes, hflow, hcommit, if_true, heq]
    · left
      show (Function.update s.clients removed none clientId).isSome = true
      rw [Function.update_of_ne heq]
      exact hclient
  | _ => exact .inl hclient

theorem OauthStepped.serves (h : OauthStepped i s p a s' p')
    (hserves : p'.flow.serves = some clientId) :
    p.flow.serves = some clientId ∨ (s.clients clientId).isSome = true := by
  have hentry : ∀ call : OauthCall, call.admitted = true →
      call.entry.serves ≠ some clientId := by
    intro call hadmitted heq
    cases call with
    | token | deleteClient => cases heq
    | signIn args =>
      simp only [OauthCall.admitted, Bool.and_eq_true, Option.isNone_iff_eq_none] at hadmitted
      rw [show args.clientId = some clientId from heq] at hadmitted
      cases hadmitted.1
    | refresh request =>
      simp only [OauthCall.admitted, Option.isNone_iff_eq_none] at hadmitted
      rw [show request.clientId = some clientId from heq] at hadmitted
      cases hadmitted
  cases h with
  | started hidle hadmitted | shown hidle hadmitted =>
    exact absurd hserves (hentry _ hadmitted)
  | moved hmove =>
    change _ = _ at hserves
    generalize p.flow = flow₀ at hmove
    cases hmove with
    | @authenticated grant client flow hclient hok =>
      right
      have hgrant : grant.clientId = clientId := by
        rcases Grant.entry_eq_ok hok with ⟨exchange, rfl, heq⟩ |
          ⟨request, scope, rfl, heq⟩ | ⟨request, rfl, heq⟩
        · exact heq.symm.trans (Option.some.inj hserves)
        · exact Option.some.inj (heq.symm.trans hserves)
        · exact Option.some.inj (heq.symm.trans hserves)
      rw [← hgrant, hclient]
      rfl
    | responded | deleted => cases hserves
    | _ => exact .inl hserves
  | locked hflow | called hflow | returned hstep hflow =>
    rw [hflow]
    exact .inl hserves
  | @built inp task session scopes roles held hflow =>
    rw [hflow]
    left
    cases task with
    | refresh request scope =>
      cases scope with
      | none => cases hserves
      | some => exact hserves
    | _ => cases hserves
  | plain hidle hplain hcall | removed hstep hflow hcommit hclient | absent hflow hcommit hclient
  | answered | deleting | committed | failed =>
    cases hserves
  | _ => exact .inl hserves

end Steps

/-- Every request finds the client it was authenticated as. -/
def ClientsPresent (c : OauthConf) : Prop :=
  ∀ i clientId, (c.procs i).flow.serves = some clientId →
    (c.shared.clients clientId).isSome = true

theorem ClientsPresent.set {s : OauthState} {p : OauthRequest} (h : ClientsPresent c)
    (hspares : ∀ j, SparesClient c i a j)
    (hprog : oauthProgram i a c.shared (c.procs i) = some (s, p)) :
    ClientsPresent (c.set i s p) := by
  have hstep := oauthStepped hprog
  intro j clientId hserves
  rcases c.procs_cases i s p j with ⟨rfl, hset⟩ | ⟨hji, hset⟩ <;> rw [hset] at hserves
  · have hpresent : (c.shared.clients clientId).isSome = true :=
      (hstep.serves hserves).elim (h j clientId) id
    rcases hstep.clients hpresent with hafter | hremoves
    · exact hafter
    · rcases hstep.serves hserves with hbefore | hclient
      · exact absurd hbefore (hspares j clientId hremoves)
      -- A step that removes a client is not one that goes on for it.
      · cases hstep with
        | removed | absent => cases hserves
        | inner hinner hquiet =>
          rcases hquiet with hflow | ⟨task, hflow, -⟩ | ⟨k, hflow, -⟩
          · simp only [OauthRequest.removes, hflow] at hremoves
            cases hremoves
          · simp only [OauthRequest.removes, hflow] at hremoves
            cases hremoves
          · rw [hflow] at hserves
            cases hserves
        | returned hinner hflow =>
          simp only [OauthRequest.removes, hflow] at hremoves
          cases hremoves
        | _ => cases hremoves
  · rcases hstep.clients (h j clientId hserves) with hafter | hremoves
    · exact hafter
    · exact absurd hserves (hspares j clientId hremoves)

theorem clientsPresent_initial (cfg : JwtConfig) (clock : OffsetDateTime) :
    ClientsPresent (oauthInitial cfg clock) := by
  intro i clientId hserves
  cases hserves

/-- **No access token of a client that is not primary carries roles**, in
every run in which a client is deleted only while none of its token
requests is under way. A client that was not primary when the session was
issued and was not made primary since is not primary when the token is
built, which is all that is asked. -/
theorem third_party_token_without_roles {cfg : JwtConfig} {clock : OffsetDateTime}
    {c : OauthConf} {events past : List OauthEvent} {e : OauthEvent} {token : AccessToken}
    {clientId : String}
    (hrun : Traced oauthProgram (fun c i a => ∀ j, SparesClient c i a j) (oauthInitial cfg clock)
      events c)
    (he : e :: past <:+ events) (hbuilds : Builds token e)
    (hclient : token.args.clientId = some clientId)
    (hprimary : ∀ client, e.shared.clients clientId = some client → client.isPrimary = false) :
    token.roles = [] := by
  obtain ⟨c', task, session, scopes, roles, held, hpast, hshared, hflow, rfl⟩ :=
    built_of_traced hrun he hbuilds
  rw [hshared] at hprimary ⊢
  have hknows := (oauthFacts_of_traced hpast).knows e.proc
  rw [hflow] at hknows
  obtain ⟨-, -, htask⟩ := hknows
  have hid : session.clientId = some clientId := hclient
  have hpresent : ClientsPresent c' :=
    hpast.invariant (I := fun _ c => ClientsPresent c)
      (fun _ _ _ a _ _ h hok hprog => h.set (a := a) hok hprog) (clientsPresent_initial cfg clock)
  obtain ⟨client, hrow⟩ := Option.isSome_iff_exists.mp
    (hpresent e.proc clientId (by rw [hflow]; exact htask.symm.trans hid))
  refine AccessToken.roles_thirdParty ?_ (hprimary client hrow)
  rw [hid, Option.bind_some, hrow]

/-! ### A client that is deleted after its token is built, and before -/

/-- Request `i` deletes the client, whose one session is `id`. -/
def deletionSchedule (i : Nat) (id : Uuid) : List (Nat × OauthAct) :=
  [(i, .start (.deleteClient "app")), (i, .go {}), (i, .session {}), (i, .session {}),
    (i, .session { row := id }), (i, .session {})]

/-- The client is deleted once its token is built, and registered again
for another request. -/
def deletedBetweenTokens : List (Nat × OauthAct) :=
  [(0, .saveClient (appClient [])), (0, .setRbac 1 ["admin"] [])] ++
  redemptionSchedule 1 none 7 1 1 ++ respondSchedule 1 ++ deletionSchedule 2 1 ++
  [(0, .saveClient (appClient []))] ++ redemptionSchedule 3 none 9 3 3 ++ [(3, .go {}), (3, .go {})]

theorem registered_again_without_roles :
    ∃ (events past : List OauthEvent) (c : OauthConf) (e : OauthEvent) (token : AccessToken),
      Traced oauthProgram (fun c i a => ∀ j, SparesClient c i a j)
        (oauthInitial shortSessions (instant 0)) events c ∧
      e :: past <:+ events ∧ Builds token e ∧ token.args.clientId = some "app" ∧
      token.heldRoles = ["admin"] ∧ token.roles = [] := by
  obtain ⟨⟨events, c⟩, hrecord, e, hhead, htail, ⟨client, hclient, hprimary⟩, token, htoken, hid,
      hheld⟩ : ∃ r ∈ record oauthProgram (Below 4 Free SparesClient) []
      (oauthInitial shortSessions (instant 0)) deletedBetweenTokens, ∃ e ∈ r.1.head?,
      e.shared'.tokens.tail = e.shared.tokens ∧
      (∃ client ∈ e.shared.clients "app", client.isPrimary = false) ∧
      ∃ token ∈ e.shared'.tokens.head?, token.args.clientId = some "app" ∧
      token.heldRoles = ["admin"] := by
    decide +kernel
  obtain ⟨past, rfl⟩ := List.head?_eq_some_iff.mp hhead
  have hbuilds := builds_of_head htail htoken
  have htraced : Traced oauthProgram (fun c i a => ∀ j, SparesClient c i a j) _ _ _ :=
    ((Traced.refl.record hrecord).of_below (Q := fun p => p.flow = .idle)
      (fun _ _ _ _ => SparesClient.of_idle) fun _ _ => rfl).mono fun _ _ _ hok => hok.2
  refine ⟨_, past, c, e, token, htraced, List.suffix_rfl, hbuilds, hid, hheld, ?_⟩
  refine third_party_token_without_roles htraced List.suffix_rfl hbuilds hid
    fun client' hclient' => ?_
  rw [hclient] at hclient'
  obtain rfl := Option.some.inj hclient'
  exact hprimary

/-- A session of the client is refreshed. The client is deleted between the
commit of the rotation and the building of the token; no transaction of the
refresh is open then that the deletion would wait for. -/
def deletedBeforeToken : List (Nat × OauthAct) :=
  [(0, .saveClient (appClient [])), (0, .setRbac 1 ["admin"] [])] ++
  redemptionSchedule 1 none 7 1 1 ++ respondSchedule 1 ++
  [(2, .start (.token (.refreshToken "app" 7 none none none))), (2, .go {}), (2, .go {})] ++
  List.replicate 4 (2, .session {}) ++ clientRotateSchedule 2 8 2 ++ deletionSchedule 3 2 ++
  [(2, .go {}), (2, .go {})]

/-- The client is in no state of the run primary, and the token of its
refresh carries the roles of the user. -/
theorem deleted_client_with_roles :
    ∃ (events past : List OauthEvent) (c : OauthConf) (e : OauthEvent) (token : AccessToken),
      Traced oauthProgram Free (oauthInitial shortSessions (instant 0)) events c ∧
      e :: past <:+ events ∧ Builds token e ∧ token.args.clientId = some "app" ∧
      token.args.sessionId = 2 ∧
      (∀ e' ∈ events, (e'.shared.clients "app").any RegisteredClient.isPrimary = false) ∧
      token.roles = ["admin"] := by
  obtain ⟨⟨events, c⟩, hrecord, hnever, e, hhead, htail, token, htoken, hid, hsession, hroles⟩ :
      ∃ r ∈ record oauthProgram Free [] (oauthInitial shortSessions (instant 0))
      deletedBeforeToken, (∀ e ∈ r.1,
      (e.shared.clients "app").any RegisteredClient.isPrimary = false) ∧ ∃ e ∈ r.1.head?,
      e.shared'.tokens.tail = e.shared.tokens ∧ ∃ token ∈ e.shared'.tokens.head?,
      token.args.clientId = some "app" ∧ token.args.sessionId = 2 ∧ token.roles = ["admin"] := by
    decide +kernel
  obtain ⟨past, rfl⟩ := List.head?_eq_some_iff.mp hhead
  have hbuilds := builds_of_head htail htoken
  exact ⟨_, past, c, e, token, Traced.refl.record hrecord, List.suffix_rfl, hbuilds, hid,
    hsession, hnever, hroles⟩

end AuthApi
