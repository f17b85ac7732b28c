import AuthApi.Lifetime
import AuthApi.OauthSteps
import AuthApi.Trace

/-!
# What an access token may carry

An access token is built for a session and a list of scopes, which are
those of the session or those a refresh has narrowed them to. The check of
the narrowing reads the session under the refresh token that is shown, and
so does the rotation later on; that the two find the same session is what
`TokenHashes` is for. `OauthFlow.Knows` says for each point of a request
what it may rely on, for any relation `P` between the scopes asked for and
those of the session that the check establishes.

With `P` the inclusion this bounds the permissions of every access token
by what the user holds, by what the session was granted and by what the
client is registered with, whatever happens in between
(`access_token_within_authority`).
-/

namespace AuthApi

open Conc

/-! ## What a request relies on -/

section Knowledge

variable (P : List String → Option (List String) → Prop)

/-- The scopes a refresh was narrowed to, against those of the sessions
with its token. -/
def Shared.Narrowed (s : Shared) (request : RefreshRequest) (scope : Option (List String)) :
    Prop :=
  ∀ list, scope = some list → ∀ k r, s.store k = some r →
    r.val.tokenHash = request.tokenHash → P list r.val.scopes

/-- The session is in the table, and `scopes` are its own or narrowed from
them. -/
structure GrantedScopes (s : Shared) (session : Session) (scopes : Option (List String)) :
    Prop where
  copy : s.Copy session
  scopes : scopes = session.scopes ∨ ∃ list, scopes = some list ∧ P list session.scopes

def Task.Ready (c : SessionConf) : Task → Prop
  | .refresh request scope => Shown c request.tokenHash ∧ c.shared.Narrowed P request scope
  | _ => True

def Task.Serves (s : Shared) (pc : Pc) : Task → Prop
  | .signIn args => pc.issuesWith args
  | .renew request => pc.Renews s request
  | .exchange approval => pc.issuesWith approval.args
  | .refresh request _ => pc.Renews s request

/-- A second access token may follow, for narrower scopes. -/
def Task.Owes (session : Session) : Task → Prop
  | .refresh _ (some list) => P list session.scopes
  | _ => True

/-- A response is about a session in the table, and its ID token releases
what the scopes of the response ask for. -/
def TokenResponse.Rests (s : Shared) (response : TokenResponse) : Prop :=
  ∃ session, session.id = response.sessionId ∧ GrantedScopes P s session response.scopes ∧
    ∀ claims, response.idToken = some claims → requestsIdentity response.scopes = true ∧
      ∃ user, claims = userClaims user (response.scopes.getD [])

def OauthFlow.Knows (c : SessionConf) (pc : Pc) : OauthFlow → Prop
  | .authenticate grant =>
    ∀ tokenHash, (OauthCall.token grant).shows = some tokenHash → Shown c tokenHash
  | .narrow request _ => Shown c request.tokenHash
  | .call task => task.Ready P c
  | .inSession task => task.Ready P c ∧ task.Serves c.shared pc
  | .rbac task session scopes =>
    GrantedScopes P c.shared session scopes ∧ task.Owes P session ∧
      session.clientId = task.clientId
  | .build task session scopes _ _ =>
    GrantedScopes P c.shared session scopes ∧ task.Owes P session ∧
      session.clientId = task.clientId
  | .commit session => c.shared.Copy session
  | .identity session scopes => GrantedScopes P c.shared session scopes
  | .done (.response response) => response.Rests P c.shared
  | _ => True

structure OauthFacts (c : OauthConf) : Prop where
  coherent : Coherent (sessionConf c)
  reachable : StoreReachable c.shared.sessions.store
  apart : HashesApart (sessionConf c)
  knows : ∀ i, (c.procs i).flow.Knows P (sessionConf c) (c.procs i).session

end Knowledge

section Stable

variable {P : List String → Option (List String) → Prop} {c : SessionConf} {i : Nat} {s s' : Shared}
  {pc pc₀ : Pc} {task : Task}

theorem GrantedScopes.ages {s : Shared} {session : Session} {scopes : Option (List String)}
    (h : GrantedScopes P s session scopes) (hages : s.Ages s') :
    GrantedScopes P s' session scopes :=
  ⟨h.copy.ages hages, h.scopes⟩

theorem Task.Ready.part (h : task.Ready P c) (hcoherent : Coherent c)
    (hpart : OauthPart i c.shared (c.procs i) s pc) : task.Ready P (c.set i s pc) := by
  cases task with
  | refresh =>
    obtain ⟨hshown, hnarrowed⟩ := h
    refine ⟨hshown.part hpart, fun list hlist k r hr heq => ?_⟩
    exact hshown.rows_part hpart hcoherent (P := fun session => P list session.scopes)
      (fun _ _ hkin hP => hkin.scopes ▸ hP) (hnarrowed list hlist) hr heq
  | _ => trivial

theorem Task.Serves.ages {s : Shared} (h : task.Serves s pc) (hages : s.Ages s') :
    task.Serves s' pc := by
  cases task with
  | signIn | exchange => exact h
  | renew | refresh => exact Pc.Renews.ages h hages

theorem Task.Serves.step {a : Act} (h : task.Serves c.shared (c.procs i)) (hcoherent : Coherent c)
    (hprog : sessionProgram i a c.shared (c.procs i) = some (s, pc)) : task.Serves s pc := by
  cases task with
  | signIn | exchange => exact Pc.issuesWith_step h hprog
  | renew | refresh =>
    exact Pc.Renews.step h hcoherent.shared (hcoherent.procs i) hprog

theorem OauthFlow.Knows.part {flow : OauthFlow} (h : flow.Knows P c pc₀)
    (hcoherent : Coherent c) (hpart : OauthPart i c.shared (c.procs i) s pc) :
    flow.Knows P (c.set i s pc) pc₀ := by
  have hages := hpart.ages hcoherent
  cases flow with
  | authenticate => exact fun tokenHash hshows => (h tokenHash hshows).part hpart
  | narrow => exact Shown.part hpart h
  | call => exact Task.Ready.part h hcoherent hpart
  | inSession => exact ⟨h.1.part hcoherent hpart, h.2.ages hages⟩
  | rbac | build => exact ⟨h.1.ages hages, h.2⟩
  | commit => exact Shared.Copy.ages h hages
  | identity => exact GrantedScopes.ages h hages
  | done answer =>
    cases answer with
    | response =>
      obtain ⟨session, hid, hgranted, hclaims⟩ := h
      exact ⟨session, hid, hgranted.ages hages, hclaims⟩
    | _ => trivial
  | _ => trivial

end Stable

/-! ## Steps -/

section Steps

variable {P : List String → Option (List String) → Prop} {c : OauthConf} {i : Nat} {s : OauthState}
  {k : Uuid} {r : SessionRow} {flow : OauthFlow} {pc : Pc} {task : Task}
  {scopes : Option (List String)} {session : Session} {a : OauthAct} {p : OauthRequest}

/-- The session that is found under a token is the only one. -/
theorem HashesApart.find {c : SessionConf} (h : HashesApart c) {tokenHash : TokenHash}
    (hr : c.shared.store k = some r) (heq : r.val.tokenHash = tokenHash) :
    ∃ session row, c.shared.findByTokenHash tokenHash = some session ∧
      c.shared.store k = some row ∧ row.val = session := by
  have hfound : (c.shared.findByTokenHash tokenHash).isSome := by
    rw [Shared.findByTokenHash, List.find?_isSome]
    refine ⟨r.val, List.mem_map_of_mem (Pg.Db.mem_rows.mpr ?_), by simpa using heq⟩
    rw [show r.val.id = k from c.shared.db.keyed k r (.inl hr)]
    exact hr
  obtain ⟨session, hfind⟩ := Option.isSome_iff_exists.mp hfound
  obtain ⟨row, hrow, hval⟩ := Shared.copy_of_findByTokenHash hfind
  have hhash : session.tokenHash = tokenHash := by simpa using List.find?_some hfind
  have hk := h.unique _ k row r hrow hr (by rw [hval, hhash, heq])
  exact ⟨session, row, hfind, hk ▸ hrow, hval⟩

/-- The scopes a refresh asks for are checked against those of the session
it will rotate. -/
theorem HashesApart.within {c : SessionConf} (h : HashesApart c) {s : OauthState}
    (hs : s.sessions = c.shared) {request : RefreshRequest} {scope : List String}
    (hwithin : s.within request scope = true) (hr : c.shared.store k = some r)
    (heq : r.val.tokenHash = request.tokenHash) {granted : List String}
    (hgranted : r.val.scopes = some granted) : scope ⊆ granted := by
  obtain ⟨session, row, hfind, hrow, hval⟩ := h.find hr heq
  rw [hr] at hrow
  obtain rfl := Option.some.inj hrow
  rw [OauthState.within, hs, hfind, Option.bind_some, ← hval, hgranted, Option.all_some,
    List.all_eq_true] at hwithin
  exact fun name hname => List.contains_iff_mem.mp (hwithin name hname)

theorem Grant.entry_knows {c : SessionConf} {grant : Grant} (hentry : grant.entry = .ok flow)
    (h : (OauthFlow.authenticate grant).Knows P c pc) : flow.Knows P c pc := by
  cases grant with
  | authorizationCode entry =>
    simp only [Grant.entry] at hentry
    split at hentry <;> cases hentry
    trivial
  | deviceCode entry =>
    simp only [Grant.entry] at hentry
    (repeat' split at hentry) <;> cases hentry
    trivial
  | refreshToken clientId tokenHash =>
    simp only [Grant.entry] at hentry
    split at hentry <;> cases hentry
    · exact ⟨h tokenHash rfl, fun list hlist => by cases hlist⟩
    · exact h tokenHash rfl

theorem Task.Serves.returned {c : SessionConf} {row : SessionRow}
    (h : task.Serves c.shared (c.procs i)) (hready : task.Ready P c) (hcoherent : Coherent c)
    (hrow : (c.procs i).returnedRow = some row) :
    task.Owes P row.val ∧ row.val.clientId = task.clientId := by
  obtain ⟨op, hop, hadded⟩ := Option.bind_eq_some_iff.mp hrow
  have hlocal := hcoherent.procs i
  have hissue : ∀ args, (c.procs i).issuesWith args → row.val.clientId = args.clientId := by
    intro args hargs
    cases op with
    | issue =>
      cases hadded
      rw [Pc.commits_issue hop] at hargs
      exact hargs.2.1
    | rotate =>
      rw [Pc.commits_rotate hop] at hargs
      cases hargs
    | revoke => cases hadded
  have hrenew : ∀ request, (c.procs i).Renews c.shared request →
      row.val.clientId = request.clientId ∧ ∃ k old, c.shared.store k = some old ∧
        old.val.tokenHash = request.tokenHash ∧ Kin old.val row.val := by
    intro request hrenews
    cases op with
    | issue =>
      rw [Pc.commits_issue hop] at hrenews
      cases hrenews
    | rotate old =>
      cases hadded
      rw [Pc.commits_rotate hop] at hrenews hlocal
      obtain ⟨hold, hhash, hclient, hkin⟩ := Pc.Renews.commit hrenews hlocal
      exact ⟨hkin.clientId.symm.trans hclient, _, old, hold, hhash, hkin⟩
    | revoke => cases hadded
  cases task with
  | signIn args => exact ⟨trivial, hissue args h⟩
  | exchange approval => exact ⟨trivial, (hissue _ h).trans approval.args_clientId⟩
  | renew request => exact ⟨trivial, (hrenew request h).1⟩
  | refresh request scope =>
    obtain ⟨hclient, k, old, hold, hhash, hkin⟩ := hrenew request h
    refine ⟨?_, hclient⟩
    cases scope with
    | none => trivial
    | some list =>
      have hP := hready.2 list rfl k old hold hhash
      show P list row.val.scopes
      exact hkin.scopes ▸ hP

theorem Task.built_knows {c : SessionConf} (hgranted : GrantedScopes P c.shared session scopes)
    (howes : task.Owes P session) (hclient : session.clientId = task.clientId) :
    (task.built session scopes).Knows P c pc := by
  cases task with
  | signIn | renew => trivial
  | exchange => exact hgranted.copy
  | refresh request scope =>
    cases scope with
    | none => exact hgranted
    | some list => exact ⟨⟨hgranted.copy, .inr ⟨list, rfl, howes⟩⟩, trivial, hclient⟩

theorem OauthState.respond_rests {response : TokenResponse}
    (h : s.respond session scopes = some response)
    (hgranted : GrantedScopes P s.sessions session scopes) : response.Rests P s.sessions := by
  unfold OauthState.respond at h
  split_ifs at h with hidentity
  · obtain ⟨user, -, rfl⟩ := Option.map_eq_some_iff.mp h
    refine ⟨session, rfl, hgranted, fun claims hclaims => ⟨hidentity, user, ?_⟩⟩
    exact (Option.some.inj hclaims).symm
  · cases h
    exact ⟨session, rfl, hgranted, fun claims hclaims => by cases hclaims⟩

/-- The check of a refresh establishes `P` for the sessions of its token. -/
def Checks (P : List String → Option (List String) → Prop) (c : OauthConf) (i : Nat) : Prop :=
  ∀ request scope, (c.procs i).flow = .narrow request scope →
    c.shared.within request scope = true →
    ∀ k r, c.shared.sessions.store k = some r → r.val.tokenHash = request.tokenHash →
      P scope r.val.scopes

theorem OauthMoves.knows (h : OauthFacts P c) (hchecks : Checks P c i)
    (hmove : OauthMoves c.shared (c.procs i).session (c.procs i).flow flow) :
    flow.Knows P (sessionConf c) (c.procs i).session := by
  have hknows := h.knows i
  generalize hflow : (c.procs i).flow = flow₀ at hmove hknows
  cases hmove with
  | authenticated hclient hentry => exact Grant.entry_knows hentry hknows
  | narrowed hwithin =>
    refine ⟨hknows, fun list hlist => ?_⟩
    cases hlist
    exact hchecks _ _ hflow hwithin
  | rbac => exact hknows
  | responded hresponse => exact OauthState.respond_rests hresponse hknows
  | claimed | loaded | quota | counted | deleted => trivial

theorem OauthCall.entry_knows {c : SessionConf} {call : OauthCall}
    (h : ∀ tokenHash, call.shows = some tokenHash → Shown c tokenHash) :
    call.entry.Knows P c pc := by
  cases call with
  | token => exact h
  | signIn | refresh | deleteClient => trivial

theorem OauthStepped.knows (h : OauthFacts P c) (hchecks : Checks P c i)
    (hstep : OauthStepped i c.shared (c.procs i) a s p) :
    p.flow.Knows P ((sessionConf c).set i s.sessions p.session) p.session := by
  have hpart : OauthPart i (sessionConf c).shared ((sessionConf c).procs i) s.sessions p.session :=
    hstep.part
  have hknows := h.knows i
  have hkept := hknows.part h.coherent hpart
  cases hstep with
  | started hidle hadmitted hshows =>
    refine OauthCall.entry_knows fun tokenHash hsome => ?_
    rw [hshows] at hsome
    cases hsome
  | shown hidle hadmitted hshows hsee =>
    refine OauthCall.entry_knows fun tokenHash hsome => ?_
    rw [hshows] at hsome
    cases hsome
    exact h.apart.seen hsee
  | plain hidle hplain hcall | removed hinner hflow hcommit hclient
  | absent | locked | deleting | failed =>
    trivial
  | inner hinner hquiet =>
    rcases hquiet with hflow | ⟨task, hflow, -⟩ | ⟨clientId, hflow, -⟩
    · rw [hflow]
      trivial
    · rw [hflow] at hknows hkept ⊢
      exact ⟨hkept.1, hknows.2.step h.coherent hinner⟩
    · rw [hflow]
      trivial
  | returned hinner hflow hrow =>
    rw [hflow] at hknows
    obtain ⟨hready, hserves⟩ := hknows
    obtain ⟨howes, hclient⟩ := hserves.returned hready h.coherent hrow
    obtain ⟨op, hop, hadded⟩ := Option.bind_eq_some_iff.mp hrow
    have hstored := (h.coherent.procs i).added hop hadded hinner
    exact ⟨⟨⟨_, hstored, .refl _⟩, .inl rfl⟩, howes, hclient⟩
  | moved hmove => exact (OauthMoves.knows h hchecks hmove).part h.coherent hpart
  | @answered inp answer hrunning hanswer =>
    cases answer with
    | response response => exact absurd rfl (hanswer response)
    | _ => trivial
  | @called inp task sessions pc hflow hcall =>
    rw [hflow] at hkept
    refine ⟨hkept, ?_⟩
    cases stepped hcall with
    | start => cases task <;> rfl
  | built hflow =>
    rw [hflow] at hkept
    exact Task.built_knows hkept.1 hkept.2.1 hkept.2.2
  | committed hflow =>
    rw [hflow] at hkept
    exact ⟨hkept, .inl rfl⟩
  | _ => exact hkept

theorem OauthFacts.set (h : OauthFacts P c) (hchecks : Checks P c i)
    (hprog : oauthProgram i a c.shared (c.procs i) = some (s, p)) : OauthFacts P (c.set i s p) := by
  have hstep := oauthStepped hprog
  have hpart : OauthPart i (sessionConf c).shared ((sessionConf c).procs i) s.sessions p.session :=
    hstep.part
  refine ⟨?_, hpart.reachable h.coherent h.reachable, ?_, fun j => ?_⟩
  · rw [sessionConf_set]
    exact h.coherent.part hpart
  · rw [sessionConf_set]
    exact h.apart.part hpart h.coherent
  · rw [sessionConf_set]
    refine Conf.set_cases j ?_ fun j _ => ?_
    · exact hstep.knows h hchecks
    · exact (h.knows j).part h.coherent hpart

theorem oauthFacts_initial (cfg : JwtConfig) (clock : OffsetDateTime) :
    OauthFacts P (oauthInitial cfg clock) := by
  refine ⟨coherent_initial cfg clock, .empty, ⟨?_, ?_, ?_, ?_⟩, fun i => trivial⟩
  · intro k r hr
    cases hr
  · intro k k' r r' hr
    cases hr
  · intro j tokenHash hj
    cases hj
  · intro j j' tokenHash hj
    cases hj

end Steps

/-! ## The permissions of an access token -/

abbrev OauthEvent := Event OauthState OauthRequest OauthAct

def Builds (token : AccessToken) (e : OauthEvent) : Prop :=
  e.shared'.tokens = token :: e.shared.tokens

/-- The step reads what the user holds, for an access token that is being
built. -/
def ReadsRbac (args : TokenArgs) (roles : List String) (held : List PermissionRow)
    (e : OauthEvent) : Prop :=
  ∃ task session scopes, e.self.flow = .rbac task session scopes ∧
    session.tokenArgs scopes = args ∧ e.shared.roles args.userId = roles ∧
    e.shared.permissions args.userId = held ∧
    e.self'.flow = .build task session scopes roles held

section Tokens

variable {i : Nat} {a : OauthAct} {s s' : OauthState} {p p' : OauthRequest}
  {held : List PermissionRow} {roles : List String} {scopes : Option (List String)}
  {session : Session} {task : Task} {c c₀ : OauthConf} {events : List OauthEvent}
  {ok : OauthConf → Nat → OauthAct → Prop} {e : OauthEvent} {token : AccessToken}

theorem OauthStepped.builds (h : OauthStepped i s p a s' p') :
    s'.tokens = s.tokens ∨ ∃ task session scopes roles held,
      p.flow = .build task session scopes roles held ∧
      s'.tokens = AccessToken.build (session.tokenArgs scopes) roles held
        (session.clientId.bind s.clients) :: s.tokens := by
  cases h with
  | built hflow => exact .inr ⟨_, _, _, _, _, hflow, rfl⟩
  | _ => exact .inl rfl

theorem OauthStepped.reads (h : OauthStepped i s p a s' p')
    (hflow : p'.flow = .build task session scopes roles held) :
    p.flow = .build task session scopes roles held ∨
      (p.flow = .rbac task session scopes ∧ s.roles session.userId = roles ∧
        s.permissions session.userId = held) := by
  cases h with
  | @started call hidle hadmitted hshows | @shown call _ _ hidle hadmitted hshows hsee =>
    cases call <;> cases hflow
  | moved hmove =>
    generalize p.flow = flow₀ at hmove
    cases hmove with
    | authenticated hclient hentry =>
      rcases Grant.entry_eq_ok hentry with ⟨_, rfl, -⟩ | ⟨_, _, rfl, -⟩ | ⟨_, rfl, -⟩ <;>
        cases hflow
    | rbac =>
      cases hflow
      exact .inr ⟨rfl, rfl, rfl⟩
    | _ => cases hflow
  | @built _ task' session' _ _ _ hbuild =>
    cases task' with
    | refresh request scope => cases scope <;> cases hflow
    | _ => cases hflow
  | inner hinner hquiet | tick hle | configure cfg | saved client
  | quotaSet | rbacSet | profileSet =>
    exact .inl hflow
  | _ => cases hflow

theorem reads_of_traced (hrun : Traced oauthProgram ok c₀ events c)
    (h₀ : ∀ i, (c₀.procs i).flow = .idle)
    (hflow : (c.procs i).flow = .build task session scopes roles held) :
    ∃ e ∈ events, e.proc = i ∧ ReadsRbac (session.tokenArgs scopes) roles held e := by
  induction hrun with
  | refl =>
    rw [h₀ i] at hflow
    cases hflow
  | @tail events c j a s p hrun hok hprog ih =>
    by_cases hij : i = j
    · subst hij
      rw [Conf.set_procs_self] at hflow
      rcases (oauthStepped hprog).reads hflow with hbefore | ⟨hrbac, hroles, hheld⟩
      · obtain ⟨e, he, hreads⟩ := ih hbefore
        exact ⟨e, List.mem_cons_of_mem _ he, hreads⟩
      · exact ⟨_, List.mem_cons_self, rfl, task, session, scopes, hrbac, rfl, hroles, hheld,
          hflow⟩
    · rw [Conf.set_procs_of_ne _ _ _ hij] at hflow
      obtain ⟨e, he, hreads⟩ := ih hflow
      exact ⟨e, List.mem_cons_of_mem _ he, hreads⟩

theorem built_of_traced {past : List OauthEvent} (hrun : Traced oauthProgram ok c₀ events c)
    (he : e :: past <:+ events) (hbuilds : Builds token e) :
    ∃ c' task session scopes roles held, Traced oauthProgram ok c₀ past c' ∧
      e.shared = c'.shared ∧ (c'.procs e.proc).flow = .build task session scopes roles held ∧
      token = AccessToken.build (session.tokenArgs scopes) roles held
        (session.clientId.bind e.shared.clients) := by
  obtain ⟨c', hpast, -, hprog, heq⟩ := hrun.event he
  have hshared : e.shared = c'.shared := by rw [heq]
  unfold Builds at hbuilds
  rw [hshared] at hbuilds ⊢
  rcases (oauthStepped hprog).builds with hsame | ⟨task, session, scopes, roles, held, hflow, hnew⟩
  · rw [hsame] at hbuilds
    exact absurd hbuilds.symm (List.cons_ne_self _ _)
  · rw [hnew] at hbuilds
    exact ⟨c', task, session, scopes, roles, held, hpast, rfl, hflow,
      (List.cons.inj hbuilds).1.symm⟩

theorem builds_of_head (htail : e.shared'.tokens.tail = e.shared.tokens)
    (htoken : e.shared'.tokens.head? = some token) : Builds token e := by
  obtain ⟨rest, hrest⟩ := List.head?_eq_some_iff.mp htoken
  rw [hrest] at htail
  rw [Builds, hrest, ← htail]
  rfl

end Tokens

/-- What is asked for is granted. -/
def Included (list : List String) (stored : Option (List String)) : Prop :=
  ∀ granted, stored = some granted → list ⊆ granted

variable {c : OauthConf}

theorem included_checks (h : HashesApart (sessionConf c)) (i : Nat) : Checks Included c i :=
  fun _ _ _ hwithin _ _ hr heq _ hgranted => h.within rfl hwithin hr heq hgranted

theorem oauthFacts_of_traced {cfg : JwtConfig} {clock : OffsetDateTime}
    {ok : OauthConf → Nat → OauthAct → Prop} {events : List OauthEvent}
    (hrun : Traced oauthProgram ok (oauthInitial cfg clock) events c) : OauthFacts Included c :=
  hrun.invariant (I := fun _ c => OauthFacts Included c)
    (fun _ _ i _ _ _ h _ hprog => h.set (included_checks h.apart i) hprog)
    (oauthFacts_initial cfg clock)

theorem GrantedScopes.permissions {s : Shared} {session : Session} {scopes : Option (List String)}
    (h : GrantedScopes Included s session scopes) (roles : List String) (held : List PermissionRow)
    (client : Option RegisteredClient) {granted : List String}
    (hgranted : session.scopes = some granted) :
    (AccessToken.build (session.tokenArgs scopes) roles held client).permissions ⊆ granted := by
  rcases h.scopes with rfl | ⟨list, rfl, hincluded⟩
  · exact AccessToken.permissions_consented hgranted
  · exact fun name hname =>
      hincluded granted hgranted (AccessToken.permissions_consented rfl hname)

/-- **An access token carries no more than its user holds, its session was
granted and its client is registered with.** Each is as it was read when
the token was built, or as it is in that state. -/
theorem access_token_within_authority {cfg : JwtConfig} {clock : OffsetDateTime} {c : OauthConf}
    {events past : List OauthEvent} {e : OauthEvent} {token : AccessToken}
    (hrun : Traced oauthProgram Free (oauthInitial cfg clock) events c)
    (he : e :: past <:+ events) (hbuilds : Builds token e) :
    (∃ roles held, (∃ e₁ ∈ past, e₁.proc = e.proc ∧ ReadsRbac token.args roles held e₁) ∧
      token.permissions ⊆ held.map PermissionRow.name) ∧
    (∃ row, e.shared.sessions.store token.args.sessionId = some row ∧
      row.val.clientId = token.args.clientId ∧
      ∀ granted, row.val.scopes = some granted → token.permissions ⊆ granted) ∧
    ∀ clientId client, token.args.clientId = some clientId →
      e.shared.clients clientId = some client → client.scopes ≠ [] →
      token.permissions ⊆ client.scopes := by
  obtain ⟨c', task, session, scopes, roles, held, hpast, hshared, hflow, rfl⟩ :=
    built_of_traced hrun he hbuilds
  rw [hshared]
  have hknows := (oauthFacts_of_traced hpast).knows e.proc
  rw [hflow] at hknows
  obtain ⟨hgranted, -, -⟩ := hknows
  refine ⟨⟨roles, held, ?_, AccessToken.permissions_held⟩, ?_, ?_⟩
  · exact reads_of_traced hpast (fun _ => rfl) hflow
  · obtain ⟨row, hrow, hkin⟩ := hgranted.copy
    exact ⟨row, hrow, hkin.clientId, fun granted hscopes =>
      hgranted.permissions roles held _ (hkin.scopes ▸ hscopes)⟩
  · intro clientId client hid hclient hne
    have hid' : session.clientId = some clientId := hid
    refine AccessToken.permissions_registered ?_ hne
    rw [hid', Option.bind_some, hclient]

/-! ### A session that is refreshed for less -/

/-- A client that may hold one session. -/
def appClient (scopes : List String) : RegisteredClient := ⟨"app", false, scopes, 1⟩

/-- A code for the client, approved by user 1. -/
def appCode (scopes : Option (List String)) : AuthorizationCode where
  codeHash := 1
  userId := 1
  clientId := "app"
  redirectUri := "callback"
  codeChallenge := "challenge"
  scopes := scopes
  expiresAt := instant 60
  consumedAt := none
  sessionId := none
  nonce := none

def appRedemption : Redemption := ⟨1, "challenge", "app", "callback", none, none, none⟩

/-- Request `i` redeems a code, up to the commit of its session. -/
def redemptionSchedule (i : Nat) (scopes : Option (List String)) (tokenHash : TokenHash)
    (family id : Uuid) : List (Nat × OauthAct) :=
  [(i, .start (.token (.authorizationCode (appCode scopes) appRedemption))), (i, .go {}),
    (i, .go {}), (i, .go {}), (i, .go {}), (i, .go {}), (i, .go {}), (i, .go {}),
    (i, .session { tokenHash := tokenHash }), (i, .session {}),
    (i, .session { family := family, uuid := id }), (i, .session {})]

/-- Request `i` builds the access token, ends its transaction and
answers. -/
def respondSchedule (i : Nat) : List (Nat × OauthAct) :=
  [(i, .go {}), (i, .go {}), (i, .go {}), (i, .go {})]

/-- Request `i` shows the refresh token and is let through, up to the
rotation. -/
def clientRefreshSchedule (i : Nat) (tokenHash : TokenHash) (scope : List String) :
    List (Nat × OauthAct) :=
  [(i, .start (.token (.refreshToken "app" tokenHash none none (some scope)))), (i, .go {}),
    (i, .go {}), (i, .go {}), (i, .session {}), (i, .session {}), (i, .session {}),
    (i, .session {})]

/-- Request `i` rotates the session. -/
def clientRotateSchedule (i : Nat) (tokenHash : TokenHash) (id : Uuid) : List (Nat × OauthAct) :=
  [(i, .session { tokenHash := tokenHash }), (i, .session {}), (i, .session {}),
    (i, .session { uuid := id }), (i, .session {}), (i, .session {})]

/-- A session for two permissions is refreshed for one of them. -/
def narrowedRefresh : List (Nat × OauthAct) :=
  [(0, .saveClient (appClient ["files:read", "files:write"])),
    (0, .setRbac 1 ["editor"] [⟨"files", "read"⟩, ⟨"files", "write"⟩, ⟨"users", "read"⟩])] ++
  redemptionSchedule 1 (some ["files:read", "files:write"]) 7 1 1 ++ respondSchedule 1 ++
  clientRefreshSchedule 2 7 ["files:read"] ++ clientRotateSchedule 2 8 2 ++
  [(2, .go {}), (2, .go {}), (2, .go {}), (2, .go {})]

theorem refreshed_token_within_authority :
    ∃ (events past : List OauthEvent) (c : OauthConf) (e : OauthEvent) (token : AccessToken),
      Traced oauthProgram Free (oauthInitial shortSessions (instant 0)) events c ∧
      e :: past <:+ events ∧ Builds token e ∧ token.permissions = ["files:read"] ∧
      ∃ row, e.shared.sessions.store token.args.sessionId = some row ∧
        row.val.clientId = token.args.clientId ∧
        ∀ granted, row.val.scopes = some granted → token.permissions ⊆ granted := by
  have hrun : ((record oauthProgram Free [] (oauthInitial shortSessions (instant 0))
      narrowedRefresh).any fun r => r.1.head?.any fun e =>
        decide (e.shared'.tokens.tail = e.shared.tokens) &&
        e.shared'.tokens.head?.any fun token => decide (token.permissions = ["files:read"])) =
      true := by
    decide +kernel
  simp only [Option.any_eq_true, Bool.and_eq_true, decide_eq_true_eq] at hrun
  obtain ⟨⟨events, c⟩, hrecord, e, hhead, htail, token, htoken, hpermissions⟩ := hrun
  obtain ⟨past, rfl⟩ := List.head?_eq_some_iff.mp hhead
  have hbuilds := builds_of_head htail htoken
  have htraced := Traced.refl.record hrecord
  exact ⟨_, past, c, e, token, htraced, List.suffix_rfl, hbuilds, hpermissions,
    (access_token_within_authority htraced List.suffix_rfl hbuilds).2.1⟩

end AuthApi
