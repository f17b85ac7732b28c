import AuthApi.OauthSystem

/-!
# What a step of the token endpoint does

`OauthStepped` says everything a step can be, and `OauthPart` what it is
for the session code underneath: nothing, one of its steps, or a refresh
token that is shown for the first time. What is known of the sessions
(`Coherent`, `HashesApart`) carries over along the latter.
-/

namespace AuthApi

open Conc Pg

section

variable (i : Nat) (s : OauthState) (p : OauthRequest) (pc : Pc)

/-- The moves of a request that change nothing but where it is. -/
inductive OauthMoves : OauthFlow → OauthFlow → Prop
  | authenticated {grant client flow} (hclient : s.clients grant.clientId = some client)
      (hentry : grant.entry = .ok flow) : OauthMoves (.authenticate grant) flow
  | narrowed {request scope} (hwithin : s.within request scope = true) :
      OauthMoves (.narrow request scope) (.call (.refresh request (some scope)))
  | loaded {exchange client} (hclient : s.clients exchange.clientId = some client) :
      OauthMoves (.client exchange) (.lock exchange client)
  | quota {exchange client} :
      OauthMoves (.quota exchange client)
        (.count exchange client (s.quotas exchange.userId exchange.clientId))
  | counted {exchange client quota}
      (hroom : ∀ allowed, exchange.allowed client quota = some allowed →
        (s.sessions.countActiveByClient exchange.userId exchange.clientId : Int) < allowed) :
      OauthMoves (.count exchange client quota) (.claim exchange)
  | claimed {exchange} : OauthMoves (.claim exchange) (.call (.exchange exchange))
  | rbac {task session scopes} :
      OauthMoves (.rbac task session scopes)
        (.build task session scopes (s.roles session.userId) (s.permissions session.userId))
  | responded {session scopes response} (hresponse : s.respond session scopes = some response) :
      OauthMoves (.identity session scopes) (.done (.response response))
  | deleted {clientId rev} (hdone : pc = .done (.revoked rev)) :
      OauthMoves (.deletion clientId) (.done (.deleted clientId))

inductive OauthStepped : OauthAct → OauthState → OauthRequest → Prop
  | tick {t} (hle : s.sessions.clock ≤ t) :
      OauthStepped (.tick t) { s with sessions := { s.sessions with clock := t } } p
  | configure (cfg : JwtConfig) :
      OauthStepped (.configure cfg)
        { s with sessions := { s.sessions with config := cfg } } p
  | saved (client : RegisteredClient) :
      OauthStepped (.saveClient client)
        { s with clients := Function.update s.clients client.clientId (some client) } p
  | quotaSet (userId : Uuid) (clientId : String) (quota : Option Int) :
      OauthStepped (.setQuota userId clientId quota)
        { s with
          quotas := Function.update s.quotas userId
            (Function.update (s.quotas userId) clientId quota) } p
  | rbacSet (userId : Uuid) (roles : List String) (permissions : List PermissionRow) :
      OauthStepped (.setRbac userId roles permissions)
        { s with
          roles := Function.update s.roles userId roles
          permissions := Function.update s.permissions userId permissions } p
  | profileSet (userId : Uuid) (profile : Option UserProfile) :
      OauthStepped (.setProfile userId profile)
        { s with profiles := Function.update s.profiles userId profile } p
  | started {call} (hidle : p.flow = .idle) (hadmitted : call.admitted = true)
      (hshows : call.shows = none) : OauthStepped (.start call) s (p.goto call.entry)
  | shown {call tokenHash sessions} (hidle : p.flow = .idle) (hadmitted : call.admitted = true)
      (hshows : call.shows = some tokenHash)
      (hsee : s.sessions.seeToken tokenHash = some sessions) :
      OauthStepped (.start call) { s with sessions := sessions } (p.goto call.entry)
  | plain {call sessions pc} (hidle : p.flow = .idle) (hplain : call.plain = true)
      (hcall : sessionProgram i (.start call) s.sessions p.session = some (sessions, pc)) :
      OauthStepped (.plain call) { s with sessions := sessions } ⟨.plain, pc⟩
  | inner {ch sessions pc}
      (hstep : sessionProgram i (.go ch) s.sessions p.session = some (sessions, pc))
      (hquiet : p.flow = .plain ∨
        (∃ task, p.flow = .inSession task ∧ p.session.returnedRow = none) ∨
        ∃ clientId, p.flow = .deletion clientId ∧ p.session.commits = none) :
      OauthStepped (.session ch) { s with sessions := sessions } ⟨p.flow, pc⟩
  | returned {ch sessions pc task row}
      (hstep : sessionProgram i (.go ch) s.sessions p.session = some (sessions, pc))
      (hflow : p.flow = .inSession task) (hrow : p.session.returnedRow = some row) :
      OauthStepped (.session ch) { s with sessions := sessions }
        ⟨.rbac task row.val row.val.scopes, pc⟩
  | removed {ch sessions pc clientId client}
      (hstep : sessionProgram i (.go ch) s.sessions p.session = some (sessions, pc))
      (hflow : p.flow = .deletion clientId) (hcommit : p.session.commits.isSome = true)
      (hclient : s.clients clientId = some client) :
      OauthStepped (.session ch) ({ s with sessions := sessions }.removeClient clientId)
        ⟨.deletion clientId, pc⟩
  | absent {ch clientId} (hflow : p.flow = .deletion clientId)
      (hcommit : p.session.commits.isSome = true) (hclient : s.clients clientId = none) :
      OauthStepped (.session ch)
        { s with sessions := { s.sessions with db := s.sessions.db.rollback i } }
        ⟨.done (.error .notFound), .done (.error .internal)⟩
  | moved {inp flow} (hmove : OauthMoves s p.session p.flow flow) :
      OauthStepped (.go inp) s (p.goto flow)
  | answered {inp answer} (hrunning : p.flow.running = true)
      (hanswer : ∀ response, answer ≠ .response response) :
      OauthStepped (.go inp) (s.release i) (p.goto (.done answer))
  | locked {inp exchange client} (hflow : p.flow = .lock exchange client)
      (hfree : s.locks exchange.userId exchange.clientId = none) :
      OauthStepped (.go inp)
        { s with
          locks := Function.update s.locks exchange.userId
            (Function.update (s.locks exchange.userId) exchange.clientId (some i)) }
        (p.goto (.quota exchange client))
  | called {inp task sessions pc} (hflow : p.flow = .call task)
      (hcall : sessionProgram i (.start task.call) s.sessions p.session = some (sessions, pc)) :
      OauthStepped (.go inp) { s with sessions := sessions } ⟨.inSession task, pc⟩
  | deleting {inp clientId sessions pc} (hflow : p.flow = .delete clientId)
      (hcall : sessionProgram i (.start (deleteClient clientId)) s.sessions p.session =
        some (sessions, pc)) :
      OauthStepped (.go inp) { s with sessions := sessions } ⟨.deletion clientId, pc⟩
  | built {inp task session scopes roles held}
      (hflow : p.flow = .build task session scopes roles held) :
      OauthStepped (.go inp)
        { s with
          tokens := AccessToken.build (session.tokenArgs scopes) roles held
            (session.clientId.bind s.clients) :: s.tokens }
        (p.goto (task.built session scopes))
  | committed {inp session} (hflow : p.flow = .commit session) :
      OauthStepped (.go inp) (s.release i) (p.goto (.identity session session.scopes))
  | failed (hrunning : p.flow.running = true) :
      OauthStepped .fail ({ s with sessions := (p.dropped i s.sessions).1 }.release i)
        ⟨.done (.error .internal), (p.dropped i s.sessions).2⟩

end

section Inversion

variable {i : Nat} {a : OauthAct} {s s' : OauthState} {p p' : OauthRequest} {flow : OauthFlow}

theorem OauthState.call_eq_some {call : Call} (h : s.call i p call flow = some (s', p')) :
    ∃ sessions pc, sessionProgram i (.start call) s.sessions p.session = some (sessions, pc) ∧
      s' = { s with sessions := sessions } ∧ p' = ⟨flow, pc⟩ := by
  unfold OauthState.call at h
  split at h <;> cases h
  rename_i sessions pc hcall
  exact ⟨sessions, pc, hcall, rfl, rfl⟩

theorem tokenStep_stepped {inp : OauthInput} (hflow : p.flow = flow)
    (h : tokenStep i inp s p flow = some (s', p')) : OauthStepped i s p (.go inp) s' p' := by
  have hmoved : ∀ flow', OauthMoves s p.session flow flow' →
      OauthStepped i s p (.go inp) s (p.goto flow') := fun flow' hmove => .moved (hflow ▸ hmove)
  have herror : ∀ answer, flow.running = true → (∀ response, answer ≠ .response response) →
      OauthStepped i s p (.go inp) (s.release i) (p.goto (.done answer)) :=
    fun answer hrunning hanswer => .answered (hflow ▸ hrunning) hanswer
  cases flow with
  | idle | plain | done => cases h
  | authenticate grant =>
    simp only [tokenStep] at h
    split at h
    · cases h
      exact herror _ rfl (by simp)
    · split at h
      · cases h
        exact herror _ rfl (by simp)
      · rename_i client hclient
        split at h <;> cases h
        · rename_i flow' hentry
          exact hmoved _ (.authenticated hclient hentry)
        · exact herror _ rfl (by simp)
  | narrow request scope =>
    simp only [tokenStep] at h
    split at h <;> cases h
    · rename_i hwithin
      exact hmoved _ (.narrowed hwithin)
    · exact herror _ rfl (by simp)
  | client exchange =>
    simp only [tokenStep] at h
    split at h
    · cases h
      exact herror _ rfl (by simp)
    · rename_i client hclient
      split at h <;> cases h
      · exact herror _ rfl (by simp)
      · exact hmoved _ (.loaded hclient)
  | lock exchange client =>
    simp only [tokenStep] at h
    split at h <;> cases h
    rename_i hfree
    exact .locked hflow hfree
  | quota =>
    cases h
    exact hmoved _ .quota
  | count exchange client quota =>
    simp only [tokenStep] at h
    split at h <;> cases h
    · exact herror _ rfl (by simp)
    · rename_i hroom
      refine hmoved _ (.counted fun allowed hallowed => ?_)
      rw [hallowed] at hroom
      simpa using hroom
  | claim =>
    simp only [tokenStep] at h
    split at h <;> cases h
    · exact herror _ rfl (by simp)
    · exact hmoved _ .claimed
  | call =>
    obtain ⟨sessions, pc, hcall, rfl, rfl⟩ := OauthState.call_eq_some h
    exact .called hflow hcall
  | inSession =>
    simp only [tokenStep] at h
    split at h <;> cases h
    · exact herror _ rfl (by simp)
    · exact herror _ rfl (by simp)
  | rbac =>
    cases h
    exact hmoved _ .rbac
  | build =>
    cases h
    exact .built hflow
  | commit =>
    cases h
    exact .committed hflow
  | identity session scopes =>
    simp only [tokenStep] at h
    split at h <;> cases h
    · rename_i response hresponse
      exact hmoved _ (.responded hresponse)
    · exact herror _ rfl (by simp)
  | delete =>
    simp only [tokenStep] at h
    split at h
    · cases h
      exact herror _ rfl (by simp)
    · split at h
      · cases h
        exact herror _ rfl (by simp)
      · obtain ⟨sessions, pc, hcall, rfl, rfl⟩ := OauthState.call_eq_some h
        exact .deleting hflow hcall
  | deletion clientId =>
    simp only [tokenStep] at h
    split at h <;> cases h
    · exact herror _ rfl (by simp)
    · rename_i hdone
      exact hmoved _ (.deleted hdone)

theorem innerStep_stepped {ch : Choice} (h : innerStep i ch s p = some (s', p')) :
    OauthStepped i s p (.session ch) s' p' := by
  unfold innerStep at h
  split at h
  · cases h
  · rename_i sessions pc hstep
    split at h
    · rename_i hflow
      cases h
      exact hflow ▸ .inner hstep (.inl hflow)
    · rename_i task hflow
      cases h
      split
      · rename_i row hrow
        exact .returned hstep hflow hrow
      · rename_i hnone
        exact hflow ▸ .inner hstep (.inr (.inl ⟨task, hflow, hnone⟩))
    · rename_i clientId hflow
      split at h
      · rename_i hcommit
        split at h <;> cases h
        · rename_i client hclient
          exact .removed hstep hflow hcommit hclient
        · rename_i hclient
          exact .absent hflow hcommit hclient
      · rename_i hcommit
        cases h
        exact hflow ▸ .inner hstep (.inr (.inr ⟨clientId, hflow, by simpa using hcommit⟩))
    · cases h

theorem oauthStepped (h : oauthProgram i a s p = some (s', p')) : OauthStepped i s p a s' p' := by
  cases a with
  | tick =>
    simp only [oauthProgram] at h
    split_ifs at h with hle
    cases h
    exact .tick hle
  | configure cfg =>
    cases h
    exact .configure cfg
  | saveClient client =>
    cases h
    exact .saved client
  | setQuota userId clientId quota =>
    cases h
    exact .quotaSet userId clientId quota
  | setRbac userId roles permissions =>
    cases h
    exact .rbacSet userId roles permissions
  | setProfile userId profile =>
    cases h
    exact .profileSet userId profile
  | start call =>
    simp only [oauthProgram] at h
    split at h
    · rename_i hidle
      split_ifs at h with hadmitted
      split at h
      · rename_i hshows
        cases h
        exact .started hidle hadmitted hshows
      · rename_i tokenHash hshows
        split at h <;> cases h
        rename_i sessions hsee
        exact .shown hidle hadmitted hshows hsee
    · cases h
  | plain call =>
    simp only [oauthProgram] at h
    split at h
    · rename_i hidle
      split_ifs at h with hplain
      obtain ⟨sessions, pc, hcall, rfl, rfl⟩ := OauthState.call_eq_some h
      exact .plain hidle hplain hcall
    · cases h
  | session => exact innerStep_stepped h
  | go => exact tokenStep_stepped rfl h
  | fail =>
    simp only [oauthProgram] at h
    split_ifs at h with hrunning
    cases h
    exact .failed hrunning

end Inversion

theorem Grant.entry_eq_ok {grant : Grant} {flow : OauthFlow} (h : grant.entry = .ok flow) :
    (∃ exchange, flow = .client exchange ∧ exchange.clientId = grant.clientId) ∨
      (∃ request scope, flow = .narrow request scope ∧ request.clientId = some grant.clientId) ∨
      ∃ request, flow = .call (.refresh request none) ∧
        request.clientId = some grant.clientId := by
  cases grant with
  | authorizationCode entry request =>
    simp only [Grant.entry] at h
    split at h <;> cases h
    rename_i hanswered
    simp only [AuthorizationCode.answeredBy, Bool.and_eq_true, decide_eq_true_eq] at hanswered
    exact .inl ⟨_, rfl, hanswered.1.1⟩
  | deviceCode entry request =>
    simp only [Grant.entry] at h
    split_ifs at h with hclient
    split at h <;> cases h
    rename_i userId clientId houtcome
    obtain ⟨-, -, hsome⟩ := pollOutcome_eq_authorized houtcome
    rw [hsome, ne_eq, not_not] at hclient
    exact .inl ⟨_, rfl, Option.some.inj hclient⟩
  | refreshToken =>
    simp only [Grant.entry] at h
    split at h <;> cases h
    · exact .inr (.inr ⟨_, rfl, rfl⟩)
    · exact .inr (.inl ⟨_, _, rfl, rfl⟩)

/-! ## The session code underneath -/

inductive OauthPart (i : Nat) (s : Shared) (pc : Pc) : Shared → Pc → Prop
  | same : OauthPart i s pc s pc
  | seen {tokenHash s'} (h : s.seeToken tokenHash = some s') : OauthPart i s pc s' pc
  | stepped {b s' pc'} (h : sessionProgram i b s pc = some (s', pc')) : OauthPart i s pc s' pc'

theorem OauthStepped.part {i : Nat} {a : OauthAct} {s s' : OauthState} {p p' : OauthRequest}
    (h : OauthStepped i s p a s' p') :
    OauthPart i s.sessions p.session s'.sessions p'.session := by
  cases h with
  | tick hle => exact .stepped (b := .tick _) (if_pos hle)
  | configure cfg => exact .stepped (b := .configure cfg) rfl
  | shown hidle hadmitted hshows hsee => exact .seen hsee
  | plain hidle hplain hcall | called hflow hcall | deleting hflow hcall => exact .stepped hcall
  | inner hstep | returned hstep | removed hstep =>
    exact .stepped hstep
  | absent hflow hcommit =>
    have hrunning : p.session.running = true := by
      cases hp : p.session with
      | idle | done => rw [hp] at hcommit; cases hcommit
      | _ => rfl
    exact .stepped (b := .fail) (if_pos hrunning)
  | failed hrunning =>
    show OauthPart i s.sessions p.session (p.dropped i s.sessions).1 (p.dropped i s.sessions).2
    unfold OauthRequest.dropped
    split
    · rename_i hsession
      exact .stepped (b := .fail) (if_pos hsession)
    · exact .same
  | _ => exact .same

theorem Shared.seeToken_eq_some {s s' : Shared} {tokenHash : TokenHash}
    (h : s.seeToken tokenHash = some s') :
    (s' = s ∧ ∃ k r, s.store k = some r ∧ r.val.tokenHash = tokenHash) ∨
      (tokenHash ∉ s.tokens ∧ s' = { s with tokens := tokenHash :: s.tokens }) := by
  unfold Shared.seeToken at h
  split_ifs at h with hmem hfound <;> cases h
  · obtain ⟨session, hfind⟩ := Option.isSome_iff_exists.mp hfound
    obtain ⟨row, hrow, hval⟩ := Shared.copy_of_findByTokenHash hfind
    have hhash : session.tokenHash = tokenHash := by simpa using List.find?_some hfind
    exact .inl ⟨rfl, session.id, row, hrow, hval ▸ hhash⟩
  · exact .inr ⟨hmem, rfl⟩

/-- The configuration of the session code. -/
def sessionConf (c : OauthConf) : SessionConf :=
  ⟨c.shared.sessions, fun i => (c.procs i).session⟩

theorem sessionConf_set (c : OauthConf) (i : Nat) (s : OauthState) (p : OauthRequest) :
    sessionConf (c.set i s p) = (sessionConf c).set i s.sessions p.session := by
  simp only [sessionConf, Conf.set, Conf.mk.injEq, true_and]
  funext j
  by_cases hji : j = i
  · subst hji
    simp
  · simp [hji]

section Parts

variable {c : SessionConf} {i : Nat} {s : Shared} {pc : Pc} {tokenHash : TokenHash}

theorem set_seen (c : SessionConf) (i : Nat) (s : Shared) :
    c.set i s (c.procs i) = ⟨s, c.procs⟩ := by
  simp [Conf.set]

theorem OauthPart.store (h : OauthPart i c.shared (c.procs i) s pc) :
    s.store = c.shared.store ∧ pc = c.procs i ∨
      ∃ b, sessionProgram i b c.shared (c.procs i) = some (s, pc) := by
  cases h with
  | same => exact .inl ⟨rfl, rfl⟩
  | seen hsee =>
    rcases Shared.seeToken_eq_some hsee with ⟨rfl, -⟩ | ⟨-, rfl⟩ <;> exact .inl ⟨rfl, rfl⟩
  | stepped hstep => exact .inr ⟨_, hstep⟩

variable (hpart : OauthPart i c.shared (c.procs i) s pc)
include hpart

theorem OauthPart.keeps {I : SessionConf → Prop} (h : I c)
    (hseen : ∀ token, I ⟨{ c.shared with tokens := token :: c.shared.tokens }, c.procs⟩)
    (hset : ∀ b, sessionProgram i b c.shared (c.procs i) = some (s, pc) → I (c.set i s pc)) :
    I (c.set i s pc) := by
  cases hpart with
  | same => rwa [set_seen]
  | seen hsee =>
    rw [set_seen]
    rcases Shared.seeToken_eq_some hsee with ⟨rfl, -⟩ | ⟨-, rfl⟩
    · exact h
    · exact hseen _
  | stepped hstep => exact hset _ hstep

theorem Coherent.part (h : Coherent c) : Coherent (c.set i s pc) := by
  refine hpart.keeps h (fun _ => ⟨h.shared, fun j => ?_⟩) fun _ => h.set
  have hj := h.procs j
  revert hj
  show (c.procs j).Local j c.shared → (c.procs j).Local j _
  cases c.procs j <;> exact id

theorem HashesApart.part (h : HashesApart c) (hcoherent : Coherent c) :
    HashesApart (c.set i s pc) := by
  refine hpart.keeps h (fun _ => ⟨fun k r hr => List.mem_cons_of_mem _ (h.stored k r hr),
    h.unique, fun j held hj => ?_, h.apart⟩) fun _ => h.set hcoherent
  obtain ⟨hmem, hnone⟩ := h.carried j held hj
  exact ⟨List.mem_cons_of_mem _ hmem, hnone⟩

theorem Shown.part (h : Shown c tokenHash) : Shown (c.set i s pc) tokenHash :=
  hpart.keeps (I := fun c => Shown c tokenHash) h
    (fun _ => ⟨List.mem_cons_of_mem _ h.seen, h.free⟩) fun _ => h.set

omit hpart in
theorem HashesApart.seen (h : HashesApart c)
    (hsee : c.shared.seeToken tokenHash = some s) : Shown (c.set i s (c.procs i)) tokenHash := by
  rw [set_seen]
  rcases Shared.seeToken_eq_some hsee with ⟨rfl, k, r, hr, rfl⟩ | ⟨hfresh, rfl⟩
  · exact h.shown hr
  · exact ⟨List.mem_cons_self, fun j hj => hfresh (h.carried j _ hj).1⟩

theorem OauthPart.ages (hcoherent : Coherent c) : c.shared.Ages s := by
  intro k r hr
  rcases hpart.store with ⟨heq, -⟩ | ⟨b, hstep⟩
  · exact ⟨r, heq ▸ hr, .refl _⟩
  · exact (hcoherent.kept hstep).rely.evolves hr

theorem OauthPart.reachable (hcoherent : Coherent c) (h : StoreReachable c.shared.store) :
    StoreReachable s.store := by
  rcases hpart.store with ⟨heq, -⟩ | ⟨b, hstep⟩
  · exact heq ▸ h
  · rcases hcoherent.store_step hstep with heq | ⟨_, op, _, _, hop⟩
    · exact heq ▸ h
    · exact h.step hop

theorem Shown.rows_part (h : Shown c tokenHash) (hcoherent : Coherent c) {P : Session → Prop}
    (hP : ∀ r t, Kin r t → P r → P t)
    (hrows : ∀ k r, c.shared.store k = some r → r.val.tokenHash = tokenHash → P r.val) {k : Uuid}
    {r : SessionRow} (hr : s.store k = some r) (heq : r.val.tokenHash = tokenHash) : P r.val := by
  rcases hpart.store with ⟨hstore, -⟩ | ⟨b, hstep⟩
  · exact hrows k r (hstore ▸ hr) heq
  · exact h.rows hcoherent hstep hP hrows hr heq

end Parts

end AuthApi
