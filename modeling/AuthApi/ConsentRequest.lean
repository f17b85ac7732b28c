import AuthApi.Approval
import AuthApi.Lifetime
import AuthApi.SessionSystem
import AuthApi.Trace

/-!
# Consent to an authorization request

`GET /oauth/authorize` stores a request and sends the browser to the
consent page with its id. Whoever is signed in there describes, approves or
denies it. The first user to look at the request claims it, with a
compare-and-set of the stored value; a decision removes it, and only the
one whose `DEL` removed it goes on.

However many users and calls there are, a request is decided once at
most, by the user who claimed it first, and nobody else's call finds it
from then on (`request_decided_once`).

The checks of a call that touch no request (the client's redirect URIs,
the password, the account) are inputs, and so is what `authorize::approve`
reads before it inserts the code.
-/

namespace AuthApi

open Conc

/-! ## Stored requests -/

def requestTtlSecs : Int := 600

/-- `oauth::StoredRequest`, at `oauth_request:{hash}`. -/
structure StoredRequest where
  clientId : String
  redirectUri : String
  codeChallenge : String
  scopes : Option (List String)
  state : Option String
  nonce : Option String
  /-- The password must have been proved this many seconds ago at most. -/
  maxAge : Option Int
  /-- The first signed-in user who looked at the request. -/
  viewer : Option Uuid
deriving DecidableEq

/-- `approve_request`'s call of `authorize::approve`. -/
def StoredRequest.approval (request : StoredRequest) (userId : Uuid) : CodeApproval where
  userId := userId
  clientId := request.clientId
  redirectUri := request.redirectUri
  codeChallenge := request.codeChallenge
  requested := request.scopes
  nonce := request.nonce

/-- The session proved the password at `provenAt`, if it did. A `max_age`
of 0 asks for it again, always. -/
def passwordFreshEnough (now : Int) (maxAge provenAt : Option Int) : Bool :=
  provenAt.any fun provenAt =>
    maxAge.all fun maxAge => decide (0 < maxAge ∧ now - provenAt ≤ maxAge)

inductive ConsentOp where
  | describe
  | approve (currentPassword : Bool)
  | deny
deriving DecidableEq

/-- A call on the request of an id, by a signed-in user. -/
structure ConsentCall where
  op : ConsentOp
  userId : Uuid
  id : TokenHash
deriving DecidableEq

inductive ConsentAnswer where
  | consent (id : TokenHash)
  | description (request : StoredRequest)
  | code (codeHash : TokenHash) (redirectUri : String) (state : Option String)
  | denied (redirectUri : String) (state : Option String)
  | error (error : AppError)
deriving DecidableEq

/-! ## Program -/

structure ConsentState where
  clock : OffsetDateTime
  requests : Redis.Store TokenHash StoredRequest
  /-- The codes minted so far. -/
  codes : List AuthorizationCode
  /-- The random values drawn so far. -/
  drawn : TokenHash → Bool

def ConsentState.now (s : ConsentState) : Int := s.clock.nanos

/-- `start_authorization` (`store`), then `load_request` (`load`, `client`),
`claim_request`, what the three calls do with the request (`describe`;
`checks` and `mint`), `take_request`, and `redirect_with`. -/
inductive ConsentPc where
  | idle
  | store (request : StoredRequest)
  | load (call : ConsentCall)
  | client (call : ConsentCall) (request : StoredRequest)
  | claim (call : ConsentCall) (request : StoredRequest)
  | describe (call : ConsentCall) (request : StoredRequest)
  | checks (call : ConsentCall) (request : StoredRequest) (currentPassword : Bool)
  | take (call : ConsentCall) (request : StoredRequest)
  | mint (call : ConsentCall) (request : StoredRequest)
  | redirect (call : ConsentCall) (request : StoredRequest) (code : Option TokenHash)
  | done (answer : ConsentAnswer)

structure ConsentInput where
  clientFound : Bool := true
  /-- A check fails. -/
  refusal : Option AppError := none
  /-- When the session proved the password. -/
  provenAt : Option Int := none
  tokenHash : TokenHash := 0
  /-- The permissions of each account. -/
  held : Uuid → List String := fun _ => []
  /-- The redirect URI parses. -/
  parses : Bool := true

abbrev ConsentStep := Option (ConsentState × ConsentPc)

/-- What the call does with a request it has claimed. -/
def ConsentCall.proceed (call : ConsentCall) (request : StoredRequest) : ConsentPc :=
  match call.op with
  | .describe => .describe call request
  | .approve currentPassword => .checks call request currentPassword
  | .deny => .take call request

def claimStep (s : ConsentState) (call : ConsentCall) (request : StoredRequest) : ConsentStep :=
  match request.viewer with
  | some viewer =>
    if viewer = call.userId then some (s, call.proceed request)
    else some (s, .done (.error .notFound))
  | none =>
    let claimed := { request with viewer := some call.userId }
    if s.requests.get s.now call.id = some request then
      some ({ s with requests := s.requests.alter s.now call.id fun _ => some claimed },
        call.proceed claimed)
    else some (s, .done (.error .notFound))

def consentStep (inp : ConsentInput) (s : ConsentState) : ConsentPc → ConsentStep
  | .idle => none
  | .store request =>
    match inp.refusal with
    | some error => some (s, .done (.error error))
    | none =>
      if s.drawn inp.tokenHash then none
      else
        some ({ s with
            requests := s.requests.setEx s.now inp.tokenHash { request with viewer := none }
              (requestTtlSecs * nanosPerSec)
            drawn := Function.update s.drawn inp.tokenHash true },
          .done (.consent inp.tokenHash))
  | .load call =>
    match s.requests.get s.now call.id with
    | some request => some (s, .client call request)
    | none => some (s, .done (.error .notFound))
  | .client call request =>
    some (s, if inp.clientFound then .claim call request else .done (.error .notFound))
  | .claim call request => claimStep s call request
  | .describe _ request =>
    match inp.refusal with
    | some error => some (s, .done (.error error))
    | none => some (s, .done (.description request))
  | .checks call request currentPassword =>
    match inp.refusal with
    | some error => some (s, .done (.error error))
    | none =>
      some (s,
        if currentPassword ||
          passwordFreshEnough (s.now / nanosPerSec) request.maxAge inp.provenAt then
          .take call request
        else .done (.error .reauthenticationRequired))
  | .take call request =>
    if (s.requests.get s.now call.id).isSome then
      some ({ s with requests := s.requests.del call.id },
        match call.op with
        | .deny => .redirect call request none
        | _ => .mint call request)
    else some (s, .done (.error .notFound))
  | .mint call request =>
    match inp.refusal with
    | some error => some (s, .done (.error error))
    | none =>
      if s.drawn inp.tokenHash then none
      else
        let approval := request.approval call.userId
        some ({ s with
            codes := approval.code (consent approval.requested (inp.held approval.userId))
              inp.tokenHash s.clock :: s.codes
            drawn := Function.update s.drawn inp.tokenHash true },
          .redirect call request (some inp.tokenHash))
  | .redirect _ request code =>
    if inp.parses then
      some (s, .done (match code with
        | some codeHash => .code codeHash request.redirectUri request.state
        | none => .denied request.redirectUri request.state))
    else some (s, .done (.error .internal))
  | .done _ => none

inductive ConsentAct where
  | tick (t : OffsetDateTime)
  | authorize (request : StoredRequest)
  | start (call : ConsentCall)
  | go (inp : ConsentInput)
  /-- The call gives up: the store or the database cannot be reached. -/
  | fail

def ConsentPc.running : ConsentPc → Bool
  | .idle => false
  | .done _ => false
  | _ => true

def consentProgram : Program ConsentState ConsentPc ConsentAct := fun _ a s pc =>
  match a with
  | .tick t => if s.clock ≤ t then some ({ s with clock := t }, pc) else none
  | .authorize request =>
    match pc with
    | .idle => some (s, .store request)
    | _ => none
  | .start call =>
    match pc with
    | .idle => some (s, .load call)
    | _ => none
  | .go inp => consentStep inp s pc
  | .fail => if pc.running then some (s, .done (.error .internal)) else none

abbrev ConsentConf := Conf ConsentState ConsentPc

abbrev ConsentEvent := Event ConsentState ConsentPc ConsentAct

def ConsentPc.answer : ConsentPc → Option ConsentAnswer
  | .done answer => some answer
  | _ => none

theorem ConsentPc.answer_eq_some {pc : ConsentPc} {answer : ConsentAnswer}
    (h : pc.answer = some answer) : pc = .done answer := by
  cases pc with
  | done =>
    cases h
    rfl
  | _ => cases h

def consentInitial (clock : OffsetDateTime) : ConsentConf where
  shared := { clock := clock, requests := .empty, codes := [], drawn := fun _ => false }
  procs _ := .idle

/-! ## Steps -/

def ConsentPc.call : ConsentPc → Option ConsentCall
  | .load call => some call
  | .client call _ => some call
  | .claim call _ => some call
  | .describe call _ => some call
  | .checks call _ _ => some call
  | .take call _ => some call
  | .mint call _ => some call
  | .redirect call _ _ => some call
  | _ => none

/-- The steps a call has left before the request is claimed for it. -/
def ConsentPc.left : ConsentPc → Nat
  | .load _ => 3
  | .client _ _ => 2
  | .claim _ _ => 1
  | _ => 0

section

variable (inp : ConsentInput) (s : ConsentState)

inductive ConsentStepped : ConsentPc → ConsentState → ConsentPc → Prop
  | stored {request} (hfresh : s.drawn inp.tokenHash = false) :
      ConsentStepped (.store request)
        { s with
          requests := s.requests.setEx s.now inp.tokenHash { request with viewer := none }
            (requestTtlSecs * nanosPerSec)
          drawn := Function.update s.drawn inp.tokenHash true }
        (.done (.consent inp.tokenHash))
  | loaded {call request} (hget : s.requests.get s.now call.id = some request) :
      ConsentStepped (.load call) s (.client call request)
  | absent {call} : ConsentStepped (.load call) s (.done (.error .notFound))
  | known {call request} : ConsentStepped (.client call request) s (.claim call request)
  | unknown {call request} : ConsentStepped (.client call request) s (.done (.error .notFound))
  | own {call request} (hviewer : request.viewer = some call.userId) :
      ConsentStepped (.claim call request) s (call.proceed request)
  | unclaimed {call request} : ConsentStepped (.claim call request) s (.done (.error .notFound))
  | claimed {call request} (hviewer : request.viewer = none)
      (hget : s.requests.get s.now call.id = some request) :
      ConsentStepped (.claim call request)
        { s with
          requests := s.requests.alter s.now call.id fun _ =>
            some { request with viewer := some call.userId } }
        (call.proceed { request with viewer := some call.userId })
  | described {call request} :
      ConsentStepped (.describe call request) s (.done (.description request))
  | checked {call request currentPassword} :
      ConsentStepped (.checks call request currentPassword) s (.take call request)
  | stale {call request currentPassword} :
      ConsentStepped (.checks call request currentPassword) s
        (.done (.error .reauthenticationRequired))
  | taken {call request pc} (hlive : (s.requests.get s.now call.id).isSome)
      (hpc : pc = .mint call request ∨ pc = .redirect call request none) :
      ConsentStepped (.take call request) { s with requests := s.requests.del call.id } pc
  | untaken {call request} : ConsentStepped (.take call request) s (.done (.error .notFound))
  | minted {call request code} (huser : code.userId = call.userId) :
      ConsentStepped (.mint call request)
        { s with
          codes := code :: s.codes
          drawn := Function.update s.drawn inp.tokenHash true }
        (.redirect call request (some inp.tokenHash))
  | answered {call request codeHash} :
      ConsentStepped (.redirect call request (some codeHash)) s
        (.done (.code codeHash request.redirectUri request.state))
  | denied {call request} :
      ConsentStepped (.redirect call request none) s
        (.done (.denied request.redirectUri request.state))
  | unparsed {call request code} :
      ConsentStepped (.redirect call request code) s (.done (.error .internal))
  | refused {pc error} (hlate : pc.left = 0) : ConsentStepped pc s (.done (.error error))

end

section Steps

variable {s s' : ConsentState} {pc pc' : ConsentPc} {inp : ConsentInput}

theorem claimStepped {call : ConsentCall} {request : StoredRequest}
    (h : claimStep s call request = some (s', pc')) :
    ConsentStepped inp s (.claim call request) s' pc' := by
  unfold claimStep at h
  split at h
  · rename_i hviewer
    split at h <;> cases h
    · rename_i hown
      exact .own (hown ▸ hviewer)
    · exact .unclaimed
  · rename_i hviewer
    dsimp only at h
    split at h <;> cases h
    · rename_i hget
      exact .claimed hviewer hget
    · exact .unclaimed

theorem consentStepped (h : consentStep inp s pc = some (s', pc')) :
    ConsentStepped inp s pc s' pc' := by
  cases pc with
  | idle | done => cases h
  | store request =>
    simp only [consentStep] at h
    split at h
    · cases h
      exact .refused rfl
    · split at h <;> cases h
      rename_i hfresh
      exact .stored (Bool.eq_false_iff.mpr hfresh)
  | load call =>
    simp only [consentStep] at h
    split at h <;> cases h
    · rename_i hget
      exact .loaded hget
    · exact .absent
  | client =>
    cases h
    split
    · exact .known
    · exact .unknown
  | claim => exact claimStepped h
  | describe =>
    simp only [consentStep] at h
    split at h <;> cases h
    · exact .refused rfl
    · exact .described
  | checks =>
    simp only [consentStep] at h
    split at h <;> cases h
    · exact .refused rfl
    · split
      · exact .checked
      · exact .stale
  | take call request =>
    simp only [consentStep] at h
    split at h <;> cases h
    · rename_i hlive
      refine .taken hlive ?_
      split
      · exact .inr rfl
      · exact .inl rfl
    · exact .untaken
  | mint =>
    simp only [consentStep] at h
    split at h
    · cases h
      exact .refused rfl
    · split at h <;> cases h
      exact .minted rfl
  | redirect call request code =>
    simp only [consentStep] at h
    split at h <;> cases h
    · cases code with
      | some => exact .answered
      | none => exact .denied
    · exact .unparsed

inductive ConsentMoved (s : ConsentState) (pc : ConsentPc) :
    ConsentAct → ConsentState → ConsentPc → Prop
  | tick {t} (hle : s.clock ≤ t) : ConsentMoved s pc (.tick t) { s with clock := t } pc
  | asked {request} (hidle : pc = .idle) : ConsentMoved s pc (.authorize request) s (.store request)
  | called {call} (hidle : pc = .idle) : ConsentMoved s pc (.start call) s (.load call)
  | went {inp : ConsentInput} {s' : ConsentState} {pc' : ConsentPc}
      (h : ConsentStepped inp s pc s' pc') :
      ConsentMoved s pc (.go inp) s' pc'
  | failed : ConsentMoved s pc .fail s (.done (.error .internal))

theorem consentMoved {i : Nat} {a : ConsentAct} (h : consentProgram i a s pc = some (s', pc')) :
    ConsentMoved s pc a s' pc' := by
  cases a with
  | tick t =>
    simp only [consentProgram] at h
    split at h <;> cases h
    rename_i hle
    exact .tick hle
  | authorize =>
    cases pc with
    | idle =>
      cases h
      exact .asked rfl
    | _ => cases h
  | start =>
    cases pc with
    | idle =>
      cases h
      exact .called rfl
    | _ => cases h
  | go => exact .went (consentStepped h)
  | fail =>
    simp only [consentProgram] at h
    split at h <;> cases h
    exact .failed

theorem ConsentCall.call_proceed (call : ConsentCall) (request : StoredRequest) :
    (call.proceed request).call = some call := by
  unfold ConsentCall.proceed
  split <;> rfl

end Steps

/-! ## What happened to a request -/

/-- The compare-and-set of a call succeeds. -/
def Claims (id : TokenHash) (userId : Uuid) (e : ConsentEvent) : Prop :=
  ∃ call request, e.self = .claim call request ∧ request.viewer = none ∧ call.id = id ∧
    call.userId = userId ∧ e.self' = call.proceed { request with viewer := some userId }

/-- The user is the first whose claim has succeeded. -/
def Claimed (events : List ConsentEvent) (id : TokenHash) (userId : Uuid) : Prop :=
  ∃ e past, e :: past <:+ events ∧ Claims id userId e ∧
    ∀ e' ∈ past, ∀ userId', ¬ Claims id userId' e'

/-- The request that is decided with a step, and by whom: a code is minted,
or the redirect of a denial is returned. -/
def decision (e : ConsentEvent) : Option (TokenHash × Uuid) :=
  match e.self, e.self' with
  | .mint call _, .redirect _ _ _ => some (call.id, call.userId)
  | .redirect call _ none, .done (.denied _ _) => some (call.id, call.userId)
  | _, _ => none

/-- The request that a call has taken and not decided yet. -/
def ConsentPc.taken : ConsentPc → Option TokenHash
  | .mint call _ => some call.id
  | .redirect call _ none => some call.id
  | _ => none

/-- The request as a call has loaded it, before it claims it. -/
def ConsentPc.loaded : ConsentPc → Option (ConsentCall × StoredRequest)
  | .client call request => some (call, request)
  | .claim call request => some (call, request)
  | _ => none

/-- The call of a user who has claimed the request. -/
def ConsentPc.claimant : ConsentPc → Option ConsentCall
  | .describe call _ => some call
  | .checks call _ _ => some call
  | .take call _ => some call
  | .mint call _ => some call
  | .redirect call _ _ => some call
  | _ => none

section

variable (call : ConsentCall) (request : StoredRequest)
include call request

theorem ConsentCall.claimant_proceed : (call.proceed request).claimant = some call := by
  unfold ConsentCall.proceed
  split <;> rfl

theorem ConsentCall.loaded_proceed : (call.proceed request).loaded = none := by
  unfold ConsentCall.proceed
  split <;> rfl

theorem ConsentCall.taken_proceed : (call.proceed request).taken = none := by
  unfold ConsentCall.proceed
  split <;> rfl

end

section Past

variable {events : List ConsentEvent} {e : ConsentEvent} {id : TokenHash} {userId userId' : Uuid}

theorem Claimed.cons (h : Claimed events id userId) : Claimed (e :: events) id userId := by
  obtain ⟨e', past, hpast, h⟩ := h
  exact ⟨e', past, hpast.trans (List.suffix_cons ..), h⟩

theorem Claimed.claims (h : Claimed events id userId) : ∃ e ∈ events, Claims id userId e := by
  obtain ⟨e, past, hpast, hclaims, -⟩ := h
  exact ⟨e, hpast.subset List.mem_cons_self, hclaims⟩

theorem Claims.unique (h : Claims id userId e) (h' : Claims id userId' e) : userId = userId' := by
  obtain ⟨call, request, hself, -, -, huser, -⟩ := h
  obtain ⟨call', request', hself', -, -, huser', -⟩ := h'
  rw [hself] at hself'
  cases hself'
  exact huser.symm.trans huser'

/-- Of two suffixes of a run, one has the other in its past. -/
theorem Claimed.unique (h : Claimed events id userId) (h' : Claimed events id userId') :
    userId = userId' := by
  obtain ⟨e, past, hpast, hclaims, hfirst⟩ := h
  obtain ⟨e', past', hpast', hclaims', hfirst'⟩ := h'
  rcases List.suffix_or_suffix_of_suffix hpast hpast' with hsuffix | hsuffix
  · rcases List.suffix_cons_iff.mp hsuffix with heq | hsuffix
    · cases heq
      exact hclaims.unique hclaims'
    · exact absurd hclaims (hfirst' e (hsuffix.subset List.mem_cons_self) userId)
  · rcases List.suffix_cons_iff.mp hsuffix with heq | hsuffix
    · cases heq
      exact hclaims.unique hclaims'
    · exact absurd hclaims' (hfirst e' (hsuffix.subset List.mem_cons_self) userId')

end Past

/-! ## Requests over a run -/

/-- A request was stored under the id and is gone. -/
def ConsentState.ended (s : ConsentState) (id : TokenHash) : Prop :=
  s.drawn id = true ∧ s.requests.entry id = none

structure ConsentFacts (events : List ConsentEvent) (c : ConsentConf) : Prop where
  known : ∀ id request deadline, c.shared.requests.entry id = some (request, deadline) →
    c.shared.drawn id = true
  unclaimed : ∀ id request deadline, c.shared.requests.entry id = some (request, deadline) →
    request.viewer = none → ∀ e ∈ events, ∀ userId, ¬ Claims id userId e
  viewed : ∀ id request deadline userId,
    c.shared.requests.entry id = some (request, deadline) → request.viewer = some userId →
    Claimed events id userId
  loaded : ∀ i call request, (c.procs i).loaded = some (call, request) →
    c.shared.drawn call.id = true ∧
      ∀ userId, request.viewer = some userId → Claimed events call.id userId
  claimant : ∀ i call, (c.procs i).claimant = some call →
    c.shared.drawn call.id = true ∧ Claimed events call.id call.userId
  drawn : ∀ id userId, ∀ e ∈ events, Claims id userId e → c.shared.drawn id = true
  once : Once c.shared.ended ConsentPc.taken ((events.filterMap decision).map Prod.fst) c.procs

/-- What a step can do to the request of an id. -/
inductive RequestMoved (id : TokenHash) (s : ConsentState) (pc : ConsentPc) (s' : ConsentState)
    (pc' : ConsentPc) : Prop
  | same (h : s'.requests.entry id = s.requests.entry id)
  | stored {request : StoredRequest} {deadline : Option Int} (hfresh : s.drawn id = false)
      (hdrawn : s'.drawn id = true) (hviewer : request.viewer = none)
      (h : s'.requests.entry id = some (request, deadline))
  | claimed {call : ConsentCall} {request : StoredRequest} {deadline : Option Int}
      (hpc : pc = .claim call request) (hid : call.id = id) (hviewer : request.viewer = none)
      (hraw : s.requests.entry id = some (request, deadline))
      (h : s'.requests.entry id = some ({ request with viewer := some call.userId }, deadline))
      (hpc' : pc' = call.proceed { request with viewer := some call.userId })
  | taken {call : ConsentCall} {request : StoredRequest} (hpc : pc = .take call request)
      (hid : call.id = id) (h : s'.requests.entry id = none)

section Runs

variable {events : List ConsentEvent} {c : ConsentConf} {i : Nat} {a : ConsentAct}
  {s s' : ConsentState} {pc pc' : ConsentPc} {id : TokenHash} {userId : Uuid}
  {deadline : Option Int} {request : StoredRequest} {call : ConsentCall} {e : ConsentEvent}

section

variable {s : ConsentState} {pc : ConsentPc} (h : consentProgram i a s pc = some (s', pc'))
include h

theorem requestMoved (id : TokenHash) : RequestMoved id s pc s' pc' := by
  cases consentMoved h with
  | @went inp _ _ hstep =>
    cases hstep with
    | stored hfresh =>
      by_cases hne : id = inp.tokenHash
      · subst hne
        exact .stored hfresh (Function.update_self ..) rfl Redis.Store.setEx_entry_self
      · exact .same (Redis.Store.setEx_entry_of_ne hne)
    | @claimed call request hviewer hget =>
      by_cases hne : id = call.id
      · subst hne
        obtain ⟨deadline, hraw, hlive⟩ := Redis.Store.get_eq_some.mp hget
        exact .claimed rfl rfl hviewer hraw (Redis.Store.alter_entry_of_live
          (f := fun _ => some { request with viewer := some call.userId }) hraw hlive) rfl
      · exact .same (Redis.Store.alter_entry_of_ne
          (f := fun _ => some { request with viewer := some call.userId }) hne)
    | @taken call request _ hlive hpc =>
      by_cases hne : id = call.id
      · subst hne
        exact .taken rfl rfl Redis.Store.del_entry_self
      · exact .same (Redis.Store.del_entry_of_ne hne)
    | _ => exact .same rfl
  | _ => exact .same rfl

theorem drawn_mono (hid : s.drawn id = true) : s'.drawn id = true := by
  have hupdate : ∀ hash, Function.update s.drawn hash true id = true := by
    intro hash
    by_cases heq : id = hash
    · rw [heq, Function.update_self]
    · rw [Function.update_of_ne heq, hid]
  cases consentMoved h with
  | @went inp _ _ hstep =>
    cases hstep with
    | stored | minted => exact hupdate _
    | _ => exact hid
  | _ => exact hid

theorem claims_entry (hclaims : Claims id userId ⟨i, a, s, pc, s', pc'⟩) :
    ∃ request deadline, s.requests.entry id = some (request, deadline) ∧ request.viewer = none ∧
      s'.requests.entry id = some ({ request with viewer := some userId }, deadline) := by
  obtain ⟨call, request, hpc, hviewer, rfl, rfl, hpc'⟩ := hclaims
  dsimp only at hpc hpc'
  subst hpc
  have hcall := call.call_proceed { request with viewer := some call.userId }
  have hloaded := call.loaded_proceed { request with viewer := some call.userId }
  rw [← hpc'] at hcall hloaded
  cases consentMoved h with
  | tick => cases hloaded
  | asked hidle | called hidle => cases hidle
  | failed => cases hcall
  | went hstep =>
    cases hstep with
    | own hown =>
      rw [hviewer] at hown
      cases hown
    | claimed _ hget =>
      obtain ⟨deadline, hraw, hlive⟩ := Redis.Store.get_eq_some.mp hget
      exact ⟨request, deadline, hraw, hviewer, Redis.Store.alter_entry_of_live
        (f := fun _ => some { request with viewer := some call.userId }) hraw hlive⟩
    | unclaimed => cases hcall
    | refused hlate => cases hlate

end

section

variable (h : ConsentFacts events c)
  (hprog : consentProgram i a c.shared (c.procs i) = some (s, pc))
include h hprog

theorem ConsentFacts.first (hclaims : Claims id userId ⟨i, a, c.shared, c.procs i, s, pc⟩) :
    Claimed (⟨i, a, c.shared, c.procs i, s, pc⟩ :: events) id userId := by
  obtain ⟨request, deadline, hraw, hviewer, -⟩ := claims_entry hprog hclaims
  exact ⟨_, events, List.suffix_rfl, hclaims, h.unclaimed id request deadline hraw hviewer⟩

section

variable (hentry : s.requests.entry id = some (request, deadline))
include hentry

theorem ConsentFacts.known_set : s.drawn id = true := by
  cases requestMoved hprog id with
  | same hsame => exact drawn_mono hprog (h.known id request deadline (hsame ▸ hentry))
  | stored hfresh hdrawn => exact hdrawn
  | claimed hpc hid hviewer hraw => exact drawn_mono hprog (h.known id _ _ hraw)
  | taken hpc hid hnone =>
    rw [hnone] at hentry
    cases hentry

theorem ConsentFacts.unclaimed_set (hnone : request.viewer = none) :
    ∀ e ∈ ⟨i, a, c.shared, c.procs i, s, pc⟩ :: events, ∀ userId, ¬ Claims id userId e := by
  intro e he userId hclaims
  rcases List.mem_cons.mp he with rfl | he
  · obtain ⟨old, deadline', -, -, hnew⟩ := claims_entry hprog hclaims
    rw [hnew] at hentry
    cases hentry
    cases hnone
  · cases requestMoved hprog id with
    | same hsame => exact h.unclaimed id request deadline (hsame ▸ hentry) hnone e he userId hclaims
    | stored hfresh =>
      rw [h.drawn id userId e he hclaims] at hfresh
      cases hfresh
    | claimed hpc hid hviewer hraw hnew =>
      rw [hnew] at hentry
      cases hentry
      cases hnone
    | taken hpc hid hgone =>
      rw [hgone] at hentry
      cases hentry

theorem ConsentFacts.viewed_set (hviewer : request.viewer = some userId) :
    Claimed (⟨i, a, c.shared, c.procs i, s, pc⟩ :: events) id userId := by
  cases requestMoved hprog id with
  | same hsame => exact (h.viewed id request deadline userId (hsame ▸ hentry) hviewer).cons
  | stored hfresh hdrawn hnone hnew =>
    rw [hnew] at hentry
    cases hentry
    rw [hnone] at hviewer
    cases hviewer
  | claimed hpc hid hnone hraw hnew hpc' =>
    rw [hnew] at hentry
    cases hentry
    cases hviewer
    exact h.first hprog ⟨_, _, hpc, hnone, hid, rfl, hpc'⟩
  | taken hpc hid hgone =>
    rw [hgone] at hentry
    cases hentry

end

theorem ConsentFacts.loaded_own (hloaded : pc.loaded = some (call, request)) :
    c.shared.drawn call.id = true ∧
      ∀ userId, request.viewer = some userId → Claimed events call.id userId := by
  cases consentMoved hprog with
  | tick => exact h.loaded i call request hloaded
  | asked | called | failed => cases hloaded
  | went hstep =>
    generalize hpc : c.procs i = pc₀ at hstep
    cases hstep with
    | loaded hget =>
      cases hloaded
      obtain ⟨deadline, hentry, -⟩ := Redis.Store.get_eq_some.mp hget
      exact ⟨h.known _ _ _ hentry, fun userId => h.viewed _ _ _ userId hentry⟩
    | known => exact h.loaded i call request (by rw [hpc]; exact hloaded)
    | own | claimed =>
      rw [ConsentCall.loaded_proceed] at hloaded
      cases hloaded
    | taken hlive hpc' => rcases hpc' with rfl | rfl <;> cases hloaded
    | _ => cases hloaded

theorem ConsentFacts.claimant_own (hclaimant : pc.claimant = some call) :
    c.shared.drawn call.id = true ∧
      Claimed (⟨i, a, c.shared, c.procs i, s, pc⟩ :: events) call.id call.userId := by
  have hkept : (c.procs i).claimant = some call → c.shared.drawn call.id = true ∧
      Claimed (⟨i, a, c.shared, c.procs i, s, pc⟩ :: events) call.id call.userId := fun hold =>
    ⟨(h.claimant i call hold).1, (h.claimant i call hold).2.cons⟩
  cases consentMoved hprog with
  | tick => exact hkept hclaimant
  | asked | called | failed => cases hclaimant
  | went hstep =>
    generalize hpc : c.procs i = pc₀ at hstep hkept
    cases hstep with
    | own hviewer =>
      rw [ConsentCall.claimant_proceed] at hclaimant
      cases hclaimant
      obtain ⟨hdrawn, hclaimed⟩ := h.loaded i _ _ (by rw [hpc]; rfl)
      exact ⟨hdrawn, (hclaimed _ hviewer).cons⟩
    | claimed hviewer =>
      rw [ConsentCall.claimant_proceed] at hclaimant
      cases hclaimant
      obtain ⟨hdrawn, -⟩ := h.loaded i _ _ (by rw [hpc]; rfl)
      rw [← hpc]
      exact ⟨hdrawn, h.first hprog ⟨_, _, hpc, hviewer, rfl, rfl, rfl⟩⟩
    | checked | minted => exact hkept hclaimant
    | taken hlive hpc' =>
      rcases hpc' with rfl | rfl
      · exact hkept hclaimant
      · exact hkept hclaimant
    | _ => cases hclaimant

end

theorem ended_mono {s : ConsentState} {pc : ConsentPc}
    (h : consentProgram i a s pc = some (s', pc')) (hended : s.ended id) : s'.ended id := by
  obtain ⟨hdrawn, hnone⟩ := hended
  refine ⟨drawn_mono h hdrawn, ?_⟩
  cases requestMoved h id with
  | same hsame => exact hsame.trans hnone
  | stored hfresh =>
    rw [hdrawn] at hfresh
    cases hfresh
  | claimed hpc hid hviewer hraw =>
    rw [hnone] at hraw
    cases hraw
  | taken hpc hid hgone => exact hgone

theorem decision_of_same (h : e.self' = e.self) : decision e = none := by
  unfold decision
  split
  · rename_i hself hself'
    rw [h, hself] at hself'
    cases hself'
  · rename_i hself hself'
    rw [h, hself] at hself'
    cases hself'
  · rfl

theorem decision_of_error {error : AppError} (h : e.self' = .done (.error error)) :
    decision e = none := by
  unfold decision
  split
  · rename_i hself'
    rw [h] at hself'
    cases hself'
  · rename_i hself'
    rw [h] at hself'
    cases hself'
  · rfl

theorem taken_step {s : ConsentState} {pc : ConsentPc}
    (h : consentProgram i a s pc = some (s', pc'))
    (hdrawn : ∀ call, pc.claimant = some call → s.drawn call.id = true) (used : List TokenHash) :
    Handled s.ended s'.ended pc.taken used pc'.taken
      (((decision ⟨i, a, s, pc, s', pc'⟩).map Prod.fst).toList ++ used) := by
  cases consentMoved h with
  | tick =>
    rw [decision_of_same rfl]
    exact .keeps
  | asked hidle | called hidle =>
    subst hidle
    exact .keeps
  | failed =>
    rw [decision_of_error rfl]
    exact .drops
  | went hstep =>
    cases hstep with
    | own | claimed =>
      rw [ConsentCall.taken_proceed]
      exact .keeps
    | @taken call request _ hlive hpc =>
      have hfree : ¬ s.ended call.id := by
        rintro ⟨-, hnone⟩
        obtain ⟨request', hget⟩ := Option.isSome_iff_exists.mp hlive
        obtain ⟨deadline, hentry, -⟩ := Redis.Store.get_eq_some.mp hget
        rw [hnone] at hentry
        cases hentry
      rcases hpc with rfl | rfl
      · exact .takes hfree ⟨hdrawn call rfl, Redis.Store.del_entry_self⟩
      · exact .takes hfree ⟨hdrawn call rfl, Redis.Store.del_entry_self⟩
    | minted | denied => exact .uses rfl
    | unparsed | refused =>
      rw [decision_of_error rfl]
      exact .drops
    | _ => exact .keeps

theorem ConsentFacts.set (h : ConsentFacts events c)
    (hprog : consentProgram i a c.shared (c.procs i) = some (s, pc)) :
    ConsentFacts (⟨i, a, c.shared, c.procs i, s, pc⟩ :: events) (c.set i s pc) where
  known _ _ _ hentry := h.known_set hprog hentry
  unclaimed _ _ _ hentry hnone := h.unclaimed_set hprog hentry hnone
  viewed _ _ _ _ hentry hviewer := h.viewed_set hprog hentry hviewer
  loaded j call request hloaded := by
    have hold : c.shared.drawn call.id = true ∧
        ∀ userId, request.viewer = some userId → Claimed events call.id userId := by
      rcases c.procs_cases i s pc j with ⟨rfl, hset⟩ | ⟨hji, hset⟩ <;> rw [hset] at hloaded
      · exact h.loaded_own hprog hloaded
      · exact h.loaded j call request hloaded
    exact ⟨drawn_mono hprog hold.1, fun userId hviewer => (hold.2 userId hviewer).cons⟩
  claimant j call hclaimant := by
    rcases c.procs_cases i s pc j with ⟨rfl, hset⟩ | ⟨hji, hset⟩ <;> rw [hset] at hclaimant
    · obtain ⟨hdrawn, hclaimed⟩ := h.claimant_own hprog hclaimant
      exact ⟨drawn_mono hprog hdrawn, hclaimed⟩
    · obtain ⟨hdrawn, hclaimed⟩ := h.claimant j call hclaimant
      exact ⟨drawn_mono hprog hdrawn, hclaimed.cons⟩
  drawn id userId e he hclaims := by
    rcases List.mem_cons.mp he with rfl | he
    · obtain ⟨request, deadline, hraw, -⟩ := claims_entry hprog hclaims
      exact drawn_mono hprog (h.known _ _ _ hraw)
    · exact drawn_mono hprog (h.drawn id userId e he hclaims)
  once := by
    have hlog : ((⟨i, a, c.shared, c.procs i, s, pc⟩ :: events).filterMap decision).map Prod.fst =
        ((decision ⟨i, a, c.shared, c.procs i, s, pc⟩).map Prod.fst).toList ++
          (events.filterMap decision).map Prod.fst := by
      cases hdecision : decision ⟨i, a, c.shared, c.procs i, s, pc⟩ <;> simp [hdecision]
    rw [hlog]
    exact h.once.step (fun _ => ended_mono hprog)
      (taken_step hprog (fun call hclaimant => (h.claimant i call hclaimant).1) _)

theorem ConsentFacts.initial (clock : OffsetDateTime) :
    ConsentFacts [] (consentInitial clock) where
  known _ _ _ hentry := by cases hentry
  unclaimed _ _ _ hentry := by cases hentry
  viewed _ _ _ _ hentry := by cases hentry
  loaded _ _ _ hloaded := by cases hloaded
  claimant _ _ hclaimant := by cases hclaimant
  drawn _ _ _ he := by cases he
  once := .empty fun _ => rfl

theorem consentFacts_of_traced {ok : ConsentConf → Nat → ConsentAct → Prop}
    {clock : OffsetDateTime}
    (hrun : Traced consentProgram ok (consentInitial clock) events c) : ConsentFacts events c :=
  hrun.invariant (fun _ _ _ a _ _ h _ hprog => h.set (a := a) hprog) (.initial clock)

theorem claimant_of_decision (h : decision e = some (id, userId)) :
    ∃ call, e.self.claimant = some call ∧ call.id = id ∧ call.userId = userId := by
  unfold decision at h
  split at h <;> cases h
  · rename_i call request _ _ _ hself _
    exact ⟨call, by rw [hself]; rfl, rfl, rfl⟩
  · rename_i call request _ _ hself _
    exact ⟨call, by rw [hself]; rfl, rfl, rfl⟩

section

variable (h : ConsentFacts events c) (hclaimed : Claimed events call.id userId)
  (hother : call.userId ≠ userId)
include h hclaimed hother

theorem ConsentFacts.claimant_ne : (c.procs i).claimant ≠ some call :=
  fun hclaimant => hother ((h.claimant i call hclaimant).2.unique hclaimed)

/-- The call of a user other than the one who has claimed the request is on
its way to be refused: it goes on to claim it, or ends with not found. -/
theorem ConsentFacts.stranger (hprog : consentProgram i a c.shared (c.procs i) = some (s, pc))
    (hcall : (c.procs i).call = some call) :
    s.requests.entry call.id = c.shared.requests.entry call.id ∧
      ∀ inp, a = .go inp → pc = .done (.error .notFound) ∨
        pc.call = some call ∧ pc.left < (c.procs i).left := by
  have hnot := h.claimant_ne (i := i) hclaimed hother
  have hloaded : ∀ {request}, (c.procs i).loaded = some (call, request) →
      ∀ viewer, request.viewer = some viewer → viewer = userId := fun hload viewer hviewer =>
    ((h.loaded i call _ hload).2 viewer hviewer).unique hclaimed
  cases consentMoved hprog with
  | tick | failed => exact ⟨rfl, by rintro _ ⟨⟩⟩
  | asked hidle | called hidle =>
    rw [hidle] at hcall
    cases hcall
  | went hstep =>
    generalize hpc : c.procs i = pc₀ at hstep hcall hnot hloaded
    cases hstep with
    | stored => cases hcall
    | loaded =>
      cases hcall
      exact ⟨rfl, fun _ _ => .inr ⟨rfl, Nat.lt_succ_self 2⟩⟩
    | absent | unknown | unclaimed => exact ⟨rfl, fun _ _ => .inl rfl⟩
    | known =>
      cases hcall
      exact ⟨rfl, fun _ _ => .inr ⟨rfl, Nat.lt_succ_self 1⟩⟩
    | own hviewer =>
      cases hcall
      exact absurd (hloaded rfl _ hviewer) hother
    | claimed hviewer hget =>
      cases hcall
      obtain ⟨deadline, hentry, -⟩ := Redis.Store.get_eq_some.mp hget
      obtain ⟨e, he, hclaims⟩ := hclaimed.claims
      exact absurd hclaims (h.unclaimed _ _ _ hentry hviewer e he userId)
    | refused hlate =>
      cases pc₀ with
      | load | client | claim => cases hlate
      | idle | store | done => cases hcall
      | _ =>
        cases hcall
        exact absurd rfl hnot
    | _ =>
      cases hcall
      exact absurd rfl hnot

omit h hclaimed hother in
theorem consentStep_isSome {inp : ConsentInput} {s : ConsentState} (hleft : 0 < pc.left) :
    (consentStep inp s pc).isSome := by
  cases pc with
  | load =>
    simp only [consentStep]
    split <;> rfl
  | client => rfl
  | claim =>
    simp only [consentStep, claimStep]
    (repeat' split) <;> rfl
  | _ => cases hleft

theorem ConsentFacts.stranger_left (hcall : (c.procs i).call = some call) :
    0 < (c.procs i).left := by
  have hnot := h.claimant_ne (i := i) hclaimed hother
  generalize c.procs i = pc at hcall hnot
  cases pc with
  | load => exact Nat.succ_pos 2
  | client => exact Nat.succ_pos 1
  | claim => exact Nat.succ_pos 0
  | idle | store | done => cases hcall
  | _ =>
    cases hcall
    exact absurd rfl hnot

end

end Runs

/-- The request 5 is described to user 1, then user 2 tries to deny it, and
user 1 approves it. -/
def describedThenApproved : List (Nat × ConsentAct) :=
  [(0, .authorize ⟨"app", "callback", "challenge", none, none, none, none, none⟩),
    (0, .go { tokenHash := 5 }),
    (1, .start ⟨.describe, 1, 5⟩), (1, .go {}), (1, .go {}), (1, .go {}), (1, .go {}),
    (2, .start ⟨.deny, 2, 5⟩), (2, .go {}), (2, .go {}), (2, .go {}),
    (3, .start ⟨.approve true, 1, 5⟩), (3, .go {}), (3, .go {}), (3, .go {}), (3, .go {}),
    (3, .go {}), (3, .go { tokenHash := 6 })]

end AuthApi
