import AuthApi.CodeReplay

/-!
# Device flows

A device asks for a code (`initiate`), a user decides on it in a browser
(`verify`, `update_status`), and the device polls until the decision is
there (`poll`). The state of the flow is one entry of Redis, which the
decision changes by a compare-and-set and the poll takes with a script.

What the system keeps about a flow is compared with what happened to it:
an entry came out of an initiation and possibly a decision (`Came`), and
a request that issues a session for a flow has taken such an entry
(`Granted`). So each flow issues one session at most, to its own client,
for the user who approved it and with the scopes of that approval
(`device_flow_as_approved`).
-/

namespace AuthApi

open Conc

/-! ## Steps -/

section Steps

variable {i : Nat} {inp : Input} {s s' : AccountState} {p p' : Request} {b : Act} {a : AccountAct}

/-- The step leaves device entries and user codes alone. -/
structure DevicesKept (s s' : AccountState) : Prop where
  devices : s'.devices = s.devices
  userCodes : s'.userCodes = s.userCodes

theorem DevicesKept.refl : DevicesKept s s := ⟨rfl, rfl⟩

/-- The request has begun and is not one of a device flow. -/
def Flow.apart : Flow → Bool
  | .idle => false
  | .device _ => false
  | _ => true

inductive DeviceMoved (i : Nat) (s : AccountState) (p : Request) :
    AccountAct → AccountState → Request → Prop
  | session {a : AccountAct} {s' : AccountState} {p' : Request} (b : Act)
      (hb : ∀ call, b ≠ .start call) (hact : ∀ inp, a ≠ .go inp) (hcall : ∀ call, a ≠ .start call)
      (hstep : sessionProgram i b s.sessions p.session = some (s'.sessions, p'.session))
      (hkept : DevicesKept s s') (hflow : p'.flow = p.flow) : DeviceMoved i s p a s' p'
  | entered {call : AccountCall} {s' : AccountState} {p' : Request} (hidle : p.flow = .idle)
      (hs : s' = s) (h : call.enter i s p = some (s', p')) :
      DeviceMoved i s p (.start call) s' p'
  | device {inp pc s' p'} (hp : p.flow = .device pc) (h : DeviceStepped i inp s p pc s' p') :
      DeviceMoved i s p (.go inp) s' p'
  | elsewhere {a : AccountAct} {s' : AccountState} {p' : Request}
      (hcall : ∀ call, a ≠ .start call) (hp : ∀ pc, p.flow ≠ .device pc)
      (hp' : p'.flow.apart = true) (hkept : DevicesKept s s') : DeviceMoved i s p a s' p'
  | failed {s' answer p'} (hp' : p'.flow = .done answer) (hanswer : answer = .error .internal)
      (hkept : DevicesKept s s') : DeviceMoved i s p .fail s' p'

theorem ApproveStepped.apart {pc : ApprovePc} (h : ApproveStepped i inp s p pc s' p') :
    DevicesKept s s' ∧ p'.flow.apart = true := by
  cases h <;> exact ⟨⟨rfl, rfl⟩, rfl⟩

theorem RedeemStepped.apart {pc : RedeemPc} (h : RedeemStepped i inp s p pc s' p') :
    DevicesKept s s' ∧ p'.flow.apart = true := by
  cases h <;> exact ⟨⟨rfl, rfl⟩, rfl⟩

theorem SignInStepped.apart {pc : SignInPc} (h : SignInStepped i inp s p pc s' p') :
    DevicesKept s s' ∧ p'.flow.apart = true := by
  cases h <;> exact ⟨⟨rfl, rfl⟩, rfl⟩

theorem CompleteStepped.apart {pc : CompletePc} (h : CompleteStepped inp s p pc s' p') :
    DevicesKept s s' ∧ p'.flow.apart = true := by
  cases h with
  | unlisted => exact ⟨by split <;> exact ⟨rfl, rfl⟩, rfl⟩
  | _ => exact ⟨⟨rfl, rfl⟩, rfl⟩

theorem PasswordStepped.apart {pc : PasswordPc} (h : PasswordStepped inp s p pc s' p') :
    DevicesKept s s' ∧ p'.flow.apart = true := by
  cases h with
  | deleted | cleared => exact ⟨by split <;> exact ⟨rfl, rfl⟩, rfl⟩
  | _ => exact ⟨.refl, rfl⟩

theorem sessionStep_kept (h : sessionStep i b s p = some (s', p')) :
    DevicesKept s s' ∧ p'.flow = p.flow := by
  obtain ⟨sessions, pc, -, rfl, rfl⟩ := sessionStepped h
  have hrecord := record_fields (s := { s with sessions := sessions }) (p := p) pc
  refine ⟨⟨hrecord.2.1, ?_⟩, rfl⟩
  simp only [AccountState.recordIssue, AccountState.recordChange]
  (repeat' split) <;> rfl

theorem DeviceMoved.of_kept {flow : Flow} (hp : p.flow = flow) (hflow : ∀ pc, flow ≠ .device pc)
    (h : DevicesKept s s' ∧ p'.flow.apart = true) : DeviceMoved i s p (.go inp) s' p' :=
  .elsewhere (by rintro _ ⟨⟩) (fun pc heq => hflow pc (hp ▸ heq)) h.2 h.1

theorem deviceMoved (h : accountProgram i a s p = some (s', p')) : DeviceMoved i s p a s' p' := by
  cases accountMoved h with
  | @session _ b _ _ hact h =>
    obtain ⟨hkept, hflow⟩ := sessionStep_kept h
    refine .session b (AccountAct.base_ne_start hact) ?_ ?_ (sessionStep_part h) hkept hflow <;>
      (rintro _ rfl; cases hact)
  | start hidle h => exact .entered hidle (entered h).1 h
  | approve hp h => exact .of_kept hp (by rintro _ ⟨⟩) h.apart
  | redeem hp h => exact .of_kept hp (by rintro _ ⟨⟩) h.apart
  | device hp h => exact .device hp h
  | signIn hp h => exact .of_kept hp (by rintro _ ⟨⟩) h.apart
  | complete hp h => exact .of_kept hp (by rintro _ ⟨⟩) h.apart
  | password hp h => exact .of_kept hp (by rintro _ ⟨⟩) h.apart
  | failed | gaveUp => exact .failed rfl rfl ⟨rfl, rfl⟩

/-! ## Sessions that are issued -/

/-- The step issues nothing, or commits the session of the approval. -/
def IssuesIn (s : AccountState) (p : Request) (s' : AccountState) (p' : Request) : Prop :=
  s'.issued = s.issued ∨ ∃ new, p.session = .issue (.commit new) ∧
    p'.session = .done (.tokens new.val.id) ∧ p'.flow = p.flow ∧
    s'.issued = (p.flow.grant.map fun grant => ⟨grant.1, grant.2, new.val.id⟩).toList ++ s.issued ∧
    s'.sessions.store new.val.id = some new

theorem sessionStep_issued (hlocal : p.session.Local i s.sessions)
    (h : sessionStep i b s p = some (s', p')) : IssuesIn s p s' p' := by
  obtain ⟨sessions, _, hstep, rfl, rfl⟩ := sessionStepped h
  unfold AccountState.recordIssue
  split
  · rename_i q id hsession
    right
    rw [hsession] at hstep hlocal
    obtain ⟨-, new, -, rfl, rfl, rfl⟩ := issue_commits hstep rfl
    refine ⟨new, hsession, rfl, rfl, by rw [recordChange_issued], ?_⟩
    show (AccountState.recordChange _ p _).sessions.db.committed _ = _
    rw [recordChange_sessions]
    show (s.sessions.db.commit i).committed _ = _
    rw [hlocal.1.commit_one hlocal.2.1, Function.update_self]
  · exact .inl (recordChange_issued _)

theorem issued_step (hlocal : p.session.Local i s.sessions)
    (h : accountProgram i a s p = some (s', p')) : IssuesIn s p s' p' := by
  cases accountMoved h with
  | session _ h => exact sessionStep_issued hlocal h
  | start _ h => exact .inl (enter_aside h).1.issued
  | approve _ h => cases h <;> exact .inl rfl
  | redeem _ h => cases h <;> exact .inl rfl
  | device _ h =>
    cases h with
    | drawn hdraw =>
      obtain ⟨-, rfl⟩ := s.draw_eq_some hdraw
      exact .inl rfl
    | issuing hidle hs => rcases hs with rfl | rfl <;> exact .inl rfl
    | _ => exact .inl rfl
  | signIn _ h => exact .inl h.aside.1.issued
  | complete _ h => exact .inl h.aside.1.issued
  | password _ h => exact .inl h.aside.1.issued
  | failed | gaveUp => exact .inl rfl

end Steps

/-! ## What happened to a flow -/

/-- The flow of a device code is stored. -/
def Initiates (hash : TokenHash) (request : DeviceInit) (e : AccountEvent) : Prop :=
  ∃ userCode, e.self.flow = .device (.store request hash userCode) ∧
    e.self'.flow = .done (.initiated hash userCode)

/-- A decision on the flow reads it, while each account holds the
permissions `held`. -/
def Reads (hash : TokenHash) (decision : DeviceDecision) (held : Uuid → List String)
    (e : AccountEvent) : Prop :=
  e.self.flow = .device (.current decision hash) ∧
    (∃ raw updated, e.self'.flow = .device (.swap decision hash raw updated)) ∧
    ∃ inp, e.act = .go inp ∧ inp.held = held

def Decides (hash : TokenHash) (decision : DeviceDecision) (e : AccountEvent) : Prop :=
  (∃ raw updated, e.self.flow = .device (.swap decision hash raw updated)) ∧
    e.self'.flow = .done .decided

def Polls (request : DevicePoll) (e : AccountEvent) : Prop := e.act = .start (.pollDevice request)

def Commits (issuance : Issuance) (e : AccountEvent) : Prop :=
  e.shared'.issued = issuance :: e.shared.issued

def Initiated (events : List AccountEvent) (hash : TokenHash) (request : DeviceInit) : Prop :=
  ∃ e ∈ events, Initiates hash request e

def Polled (events : List AccountEvent) (i : Nat) (request : DevicePoll) : Prop :=
  ∃ e ∈ events, e.proc = i ∧ Polls request e

/-- The flow was decided on, by a request that read it while each account
held the permissions `held`. -/
def DecidedWith (events : List AccountEvent) (hash : TokenHash) (decision : DeviceDecision)
    (held : Uuid → List String) : Prop :=
  ∃ e past, e :: past <:+ events ∧ Decides hash decision e ∧
    ∃ e' ∈ past, e'.proc = e.proc ∧ Reads hash decision held e'

/-- How an entry came about. -/
inductive Came (events : List AccountEvent) (hash : TokenHash) : DeviceAuthState → Prop
  | pending {request userCode now} (hinit : Initiated events hash request) :
      Came events hash (request.entry userCode now)
  | decided {request userCode now decision held} (hinit : Initiated events hash request)
      (hdecided : DecidedWith events hash decision held) (hstatus : decision.status ≠ .pending) :
      Came events hash
        ((request.entry userCode now).decided decision (held decision.userId))

/-- A poll by the flow's client that found it approved. -/
structure Granted (events : List AccountEvent) (i : Nat) (request : DevicePoll)
    (entry : DeviceAuthState) (userId : Uuid) (clientId : String) : Prop where
  came : Came events request.deviceHash entry
  status : entry.status = .authorized
  user : entry.userId = some userId
  client : entry.clientId = some clientId
  own : request.clientId = clientId
  polled : Polled events i request

/-- The approval a poll has found. -/
def Flow.claiming : Flow → Option (DevicePoll × DeviceAuthState × Uuid × String)
  | .device (.quota request entry userId clientId) => some (request, entry, userId, clientId)
  | .device (.claim request entry userId clientId) => some (request, entry, userId, clientId)
  | .device (.claimed request entry userId clientId) => some (request, entry, userId, clientId)
  | _ => none

/-- The decision a request is carrying out. -/
def Flow.deciding : Flow → Option DeviceDecision
  | .device (.target decision) => some decision
  | .device (.current decision _) => some decision
  | .device (.swap decision _ _ _) => some decision
  | _ => none

/-- The request has not begun, or is on its way to issue a session for a
device. -/
def Flow.unissued : Flow → Bool
  | .idle => true
  | .device (.issue _ _) => false
  | .device _ => true
  | _ => false

/-- What a request of a device flow knows. -/
structure DeviceLocal (events : List AccountEvent) (i : Nat) (p : Request) : Prop where
  unissued : p.flow.unissued = true → p.session = .idle
  polling : ∀ request, p.flow = .device (.poll request) → Polled events i request
  claiming : ∀ request entry userId clientId,
    p.flow.claiming = some (request, entry, userId, clientId) →
    Granted events i request entry userId clientId
  issuing : ∀ hash userId, p.flow = .device (.issue hash userId) →
    ∃ request entry clientId, request.deviceHash = hash ∧
      Granted events i request entry userId clientId ∧
      p.session.issuesWith (entry.issueArgs request userId clientId)
  deciding : ∀ decision, p.flow.deciding = some decision → decision.status ≠ .pending
  swapping : ∀ decision hash raw updated, p.flow = .device (.swap decision hash raw updated) →
    raw.status = .pending ∧ ∃ held, updated = raw.decided decision (held decision.userId) ∧
      ∃ e ∈ events, e.proc = i ∧ Reads hash decision held e

section Past

variable {events : List AccountEvent} {e : AccountEvent} {hash : TokenHash} {i : Nat} {p : Request}
  {request : DevicePoll} {entry : DeviceAuthState} {clientId : String} {userId : Uuid}

theorem Initiated.cons {request : DeviceInit} (h : Initiated events hash request) :
    Initiated (e :: events) hash request := by
  obtain ⟨e', he', h⟩ := h
  exact ⟨e', List.mem_cons_of_mem _ he', h⟩

theorem Polled.cons (h : Polled events i request) : Polled (e :: events) i request := by
  obtain ⟨e', he', h⟩ := h
  exact ⟨e', List.mem_cons_of_mem _ he', h⟩

theorem DecidedWith.cons {decision : DeviceDecision} {held : Uuid → List String}
    (h : DecidedWith events hash decision held) : DecidedWith (e :: events) hash decision held := by
  obtain ⟨e', past, hpast, h⟩ := h
  exact ⟨e', past, hpast.trans (List.suffix_cons ..), h⟩

theorem Came.cons (h : Came events hash entry) : Came (e :: events) hash entry := by
  cases h with
  | pending hinit => exact .pending hinit.cons
  | decided hinit hdecided hstatus => exact .decided hinit.cons hdecided.cons hstatus

theorem Granted.cons (h : Granted events i request entry userId clientId) :
    Granted (e :: events) i request entry userId clientId :=
  ⟨h.came.cons, h.status, h.user, h.client, h.own, h.polled.cons⟩

theorem DeviceLocal.cons (h : DeviceLocal events i p) : DeviceLocal (e :: events) i p where
  unissued := h.unissued
  polling request hp := (h.polling request hp).cons
  claiming _ _ _ _ hp := (h.claiming _ _ _ _ hp).cons
  issuing hash userId hp := by
    obtain ⟨request, entry, clientId, heq, hgranted, hargs⟩ := h.issuing hash userId hp
    exact ⟨request, entry, clientId, heq, hgranted.cons, hargs⟩
  deciding := h.deciding
  swapping decision hash raw updated hp := by
    obtain ⟨hpending, held, heq, e', he', hread⟩ := h.swapping decision hash raw updated hp
    exact ⟨hpending, held, heq, e', List.mem_cons_of_mem _ he', hread⟩

theorem DeviceLocal.of_other (hp : ∀ pc, p.flow ≠ .device pc)
    (hidle : p.flow = .idle → p.session = .idle) : DeviceLocal events i p where
  unissued h := by
    cases hflow : p.flow with
    | idle => exact hidle hflow
    | device pc => exact absurd hflow (hp pc)
    | _ =>
      rw [hflow] at h
      cases h
  polling _ hflow := absurd hflow (hp _)
  claiming _ _ _ _ h := by
    cases hflow : p.flow with
    | device pc => exact absurd hflow (hp pc)
    | _ =>
      rw [hflow] at h
      cases h
  issuing _ _ hflow := absurd hflow (hp _)
  deciding _ h := by
    cases hflow : p.flow with
    | device pc => exact absurd hflow (hp pc)
    | _ =>
      rw [hflow] at h
      cases h
  swapping _ _ _ _ hflow := absurd hflow (hp _)

theorem Came.initiated (h : Came events hash entry) : ∃ request, Initiated events hash request := by
  cases h with
  | pending hinit | decided hinit _ _ => exact ⟨_, hinit⟩

theorem Came.authorized (h : Came events hash entry) (hstatus : entry.status = .authorized)
    (huser : entry.userId = some userId) (hclient : entry.clientId = some clientId) :
    ∃ init decision held, Initiated events hash init ∧ DecidedWith events hash decision held ∧
      decision.status = .authorized ∧ decision.userId = userId ∧ init.clientId = clientId ∧
      entry.scopes = consent init.scopes (held decision.userId) := by
  cases h with
  | pending => cases hstatus
  | @decided request userCode now decision held hinit hdecided hne =>
    have hdecision : decision.status = .authorized := hstatus
    simp only [DeviceAuthState.decided, hdecision, if_true, Option.some.injEq] at huser
    refine ⟨request, decision, held, hinit, hdecided, hdecision, huser,
      Option.some.inj hclient, ?_⟩
    simp only [DeviceAuthState.decided, hdecision, if_true]
    rfl

end Past

/-! ## Flows over a run -/

/-- The device code whose approval a request has claimed, before it issues
the session. -/
def Request.claims (p : Request) : Option TokenHash :=
  match p.flow.grant, p.session.outcome with
  | some (.device hash, _), none => some hash
  | _, _ => none

def Issuance.device (issuance : Issuance) : Option TokenHash :=
  match issuance.approval with
  | .device hash => some hash
  | .code _ => none

/-- The flow was there and is gone. -/
def FlowEnded (events : List AccountEvent) (s : AccountState) (hash : TokenHash) : Prop :=
  (∃ request, Initiated events hash request) ∧ s.devices.entry hash = none

structure DeviceFacts (events : List AccountEvent) (c : AccountConf) : Prop where
  account : Accountable c
  locally : ∀ i, DeviceLocal events i (c.procs i)
  stored : ∀ hash entry deadline, c.shared.devices.entry hash = some (entry, deadline) →
    Came events hash entry
  known : ∀ hash request, Initiated events hash request → (c.shared.drawn hash).isSome
  reserving : ∀ i hash, (c.procs i).flow.reserving = some hash →
    ∀ request, ¬ Initiated events hash request
  decided : ∀ hash decision, ∀ e ∈ events, Decides hash decision e →
    decision.status ≠ .pending ∧ (∃ request, Initiated events hash request) ∧
      ∀ entry deadline, c.shared.devices.entry hash = some (entry, deadline) →
        entry.status = decision.status ∧
          (decision.status = .authorized → entry.userId = some decision.userId)
  once : Once (FlowEnded events c.shared) Request.claims (c.shared.issued.filterMap Issuance.device)
    c.procs

section Runs

variable {events : List AccountEvent} {c : AccountConf} {i : Nat} {a : AccountAct}
  {s s' : AccountState} {p p' : Request} {hash : TokenHash} {decision : DeviceDecision}
  {e : AccountEvent} {request : DeviceInit} {userId : Uuid}

theorem DeviceFacts.local_device {inp : Input} {pc : DevicePc} (h : DeviceFacts events c)
    (hp : (c.procs i).flow = .device pc) (hact : a = .go inp)
    (hdevice : DeviceStepped i inp c.shared (c.procs i) pc s p) :
    DeviceLocal (⟨i, a, c.shared, c.procs i, s, p⟩ :: events) i p := by
  have hi := (h.locally i).cons (e := ⟨i, a, c.shared, c.procs i, s, p⟩)
  have hclaiming := hi.claiming
  have hdeciding := hi.deciding
  have hsession : (Flow.device pc).unissued = true → (c.procs i).session = .idle :=
    hp ▸ hi.unissued
  rw [hp] at hclaiming hdeciding
  cases hdevice with
  | drawn =>
    exact ⟨fun _ => hsession rfl, by rintro _ ⟨⟩, by rintro _ _ _ _ ⟨⟩, by rintro _ _ ⟨⟩,
      by rintro _ ⟨⟩, by rintro _ _ _ _ ⟨⟩⟩
  | passed =>
    refine ⟨fun _ => hsession rfl, by rintro _ ⟨⟩, by rintro _ _ _ _ ⟨⟩, by rintro _ _ ⟨⟩, ?_,
      by rintro _ _ _ _ ⟨⟩⟩
    rintro _ ⟨⟩
    exact DeviceAuthStatus.noConfusion
  | targeted =>
    exact ⟨fun _ => hsession rfl, by rintro _ ⟨⟩, by rintro _ _ _ _ ⟨⟩, by rintro _ _ ⟨⟩,
      hdeciding, by rintro _ _ _ _ ⟨⟩⟩
  | weighed hget hpending =>
    refine ⟨fun _ => hsession rfl, by rintro _ ⟨⟩, by rintro _ _ _ _ ⟨⟩, by rintro _ _ ⟨⟩,
      hdeciding, ?_⟩
    rintro _ _ _ _ ⟨⟩
    exact ⟨hpending, inp.held, rfl, _, List.mem_cons_self, rfl, hp, ⟨_, _, rfl⟩, inp, hact, rfl⟩
  | @approved request entry userId clientId hget hclient houtcome =>
    refine ⟨fun _ => hsession rfl, by rintro _ ⟨⟩, ?_, by rintro _ _ ⟨⟩, by rintro _ ⟨⟩,
      by rintro _ _ _ _ ⟨⟩⟩
    rintro _ _ _ _ ⟨⟩
    obtain ⟨deadline, hentry, -⟩ := Redis.Store.get_eq_some.mp hget
    obtain ⟨hstatus, huser, hclient'⟩ := pollOutcome_eq_authorized houtcome
    exact ⟨(h.stored _ _ _ hentry).cons, hstatus, huser, hclient',
      Option.some.inj (hclient.symm.trans hclient'), hi.polling request hp⟩
  | admitted | claimed =>
    exact ⟨fun _ => hsession rfl, by rintro _ ⟨⟩, hclaiming, by rintro _ _ ⟨⟩, by rintro _ ⟨⟩,
      by rintro _ _ _ _ ⟨⟩⟩
  | @issuing request entry userId clientId s' hidle hs =>
    refine ⟨by rintro ⟨⟩, by rintro _ ⟨⟩, by rintro _ _ _ _ ⟨⟩, ?_, by rintro _ ⟨⟩,
      by rintro _ _ _ _ ⟨⟩⟩
    rintro _ _ ⟨⟩
    exact ⟨request, entry, clientId, rfl, hclaiming request entry userId clientId rfl, rfl⟩
  | stored | decided | paced | freed | finished | refused =>
    exact .of_other (by rintro _ ⟨⟩) (by rintro ⟨⟩)
  | _ =>
    exact ⟨fun _ => hsession rfl, by rintro _ ⟨⟩, by rintro _ _ _ _ ⟨⟩, by rintro _ _ ⟨⟩,
      by rintro _ ⟨⟩, by rintro _ _ _ _ ⟨⟩⟩

theorem DeviceFacts.local_own (h : DeviceFacts events c)
    (hprog : accountProgram i a c.shared (c.procs i) = some (s, p)) :
    DeviceLocal (⟨i, a, c.shared, c.procs i, s, p⟩ :: events) i p := by
  have hi := (h.locally i).cons (e := ⟨i, a, c.shared, c.procs i, s, p⟩)
  cases deviceMoved hprog with
  | session b hb hact hcall hstep hkept hflow =>
    refine ⟨fun hun => ?_, ?_, ?_, fun hash userId hissue => ?_, ?_, ?_⟩
    · rw [hi.unissued (hflow ▸ hun)] at hstep
      exact (idle_step hb hstep).1
    · rw [hflow]
      exact hi.polling
    · rw [hflow]
      exact hi.claiming
    · obtain ⟨request, entry, clientId, heq, hgranted, hargs⟩ :=
        hi.issuing hash userId (hflow ▸ hissue)
      exact ⟨request, entry, clientId, heq, hgranted, Pc.issuesWith_step hargs hstep⟩
    · rw [hflow]
      exact hi.deciding
    · rw [hflow]
      exact hi.swapping
  | @entered call _ _ hidle hs henter =>
    have hsession := (h.locally i).unissued (by rw [hidle]; rfl)
    cases call with
    | initiateDevice | verifyDevice =>
      cases henter
      exact ⟨fun _ => hsession, by rintro _ ⟨⟩, by rintro _ _ _ _ ⟨⟩, by rintro _ _ ⟨⟩,
        by rintro _ ⟨⟩, by rintro _ _ _ _ ⟨⟩⟩
    | denyDevice =>
      cases henter
      refine ⟨fun _ => hsession, by rintro _ ⟨⟩, by rintro _ _ _ _ ⟨⟩, by rintro _ _ ⟨⟩, ?_,
        by rintro _ _ _ _ ⟨⟩⟩
      rintro _ ⟨⟩
      exact DeviceAuthStatus.noConfusion
    | pollDevice =>
      cases henter
      refine ⟨fun _ => hsession, ?_, by rintro _ _ _ _ ⟨⟩, by rintro _ _ ⟨⟩, by rintro _ ⟨⟩,
        by rintro _ _ _ _ ⟨⟩⟩
      rintro _ ⟨⟩
      exact ⟨_, List.mem_cons_self, rfl, rfl⟩
    | session call | resetPassword userId
    | changePassword =>
      obtain ⟨-, -, -, rfl⟩ := AccountState.call_eq_some henter
      exact .of_other (by rintro _ ⟨⟩) (by rintro ⟨⟩)
    | _ =>
      cases henter
      exact .of_other (by rintro _ ⟨⟩) (by rintro ⟨⟩)
  | elsewhere hcall hp hp' =>
    refine .of_other (fun pc hflow => ?_) fun hflow => ?_
    · rw [hflow] at hp'
      cases hp'
    · rw [hflow] at hp'
      cases hp'
  | failed hp' =>
    refine .of_other (fun pc hflow => ?_) fun hflow => ?_
    · rw [hp'] at hflow
      cases hflow
    · rw [hp'] at hflow
      cases hflow
  | device hp hdevice =>
    exact h.local_device hp rfl hdevice

inductive EntryMoved (hash : TokenHash) (s : AccountState) (p : Request) (s' : AccountState)
    (p' : Request) : Prop
  | same (h : s'.devices.entry hash = s.devices.entry hash)
  | gone (h : s'.devices.entry hash = none)
  | stored {request : DeviceInit} {userCode : String} {deadline : Option Int}
      (hp : p.flow = .device (.store request hash userCode))
      (hp' : p'.flow = .done (.initiated hash userCode))
      (h : s'.devices.entry hash = some (request.entry userCode s.sessions.clock, deadline))
  | decided {decision : DeviceDecision} {raw updated : DeviceAuthState} {deadline : Option Int}
      (hp : p.flow = .device (.swap decision hash raw updated))
      (hp' : p'.flow = .done .decided)
      (hraw : s.devices.entry hash = some (raw, deadline))
      (h : s'.devices.entry hash = some (updated, deadline))

theorem entryMoved (h : accountProgram i a s p = some (s', p'))
    (hash : TokenHash) : EntryMoved hash s p s' p' := by
  cases deviceMoved h with
  | session b hb hact hcall hstep hkept hflow | elsewhere hcall hp hp' hkept
  | failed hp' hanswer hkept => exact .same (by rw [hkept.devices])
  | entered hidle hs => exact .same (by rw [hs])
  | device hp hdevice =>
    cases hdevice with
    | drawn hdraw =>
      obtain ⟨-, rfl⟩ := s.draw_eq_some hdraw
      exact .same rfl
    | @stored request hash' userCode =>
      by_cases hne : hash = hash'
      · subst hne
        exact .stored hp rfl Redis.Store.setEx_entry_self
      · exact .same (Redis.Store.setEx_entry_of_ne hne)
    | @decided decision hash' raw updated hget =>
      by_cases hne : hash = hash'
      · subst hne
        obtain ⟨deadline, hraw, hlive⟩ := Redis.Store.get_eq_some.mp hget
        exact .decided hp rfl hraw
          (Redis.Store.alter_entry_of_live (f := fun _ => some updated) hraw hlive)
      · exact .same (Redis.Store.alter_entry_of_ne (f := fun _ => some updated) hne)
    | @forgot hash' userCode =>
      by_cases hne : hash = hash'
      · subst hne
        exact .gone Redis.Store.del_entry_self
      · exact .same (Redis.Store.del_entry_of_ne hne)
    | @claimed request entry userId clientId hlive =>
      by_cases hne : hash = request.deviceHash
      · subst hne
        exact .gone Redis.Store.del_entry_self
      · exact .same (Redis.Store.del_entry_of_ne hne)
    | issuing hidle hs => rcases hs with rfl | rfl <;> exact .same rfl
    | _ => exact .same rfl

theorem decides_entry (hdecides : Decides hash decision ⟨i, a, s, p, s', p'⟩)
    (h : accountProgram i a s p = some (s', p')) :
    ∃ raw updated deadline, p.flow = .device (.swap decision hash raw updated) ∧
      s.devices.entry hash = some (raw, deadline) ∧
      s'.devices.entry hash = some (updated, deadline) ∧ Redis.live s.now deadline = true := by
  obtain ⟨⟨raw, updated, hp⟩, hp'⟩ := hdecides
  dsimp only at hp hp'
  cases deviceMoved h with
  | session b hb hact hcall hstep hkept hflow =>
    rw [hflow, hp] at hp'
    cases hp'
  | entered hidle =>
    rw [hidle] at hp
    cases hp
  | elsewhere hcall hother _ => exact absurd hp (hother _)
  | failed hfail hanswer =>
    rw [hfail, hanswer] at hp'
    cases hp'
  | device hflow hdevice =>
    rw [hp] at hflow
    cases hflow
    cases hdevice with
    | decided hget =>
      obtain ⟨deadline, hraw, hlive⟩ := Redis.Store.get_eq_some.mp hget
      exact ⟨raw, updated, deadline, hp, hraw,
        Redis.Store.alter_entry_of_live (f := fun _ => some updated) hraw hlive, hlive⟩
    | refused => cases hp'

theorem DeviceFacts.stored_set (h : DeviceFacts events c)
    (hprog : accountProgram i a c.shared (c.procs i) = some (s, p)) {entry : DeviceAuthState}
    {deadline : Option Int} (hentry : s.devices.entry hash = some (entry, deadline)) :
    Came (⟨i, a, c.shared, c.procs i, s, p⟩ :: events) hash entry := by
  cases entryMoved hprog hash with
  | same hsame => exact (h.stored _ _ _ (hsame.symm.trans hentry)).cons
  | gone hgone =>
    rw [hgone] at hentry
    cases hentry
  | stored hp hp' hnew =>
    rw [hnew] at hentry
    cases hentry
    exact .pending ⟨_, List.mem_cons_self, _, hp, hp'⟩
  | @decided decision raw updated deadline' hp hp' hraw hnew =>
    rw [hnew] at hentry
    cases hentry
    obtain ⟨hpending, held, rfl, e, he, hproc, hread⟩ :=
      (h.locally i).swapping decision hash raw _ hp
    have hdecision := (h.locally i).deciding decision (by rw [hp]; rfl)
    have hwith : DecidedWith (⟨i, a, c.shared, c.procs i, s, p⟩ :: events) hash decision held :=
      ⟨_, events, List.suffix_rfl, ⟨⟨raw, _, hp⟩, hp'⟩, e, he, hproc, hread⟩
    cases h.stored _ _ _ hraw with
    | pending hinit => exact .decided hinit.cons hwith hdecision
    | decided hinit hwith' hstatus => exact absurd hpending hstatus

theorem initiated_cons (h : Initiated (e :: events) hash request) :
    Initiates hash request e ∨ Initiated events hash request := by
  obtain ⟨e', he', h⟩ := h
  rcases List.mem_cons.mp he' with rfl | he'
  · exact .inl h
  · exact .inr ⟨e', he', h⟩

theorem reserving_of_initiates (h : Initiates hash request ⟨i, a, s, p, s', p'⟩) :
    p.flow.reserving = some hash := by
  obtain ⟨userCode, hp, -⟩ := h
  dsimp only at hp
  rw [hp]
  rfl

/-- A device code a request begins to reserve was not drawn before. -/
theorem reserving_step (h : accountProgram i a s p = some (s', p'))
    (hres : p'.flow.reserving = some hash) :
    p.flow.reserving = some hash ∨ s.drawn hash = none := by
  cases deviceMoved h with
  | session b hb hact hcall hstep hkept hflow => exact .inl (hflow ▸ hres)
  | @entered call _ _ hidle hs henter =>
    rw [(enter_aside henter).2.reserving] at hres
    cases hres
  | elsewhere hcall hp hp' =>
    cases hflow : p'.flow with
    | device =>
      rw [hflow] at hp'
      cases hp'
    | _ =>
      rw [hflow] at hres
      cases hres
  | failed hp' =>
    rw [hp'] at hres
    cases hres
  | device hp hdevice =>
    cases hdevice with
    | drawn hdraw =>
      cases hres
      exact .inr (s.draw_eq_some hdraw).1
    | taken | reserved => exact .inl (by rw [hp]; exact hres)
    | _ => cases hres

section

variable (h : DeviceFacts events c) (hprog : accountProgram i a c.shared (c.procs i) = some (s, p))
include h hprog

theorem DeviceFacts.known_set
    (hinit : Initiated (⟨i, a, c.shared, c.procs i, s, p⟩ :: events) hash request) :
    (s.drawn hash).isSome := by
  have hdrawn : ∃ j, c.shared.drawn hash = some j := by
    rcases initiated_cons hinit with hnow | hold
    · exact ⟨i, ((h.account.locally i).reserved hash (reserving_of_initiates hnow)).drawn⟩
    · exact Option.isSome_iff_exists.mp (h.known hash request hold)
  obtain ⟨j, hj⟩ := hdrawn
  rw [(h.account.approvals hprog).rely.drawn hash j hj]
  rfl

theorem DeviceFacts.reserving_set {j : Nat}
    (hres : ((c.set i s p).procs j).flow.reserving = some hash)
    (hinit : Initiated (⟨i, a, c.shared, c.procs i, s, p⟩ :: events) hash request) : False := by
  have haccount := h.account.set hprog
  have hdrawn : s.drawn hash = some j := ((haccount.locally j).reserved hash hres).drawn
  rcases initiated_cons hinit with hnow | hold
  · -- The flow is stored by the request that has drawn its code, which ends.
    have hi := ((h.account.locally i).reserved hash (reserving_of_initiates hnow)).drawn
    rw [(h.account.approvals hprog).rely.drawn hash i hi] at hdrawn
    cases hdrawn
    obtain ⟨userCode, -, hp'⟩ := hnow
    rw [Conf.set_procs_self, show p.flow = _ from hp'] at hres
    cases hres
  · by_cases hbefore : (c.procs j).flow.reserving = some hash
    · exact h.reserving j hash hbefore request hold
    · -- Nobody draws a code that was drawn before.
      have hknown := h.known hash request hold
      have hji : j = i := by
        by_contra hne
        rw [Conf.set_procs_of_ne _ _ _ hne] at hres
        exact hbefore hres
      subst hji
      rw [Conf.set_procs_self] at hres
      rcases reserving_step hprog hres with hsame | hfresh
      · exact hbefore hsame
      · rw [hfresh] at hknown
        cases hknown

theorem DeviceFacts.decided_set
    (he : e ∈ (⟨i, a, c.shared, c.procs i, s, p⟩ : AccountEvent) :: events)
    (hdecides : Decides hash decision e) :
    decision.status ≠ .pending ∧
      (∃ request, Initiated (⟨i, a, c.shared, c.procs i, s, p⟩ :: events) hash request) ∧
      ∀ entry deadline, s.devices.entry hash = some (entry, deadline) →
        entry.status = decision.status ∧
          (decision.status = .authorized → entry.userId = some decision.userId) := by
  have hupdated : ∀ decision raw updated,
      (c.procs i).flow = .device (.swap decision hash raw updated) →
      decision.status ≠ .pending ∧ raw.status = .pending ∧ updated.status = decision.status ∧
        (decision.status = .authorized → updated.userId = some decision.userId) := by
    intro decision raw updated hp
    obtain ⟨hpending, held, rfl, -⟩ := (h.locally i).swapping decision hash raw updated hp
    refine ⟨(h.locally i).deciding decision (by rw [hp]; rfl), hpending, rfl, fun hauth => ?_⟩
    simp only [DeviceAuthState.decided, hauth, if_true]
  rcases List.mem_cons.mp he with rfl | he
  · obtain ⟨raw, updated, deadline, hp, hraw, hnew, -⟩ := decides_entry hdecides hprog
    obtain ⟨hstatus, -, hupdated⟩ := hupdated decision raw updated hp
    obtain ⟨request, hinit⟩ := (h.stored _ _ _ hraw).initiated
    refine ⟨hstatus, ⟨request, hinit.cons⟩, fun entry deadline' hentry => ?_⟩
    rw [hnew] at hentry
    cases hentry
    exact hupdated
  · obtain ⟨hstatus, ⟨request, hinit⟩, hentries⟩ := h.decided hash decision e he hdecides
    refine ⟨hstatus, ⟨request, hinit.cons⟩, fun entry deadline hentry => ?_⟩
    cases entryMoved hprog hash with
    | same hsame => exact hentries entry deadline (hsame.symm.trans hentry)
    | gone hgone =>
      rw [hgone] at hentry
      cases hentry
    | stored hp =>
      exact (h.reserving i hash (by rw [hp]; rfl) request hinit).elim
    | decided hp hp' hraw =>
      obtain ⟨-, hpending, -⟩ := hupdated _ _ _ hp
      exact absurd (hpending.symm.trans (hentries _ _ hraw).1).symm hstatus

end

theorem grant_step (h : accountProgram i a s p = some (s', p'))
    (hgrant : p'.flow.grant = some (.device hash, userId)) :
    p.flow.grant = some (.device hash, userId) ∨
      (s.devices.get s.now hash).isSome ∧ s'.devices.entry hash = none := by
  cases deviceMoved h with
  | session b hb hact hcall hstep hkept hflow => exact .inl (hflow ▸ hgrant)
  | entered hidle hs henter =>
    rw [(enter_aside henter).2.grant] at hgrant
    cases hgrant
  | elsewhere hcall hp hp' =>
    cases hflow : p'.flow with
    | device =>
      rw [hflow] at hp'
      cases hp'
    | redeem pc =>
      rw [hflow] at hgrant
      cases pc <;> cases hgrant
    | _ =>
      rw [hflow] at hgrant
      cases hgrant
  | failed hp' =>
    rw [hp'] at hgrant
    cases hgrant
  | device hp hdevice =>
    cases hdevice with
    | claimed hlive =>
      cases hgrant
      exact .inr ⟨hlive, Redis.Store.del_entry_self⟩
    | issuing => exact .inl (by rw [hp]; exact hgrant)
    | _ => cases hgrant

theorem claims_eq_some (h : p.claims = some hash) :
    ∃ userId, p.flow.grant = some (.device hash, userId) ∧ p.session.outcome = none := by
  unfold Request.claims at h
  split at h
  · rename_i userId hgrant hnone
    cases h
    exact ⟨userId, hgrant, hnone⟩
  · cases h

section

variable (h : DeviceFacts events c) (hprog : accountProgram i a c.shared (c.procs i) = some (s, p))
include h hprog

theorem DeviceFacts.claims_step :
    Handled (FlowEnded events c.shared)
      (FlowEnded (⟨i, a, c.shared, c.procs i, s, p⟩ :: events) s) (c.procs i).claims
      (c.shared.issued.filterMap Issuance.device) p.claims
      (s.issued.filterMap Issuance.device) := by
  rcases issued_step (h.account.sessions.procs i) hprog with hsame | ⟨new, hcommit, hdone, hflow,
      hissued, -⟩
  · rw [hsame]
    cases hclaims : p.claims with
    | none => exact .drops
    | some hash =>
      obtain ⟨userId, hgrant, hnone⟩ := claims_eq_some hclaims
      rcases grant_step hprog hgrant with hold | ⟨hlive, hgone⟩
      · have hnone' : (c.procs i).session.outcome = none := by
          by_contra hsome
          have := outcome_set (j := i) hprog (Option.isSome_iff_ne_none.mpr hsome)
          rw [Conf.set_procs_self, hnone] at this
          cases this
        have hbefore : (c.procs i).claims = some hash := by
          simp [Request.claims, hold, hnone']
        rw [hbefore]
        exact .keeps
      · obtain ⟨entry, hget⟩ := Option.isSome_iff_exists.mp hlive
        obtain ⟨deadline, hentry, -⟩ := Redis.Store.get_eq_some.mp hget
        obtain ⟨request, hinit⟩ := (h.stored _ _ _ hentry).initiated
        refine .takes (fun hended => ?_) ⟨⟨request, hinit.cons⟩, hgone⟩
        rw [hended.2] at hentry
        cases hentry
  · have hafter : p.claims = none := by
      simp [Request.claims, hdone, Pc.outcome]
    rw [hafter, hissued]
    cases hgrant : (c.procs i).flow.grant with
    | none => exact .drops
    | some grant =>
      obtain ⟨approval, userId⟩ := grant
      cases approval with
      | code => exact .drops
      | device =>
        refine .uses ?_
        simp [Request.claims, hgrant, hcommit, Pc.outcome]

theorem DeviceFacts.ended_set (hended : FlowEnded events c.shared hash) :
    FlowEnded (⟨i, a, c.shared, c.procs i, s, p⟩ :: events) s hash := by
  obtain ⟨⟨request, hinit⟩, hnone⟩ := hended
  refine ⟨⟨request, hinit.cons⟩, ?_⟩
  cases entryMoved hprog hash with
  | same hsame => exact hsame.trans hnone
  | gone hgone => exact hgone
  | stored hp => exact (h.reserving i hash (by rw [hp]; rfl) request hinit).elim
  | decided hp hp' hraw =>
    rw [hnone] at hraw
    cases hraw

theorem DeviceFacts.set :
    DeviceFacts (⟨i, a, c.shared, c.procs i, s, p⟩ :: events) (c.set i s p) where
  account := h.account.set hprog
  locally j := by
    refine Conf.set_cases j ?_ fun j _ => ?_
    · exact h.local_own hprog
    · exact (h.locally j).cons
  stored _ _ _ hentry := h.stored_set hprog hentry
  known _ _ hinit := h.known_set hprog hinit
  reserving _ _ hres _ hinit := h.reserving_set hprog hres hinit
  decided _ _ _ he hdecides := h.decided_set hprog he hdecides
  once := h.once.step (fun _ hended => h.ended_set hprog hended) (h.claims_step hprog)

end

theorem DeviceFacts.initial (cfg : JwtConfig) (deviceAuth : DeviceAuthConfig)
    (clock : OffsetDateTime) : DeviceFacts [] (accountInitial cfg deviceAuth clock) where
  account := AccountReachable.accountable ⟨cfg, deviceAuth, clock, .refl⟩
  locally _ := .of_other (by rintro _ ⟨⟩) fun _ => rfl
  stored _ _ _ hentry := by cases hentry
  known _ _ hinit := by
    obtain ⟨e, he, -⟩ := hinit
    cases he
  reserving _ _ hres := by cases hres
  decided _ _ _ he := by cases he
  once := .empty fun _ => rfl

theorem deviceFacts_of_traced {ok : AccountConf → Nat → AccountAct → Prop} {cfg : JwtConfig}
    {deviceAuth : DeviceAuthConfig} {clock : OffsetDateTime}
    (hrun : Traced accountProgram ok (accountInitial cfg deviceAuth clock) events c) :
    DeviceFacts events c :=
  hrun.invariant (fun _ _ _ a _ _ h _ hprog => h.set (a := a) hprog)
    (.initial cfg deviceAuth clock)

theorem DeviceFacts.commits (h : DeviceFacts events c)
    (hprog : accountProgram i a c.shared (c.procs i) = some (s, p)) {sessionId : Uuid}
    (hcommits : s.issued = ⟨.device hash, userId, sessionId⟩ :: c.shared.issued) :
    ∃ init poll decision held session, Initiated events hash init ∧ Polled events i poll ∧
      poll.deviceHash = hash ∧ poll.clientId = init.clientId ∧
      DecidedWith events hash decision held ∧ decision.status = .authorized ∧
      decision.userId = userId ∧ s.sessions.store sessionId = some session ∧
      session.val.userId = userId ∧ session.val.clientId = some init.clientId ∧
      session.val.scopes = consent init.scopes (held decision.userId) := by
  rcases issued_step (h.account.sessions.procs i) hprog with hsame | ⟨new, hcommit, -, -, hissued,
      hstore⟩
  · rw [hsame] at hcommits
    simp at hcommits
  rw [hissued] at hcommits
  have hi := h.locally i
  cases hflow : (c.procs i).flow with
  | device pc =>
    cases pc with
    | claimed =>
      have hidle := hi.unissued (by rw [hflow]; rfl)
      rw [hidle] at hcommit
      cases hcommit
    | issue hash' user =>
      rw [hflow] at hcommits
      simp only [Flow.grant, Option.map_some, Option.toList_some, List.singleton_append,
        List.cons.injEq, Issuance.mk.injEq, Approval.device.injEq, and_true] at hcommits
      obtain ⟨rfl, rfl, rfl⟩ := hcommits
      obtain ⟨poll, entry, clientId, rfl, hgranted, hargs⟩ := hi.issuing hash' user hflow
      rw [hcommit] at hargs
      obtain ⟨huser, hclient, hscopes⟩ := hargs
      obtain ⟨init, decision, held, hinit, hdecided, hstatus, hby, rfl, hconsent⟩ :=
        hgranted.came.authorized hgranted.status hgranted.user hgranted.client
      exact ⟨init, poll, decision, held, new, hinit, hgranted.polled, rfl, hgranted.own, hdecided,
        hstatus, hby, hstore, huser, hclient, hscopes.trans hconsent⟩
    | _ =>
      rw [hflow] at hcommits
      simp [Flow.grant] at hcommits
  | redeem pc =>
    rw [hflow] at hcommits
    cases pc <;> simp [Flow.grant] at hcommits
  | _ =>
    rw [hflow] at hcommits
    simp [Flow.grant] at hcommits

/-- **A device flow yields what was approved.** In every run, each flow
issues one session at most: to a poll by the client that started it, after
an approval, for the user who approved, with the consent computed from what
was requested and what that user held. A flow is decided once, and the
decision stands. -/
theorem device_flow_as_approved {cfg : JwtConfig} {deviceAuth : DeviceAuthConfig}
    {clock : OffsetDateTime}
    (hrun : Traced accountProgram Free (accountInitial cfg deviceAuth clock) events c)
    (hash : TokenHash) :
    (c.shared.issued.filter fun issuance => issuance.approval = .device hash).length ≤ 1 ∧
    (∀ e past userId sessionId, e :: past <:+ events →
      Commits ⟨.device hash, userId, sessionId⟩ e →
      ∃ init poll decision held session, Initiated past hash init ∧ Polled past e.proc poll ∧
        poll.deviceHash = hash ∧ poll.clientId = init.clientId ∧
        DecidedWith past hash decision held ∧ decision.status = .authorized ∧
        decision.userId = userId ∧ e.shared'.sessions.store sessionId = some session ∧
        session.val.userId = userId ∧ session.val.clientId = some init.clientId ∧
        session.val.scopes = consent init.scopes (held decision.userId)) ∧
    (∀ e past request request', e :: past <:+ events → Initiates hash request e →
      ¬ Initiated past hash request') ∧
    (∀ e past decision decision', e :: past <:+ events → Decides hash decision e →
      ∀ e' ∈ past, ¬ Decides hash decision' e') ∧
    ∀ e ∈ events, ∀ decision entry, Decides hash decision e →
      c.shared.devices.get c.shared.now hash = some entry →
      entry.status = decision.status ∧
        (decision.status = .authorized → entry.userId = some decision.userId) := by
  have h := deviceFacts_of_traced hrun
  refine ⟨?_, ?_, ?_, ?_, ?_⟩
  · have hcount := List.nodup_iff_count_le_one.mp h.once.nodup hash
    rw [List.count, List.countP_filterMap] at hcount
    rw [← List.countP_eq_length_filter]
    refine le_trans (List.countP_mono_left fun issuance _ hissuance => ?_) hcount
    have happroval : issuance.approval = .device hash := of_decide_eq_true hissuance
    simp [Issuance.device, happroval]
  · intro e past userId sessionId he hcommits
    obtain ⟨c', hpast, -, hprog, heq⟩ := hrun.event he
    rw [heq] at hcommits
    exact (deviceFacts_of_traced hpast).commits hprog hcommits
  · intro e past request request' he hinitiates
    obtain ⟨c', hpast, -, hprog, heq⟩ := hrun.event he
    rw [heq] at hinitiates
    exact (deviceFacts_of_traced hpast).reserving _ hash (reserving_of_initiates hinitiates)
      request'
  · intro e past decision decision' he hdecides e' he' hdecides'
    obtain ⟨c', hpast, -, hprog, heq⟩ := hrun.event he
    rw [heq] at hdecides
    have hfacts := deviceFacts_of_traced hpast
    obtain ⟨raw, updated, deadline, hp, hraw, -⟩ := decides_entry hdecides hprog
    obtain ⟨hpending, -⟩ := (hfacts.locally _).swapping decision hash raw updated hp
    obtain ⟨hstatus, -, hentries⟩ := hfacts.decided hash decision' e' he' hdecides'
    exact hstatus ((hentries raw deadline hraw).1.symm.trans hpending)
  · intro e he decision entry hdecides hget
    obtain ⟨deadline, hentry, -⟩ := Redis.Store.get_eq_some.mp hget
    exact (h.decided hash decision e he hdecides).2.2 entry deadline hentry

end Runs

/-- A device asks for two scopes, of which the account 1 holds one, and
polls until its session is committed. -/
def scopedFlow : List (Nat × AccountAct) :=
  [(1, .start (.initiateDevice ⟨none, none, "tv", some ["openid", "files:read", "files:write"]⟩)),
    (1, .go { tokenHash := 8 }), (1, .go { userCode := "ABCD-2345" }), (1, .go {}),
    (4, .start (.verifyDevice "ABCD-2345" 1)), (4, .go {}), (4, .go {}), (4, .go {}),
    (4, .go {}), (4, .go { held := fun userId => if userId = 1 then ["files:read"] else [] }),
    (4, .go {})] ++
  pollSchedule ++ issueSchedule 3 9 4 5

theorem scoped_flow_as_approved :
    ∃ e past c, Traced accountProgram Free
        (accountInitial shortSessions ⟨300, 5⟩ (instant 100)) (e :: past) c ∧
      Commits ⟨.device 8, 1, 5⟩ e ∧
      ∃ init poll decision held session, Initiated past 8 init ∧ Polled past e.proc poll ∧
        poll.clientId = init.clientId ∧ DecidedWith past 8 decision held ∧
        decision.userId = 1 ∧ e.shared'.sessions.store 5 = some session ∧
        session.val.scopes = consent init.scopes (held decision.userId) := by
  obtain ⟨⟨events, c⟩, hrecord, hlast⟩ :
      ∃ r ∈ record accountProgram Free [] (accountInitial shortSessions ⟨300, 5⟩ (instant 100))
      scopedFlow, (r.1.head?.map fun e => (e.shared'.issued, e.shared.issued)) =
      some ([⟨.device 8, 1, 5⟩], []) := by
    decide +kernel
  obtain ⟨e, hhead, heq⟩ := Option.map_eq_some_iff.mp hlast
  obtain ⟨hafter, hbefore⟩ := Prod.mk.inj heq
  obtain ⟨past, rfl⟩ := List.head?_eq_some_iff.mp hhead
  have htraced := Traced.refl.record hrecord
  have hcommits : Commits ⟨.device 8, 1, 5⟩ e := by rw [Commits, hafter, hbefore]
  obtain ⟨init, poll, decision, held, session, hinit, hpoll, -, hclient, hdecided, -, hby, hstore,
    -, -, hscopes⟩ := (device_flow_as_approved htraced 8).2.1 e past 1 5 List.suffix_rfl hcommits
  exact ⟨e, past, c, htraced, hcommits, init, poll, decision, held, session, hinit, hpoll, hclient,
    hdecided, hby, hstore, hscopes⟩

end AuthApi
