import AuthApi.SessionSystem
import AuthApi.Trace

/-!
# The signing secret of a webhook endpoint

Each endpoint has a secret that its deliveries are signed with. `update`
gives it a new one when it points the endpoint to another host, since the
former host knows the old one; `rotate_secret` gives it a new one at any
time.

Whether an update moves the endpoint is decided from a row that was read
before its transaction. If another update moves the endpoint in between,
the endpoint is moved back with the secret of the other host
(`moved_back_with_secret`). If the host is the one that was read when
the row is updated, no secret is ever in force for two hosts
(`secret_of_one_host`).

Secrets are not drawn twice. The settings of an update are those `checked`
returns, and how a URL is parsed is a parameter.
-/

namespace AuthApi

open Conc

/-- The random bytes of a signing secret. -/
abbrev WebhookSecret := Nat

structure EndpointSettings where
  url : String
  description : Option String
  events : List String
  enabled : Bool
deriving DecidableEq

/-- A row of `webhook_endpoints`. The secret is stored encrypted. -/
structure WebhookEndpoint extends EndpointSettings where
  secret : WebhookSecret
deriving DecidableEq

/-! ## Program -/

structure EndpointState where
  endpoints : Uuid → Pg.Slot WebhookEndpoint
  drawn : WebhookSecret → Bool

namespace EndpointState

def endpoint (s : EndpointState) (id : Uuid) : Option WebhookEndpoint :=
  (s.endpoints id).committed

def put (s : EndpointState) (id : Uuid) (slot : Pg.Slot WebhookEndpoint) : EndpointState :=
  { s with endpoints := Function.update s.endpoints id slot }

def draw (s : EndpointState) (secret : WebhookSecret) : EndpointState :=
  { s with drawn := Function.update s.drawn secret true }

end EndpointState

inductive EndpointAnswer where
  /-- `SavedEndpoint`, with the secret if one was generated. -/
  | saved (endpoint : WebhookEndpoint) (secret : Option WebhookSecret)
  | rotated (secret : WebhookSecret)
  | error (error : AppError)
deriving DecidableEq

/-- `update` finds the endpoint, updates it and may replace its secret;
`rotate_secret` draws a secret and replaces that of the endpoint. -/
inductive EndpointPc where
  | idle
  | find (id : Uuid) (settings : EndpointSettings)
  | update (id : Uuid) (settings : EndpointSettings) (previous : WebhookEndpoint)
  | replace (id : Uuid) (endpoint : WebhookEndpoint)
  | draw (id : Uuid)
  | rotate (id : Uuid) (secret : WebhookSecret)
  | commit (id : Uuid) (answer : EndpointAnswer)
  | done (answer : EndpointAnswer)
deriving DecidableEq

/-- The endpoint whose row the transaction has locked. -/
def EndpointPc.locked : EndpointPc → Option Uuid
  | .replace id _ => some id
  | .commit id _ => some id
  | _ => none

inductive EndpointAct where
  | update (id : Uuid) (settings : EndpointSettings)
  | rotateSecret (id : Uuid)
  /-- The secret is the one a `new_secret` draws. -/
  | go (secret : WebhookSecret)
  /-- The call is refused or cut off. -/
  | fail

abbrev EndpointStep := Option (EndpointState × EndpointPc)

section Program

variable (urlHost : String → Option String)

def endpointStep (i : Nat) (secret : WebhookSecret) (s : EndpointState) :
    EndpointPc → EndpointStep
  | .idle => none
  | .find id settings =>
    match s.endpoint id with
    | none => some (s, .done (.error .notFound))
    | some previous => some (s, .update id settings previous)
  | .update id settings previous =>
    match s.endpoints id with
    -- The row is locked: wait.
    | ⟨_, some _⟩ => none
    | ⟨none, none⟩ => some (s, .done (.error .notFound))
    | ⟨some e, none⟩ =>
      let endpoint : WebhookEndpoint := { settings with secret := e.secret }
      some (s.put id ⟨some e, some (i, some endpoint)⟩,
        if urlHost previous.url ≠ urlHost settings.url then .replace id endpoint
        else .commit id (.saved endpoint none))
  | .replace id endpoint =>
    if s.drawn secret then none
    else
      match s.endpoints id with
      | ⟨some e, some (_, some pending)⟩ =>
        some ((s.draw secret).put id
            ⟨some e, some (i, some { pending with secret := secret })⟩,
          .commit id (.saved endpoint (some secret)))
      | _ => none
  | .draw id => if s.drawn secret then none else some (s.draw secret, .rotate id secret)
  | .rotate id secret =>
    match s.endpoints id with
    | ⟨_, some _⟩ => none
    | ⟨none, none⟩ => some (s, .done (.error .notFound))
    | ⟨some e, none⟩ =>
      some (s.put id ⟨some e, some (i, some { e with secret := secret })⟩,
        .commit id (.rotated secret))
  | .commit id answer => some (s.put id ((s.endpoints id).commit i), .done answer)
  | .done _ => none

/-- A transaction that is cut off is rolled back. -/
def EndpointState.abandon (s : EndpointState) (i : Nat) (pc : EndpointPc) : EndpointState :=
  match pc.locked with
  | some id => s.put id ((s.endpoints id).rollback i)
  | none => s

def endpointProgram : Program EndpointState EndpointPc EndpointAct := fun i a s pc =>
  match a with
  | .update id settings =>
    match pc with
    | .idle => some (s, .find id settings)
    | _ => none
  | .rotateSecret id =>
    match pc with
    | .idle => some (s, .draw id)
    | _ => none
  | .go secret => endpointStep urlHost i secret s pc
  | .fail => some (s.abandon i pc, .done (.error .internal))

end Program

abbrev EndpointConf := Conf EndpointState EndpointPc

abbrev EndpointEvent := Event EndpointState EndpointPc EndpointAct

/-- The endpoints have been created, with the secrets in `drawn`. -/
def endpointInitial (rows : Uuid → Option WebhookEndpoint) (drawn : WebhookSecret → Bool) :
    EndpointConf where
  shared := { endpoints := fun id => ⟨rows id, none⟩, drawn := drawn }
  procs _ := .idle

/-- What was committed of the endpoint in the states of a run. -/
def inForce (id : Uuid) (c₀ : EndpointConf) (events : List EndpointEvent) :
    List WebhookEndpoint :=
  events.filterMap (fun e => e.shared'.endpoint id) ++ (c₀.shared.endpoint id).toList

/-- The endpoint a step of `update` writes, and what was read of it. -/
def updating (a : EndpointAct) (pc : EndpointPc) : Option (Uuid × WebhookEndpoint) :=
  match a, pc with
  | .go _, .update id _ previous => some (id, previous)
  | _, _ => none

/-- When `update` writes the row, it has the host that was read. -/
def HostUnchanged (urlHost : String → Option String) (c : EndpointConf) (i : Nat)
    (a : EndpointAct) : Prop :=
  ((updating a (c.procs i)).all fun (id, previous) =>
    (c.shared.endpoint id).all fun e => urlHost e.url = urlHost previous.url) = true

instance (urlHost : String → Option String) (c : EndpointConf) (i : Nat) (a : EndpointAct) :
    Decidable (HostUnchanged urlHost c i a) :=
  inferInstanceAs (Decidable (_ = true))

/-! ## Steps -/

section

variable (urlHost : String → Option String) (i : Nat) (s : EndpointState) (pc : EndpointPc)

inductive EndpointMoved : EndpointAct → EndpointState → EndpointPc → Prop
  | aside {a pc'} (hlocked : pc'.locked = none) (hrotate : ∀ id secret, pc' ≠ .rotate id secret) :
      EndpointMoved a s pc'
  | updated {secret id settings previous e} (hpc : pc = .update id settings previous)
      (hslot : s.endpoints id = ⟨some e, none⟩) :
      EndpointMoved (.go secret)
        (s.put id ⟨some e, some (i, some { settings with secret := e.secret })⟩)
        (if urlHost previous.url ≠ urlHost settings.url then
          .replace id { settings with secret := e.secret }
        else .commit id (.saved { settings with secret := e.secret } none))
  | replaced {secret id endpoint e pending j} (hpc : pc = .replace id endpoint)
      (hfresh : s.drawn secret = false)
      (hslot : s.endpoints id = ⟨some e, some (j, some pending)⟩) :
      EndpointMoved (.go secret)
        ((s.draw secret).put id ⟨some e, some (i, some { pending with secret := secret })⟩)
        (.commit id (.saved endpoint (some secret)))
  | drew {secret id} (hpc : pc = .draw id) (hfresh : s.drawn secret = false) :
      EndpointMoved (.go secret) (s.draw secret) (.rotate id secret)
  | rotated {secret secret' id e} (hpc : pc = .rotate id secret)
      (hslot : s.endpoints id = ⟨some e, none⟩) :
      EndpointMoved (.go secret')
        (s.put id ⟨some e, some (i, some { e with secret := secret })⟩)
        (.commit id (.rotated secret))
  | committed {secret id answer} (hpc : pc = .commit id answer) :
      EndpointMoved (.go secret) (s.put id ((s.endpoints id).commit i))
        (.done answer)
  | abandoned {id error} (hlocked : pc.locked = some id) :
      EndpointMoved .fail (s.put id ((s.endpoints id).rollback i))
        (.done (.error error))

end

section Steps

variable {urlHost : String → Option String} {i : Nat} {s s' : EndpointState} {pc pc' : EndpointPc}

theorem endpointStepped {secret : WebhookSecret}
    (h : endpointStep urlHost i secret s pc = some (s', pc')) :
    EndpointMoved urlHost i s pc (.go secret) s' pc' := by
  cases pc with
  | idle | done => cases h
  | find =>
    simp only [endpointStep] at h
    split at h <;> cases h
    · exact .aside rfl fun _ _ => EndpointPc.noConfusion
    · exact .aside rfl fun _ _ => EndpointPc.noConfusion
  | update id settings previous =>
    simp only [endpointStep] at h
    split at h <;> cases h
    · exact .aside rfl fun _ _ => EndpointPc.noConfusion
    · rename_i e hslot
      exact .updated rfl hslot
  | replace id endpoint =>
    simp only [endpointStep] at h
    split at h
    · cases h
    · rename_i hfresh
      split at h <;> cases h
      rename_i hslot
      exact .replaced rfl (Bool.eq_false_iff.mpr hfresh) hslot
  | draw id =>
    simp only [endpointStep] at h
    split at h <;> cases h
    rename_i hfresh
    exact .drew rfl (Bool.eq_false_iff.mpr hfresh)
  | rotate id secret =>
    simp only [endpointStep] at h
    split at h <;> cases h
    · exact .aside rfl fun _ _ => EndpointPc.noConfusion
    · rename_i hslot
      exact .rotated rfl hslot
  | commit =>
    cases h
    exact .committed rfl

theorem endpointMoved {a : EndpointAct}
    (h : endpointProgram urlHost i a s pc = some (s', pc')) :
    EndpointMoved urlHost i s pc a s' pc' := by
  cases a with
  | update | rotateSecret =>
    cases pc with
    | idle =>
      cases h
      exact .aside rfl fun _ _ => EndpointPc.noConfusion
    | _ => cases h
  | go => exact endpointStepped h
  | fail =>
    simp only [endpointProgram, EndpointState.abandon] at h
    split at h <;> cases h
    · rename_i hlocked
      exact .abandoned hlocked
    · exact .aside rfl fun _ _ => EndpointPc.noConfusion

@[simp] theorem EndpointState.put_self (s : EndpointState) (id : Uuid)
    (slot : Pg.Slot WebhookEndpoint) : (s.put id slot).endpoints id = slot := by
  simp [put]

theorem EndpointState.put_of_ne (s : EndpointState) {id id' : Uuid}
    (slot : Pg.Slot WebhookEndpoint) (hne : id' ≠ id) :
    (s.put id slot).endpoints id' = s.endpoints id' := by
  simp [put, hne]

theorem EndpointState.drawn_draw (s : EndpointState) (secret : WebhookSecret) :
    (s.draw secret).drawn secret = true := by
  simp [draw]

theorem EndpointState.draw_grows (s : EndpointState) (secret : WebhookSecret)
    {secret' : WebhookSecret} (h : s.drawn secret' = true) :
    (s.draw secret).drawn secret' = true := by
  by_cases heq : secret' = secret
  · rw [heq, drawn_draw]
  · simp [draw, heq, h]

end Steps

/-! ## Secrets and hosts -/

def WebhookEndpoint.host (urlHost : String → Option String) (e : WebhookEndpoint) :
    Option String :=
  urlHost e.url

/-- Process `j` has the lock of the row if its transaction does. -/
def HoldsRow (id : Uuid) (slot : Pg.Slot WebhookEndpoint) (j : Nat) (pc : EndpointPc) : Prop :=
  pc.locked = some id → ∃ e, slot.lock = some (j, some e)

/-- A secret names one host in what has been committed of the endpoint, and
what is about to be committed agrees with it. The secrets of rotations that
have not reached the row have not been used. -/
structure Bound (urlHost : String → Option String) (id : Uuid) (past : List WebhookEndpoint)
    (slot : Pg.Slot WebhookEndpoint) (drawn : WebhookSecret → Bool) (procs : Nat → EndpointPc) :
    Prop where
  agree : ∀ e ∈ past, ∀ e' ∈ past, e.secret = e'.secret → e.host urlHost = e'.host urlHost
  current : ∀ e, slot.committed = some e → e ∈ past
  known : ∀ e ∈ past, drawn e.secret = true
  written : ∀ j e, slot.lock = some (j, some e) → drawn e.secret = true
  held : ∀ j secret, procs j = .rotate id secret → drawn secret = true ∧
    (∀ e ∈ past, e.secret ≠ secret) ∧ ∀ k e, slot.lock = some (k, some e) → e.secret ≠ secret
  once : ∀ j k secret, procs j = .rotate id secret → procs k = .rotate id secret → j = k
  locking : ∀ j, HoldsRow id slot j (procs j)
  committing : ∀ j answer e, procs j = .commit id answer → slot.lock = some (j, some e) →
    ∀ e' ∈ past, e.secret = e'.secret → e.host urlHost = e'.host urlHost

namespace Bound

variable {urlHost : String → Option String} {id : Uuid} {past : List WebhookEndpoint}
  {slot slot' : Pg.Slot WebhookEndpoint} {drawn drawn' : WebhookSecret → Bool} {c : EndpointConf}
  {i : Nat} {s : EndpointState} {pc : EndpointPc} {e : WebhookEndpoint}

section

variable (h : Bound urlHost id past slot drawn c.procs)
include h

theorem remember (he : e ∈ past) : Bound urlHost id (e :: past) slot drawn c.procs := by
  have hmem : ∀ {e'}, e' ∈ e :: past → e' ∈ past := by
    intro e' he'
    rcases List.mem_cons.mp he' with rfl | he'
    · exact he
    · exact he'
  refine ⟨fun e₁ h₁ e₂ h₂ => h.agree e₁ (hmem h₁) e₂ (hmem h₂),
    fun e' he' => .tail _ (h.current e' he'), fun e' he' => h.known e' (hmem he'), h.written,
    fun j secret hj => ?_, h.once, h.locking,
    fun j answer e' hj hlock e'' he'' => h.committing j answer e' hj hlock e'' (hmem he'')⟩
  obtain ⟨hdrawn, hpast, hlock⟩ := h.held j secret hj
  exact ⟨hdrawn, fun e' he' => hpast e' (hmem he'), hlock⟩

/-- A step that leaves the row alone. A secret it draws is a new one. -/
theorem of_quiet (hdrawn : ∀ secret, drawn secret = true → drawn' secret = true)
    (hrotate : ∀ secret, pc = .rotate id secret → drawn secret = false ∧ drawn' secret = true)
    (hlocked : pc.locked ≠ some id) : Bound urlHost id past slot drawn' (c.set i s pc).procs := by
  refine ⟨h.agree, h.current, fun e he => hdrawn _ (h.known e he),
    fun j e he => hdrawn _ (h.written j e he), fun j secret hj => ?_, fun j k secret hj hk => ?_,
    fun j => Conf.set_cases (motive := HoldsRow id slot) j (fun hown => absurd hown hlocked)
      fun j _ => h.locking j, fun j answer e hj => ?_⟩
  · rcases Conf.set_procs_eq hj with ⟨-, hown⟩ | ⟨-, hbefore⟩
    · obtain ⟨hfresh, hnow⟩ := hrotate secret hown
      refine ⟨hnow, fun e he heq => ?_, fun k e he heq => ?_⟩
      · cases hfresh.symm.trans (heq ▸ h.known e he)
      · cases hfresh.symm.trans (heq ▸ h.written k e he)
    · obtain ⟨hold, hrest⟩ := h.held j secret hbefore
      exact ⟨hdrawn _ hold, hrest⟩
  · -- Another process holds a secret that was drawn before.
    have hother : ∀ {l}, c.procs l = .rotate id secret → pc ≠ .rotate id secret := by
      intro l hl hpc
      cases (hrotate secret hpc).1.symm.trans (h.held l secret hl).1
    rcases Conf.set_procs_eq hj with ⟨hji, hown⟩ | ⟨-, hbefore⟩ <;>
      rcases Conf.set_procs_eq hk with ⟨hki, hown'⟩ | ⟨-, hbefore'⟩
    · rw [hji, hki]
    · exact absurd hown (hother hbefore')
    · exact absurd hown' (hother hbefore)
    · exact h.once j k secret hbefore hbefore'
  · rcases Conf.set_procs_eq hj with ⟨-, hown⟩ | ⟨-, hbefore⟩
    · rw [hown] at hlocked
      exact absurd rfl hlocked
    · exact h.committing j answer e hbefore

/-- A step that writes a version `e` of the row in the transaction of
process `i`, which has its lock or takes it. -/
theorem write (hfree : ∀ j v, slot.lock = some (j, v) → j = i)
    (hslot : slot' = ⟨slot.committed, some (i, some e)⟩)
    (hgrows : ∀ secret, drawn secret = true → drawn' secret = true)
    (hdrawn : drawn' e.secret = true) (hunheld : ∀ j ≠ i, c.procs j ≠ .rotate id e.secret)
    (hrotate : ∀ secret, pc ≠ .rotate id secret)
    (hcommit : ∀ answer, pc = .commit id answer → ∀ e' ∈ past, e.secret = e'.secret →
      e.host urlHost = e'.host urlHost) :
    Bound urlHost id past slot' drawn' (c.set i s pc).procs := by
  subst hslot
  refine ⟨h.agree, h.current, fun e' he' => hgrows _ (h.known e' he'), fun j e' he' => ?_,
    fun j secret hj => ?_, fun j k secret hj hk => ?_,
    fun j => Conf.set_cases (motive := HoldsRow id _) j (fun _ => ⟨e, rfl⟩) fun j hji hj => ?_,
    fun j answer e' hj hlock => ?_⟩
  · cases he'
    exact hdrawn
  · rcases Conf.set_procs_eq hj with ⟨-, hj⟩ | ⟨hji, hj⟩
    · exact absurd hj (hrotate secret)
    · obtain ⟨hold, hpast, -⟩ := h.held j secret hj
      refine ⟨hgrows _ hold, hpast, fun k e' he' heq => ?_⟩
      cases he'
      exact hunheld j hji (heq ▸ hj)
  · have hother : ∀ {l}, (c.set i s pc).procs l = .rotate id secret →
        c.procs l = .rotate id secret := by
      intro l hl
      rcases Conf.set_procs_eq hl with ⟨-, hl⟩ | ⟨-, hl⟩
      · exact absurd hl (hrotate secret)
      · exact hl
    exact h.once j k secret (hother hj) (hother hk)
  · obtain ⟨e', hlock⟩ := h.locking j hj
    exact absurd (hfree _ _ hlock) hji
  · cases hlock
    rcases Conf.set_procs_eq hj with ⟨-, hj⟩ | ⟨hji, -⟩
    · exact hcommit answer hj
    · exact absurd rfl hji

theorem release {answer : EndpointAnswer} {v : Option WebhookEndpoint}
    (hlock : slot.lock = some (i, v)) (hslot : slot'.lock = none)
    (hcommitted : ∀ e, slot'.committed = some e → e ∈ past) :
    Bound urlHost id past slot' drawn (c.set i s (.done answer)).procs := by
  have hother : ∀ {j secret}, (c.set i s (.done answer)).procs j = .rotate id secret →
      c.procs j = .rotate id secret := by
    intro j secret hj
    rcases Conf.set_procs_eq hj with ⟨-, hj⟩ | ⟨-, hj⟩
    · cases hj
    · exact hj
  refine ⟨h.agree, hcommitted, h.known, fun j e he => ?_, fun j secret hj => ?_,
    fun j k secret hj hk => ?_,
    fun j => Conf.set_cases (motive := HoldsRow id slot') j (fun hdone => by cases hdone)
      fun j hji hj => ?_,
    fun j answer' e _ he => ?_⟩
  · rw [hslot] at he
    cases he
  · obtain ⟨hdrawn, hpast, -⟩ := h.held j secret (hother hj)
    refine ⟨hdrawn, hpast, fun k e he => ?_⟩
    rw [hslot] at he
    cases he
  · exact h.once j k secret (hother hj) (hother hk)
  · obtain ⟨e, he⟩ := h.locking j hj
    cases hlock.symm.trans he
    exact absurd rfl hji
  · rw [hslot] at he
    cases he

theorem extend (hlock : slot.lock = some (i, some e))
    (hagree : ∀ e' ∈ past, e.secret = e'.secret → e.host urlHost = e'.host urlHost) :
    Bound urlHost id (e :: past) slot drawn c.procs := by
  refine ⟨fun e₁ h₁ e₂ h₂ heq => ?_, fun e' he' => .tail _ (h.current e' he'), fun e' he' => ?_,
    h.written, fun j secret hj => ?_, h.once, h.locking, fun j answer e₁ _ he₁ e' he' heq => ?_⟩
  · rcases List.mem_cons.mp h₁ with rfl | hpast₁ <;> rcases List.mem_cons.mp h₂ with rfl | hpast₂
    · rfl
    · exact hagree e₂ hpast₂ heq
    · exact (hagree e₁ hpast₁ heq.symm).symm
    · exact h.agree e₁ hpast₁ e₂ hpast₂ heq
  · rcases List.mem_cons.mp he' with rfl | he'
    · exact h.written i e' hlock
    · exact h.known e' he'
  · obtain ⟨hdrawn, hpast, hwritten⟩ := h.held j secret hj
    refine ⟨hdrawn, fun e' he' => ?_, hwritten⟩
    rcases List.mem_cons.mp he' with rfl | he'
    · exact hwritten i e' hlock
    · exact hpast e' he'
  · cases hlock.symm.trans he₁
    rcases List.mem_cons.mp he' with rfl | he'
    · rfl
    · exact hagree e' he' heq

theorem recalled : Bound urlHost id (slot.committed.toList ++ past) slot drawn c.procs := by
  cases hslot : slot.committed with
  | none => exact h
  | some e => exact h.remember (h.current e hslot)

end

section

variable (h : Bound urlHost id past (c.shared.endpoints id) c.shared.drawn c.procs)
include h

theorem of_other {id' : Uuid} (hne : id ≠ id') (hrow : s.endpoints id = c.shared.endpoints id)
    (hgrows : ∀ secret, c.shared.drawn secret = true → s.drawn secret = true)
    (hlocked : pc.locked = some id' ∨ pc.locked = none)
    (hrotate : ∀ id secret, pc ≠ .rotate id secret) :
    Bound urlHost id ((s.endpoint id).toList ++ past) (s.endpoints id) s.drawn
      (c.set i s pc).procs := by
  rw [EndpointState.endpoint, hrow]
  refine (h.of_quiet hgrows (fun secret heq => absurd heq (hrotate id secret))
    fun heq => ?_).recalled
  rcases hlocked with hlocked | hlocked <;> cases hlocked.symm.trans heq
  exact hne rfl

/-- The row is written with the secret it has: if it is to be committed so,
its host is the one it had. -/
theorem update {settings : EndpointSettings} {previous : WebhookEndpoint} {secret : WebhookSecret}
    (hok : HostUnchanged urlHost c i (.go secret)) (hpc : c.procs i = .update id settings previous)
    (hslot : c.shared.endpoints id = ⟨some e, none⟩) :
    Bound urlHost id past ⟨some e, some (i, some { settings with secret := e.secret })⟩
      c.shared.drawn (c.set i s (if urlHost previous.url ≠ urlHost settings.url then
        .replace id { settings with secret := e.secret }
      else .commit id (.saved { settings with secret := e.secret } none))).procs := by
  have he : e ∈ past := h.current e (by rw [hslot])
  have hhost : urlHost e.url = urlHost previous.url := by
    simpa [HostUnchanged, updating, hpc, EndpointState.endpoint, hslot] using hok
  refine h.write (e := { settings with secret := e.secret }) (fun j v hlock => ?_)
    (by rw [hslot]) (fun _ hdrawn => hdrawn) (h.known e he) (fun j _ hj => ?_) (fun _ heq => ?_)
    fun answer heq e' he' hsecret => ?_
  · rw [hslot] at hlock
    cases hlock
  · exact (h.held j e.secret hj).2.1 e he rfl
  · split at heq <;> cases heq
  · split at heq
    · cases heq
    · rename_i hsame
      rw [← h.agree e he e' he' hsecret]
      exact (hhost.trans (not_not.mp hsame)).symm

theorem set {a : EndpointAct} (hok : HostUnchanged urlHost c i a)
    (hprog : endpointProgram urlHost i a c.shared (c.procs i) = some (s, pc)) :
    Bound urlHost id ((s.endpoint id).toList ++ past) (s.endpoints id) s.drawn
      (c.set i s pc).procs := by
  cases endpointMoved hprog with
  | aside hlocked hrotate =>
    refine (h.of_quiet (fun _ hdrawn => hdrawn) (fun secret heq => absurd heq (hrotate id secret))
      ?_).recalled
    rw [hlocked]
    exact fun heq => by cases heq
  | @updated _ id' settings previous e hpc hslot =>
    by_cases hne : id = id'
    · subst hne
      rw [EndpointState.endpoint, EndpointState.put_self]
      exact (h.update hok hpc hslot).recalled
    · refine h.of_other hne (EndpointState.put_of_ne _ _ hne) (fun _ hdrawn => hdrawn)
        (.inl ?_) fun _ _ heq => ?_
      · split <;> rfl
      · split at heq <;> cases heq
  | @replaced secret id' endpoint e pending j hpc hfresh hslot =>
    by_cases hne : id = id'
    · subst hne
      obtain ⟨e', hlock⟩ := h.locking i (by rw [hpc]; rfl)
      rw [hslot] at hlock
      cases hlock
      rw [EndpointState.endpoint, EndpointState.put_self]
      refine (h.write (e := { pending with secret := secret }) (fun j v hlock => ?_)
        (by rw [hslot]) (fun _ => c.shared.draw_grows secret) (c.shared.drawn_draw secret)
        (fun j _ hj => ?_) (fun _ => EndpointPc.noConfusion)
        fun _ _ e' he' hsecret => ?_).recalled
      · rw [hslot] at hlock
        cases hlock
        rfl
      · cases hfresh.symm.trans (h.held j secret hj).1
      · cases hfresh.symm.trans ((congrArg c.shared.drawn hsecret).trans (h.known e' he'))
    · exact h.of_other hne (EndpointState.put_of_ne _ _ hne)
        (fun _ => c.shared.draw_grows secret) (.inl rfl) fun _ _ => EndpointPc.noConfusion
  | @drew secret id' _ hfresh =>
    refine (h.of_quiet (fun _ => c.shared.draw_grows secret) (fun secret' heq => ?_)
      fun heq => by cases heq).recalled
    cases heq
    exact ⟨hfresh, c.shared.drawn_draw secret⟩
  | @rotated secret _ id' e hpc hslot =>
    by_cases hne : id = id'
    · subst hne
      obtain ⟨hdrawn, hpast, -⟩ := h.held i secret hpc
      rw [EndpointState.endpoint, EndpointState.put_self]
      refine (h.write (e := { e with secret := secret }) (fun j v hlock => ?_)
        (by rw [hslot]) (fun _ hdrawn => hdrawn) hdrawn (fun j hji hj => ?_)
        (fun _ => EndpointPc.noConfusion) fun _ _ e' he' hsecret => ?_).recalled
      · rw [hslot] at hlock
        cases hlock
      · exact hji (h.once j i secret hj hpc)
      · exact absurd hsecret.symm (hpast e' he')
    · exact h.of_other hne (EndpointState.put_of_ne _ _ hne) (fun _ hdrawn => hdrawn)
        (.inl rfl) fun _ _ => EndpointPc.noConfusion
  | @committed _ id' answer hpc =>
    by_cases hne : id = id'
    · subst hne
      obtain ⟨e, hlock⟩ := h.locking i (by rw [hpc]; rfl)
      have hcommit : (c.shared.endpoints id).commit i = ⟨some e, none⟩ := by
        simp [Pg.Slot.commit, Pg.Slot.holder, Pg.Slot.view, Pg.Slot.pending, hlock]
      rw [EndpointState.endpoint, EndpointState.put_self, hcommit]
      have hextended := h.extend hlock (h.committing i answer e hpc hlock)
      refine hextended.release hlock rfl fun e' he' => ?_
      cases he'
      exact .head _
    · exact h.of_other hne (EndpointState.put_of_ne _ _ hne) (fun _ hdrawn => hdrawn)
        (.inr rfl) fun _ _ => EndpointPc.noConfusion
  | @abandoned id' error hlocked =>
    by_cases hne : id = id'
    · subst hne
      obtain ⟨e, hlock⟩ := h.locking i hlocked
      rw [EndpointState.endpoint, EndpointState.put_self]
      refine (h.release hlock ?_ fun e' he' => ?_).recalled
      · simp [Pg.Slot.rollback, Pg.Slot.holder, hlock]
      · rw [Pg.Slot.rollback_committed] at he'
        exact h.current e' he'
    · exact h.of_other hne (EndpointState.put_of_ne _ _ hne) (fun _ hdrawn => hdrawn)
        (.inr rfl) fun _ _ => EndpointPc.noConfusion

end

end Bound

theorem inForce_cons (id : Uuid) (c₀ : EndpointConf) (e : EndpointEvent)
    (events : List EndpointEvent) :
    inForce id c₀ (e :: events) = (e.shared'.endpoint id).toList ++ inForce id c₀ events := by
  rw [inForce, inForce, List.filterMap_cons]
  cases e.shared'.endpoint id <;> rfl

theorem bound_initial {urlHost : String → Option String} {id : Uuid}
    {rows : Uuid → Option WebhookEndpoint} {drawn : WebhookSecret → Bool}
    (hdrawn : ∀ e, rows id = some e → drawn e.secret = true) :
    Bound urlHost id (inForce id (endpointInitial rows drawn) [])
      ((endpointInitial rows drawn).shared.endpoints id) drawn
      (endpointInitial rows drawn).procs := by
  have hmem : ∀ {e}, e ∈ inForce id (endpointInitial rows drawn) [] ↔ rows id = some e := by
    intro e
    exact Option.mem_toList
  exact {
    agree := fun e he e' he' _ => by
      cases (hmem.mp he).symm.trans (hmem.mp he')
      rfl
    current := fun e he => hmem.mpr he
    known := fun e he => hdrawn e (hmem.mp he)
    written := fun _ _ hlock => by cases hlock
    held := fun _ _ hj => by cases hj
    once := fun _ _ _ hj => by cases hj
    locking := fun _ hj => by cases hj
    committing := fun _ _ _ hj => by cases hj }

/-- **A secret has one host.** If the host of a row is the one that was read
whenever `update` writes it, no secret of an endpoint is in force while its
URL names one host and again while it names another. -/
theorem secret_of_one_host {urlHost : String → Option String} {id : Uuid}
    {rows : Uuid → Option WebhookEndpoint} {drawn : WebhookSecret → Bool}
    (hdrawn : ∀ e, rows id = some e → drawn e.secret = true) {events : List EndpointEvent}
    {c : EndpointConf}
    (hrun : Traced (endpointProgram urlHost) (HostUnchanged urlHost) (endpointInitial rows drawn)
      events c) :
    ∀ e ∈ inForce id (endpointInitial rows drawn) events,
      ∀ e' ∈ inForce id (endpointInitial rows drawn) events,
        e.secret = e'.secret → urlHost e.url = urlHost e'.url := by
  have hbound := hrun.invariant
    (I := fun events c => Bound urlHost id (inForce id (endpointInitial rows drawn) events)
      (c.shared.endpoints id) c.shared.drawn c.procs)
    (fun events c i a s pc h hok hprog => by
      rw [inForce_cons]
      exact h.set hok hprog)
    (bound_initial hdrawn)
  exact hbound.agree

/-- The host of a URL that starts with `https://`, without port or user. -/
def exampleUrlHost (url : String) : Option String :=
  some (String.ofList ((url.toList.drop 8).takeWhile (· ≠ '/')))

def exampleSettings (url : String) : EndpointSettings where
  url := url
  description := none
  events := ["*"]
  enabled := true

/-- Endpoint 1 points to the host `a`. -/
def exampleEndpoints : EndpointConf :=
  endpointInitial (fun _ => some { exampleSettings "https://a/hook" with secret := 1 })
    fun secret => secret = 1

def updateSchedule (i : Nat) (url : String) (secret : WebhookSecret) :
    List (Nat × EndpointAct) :=
  [(i, .update 1 (exampleSettings url)), (i, .go 0), (i, .go 0), (i, .go secret), (i, .go 0)]

/-- The endpoint is moved, its secret is rotated, and it is moved back. -/
theorem moved_and_moved_back :
    ∃ events c, Traced (endpointProgram exampleUrlHost) (HostUnchanged exampleUrlHost)
        exampleEndpoints events c ∧
      [("https://a/hook", 1), ("https://b/", 2), ("https://b/", 3), ("https://a/", 4)] ⊆
        (inForce 1 exampleEndpoints events).map (fun e => (e.url, e.secret)) ∧
      ∀ e ∈ inForce 1 exampleEndpoints events, ∀ e' ∈ inForce 1 exampleEndpoints events,
        e.secret = e'.secret → exampleUrlHost e.url = exampleUrlHost e'.url := by
  obtain ⟨⟨events, c⟩, hrecord, hseen⟩ :
      ∃ run ∈ record (endpointProgram exampleUrlHost) (HostUnchanged exampleUrlHost) []
      exampleEndpoints (updateSchedule 0 "https://b/" 2 ++
        [(1, .rotateSecret 1), (1, .go 3), (1, .go 0), (1, .go 0)] ++
        updateSchedule 2 "https://a/" 4),
      [("https://a/hook", 1), ("https://b/", 2), ("https://b/", 3), ("https://a/", 4)] ⊆
        (inForce 1 exampleEndpoints run.1).map (fun e => (e.url, e.secret)) := by
    decide +kernel
  have htraced := Traced.refl.record hrecord
  refine ⟨events, c, htraced, hseen, secret_of_one_host (fun e he => ?_) htraced⟩
  cases he
  rfl

/-- Process 1 reads the endpoint before process 0 moves it to the host `b`,
and moves it back with the secret drawn for `b`. -/
theorem moved_back_with_secret :
    ∃ events c, Traced (endpointProgram exampleUrlHost) Free exampleEndpoints events c ∧
      ∃ e ∈ inForce 1 exampleEndpoints events, ∃ e' ∈ inForce 1 exampleEndpoints events,
        e.secret = e'.secret ∧ exampleUrlHost e.url ≠ exampleUrlHost e'.url := by
  obtain ⟨⟨events, c⟩, hrecord, hmoved⟩ :
      ∃ run ∈ record (endpointProgram exampleUrlHost) Free [] exampleEndpoints
      ((updateSchedule 1 "https://a/" 3).take 2 ++ updateSchedule 0 "https://b/" 2 ++
        [(1, .go 0), (1, .go 0)]),
      ∃ e ∈ inForce 1 exampleEndpoints run.1, ∃ e' ∈ inForce 1 exampleEndpoints run.1,
        e.secret = e'.secret ∧ exampleUrlHost e.url ≠ exampleUrlHost e'.url := by
    decide +kernel
  exact ⟨events, c, Traced.refl.record hrecord, hmoved⟩

end AuthApi
