import AuthApi.DeviceFlow

/-!
# User codes

The code a user types is a key of its own that points at a flow, with a
lifetime of its own: it expires before the flow it was reserved for, and
can be drawn again while that flow is there or a request that has looked
it up goes on.

A poll then deletes the key of the flow the code was drawn for next, and
a `verify`, which looks the code up twice, checks the rules of one
client and approves the flow of another (`user_code_drawn_again`). In
every run in which no code is drawn that a live flow has or a request
has in hand, a key is only removed by its own flow, and the client
checked is the one of the flow that is approved
(`user_code_keeps_flow`).
-/

namespace AuthApi

open Conc

/-! ## Codes in hand -/

def Flow.deviceCode : Flow → Option TokenHash
  | .device (.reserve _ hash _) => some hash
  | .device (.store _ hash _) => some hash
  | .device (.read _ _ hash) => some hash
  | .device (.current _ hash) => some hash
  | .device (.swap _ hash _ _) => some hash
  | .device (.poll request) => some request.deviceHash
  | .device (.pace hash) => some hash
  | .device (.forget hash _) => some hash
  | .device (.forgotten hash _) => some hash
  | .device (.quota request _ _ _) => some request.deviceHash
  | .device (.claim request _ _ _) => some request.deviceHash
  | .device (.claimed request _ _ _) => some request.deviceHash
  | .device (.issue hash _) => some hash
  | _ => none

/-- The user code a request has in hand, and the flow it has it of: the one
that was reserved, the one that was looked up, the one in the entry that a
poll has read. -/
def Flow.pins : Flow → Option (String × TokenHash)
  | .device (.store _ hash userCode) => some (userCode, hash)
  | .device (.read userCode _ hash) => some (userCode, hash)
  | .device (.forget hash userCode) => some (userCode, hash)
  | .device (.forgotten hash userCode) => some (userCode, hash)
  | .device (.quota request entry _ _) => some (entry.userCode, request.deviceHash)
  | .device (.claim request entry _ _) => some (entry.userCode, request.deviceHash)
  | .device (.claimed request entry _ _) => some (entry.userCode, request.deviceHash)
  | _ => none

/-- The user code that a `verify` has looked up and will look up again. -/
def Flow.verifying : Flow → Option String
  | .device (.checks userCode _ _) => some userCode
  | .device (.target decision) =>
    if decision.status = .authorized then some decision.userCode else none
  | _ => none

/-- The request has a user code in hand. -/
def Flow.holds (flow : Flow) (code : String) : Prop :=
  (∃ hash, flow.pins = some (code, hash)) ∨ flow.verifying = some code

/-- The user code a step reserves, if it is free. -/
def reservedBy (c : AccountConf) (i : Nat) (a : AccountAct) : Option String :=
  match a, (c.procs i).flow with
  | .go inp, .device (.reserve _ _ (_ + 1)) =>
    if (c.shared.userCodes.get c.shared.now inp.userCode).isNone then some inp.userCode else none
  | _, _ => none

/-- A code is reserved only if no live flow has it and no request has it in
hand. -/
def CodesApart (c : AccountConf) (i : Nat) (a : AccountAct) : Prop :=
  ∀ code, reservedBy c i a = some code →
    (∀ hash entry, c.shared.devices.get c.shared.now hash = some entry →
      entry.userCode ≠ code) ∧
    ∀ j, ¬ (c.procs j).flow.holds code

/-- The client whose rules a `verify` has passed with a step. -/
def clientChecked (e : AccountEvent) : Option (Option String) :=
  match e.self.flow, e.self'.flow with
  | .device (.checks _ _ clientId), .device (.target _) => some clientId
  | _, _ => none

/-- The client whose rules the last check of request `i` was about. -/
def lastChecked (i : Nat) (events : List AccountEvent) : Option (Option String) :=
  events.findSome? fun e => if e.proc = i then clientChecked e else none

variable {e : AccountEvent} {events : List AccountEvent} {i : Nat}

theorem lastChecked_of_ne (h : e.proc ≠ i) :
    lastChecked i (e :: events) = lastChecked i events := by
  simp [lastChecked, h]

theorem lastChecked_of_none (h : clientChecked e = none) :
    lastChecked i (e :: events) = lastChecked i events := by
  simp [lastChecked, h]

/-! ## Keys over a run -/

/-- What a step can do to the key of a user code. -/
inductive KeyMoved (code : String) (a : AccountAct) (s : AccountState) (p : Request)
    (s' : AccountState) (p' : Request) : Prop
  | same (h : s'.userCodes.entry code = s.userCodes.entry code)
  | freed {hash : TokenHash} (hp : p.flow.pins = some (code, hash))
      (hflow : p.flow.deviceCode = some hash) (h : s'.userCodes.entry code = none)
  | reserved {inp : Input} {request : DeviceInit} {hash : TokenHash} {attempts : Nat}
      (ha : a = .go inp) (hcode : inp.userCode = code)
      (hp : p.flow = .device (.reserve request hash (attempts + 1)))
      (hget : s.userCodes.get s.now code = none)

/-- While the key of a code is there, it points at the flow. -/
def Pinned (s : AccountState) (code : String) (hash : TokenHash) : Prop :=
  ∀ hash', s.userCodes.get s.now code = some hash' → hash' = hash

/-- The flow of a device code is one of the client. -/
def FlowOf (events : List AccountEvent) (s : AccountState) (hash : TokenHash)
    (clientId : Option String) : Prop :=
  (∃ request, Initiated events hash request) ∧
    ∀ entry deadline, s.devices.entry hash = some (entry, deadline) → entry.clientId = clientId

/-- What a `verify` knows: the code it looked up is of a flow of the client
whose rules it checks, and then the flow it decides on is. -/
def VerifyKnows (events : List AccountEvent) (i : Nat) (s : AccountState) : Flow → Prop
  | .device (.checks code _ clientId) =>
    ∃ hash, Pinned s code hash ∧ FlowOf events s hash clientId
  | .device (.target decision) => decision.status = .authorized →
      ∃ hash clientId, Pinned s decision.userCode hash ∧ FlowOf events s hash clientId ∧
        lastChecked i events = some clientId
  | .device (.current decision hash) => decision.status = .authorized →
      ∃ clientId, FlowOf events s hash clientId ∧ lastChecked i events = some clientId
  | .device (.swap decision hash _ _) => decision.status = .authorized →
      ∃ clientId, FlowOf events s hash clientId ∧ lastChecked i events = some clientId
  | _ => True

structure KeyFacts (events : List AccountEvent) (c : AccountConf) : Prop where
  device : DeviceFacts events c
  stored : ∀ hash entry, c.shared.devices.get c.shared.now hash = some entry →
    Pinned c.shared entry.userCode hash
  pinned : ∀ i code hash, (c.procs i).flow.pins = some (code, hash) → Pinned c.shared code hash
  checked : ∀ i, VerifyKnows events i c.shared (c.procs i).flow

section Runs

variable {events : List AccountEvent} {c : AccountConf} {i j : Nat} {a : AccountAct}
  {s : AccountState} {p : Request} {hash : TokenHash} {code : String} {clientId : Option String}
  {cfg : JwtConfig} {clock : OffsetDateTime} {deviceAuth : DeviceAuthConfig}

theorem keyMoved {s : AccountState} {p : Request} {s' : AccountState} {p' : Request}
    (h : accountProgram i a s p = some (s', p')) (code : String) :
    KeyMoved code a s p s' p' := by
  cases deviceMoved h with
  | session b hb hact hcall hstep hkept hflow | elsewhere hcall hp hp' hkept
  | failed hp' hanswer hkept => exact .same (by rw [hkept.userCodes])
  | entered hidle hs => exact .same (by rw [hs])
  | @device inp pc _ _ hp hdevice =>
    cases hdevice with
    | drawn hdraw =>
      obtain ⟨-, rfl⟩ := s.draw_eq_some hdraw
      exact .same rfl
    | reserved hget =>
      by_cases hne : code = inp.userCode
      · exact .reserved rfl hne.symm hp (hne ▸ hget)
      · exact .same (Redis.Store.setEx_entry_of_ne hne)
    | @freed hash userCode =>
      by_cases hne : code = userCode
      · subst hne
        exact .freed (by rw [hp]; rfl) (by rw [hp]; rfl) Redis.Store.del_entry_self
      · exact .same (Redis.Store.del_entry_of_ne hne)
    | @issuing request entry userId clientId _ hidle hs =>
      rcases hs with rfl | rfl
      · exact .same rfl
      · by_cases hne : code = entry.userCode
        · subst hne
          exact .freed (by rw [hp]; rfl) (by rw [hp]; rfl) Redis.Store.del_entry_self
        · exact .same (Redis.Store.del_entry_of_ne hne)
    | _ => exact .same rfl

theorem reservedBy_of_flow {inp : Input} {request : DeviceInit} {attempts : Nat}
    (hp : (c.procs i).flow = .device (.reserve request hash (attempts + 1)))
    (hget : c.shared.userCodes.get c.shared.now inp.userCode = none) :
    reservedBy c i (.go inp) = some inp.userCode := by
  simp [reservedBy, hp, hget]

section

variable (hprog : accountProgram i a c.shared (c.procs i) = some (s, p))
include hprog

theorem KeyFacts.now_le (h : KeyFacts events c) : c.shared.now ≤ s.now :=
  h.device.account.clock_le hprog

theorem Pinned.step (hpin : Pinned c.shared code hash) (h : KeyFacts events c)
    (hfree : reservedBy c i a ≠ some code) : Pinned s code hash := by
  intro hash' hget
  cases keyMoved hprog code with
  | same hsame => exact hpin hash' (Redis.Store.get_of_later hget hsame (h.now_le hprog))
  | freed hp hflow hnone =>
    obtain ⟨deadline, hentry, -⟩ := Redis.Store.get_eq_some.mp hget
    rw [hnone] at hentry
    cases hentry
  | reserved ha hcode hp hnone =>
    subst ha hcode
    exact absurd (reservedBy_of_flow hp hnone) hfree

theorem Pinned.step_of_held (hpin : Pinned c.shared code hash) (h : KeyFacts events c)
    (hok : CodesApart c i a) (hheld : (c.procs j).flow.holds code) : Pinned s code hash :=
  hpin.step hprog h fun hreserved => (hok code hreserved).2 j hheld

theorem FlowOf.step (hof : FlowOf events c.shared hash clientId) (h : DeviceFacts events c) :
    FlowOf (⟨i, a, c.shared, c.procs i, s, p⟩ :: events) s hash clientId := by
  obtain ⟨⟨request, hinit⟩, hclient⟩ := hof
  refine ⟨⟨request, hinit.cons⟩, fun entry deadline hentry => ?_⟩
  cases entryMoved hprog hash with
  | same hsame => exact hclient entry deadline (hsame ▸ hentry)
  | gone hgone =>
    rw [hgone] at hentry
    cases hentry
  | stored hp => exact (h.reserving i hash (by rw [hp]; rfl) request hinit).elim
  | decided hp hp' hraw hnew =>
    rw [hnew] at hentry
    cases hentry
    obtain ⟨-, held, rfl, -⟩ := (h.locally i).swapping _ _ _ _ hp
    have hkept := hclient _ deadline hraw
    exact hkept

end

section

variable (h : KeyFacts events c) (hok : CodesApart c i a)
  (hprog : accountProgram i a c.shared (c.procs i) = some (s, p))
include h hok hprog

theorem KeyFacts.stored_set {entry : DeviceAuthState}
    (hget : s.devices.get s.now hash = some entry) : Pinned s entry.userCode hash := by
  obtain ⟨deadline, hentry, hlive⟩ := Redis.Store.get_eq_some.mp hget
  have hbefore := Redis.live_of_le (h.now_le hprog) hlive
  -- The entry was there before, with the same code, or is stored by a request that reserved it.
  have hold : ∀ {old : DeviceAuthState}, c.shared.devices.entry hash = some (old, deadline) →
      Pinned s old.userCode hash := fun hentry =>
    have hget := Redis.Store.get_eq_some.mpr ⟨deadline, hentry, hbefore⟩
    (h.stored hash _ hget).step hprog h fun hreserved => (hok _ hreserved).1 hash _ hget rfl
  cases entryMoved hprog hash with
  | same hsame => exact hold (hsame ▸ hentry)
  | gone hgone =>
    rw [hgone] at hentry
    cases hentry
  | @stored request userCode _ hp hp' hnew =>
    rw [hnew] at hentry
    cases hentry
    have hpins : (c.procs i).flow.pins = some (userCode, hash) := by
      rw [hp]
      rfl
    exact (h.pinned i _ hash hpins).step_of_held hprog h hok (.inl ⟨hash, hpins⟩)
  | decided hp hp' hraw hnew =>
    rw [hnew] at hentry
    cases hentry
    obtain ⟨-, held, rfl, -⟩ := (h.device.locally i).swapping _ _ _ _ hp
    have hkept := hold hraw
    exact hkept

theorem KeyFacts.pinned_own (hpins : p.flow.pins = some (code, hash)) : Pinned s code hash := by
  have hkept : (c.procs i).flow.pins = some (code, hash) → Pinned s code hash := fun hpins =>
    (h.pinned i code hash hpins).step_of_held hprog h hok (.inl ⟨hash, hpins⟩)
  cases deviceMoved hprog with
  | session b hb hact hcall hstep hsame hflow => exact hkept (hflow ▸ hpins)
  | @entered call _ _ hidle hs henter =>
    cases call <;> first
      | (obtain ⟨-, -, -, rfl⟩ := AccountState.call_eq_some henter; cases hpins)
      | (cases henter; cases hpins)
  | elsewhere hcall hp hp' =>
    cases hflow : p.flow with
    | device =>
      rw [hflow] at hp'
      cases hp'
    | _ =>
      rw [hflow] at hpins
      cases hpins
  | failed hp' =>
    rw [hp'] at hpins
    cases hpins
  | device hp hdevice =>
    rw [hp] at hkept
    cases hdevice with
    | reserved =>
      cases hpins
      intro hash' hget'
      exact Redis.Store.get_of_entry Redis.Store.setEx_entry_self hget'
    | found hget =>
      cases hpins
      intro hash' hget'
      exact Option.some.inj (hget'.symm.trans hget)
    | denied hget | approved hget =>
      cases hpins
      exact h.stored _ _ hget
    | forgot | unforgot | admitted | claimed => exact hkept hpins
    | _ => cases hpins

theorem KeyFacts.pinned_set (hpins : ((c.set i s p).procs j).flow.pins = some (code, hash)) :
    Pinned s code hash := by
  rcases c.procs_cases i s p j with ⟨rfl, hset⟩ | ⟨hji, hset⟩ <;> rw [hset] at hpins
  · exact h.pinned_own hok hprog hpins
  · exact (h.pinned j code hash hpins).step_of_held hprog h hok (.inl ⟨hash, hpins⟩)

theorem KeyFacts.checked_kept
    (hlast : lastChecked j (⟨i, a, c.shared, c.procs i, s, p⟩ :: events) = lastChecked j events) :
    VerifyKnows (⟨i, a, c.shared, c.procs i, s, p⟩ :: events) j s (c.procs j).flow := by
  have hj := h.checked j
  have hheld : ∀ {code hash}, (c.procs j).flow.verifying = some code →
      Pinned c.shared code hash → Pinned s code hash := fun hverifying hpin =>
    hpin.step_of_held hprog h hok (.inr hverifying)
  cases hflow : (c.procs j).flow with
  | device pc =>
    rw [hflow] at hj hheld
    cases pc with
    | checks =>
      obtain ⟨hash, hpin, hof⟩ := hj
      exact ⟨hash, hheld rfl hpin, hof.step hprog h.device⟩
    | target =>
      intro hstatus
      obtain ⟨hash, clientId, hpin, hof, hchecked⟩ := hj hstatus
      exact ⟨hash, clientId, hheld (if_pos hstatus) hpin, hof.step hprog h.device,
        hlast.trans hchecked⟩
    | current | swap =>
      intro hstatus
      obtain ⟨clientId, hof, hchecked⟩ := hj hstatus
      exact ⟨clientId, hof.step hprog h.device, hlast.trans hchecked⟩
    | _ => trivial
  | _ => trivial

theorem KeyFacts.checked_own :
    VerifyKnows (⟨i, a, c.shared, c.procs i, s, p⟩ :: events) i s p.flow := by
  have hi := h.checked i
  cases deviceMoved hprog with
  | session b hb hact hcall hstep hsame hflow =>
    have hlast : clientChecked ⟨i, a, c.shared, c.procs i, s, p⟩ = none := by
      simp only [clientChecked, hflow]
      split
      · rename_i hchecks htarget
        rw [hchecks] at htarget
        cases htarget
      · rfl
    rw [hflow]
    exact h.checked_kept hok hprog (lastChecked_of_none hlast)
  | @entered call _ _ hidle hs henter =>
    cases call with
    | denyDevice =>
      cases henter
      rintro ⟨⟩
    | session call | resetPassword userId
    | changePassword =>
      obtain ⟨-, -, -, rfl⟩ := AccountState.call_eq_some henter
      trivial
    | _ =>
      cases henter
      trivial
  | elsewhere hcall hp hp' =>
    cases hflow : p.flow with
    | device =>
      rw [hflow] at hp'
      cases hp'
    | _ => trivial
  | failed hp' =>
    rw [hp']
    trivial
  | @device inp pc _ _ hp hdevice =>
    have hkept := h.checked_kept hok hprog (j := i)
    rw [hp] at hi hkept
    cases hdevice with
    | @shown userCode userId hash entry hget =>
      obtain ⟨deadline, hentry, -⟩ := Redis.Store.get_eq_some.mp hget
      obtain ⟨request, hinit⟩ := (h.device.stored _ _ _ hentry).initiated
      have hof : FlowOf events c.shared hash entry.clientId := by
        refine ⟨⟨request, hinit⟩, fun entry' deadline' hentry' => ?_⟩
        rw [hentry] at hentry'
        cases hentry'
        rfl
      exact ⟨hash, h.pinned i userCode hash (by rw [hp]; rfl), hof.step hprog h.device⟩
    | @passed userCode userId clientId =>
      obtain ⟨hash, hpin, hof⟩ := hi
      refine fun _ => ⟨hash, clientId, hpin, hof.step hprog h.device, ?_⟩
      simp [lastChecked, clientChecked, hp, Request.goto]
    | @targeted decision hash hget =>
      intro hstatus
      obtain ⟨hash', clientId, hpin, hof, hchecked⟩ := hi hstatus
      obtain rfl := hpin hash hget
      refine ⟨clientId, hof.step hprog h.device, (lastChecked_of_none ?_).trans hchecked⟩
      simp [clientChecked, hp]
    | weighed =>
      refine hkept (lastChecked_of_none ?_)
      simp [clientChecked, hp]
    | _ => trivial

theorem KeyFacts.set :
    KeyFacts (⟨i, a, c.shared, c.procs i, s, p⟩ :: events) (c.set i s p) where
  device := h.device.set hprog
  stored _ _ hget := h.stored_set hok hprog hget
  pinned _ _ _ hpins := h.pinned_set hok hprog hpins
  checked j := by
    refine Conf.set_cases j ?_ fun j hji => ?_
    · exact h.checked_own hok hprog
    · exact h.checked_kept hok hprog (lastChecked_of_ne (Ne.symm hji))

end

theorem KeyFacts.initial (cfg : JwtConfig) (deviceAuth : DeviceAuthConfig)
    (clock : OffsetDateTime) : KeyFacts [] (accountInitial cfg deviceAuth clock) where
  device := .initial cfg deviceAuth clock
  stored _ _ hget := by cases hget
  pinned _ _ _ hpins := by cases hpins
  checked _ := trivial

theorem keyFacts_of_traced
    (hrun : Traced accountProgram CodesApart (accountInitial cfg deviceAuth clock) events c) :
    KeyFacts events c :=
  hrun.invariant (fun _ _ _ a _ _ h hok hprog => h.set (a := a) hok hprog)
    (.initial cfg deviceAuth clock)

/-- **User codes keep their flow.** In every run in which no code is drawn
that a live flow has or a request has in hand, a step leaves the keys that
point at other flows than its own as they are, and an approval is of a flow
of the client whose rules the approving call has checked. -/
theorem user_code_keeps_flow {cfg : JwtConfig} {deviceAuth : DeviceAuthConfig}
    {clock : OffsetDateTime}
    (hrun : Traced accountProgram CodesApart (accountInitial cfg deviceAuth clock) events c) :
    (∀ e past code hash, e :: past <:+ events →
      e.shared.userCodes.get e.shared.now code = some hash → e.self.flow.deviceCode ≠ some hash →
      e.shared'.userCodes.entry code = e.shared.userCodes.entry code) ∧
    ∀ e past decision hash, e :: past <:+ events → Decides hash decision e →
      decision.status = .authorized →
      ∃ entry, e.shared'.devices.get e.shared.now hash = some entry ∧
        entry.status = .authorized ∧ lastChecked e.proc past = some entry.clientId := by
  refine ⟨?_, ?_⟩
  · intro e past code hash he hget hother
    obtain ⟨c', hpast, hok, hprog, heq⟩ := hrun.event he
    rw [heq] at hget hother ⊢
    have h := keyFacts_of_traced hpast
    cases keyMoved hprog code with
    | same hsame => exact hsame
    | freed hp hflow =>
      obtain rfl := h.pinned _ _ _ hp hash hget
      exact absurd hflow hother
    | reserved ha hcode hp hnone =>
      rw [hnone] at hget
      cases hget
  · intro e past decision hash he hdecides hstatus
    obtain ⟨c', hpast, hok, hprog, heq⟩ := hrun.event he
    rw [heq] at hdecides ⊢
    have h := keyFacts_of_traced hpast
    obtain ⟨raw, updated, deadline, hp, hraw, hnew, hlive⟩ := decides_entry hdecides hprog
    obtain ⟨-, held, rfl, -⟩ := (h.device.locally _).swapping _ _ _ _ hp
    have hchecked := h.checked e.proc
    rw [hp] at hchecked
    obtain ⟨clientId, ⟨-, hof⟩, hlast⟩ := hchecked hstatus
    exact ⟨_, Redis.Store.get_eq_some.mpr ⟨deadline, hnew, hlive⟩, hstatus,
      hlast.trans (congrArg some (hof _ _ hraw).symm)⟩

/-- A code that is drawn when no flow was ever stored, and by the only
request so far, is in nobody's hand. -/
theorem codesApart_of_first {ok : AccountConf → Nat → AccountAct → Prop}
    (hrun : Traced accountProgram ok (accountInitial cfg deviceAuth clock) events c)
    (hfirst : ∀ e ∈ events, e.proc = i ∧ e.self.flow.pins = none)
    (hpins : (c.procs i).flow.pins = none) (hverifying : (c.procs i).flow.verifying = none) :
    CodesApart c i a := by
  refine fun code _ => ⟨fun hash entry hget => ?_, fun j => ?_⟩
  · obtain ⟨deadline, hentry, -⟩ := Redis.Store.get_eq_some.mp hget
    obtain ⟨request, e, he, userCode, hp, -⟩ :=
      ((deviceFacts_of_traced hrun).stored _ _ _ hentry).initiated
    have hnone := (hfirst e he).2
    rw [hp] at hnone
    cases hnone
  · rintro (⟨hash, hheld⟩ | hheld)
    all_goals
      by_cases hji : j = i
      · subst hji
        simp [hpins, hverifying] at hheld
      · rw [hrun.procs_of_absent fun e he hproc => hji (hproc.symm.trans (hfirst e he).1)] at hheld
        cases hheld

end Runs

/-! ## Runs on two flows -/

def Flow.swapping : Flow → Option (DeviceDecision × TokenHash)
  | .device (.swap decision hash _ _) => some (decision, hash)
  | _ => none

theorem decides_of_swapping {decision : DeviceDecision} {hash : TokenHash}
    (h : e.self.flow.swapping = some (decision, hash)) (h' : e.self'.flow.answer = some .decided) :
    Decides hash decision e := by
  refine ⟨?_, Flow.answer_eq_some h'⟩
  unfold Flow.swapping at h
  split at h <;> cases h
  rename_i raw updated hp
  exact ⟨raw, updated, hp⟩

/-- The flow 8 is started by the client `tv`, its entry a second after its
user code was reserved. -/
def tvFlow : List (Nat × AccountAct) :=
  [(1, .start (.initiateDevice ⟨none, none, "tv", none⟩)), (1, .go { tokenHash := 8 }),
    (1, .go { userCode := "ABCD-2345" }), (1, .tick (instant 101)), (1, .go {})]

/-- The flow 9 is started by the client `app`, which draws the same user
code. -/
def appFlow : List (Nat × AccountAct) :=
  [(2, .start (.initiateDevice ⟨none, none, "app", none⟩)), (2, .go { tokenHash := 9 }),
    (2, .go { userCode := "ABCD-2345" }), (2, .go {})]

/-- The flow 8 is denied; in its last second the code has expired and is
drawn for the flow 9; then the first client polls. -/
def deniedThenDrawn : List (Nat × AccountAct) :=
  tvFlow ++ [(4, .start (.denyDevice "ABCD-2345" 1)), (4, .go {}), (4, .go {}), (4, .go {}),
    (4, .tick (instant 401))] ++ appFlow ++
  [(3, .start (.pollDevice ⟨8, "tv", none, none, none⟩)), (3, .go {}), (3, .go {}), (3, .go {})]

/-- A user approves what the code stands for, which is the flow 8 when it is
looked up first, and the flow 9 the second time. -/
def approvedAfterDrawn : List (Nat × AccountAct) :=
  tvFlow ++ [(4, .start (.verifyDevice "ABCD-2345" 1)), (4, .go {}), (4, .go {}),
    (4, .tick (instant 402))] ++ appFlow ++ [(4, .go {}), (4, .go {}), (4, .go {}), (4, .go {})]

theorem user_code_drawn_again :
    (∃ e past c, Traced accountProgram Free
        (accountInitial shortSessions ⟨300, 5⟩ (instant 100)) (e :: past) c ∧
      e.self.flow.deviceCode = some 8 ∧
      e.shared.userCodes.get e.shared.now "ABCD-2345" = some 9 ∧
      (e.shared.devices.get e.shared.now 9).isSome ∧
      e.shared'.userCodes.get e.shared.now "ABCD-2345" = none) ∧
    ∃ e past c decision entry, Traced accountProgram Free
        (accountInitial shortSessions ⟨300, 5⟩ (instant 100)) (e :: past) c ∧
      Decides 9 decision e ∧ decision.status = .authorized ∧
      e.shared'.devices.get e.shared.now 9 = some entry ∧ entry.clientId = some "app" ∧
      lastChecked e.proc past = some (some "tv") := by
  constructor
  · obtain ⟨⟨events, c⟩, hrecord, e, hhead, hdeleted⟩ : ∃ r ∈ record accountProgram Free []
        (accountInitial shortSessions ⟨300, 5⟩ (instant 100)) deniedThenDrawn,
        ∃ e ∈ r.1.head?, e.self.flow.deviceCode = some 8 ∧
        e.shared.userCodes.get e.shared.now "ABCD-2345" = some 9 ∧
        (e.shared.devices.get e.shared.now 9).isSome ∧
        e.shared'.userCodes.get e.shared.now "ABCD-2345" = none := by
      decide +kernel
    obtain ⟨past, rfl⟩ := List.head?_eq_some_iff.mp hhead
    exact ⟨e, past, c, Traced.refl.record hrecord, hdeleted⟩
  · obtain ⟨⟨events, c⟩, hrecord, e, hhead, hswap, hdecided, ⟨entry, hentry, hclient⟩,
        hchecked⟩ : ∃ r ∈ record accountProgram Free []
        (accountInitial shortSessions ⟨300, 5⟩ (instant 100)) approvedAfterDrawn,
        ∃ e ∈ r.1.head?,
        e.self.flow.swapping = some (⟨"ABCD-2345", .authorized, 1, none⟩, 9) ∧
        e.self'.flow.answer = some .decided ∧
        (∃ entry ∈ e.shared'.devices.get e.shared.now 9, entry.clientId = some "app") ∧
        lastChecked e.proc r.1.tail = some (some "tv") := by
      decide +kernel
    obtain ⟨past, rfl⟩ := List.head?_eq_some_iff.mp hhead
    exact ⟨e, past, c, _, entry, Traced.refl.record hrecord, decides_of_swapping hswap hdecided,
      rfl, hentry, hclient, hchecked⟩

/-- The flow 8 is stored and approved. -/
def tvApproved : List (Nat × AccountAct) :=
  [(1, .go {}), (4, .start (.verifyDevice "ABCD-2345" 1)), (4, .go {}), (4, .go {}), (4, .go {}),
    (4, .go {}), (4, .go {}), (4, .go {})]

theorem tv_approved_as_checked :
    ∃ e past c, Traced accountProgram CodesApart
        (accountInitial shortSessions ⟨300, 5⟩ (instant 100)) (e :: past) c ∧
      ∃ entry, e.shared'.devices.get e.shared.now 8 = some entry ∧ entry.status = .authorized ∧
        lastChecked e.proc past = some entry.clientId := by
  obtain ⟨⟨events₁, c₁⟩, h₁, hfirst, hpins, hverifying, ⟨s, p⟩, hprog, ⟨events, c⟩, h₃, e, hhead,
      hswap, hdecided⟩ : ∃ r₁ ∈ record accountProgram (fun c i a => reservedBy c i a = none) []
      (accountInitial shortSessions ⟨300, 5⟩ (instant 100)) (tvFlow.take 2),
      (∀ e ∈ r₁.1, e.proc = 1 ∧ e.self.flow.pins = none) ∧ (r₁.2.procs 1).flow.pins = none ∧
      (r₁.2.procs 1).flow.verifying = none ∧
      ∃ r₂ ∈ accountProgram 1 (.go { userCode := "ABCD-2345" }) r₁.2.shared (r₁.2.procs 1),
      ∃ r₃ ∈ record accountProgram (fun c i a => reservedBy c i a = none)
      (⟨1, .go { userCode := "ABCD-2345" }, r₁.2.shared, r₁.2.procs 1, r₂.1, r₂.2⟩ :: r₁.1)
      (r₁.2.set 1 r₂.1 r₂.2) tvApproved, ∃ e ∈ r₃.1.head?,
      e.self.flow.swapping = some (⟨"ABCD-2345", .authorized, 1, none⟩, 8) ∧
      e.self'.flow.answer = some .decided := by
    decide +kernel
  obtain ⟨past, rfl⟩ := List.head?_eq_some_iff.mp hhead
  have hquiet : ∀ (c : AccountConf) i a, reservedBy c i a = none → CodesApart c i a := by
    intro c i a hnone code hreserved
    rw [hnone] at hreserved
    cases hreserved
  have hbefore := Traced.refl.record_of hquiet h₁
  have hreserved := hbefore.tail (codesApart_of_first hbefore hfirst hpins hverifying) hprog
  have htraced := hreserved.record_of hquiet h₃
  exact ⟨e, past, c, htraced, (user_code_keeps_flow htraced).2 e past _ 8 List.suffix_rfl
    (decides_of_swapping hswap hdecided) rfl⟩

end AuthApi
