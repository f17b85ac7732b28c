import AuthApi.TokenScopes

/-!
# The limit of sessions of a client

A client that is not primary holds at most so many device sessions of a
user at a time. A new session is counted against the limit under an
advisory lock that is held until the session is committed, so that two
requests do not count the same sessions. A refresh takes no lock: it
replaces a session by another, which leaves the count as it is as long as
the session it replaces is one of those counted.

That is what can go wrong: a rotation looks at the expiry of the session
when the token is shown and not again when it commits, and a session
that expires in between is no longer counted. A new session may take its
place, and the rotation then brings in one more
(`rotated_late_beyond_limit`).

Where every rotation commits before the session it replaces has expired
(`OauthAct.inTime`), the number of active sessions never exceeds the
limit (`active_sessions_within_limit`). The invariant is that a request
that was admitted, and holds the lock, leaves room for its session
(`OauthFlow.Limits`).
-/

namespace AuthApi

open Conc Pg

/-! ## The sessions that are counted -/

section Counted

variable {c : SessionConf} {i : Nat} {ch : Choice} {s s' : Shared} {pc : Pc} {userId : Uuid}
  {clientId : String} {now : OffsetDateTime} {session : Session} {new : SessionRow}

theorem Session.countedFor_eq_true :
    session.countedFor userId clientId now = true ↔
      session.userId = userId ∧ session.clientId = some clientId ∧
        session.sessionType = .device ∧ session.revokedAt = none ∧ now < session.expiresAt := by
  simp [Session.countedFor, and_assoc]

theorem Shared.mem_activeByClient {id : Uuid} :
    id ∈ s.activeByClient userId clientId ↔
      ∃ r, s.store id = some r ∧ r.val.countedFor userId clientId s.now = true := by
  rw [Shared.activeByClient, Finset.mem_filter, List.mem_toFinset]
  constructor
  · rintro ⟨-, hany⟩
    obtain ⟨session, hfind, hcounted⟩ := (Option.any_eq_true _ _).mp hany
    obtain ⟨r, hr, rfl⟩ := Option.map_eq_some_iff.mp hfind
    exact ⟨r, hr, hcounted⟩
  · rintro ⟨r, hr, hcounted⟩
    refine ⟨Db.mem_keys (.inl hr), (Option.any_eq_true _ _).mpr ⟨r.val, ?_, hcounted⟩⟩
    exact Option.map_eq_some_iff.mpr ⟨r, hr, rfl⟩

theorem Evolves.countedFor {now' : OffsetDateTime} {session' : Session}
    (h : Evolves session session') (hnow : now ≤ now')
    (hcounted : session'.countedFor userId clientId now' = true) :
    session.countedFor userId clientId now = true := by
  rw [Session.countedFor_eq_true] at hcounted ⊢
  obtain ⟨huser, hclient, htype, hrevoked, hexpires⟩ := hcounted
  refine ⟨h.kin.userId.trans huser, h.kin.clientId.trans hclient, h.kin.sessionType.trans htype,
    h.unrevoked hrevoked, ?_⟩
  exact hnow.trans_lt (h.expiresAt ▸ hexpires)

theorem activeByClient_of_same (hstore : s'.store = s.store) (hclock : s.clock ≤ s'.clock) :
    s'.activeByClient userId clientId ⊆ s.activeByClient userId clientId := by
  intro id hid
  rw [Shared.mem_activeByClient, hstore] at hid
  obtain ⟨r, hr, hcounted⟩ := hid
  exact Shared.mem_activeByClient.mpr
    ⟨r, hr, (Evolves.refl _).countedFor (OffsetDateTime.toMicros_mono hclock) hcounted⟩

/-- A rotation that commits in time replaces a session that is counted. -/
theorem activeByClient_of_rotate {old rotated : SessionRow}
    (hstep : StoreStep (.rotate old rotated new) s.store s'.store) (hclock : s'.clock = s.clock)
    (hintime : s.now < old.val.expiresAt) :
    (s'.activeByClient userId clientId).card ≤ (s.activeByClient userId clientId).card := by
  have hnow : s'.now = s.now := congrArg OffsetDateTime.toMicros hclock
  generalize hs : s.store = t at hstep
  generalize hs' : s'.store = t' at hstep
  have hsub := hstep
  cases hsub with
  | rotate _ _ _ hold hlive hfree hrotated hnew hkin =>
    have hother : ∀ id ∈ s'.activeByClient userId clientId, id ≠ new.val.id →
        id ∈ (s.activeByClient userId clientId).erase old.val.id := by
      intro id hid hne
      obtain ⟨r, hr, hcounted⟩ := Shared.mem_activeByClient.mp hid
      rw [hs', Function.update_of_ne hne] at hr
      have hneold : id ≠ old.val.id := by
        rintro rfl
        rw [Function.update_self] at hr
        obtain rfl := Option.some.inj hr
        have hrevoked := (Session.countedFor_eq_true.mp hcounted).2.2.2.1
        rw [hrotated] at hrevoked
        cases hrevoked
      rw [Function.update_of_ne hneold] at hr
      exact Finset.mem_erase.mpr ⟨hneold, Shared.mem_activeByClient.mpr
        ⟨r, hs ▸ hr, hnow ▸ hcounted⟩⟩
    by_cases hnewin : new.val.id ∈ s'.activeByClient userId clientId
    · -- The new session is of the kin of the old one, which is still live.
      obtain ⟨r, hr, hcounted⟩ := Shared.mem_activeByClient.mp hnewin
      rw [hs', Function.update_self] at hr
      obtain rfl := Option.some.inj hr
      obtain ⟨huser, hclient, htype, -, -⟩ := Session.countedFor_eq_true.mp hcounted
      have holdin : old.val.id ∈ s.activeByClient userId clientId :=
        Shared.mem_activeByClient.mpr ⟨old, hs ▸ hold, Session.countedFor_eq_true.mpr
          ⟨hkin.userId.trans huser, hkin.clientId.trans hclient, hkin.sessionType.trans htype,
            hlive, hintime⟩⟩
      have hsubset : s'.activeByClient userId clientId ⊆
          insert new.val.id ((s.activeByClient userId clientId).erase old.val.id) := by
        intro id hid
        rw [Finset.mem_insert]
        by_cases hne : id = new.val.id
        · exact .inl hne
        · exact .inr (hother id hid hne)
      have hpos := Finset.card_pos.mpr ⟨_, holdin⟩
      have hle := (Finset.card_le_card hsubset).trans (Finset.card_insert_le _ _)
      rw [Finset.card_erase_of_mem holdin] at hle
      omega
    · refine Finset.card_le_card fun id hid => Finset.mem_of_mem_erase (hother id hid ?_)
      rintro rfl
      exact hnewin hid

theorem activeByClient_of_issue (hstep : StoreStep (.issue new) s.store s'.store)
    (hclock : s'.clock = s.clock) :
    (s'.activeByClient userId clientId).card ≤ (s.activeByClient userId clientId).card ∨
      (new.val.userId = userId ∧ new.val.clientId = some clientId ∧
        (s'.activeByClient userId clientId).card ≤
          (s.activeByClient userId clientId).card + 1) := by
  have hnow : s'.now = s.now := congrArg OffsetDateTime.toMicros hclock
  have hother : ∀ id ∈ s'.activeByClient userId clientId, id ≠ new.val.id →
      id ∈ s.activeByClient userId clientId := by
    intro id hid hne
    obtain ⟨r, hr, hcounted⟩ := Shared.mem_activeByClient.mp hid
    rcases hstep.origin hr with ⟨r₀, hr₀, hev⟩ | ⟨heq, -⟩ | ⟨old, rotated, heq, -⟩
    · exact Shared.mem_activeByClient.mpr ⟨r₀, hr₀, hev.countedFor hnow.ge hcounted⟩
    · cases heq
      exact absurd (s'.db.keyed id new (.inl hr)).symm hne
    · cases heq
  by_cases hnewin : new.val.id ∈ s'.activeByClient userId clientId
  · right
    obtain ⟨r, hr, hcounted⟩ := Shared.mem_activeByClient.mp hnewin
    obtain rfl : r = new := by
      generalize s'.store = t' at hstep hr
      cases hstep with
      | issue =>
        rw [Function.update_self] at hr
        exact (Option.some.inj hr).symm
    obtain ⟨huser, hclient, -⟩ := Session.countedFor_eq_true.mp hcounted
    refine ⟨huser, hclient, (Finset.card_le_card ?_).trans (Finset.card_insert_le r.val.id _)⟩
    intro id hid
    rw [Finset.mem_insert]
    by_cases hne : id = r.val.id
    · exact .inl hne
    · exact .inr (hother id hid hne)
  · left
    refine Finset.card_le_card fun id hid => hother id hid ?_
    rintro rfl
    exact hnewin hid

/-- The rotation that is about to commit does so before the session it
replaces has expired. -/
def Pc.rotatesInTime (now : OffsetDateTime) : Pc → Bool
  | .rotate (.commit old _ _) => decide (now < old.val.expiresAt)
  | _ => true

/-- What a statement of the session code does to the count. -/
theorem Coherent.count_step (h : Coherent c) (userId : Uuid) (clientId : String)
    (hprog : sessionProgram i (.go ch) c.shared (c.procs i) = some (s, pc))
    (hintime : (c.procs i).rotatesInTime c.shared.now = true) :
    s.countActiveByClient userId clientId ≤ c.shared.countActiveByClient userId clientId ∨
      ∃ new, c.procs i = .issue (.commit new) ∧ new.val.userId = userId ∧
        new.val.clientId = some clientId ∧
        s.countActiveByClient userId clientId ≤
          c.shared.countActiveByClient userId clientId + 1 := by
  have hclock : s.clock = c.shared.clock := advance_clock hprog
  rcases h.store_step hprog with heq | ⟨_, op, -, hop, hstep⟩
  · exact .inl (Finset.card_le_card (activeByClient_of_same heq hclock.ge))
  · cases op with
    | issue new =>
      refine (activeByClient_of_issue hstep hclock).imp id fun hnew => ⟨new, ?_, hnew⟩
      exact Pc.commits_issue hop
    | rotate =>
      rw [Pc.commits_rotate hop] at hintime
      exact .inl (activeByClient_of_rotate hstep hclock (of_decide_eq_true hintime))
    | revoke =>
      refine .inl (Finset.card_le_card fun id hid => ?_)
      obtain ⟨r, hr, hcounted⟩ := Shared.mem_activeByClient.mp hid
      rcases hstep.origin hr with ⟨r₀, hr₀, hev⟩ | ⟨heq, -⟩ | ⟨old, rotated, heq, -⟩
      · exact Shared.mem_activeByClient.mpr ⟨r₀, hr₀,
          hev.countedFor (congrArg OffsetDateTime.toMicros hclock).ge hcounted⟩
      · cases heq
      · cases heq

end Counted

/-! ## Requests of the session system that issue nothing -/

/-- The request revokes or checks, or has ended. -/
def Pc.issueless : Pc → Bool
  | .revoke _ => true
  | .verify _ => true
  | .done _ => true
  | _ => false

theorem Call.entry_issueless {call : Call} (h : call.plain = true) :
    call.entry.issueless = true := by
  cases call <;> first | rfl | cases h

theorem Pc.issueless_step {i : Nat} {a : Act} {s s' : Shared} {pc pc' : Pc}
    (hpc : pc.issueless = true) (h : sessionProgram i a s pc = some (s', pc')) :
    pc'.issueless = true := by
  cases stepped h with
  | tick | configure => exact hpc
  | start hidle =>
    subst hidle
    cases hpc
  | fail => rfl
  | @go ch _ _ hgo =>
    cases pc with
    | revoke => cases revokeStepped hgo <;> rfl
    | verify => cases verifyStepped hgo <;> rfl
    | done => cases hgo
    | _ => cases hpc

/-! ## What a request may rely on -/

/-- The user's limit for the client is `n`: the quota does not change, and
whenever the client is registered it is not primary and has the limit. -/
def LimitIs (userId : Uuid) (clientId : String) (quota : Option Int) (n : Nat)
    (s : OauthState) : Prop :=
  s.quotas userId clientId = quota ∧ ∀ client ∈ s.clients clientId,
    client.isPrimary = false ∧ client.sessionLimit quota = some (n : Int)

instance (userId : Uuid) (clientId : String) (quota : Option Int) (n : Nat) (s : OauthState) :
    Decidable (LimitIs userId clientId quota n s) :=
  inferInstanceAs (Decidable (_ ∧ ∀ client ∈ s.clients clientId, _))

/-- A rotation is committed in time. -/
def OauthAct.inTime (s : OauthState) (p : OauthRequest) : OauthAct → Bool
  | .session _ => p.session.rotatesInTime s.sessions.now
  | _ => true

section Limits

variable (userId : Uuid) (clientId : String) (quota : Option Int) (n : Nat)

def Exchange.Concerns (exchange : Exchange) : Prop :=
  exchange.userId = userId ∧ exchange.clientId = clientId

/-- Request `i` holds the lock of the exchange, and was admitted: there is
room for its session. -/
def Exchange.Admitted (i : Nat) (s : OauthState) (exchange : Exchange) : Prop :=
  s.locks exchange.userId exchange.clientId = some i ∧
    (exchange.Concerns userId clientId →
      s.sessions.countActiveByClient userId clientId < n)

def RegisteredClient.HasLimit (client : RegisteredClient) : Prop :=
  client.sessionLimit quota = some (n : Int)

def OauthFlow.Limits (i : Nat) (s : OauthState) (pc : Pc) : OauthFlow → Prop
  | .plain => pc.issueless = true
  | .deletion _ => pc.issueless = true
  | .lock exchange row => exchange.Concerns userId clientId → row.HasLimit quota n
  | .quota exchange row =>
    s.locks exchange.userId exchange.clientId = some i ∧
      (exchange.Concerns userId clientId → row.HasLimit quota n)
  | .count exchange row read =>
    s.locks exchange.userId exchange.clientId = some i ∧
      (exchange.Concerns userId clientId → row.HasLimit read n)
  | .claim exchange => exchange.Admitted userId clientId n i s
  | .call (.signIn args) => args.clientId = none
  | .call (.exchange exchange) => exchange.Admitted userId clientId n i s
  | .inSession (.signIn args) => args.clientId = none
  | .inSession (.exchange exchange) => exchange.Admitted userId clientId n i s
  | _ => True

structure LimitFacts (c : OauthConf) : Prop where
  facts : OauthFacts Included c
  limits : ∀ i, (c.procs i).flow.Limits userId clientId quota n i c.shared (c.procs i).session
  bound : c.shared.sessions.countActiveByClient userId clientId ≤ n

end Limits

section Steps

variable {userId : Uuid} {clientId : String} {quota : Option Int} {n : Nat} {i : Nat}
  {s s' : OauthState} {a : OauthAct} {p p' : OauthRequest} {pc : Pc}

theorem OauthFlow.Limits.mono {flow : OauthFlow}
    (h : flow.Limits userId clientId quota n i s pc)
    (hlocks : ∀ u k, s.locks u k = some i → s'.locks u k = some i)
    (hcount : ∀ exchange : Exchange, exchange.Admitted userId clientId n i s →
      exchange.Concerns userId clientId →
      s'.sessions.countActiveByClient userId clientId ≤
        s.sessions.countActiveByClient userId clientId) :
    flow.Limits userId clientId quota n i s' pc := by
  have hadmitted : ∀ exchange : Exchange, exchange.Admitted userId clientId n i s →
      exchange.Admitted userId clientId n i s' := fun exchange hadm =>
    ⟨hlocks _ _ hadm.1, fun hconcerns =>
      (hcount exchange hadm hconcerns).trans_lt (hadm.2 hconcerns)⟩
  cases flow with
  | quota | count => exact ⟨hlocks _ _ h.1, h.2⟩
  | claim exchange => exact hadmitted exchange h
  | call task | inSession task =>
    cases task with
    | exchange exchange => exact hadmitted exchange h
    | _ => exact h
  | _ => exact h

theorem OauthStepped.table (h : OauthStepped i s p a s' p') :
    (∃ ch, a = .session ch ∧
      sessionProgram i (.go ch) s.sessions p.session = some (s'.sessions, p'.session)) ∨
    (s'.sessions.store = s.sessions.store ∧ s.sessions.clock ≤ s'.sessions.clock) := by
  have hstart : ∀ {call : Call} {sessions : Shared} {pc : Pc},
      sessionProgram i (.start call) s.sessions p.session = some (sessions, pc) →
      sessions = s.sessions := by
    intro call sessions pc hcall
    cases stepped hcall
    rfl
  have hrollback : Shared.store { s.sessions with db := s.sessions.db.rollback i } =
      s.sessions.store := funext Db.quiet_rollback.committed_eq
  cases h with
  | tick hle => exact .inr ⟨rfl, hle⟩
  | shown hidle hadmitted hshows hsee =>
    rcases Shared.seeToken_eq_some hsee with ⟨rfl, -⟩ | ⟨-, rfl⟩ <;> exact .inr ⟨rfl, le_rfl⟩
  | plain hidle hplain hcall | called hflow hcall | deleting hflow hcall =>
    obtain rfl := hstart hcall
    exact .inr ⟨rfl, le_rfl⟩
  | inner hstep | returned hstep | removed hstep =>
    exact .inl ⟨_, rfl, hstep⟩
  | absent => exact .inr ⟨hrollback, le_rfl⟩
  | failed =>
    show _ ∨ ((p.dropped i s.sessions).1.store = _ ∧ _ ≤ (p.dropped i s.sessions).1.clock)
    unfold OauthRequest.dropped
    split
    · exact .inr ⟨hrollback, le_rfl⟩
    · exact .inr ⟨rfl, le_rfl⟩
  | _ => exact .inr ⟨rfl, le_rfl⟩

theorem OauthStepped.locks (h : OauthStepped i s p a s' p') {j : Nat} (hji : j ≠ i) {u : Uuid}
    {k : String} (hlock : s.locks u k = some j) : s'.locks u k = some j := by
  have hrelease : ∀ t : OauthState, t.locks u k = some j → (t.release i).locks u k = some j := by
    intro t ht
    show (if t.locks u k = some i then none else t.locks u k) = some j
    rw [if_neg (by rw [ht]; exact fun heq => hji (Option.some.inj heq)), ht]
  cases h with
  | answered | committed => exact hrelease s hlock
  | failed => exact hrelease _ hlock
  | @locked inp exchange client hflow hfree =>
    show Function.update s.locks exchange.userId
      (Function.update (s.locks exchange.userId) exchange.clientId (some i)) u k = some j
    by_cases hu : u = exchange.userId
    · subst hu
      rw [Function.update_self]
      by_cases hk : k = exchange.clientId
      · subst hk
        rw [hfree] at hlock
        cases hlock
      · rw [Function.update_of_ne hk]
        exact hlock
    · rw [Function.update_of_ne hu]
      exact hlock
  | _ => exact hlock

end Steps

section Runs

variable {userId : Uuid} {clientId : String} {quota : Option Int} {n : Nat} {c : OauthConf}
  {i : Nat} {s : OauthState} {a : OauthAct} {p : OauthRequest}

/-- A step leaves the count as it is, or lowers it, or is the commit of a
session that was admitted. -/
theorem LimitFacts.count (h : LimitFacts userId clientId quota n c)
    (hintime : a.inTime c.shared (c.procs i) = true)
    (hstep : OauthStepped i c.shared (c.procs i) a s p) :
    s.sessions.countActiveByClient userId clientId ≤
        c.shared.sessions.countActiveByClient userId clientId ∨
      ∃ exchange new, (c.procs i).flow = .inSession (.exchange exchange) ∧
        exchange.Concerns userId clientId ∧ (c.procs i).session = .issue (.commit new) ∧
        s.sessions.countActiveByClient userId clientId ≤
          c.shared.sessions.countActiveByClient userId clientId + 1 := by
  rcases hstep.table with ⟨ch, rfl, hinner⟩ | ⟨hstore, hclock⟩
  · rcases h.facts.coherent.count_step userId clientId hinner hintime with hle |
      ⟨new, hpc, huser, hclient, hle⟩
    · exact .inl hle
    · -- The request that issues the session is an exchange for this user and client.
      right
      have hpc' : (c.procs i).session = .issue (.commit new) := hpc
      have hknows := h.facts.knows i
      have hlimits := h.limits i
      have hissueless : (c.procs i).session.issueless ≠ true := by
        rw [hpc']
        exact Bool.false_ne_true
      cases hflow : (c.procs i).flow with
      | inSession task =>
        rw [hflow] at hknows hlimits
        have hserves := hknows.2
        rw [hpc'] at hserves
        cases task with
        | signIn =>
          have hnone : new.val.clientId = none := hserves.2.1.trans hlimits
          rw [hclient] at hnone
          cases hnone
        | exchange exchange =>
          have huser' : new.val.userId = exchange.userId :=
            hserves.1.trans exchange.args_userId
          have hclient' : new.val.clientId = some exchange.clientId :=
            hserves.2.1.trans exchange.args_clientId
          refine ⟨exchange, new, rfl, ⟨huser'.symm.trans huser, ?_⟩, hpc', hle⟩
          exact Option.some.inj (hclient'.symm.trans hclient)
        | renew | refresh => cases hserves
      | plain | deletion =>
        rw [hflow] at hlimits
        exact absurd hlimits hissueless
      | _ =>
        cases hstep with
        | inner hinner' hquiet =>
          rcases hquiet with hq | ⟨task, hq, -⟩ | ⟨k, hq, -⟩ <;>
            rw [hflow] at hq <;> cases hq
        | returned hinner' hq hrow | removed hinner' hq hcommit hpresent
        | absent hq =>
          rw [hflow] at hq
          cases hq
  · exact .inl (Finset.card_le_card (activeByClient_of_same hstore hclock))

theorem OauthCall.entry_limits {j : Nat} {t : OauthState} {pc : Pc} {call : OauthCall}
    (hadmitted : call.admitted = true) :
    call.entry.Limits userId clientId quota n j t pc := by
  cases call with
  | signIn =>
    simp only [OauthCall.admitted, Bool.and_eq_true, Option.isNone_iff_eq_none] at hadmitted
    exact hadmitted.1
  | _ => trivial

theorem Exchange.allowed_of_hasLimit {exchange : Exchange} {client : RegisteredClient}
    {read : Option Int} (h : client.HasLimit read n) :
    exchange.allowed client read = some (n : Int) := by
  cases exchange with
  | code => exact h
  | device =>
    show (client.sessionLimit read <|> _) = _
    rw [show client.sessionLimit read = some (n : Int) from h]
    rfl

section

variable (h : LimitFacts userId clientId quota n c)
  (hlimit : LimitIs userId clientId quota n c.shared)
include h hlimit

theorem OauthMoves.limits {flow : OauthFlow}
    (hmove : OauthMoves c.shared (c.procs i).session (c.procs i).flow flow) :
    flow.Limits userId clientId quota n i c.shared (c.procs i).session := by
  have hlimits := h.limits i
  generalize (c.procs i).flow = flow₀ at hmove hlimits
  cases hmove with
  | authenticated hclient hentry =>
    rcases Grant.entry_eq_ok hentry with ⟨_, rfl, -⟩ | ⟨_, _, rfl, -⟩ | ⟨_, rfl, -⟩ <;> trivial
  | narrowed | rbac | responded | deleted => trivial
  | loaded hclient =>
    intro hconcerns
    exact (hlimit.2 _ (hconcerns.2 ▸ hclient)).2
  | quota =>
    refine ⟨hlimits.1, fun hconcerns => ?_⟩
    rw [hconcerns.1, hconcerns.2, hlimit.1]
    exact hlimits.2 hconcerns
  | counted hroom =>
    refine ⟨hlimits.1, fun hconcerns => ?_⟩
    have hlt := hroom n (Exchange.allowed_of_hasLimit (hlimits.2 hconcerns))
    rw [hconcerns.1, hconcerns.2] at hlt
    exact_mod_cast hlt
  | claimed => exact hlimits

theorem OauthStepped.limits (hintime : a.inTime c.shared (c.procs i) = true)
    (hstep : OauthStepped i c.shared (c.procs i) a s p) :
    p.flow.Limits userId clientId quota n i s p.session := by
  have hlimits := h.limits i
  have hcount := h.count hintime hstep
  -- The steps that do not commit a session keep what was known.
  have hsame : ∀ (flow : OauthFlow) (pc : Pc),
      (∀ u k, c.shared.locks u k = some i → s.locks u k = some i) →
      ((c.procs i).session.returnedRow = none ∨ ∀ ch, a ≠ .session ch) →
      flow.Limits userId clientId quota n i c.shared pc →
      flow.Limits userId clientId quota n i s pc := by
    intro flow pc hlocks hquiet hflow
    refine hflow.mono hlocks fun exchange hadm hconcerns => ?_
    rcases hcount with hle | ⟨_, new, -, -, hpc, -⟩
    · exact hle
    · rcases hquiet with hnone | hact
      · rw [hpc] at hnone
        cases hnone
      · rcases hstep.table with ⟨ch, ha, -⟩ | ⟨hstore, hclock⟩
        · exact absurd ha (hact ch)
        · exact Finset.card_le_card (activeByClient_of_same hstore hclock)
  cases hstep with
  | tick hle | configure cfg | saved client | quotaSet u k q | rbacSet u roles permissions
  | profileSet => exact hsame _ _ (fun _ _ hl => hl) (.inr (by simp)) hlimits
  | started hidle hadmitted | shown hidle hadmitted =>
    exact OauthCall.entry_limits hadmitted
  | plain hidle hplain hcall =>
    cases stepped hcall
    exact Call.entry_issueless hplain
  | inner hinner hquiet =>
    rcases hquiet with hflow | ⟨task, hflow, hnone⟩ | ⟨k, hflow, -⟩
    · rw [hflow] at hlimits ⊢
      exact Pc.issueless_step hlimits hinner
    · have hkept := hsame _ (c.procs i).session (fun _ _ hl => hl) (.inl hnone) hlimits
      rw [hflow] at hkept ⊢
      cases task <;> exact hkept
    · rw [hflow] at hlimits ⊢
      exact Pc.issueless_step hlimits hinner
  | returned hinner hflow hrow | absent hflow hcommit hclient | answered hrunning hanswer
  | committed | failed => trivial
  | removed hinner hflow =>
    rw [hflow] at hlimits
    exact Pc.issueless_step hlimits hinner
  | moved hmove => exact OauthMoves.limits h hlimit hmove
  | @locked inp exchange client hflow hfree =>
    rw [hflow] at hlimits
    refine ⟨?_, hlimits⟩
    show Function.update c.shared.locks exchange.userId
      (Function.update (c.shared.locks exchange.userId) exchange.clientId (some i))
      exchange.userId exchange.clientId = some i
    rw [Function.update_self, Function.update_self]
  | @called inp task sessions pc hflow hcall =>
    have hkept := hsame _ _ (fun _ _ hl => hl) (.inr (by simp)) hlimits
    rw [hflow] at hkept
    cases task <;> exact hkept
  | deleting hflow hcall =>
    cases stepped hcall
    rfl
  | @built inp task session scopes roles held hflow =>
    cases task with
    | refresh request scope => cases scope <;> trivial
    | _ => trivial

theorem LimitFacts.set (hintime : a.inTime c.shared (c.procs i) = true)
    (hprog : oauthProgram i a c.shared (c.procs i) = some (s, p)) :
    LimitFacts userId clientId quota n (c.set i s p) := by
  have hstep := oauthStepped hprog
  have hcount := h.count hintime hstep
  refine ⟨h.facts.set (included_checks h.facts.apart i) hprog, fun j => ?_, ?_⟩
  · refine Conf.set_cases j ?_ fun j hji => ?_
    · exact hstep.limits h hlimit hintime
    · refine (h.limits j).mono (fun _ _ hl => hstep.locks hji hl) fun exchange hadm hconcerns => ?_
      rcases hcount with hle | ⟨exchange', new, hflow, hconcerns', -⟩
      · exact hle
      · -- Both hold the lock of this user and client.
        have hlimits := h.limits i
        rw [hflow] at hlimits
        have hi := hlimits.1
        have hj := hadm.1
        rw [hconcerns'.1, hconcerns'.2] at hi
        rw [hconcerns.1, hconcerns.2, hi] at hj
        exact absurd (Option.some.inj hj).symm hji
  · rcases hcount with hle | ⟨exchange, new, hflow, hconcerns, -, hle⟩
    · exact hle.trans h.bound
    · have hlimits := h.limits i
      rw [hflow] at hlimits
      exact hle.trans (hlimits.2 hconcerns)

end

theorem limitFacts_initial (cfg : JwtConfig) (clock : OffsetDateTime) :
    LimitFacts userId clientId quota n (oauthInitial cfg clock) :=
  ⟨oauthFacts_initial cfg clock, fun _ => trivial, Nat.zero_le n⟩

/-- **A user never holds more active device sessions of a client than its
limit**, in every run in which the limit is a constant and every rotation
commits before the session it replaces has expired. -/
theorem active_sessions_within_limit {cfg : JwtConfig} {clock : OffsetDateTime}
    (hrun : Steps oauthProgram
      (fun c i a => LimitIs userId clientId quota n c.shared ∧
        a.inTime c.shared (c.procs i) = true) (oauthInitial cfg clock) c) :
    c.shared.sessions.countActiveByClient userId clientId ≤ n :=
  (hrun.invariant (I := LimitFacts userId clientId quota n)
    (fun _ _ _ _ _ h hok hprog => h.set hok.1 hok.2 hprog) (limitFacts_initial cfg clock)).bound

end Runs

/-! ### One session at a time, and a rotation that is late -/

/-- A session is refreshed, and another code of the user is refused. -/
def refreshedInTime : List (Nat × OauthAct) :=
  [(0, .saveClient (appClient []))] ++ redemptionSchedule 1 none 7 1 1 ++ respondSchedule 1 ++
  clientRefreshSchedule 2 7 ["files:read"] ++ clientRotateSchedule 2 8 2 ++
  [(3, .start (.token (.authorizationCode (appCode none) appRedemption))), (3, .go {}),
    (3, .go {}), (3, .go {}), (3, .go {}), (3, .go {})]

theorem refreshed_within_limit :
    ∃ c, Steps oauthProgram
        (fun c i a => LimitIs 1 "app" none 1 c.shared ∧ a.inTime c.shared (c.procs i) = true)
        (oauthInitial shortSessions (instant 0)) c ∧
      (c.procs 3).flow.answer = some (.error .deviceSessionLimitReached) ∧
      c.shared.sessions.countActiveByClient 1 "app" ≤ 1 := by
  obtain ⟨c, hexec, hanswer⟩ : ∃ c ∈ exec oauthProgram
      (fun c i a => LimitIs 1 "app" none 1 c.shared ∧ a.inTime c.shared (c.procs i) = true)
      (oauthInitial shortSessions (instant 0)) refreshedInTime,
      (c.procs 3).flow.answer = some (.error .deviceSessionLimitReached) := by
    decide +kernel
  exact ⟨c, steps_of_exec hexec, hanswer, active_sessions_within_limit (steps_of_exec hexec)⟩

/-- Request 2 shows the refresh token in time, the session expires, request
3 redeems another code, and request 2 rotates the expired session. -/
def rotatedLate : List (Nat × OauthAct) :=
  [(0, .saveClient (appClient []))] ++ redemptionSchedule 1 none 7 1 1 ++ respondSchedule 1 ++
  clientRefreshSchedule 2 7 ["files:read"] ++ [(0, .tick (instant 601))] ++
  redemptionSchedule 3 none 9 3 3 ++ respondSchedule 3 ++ clientRotateSchedule 2 8 2

/-- The limit is one session all along, and there are two. -/
theorem rotated_late_beyond_limit :
    ∃ c, Steps oauthProgram (fun c _ _ => LimitIs 1 "app" none 1 c.shared)
        (oauthInitial shortSessions (instant 0)) c ∧
      LimitIs 1 "app" none 1 c.shared ∧ c.shared.sessions.countActiveByClient 1 "app" = 2 := by
  exact exists_steps rotatedLate (by decide +kernel)

end AuthApi
