import AuthApi.Cleanup
import AuthApi.Completions
import AuthApi.EnrolmentRace
import AuthApi.TokenScopes

/-!
# The service as a whole

A run of the whole service, with its sign-ins, second factors, grants,
resets and enrolments, is one of the account system, and that is one of the
session system. What is known of the parts then holds in every run of the
service. Cleanup jobs and the deletion of accounts, which delete rows, are
not part of such a run.
-/

namespace AuthApi

open Conc

variable {ok : FactorConf → Nat → FactorAct → Prop} {config : FactorConfig} {cfg : JwtConfig}
  {deviceAuth : DeviceAuthConfig} {clock : OffsetDateTime} {ahead : Int} {c c' : FactorConf}
  {k next : Uuid} {r : SessionRow}

section Runs

variable (hrun : Steps factorProgram ok (factorInitial config cfg deviceAuth clock ahead) c)
include hrun

theorem service_sessions : Reachable (sessionsOf (accountOf c)) :=
  AccountReachable.sessions ⟨cfg, deviceAuth, clock, steps_accountOf hrun⟩

/-- A session that was replaced is followed by one of its kin, and it was
revoked the instant that one was created. -/
theorem replaced_by_kin (hr : c.shared.account.sessions.store k = some r)
    (hnext : r.val.replacedBySessionId = some next) :
    ∃ r', c.shared.account.sessions.store next = some r' ∧ Kin r.val r'.val ∧
      r.val.revokedAt = some r'.val.createdAt := by
  have hstore : StoreReachable c.shared.account.sessions.store := (service_sessions hrun).store
  obtain ⟨r', hr', hkin⟩ := hstore.linked k r next hr hnext
  obtain ⟨r'', hr'', hrevoked⟩ := hstore.revoked_at_rotation hr hnext
  obtain rfl := Option.some.inj (hr'.symm.trans hr'')
  exact ⟨r', hr', hkin, hrevoked⟩

/-- Whatever the service does later, a session stays in the table and only
ages: one that was revoked is never usable again. -/
theorem session_only_ages (hlater : Steps factorProgram ok c c')
    (hr : c.shared.account.sessions.store k = some r) :
    ∃ r', c'.shared.account.sessions.store k = some r' ∧ Evolves r.val r'.val :=
  (service_sessions hrun).coherent.steps_evolves (steps_sessionsOf (steps_accountOf hlater)) hr

/-- The token of a session finds that session, and no other. -/
theorem token_finds_session (hr : c.shared.account.sessions.store k = some r) :
    c.shared.account.sessions.findByTokenHash r.val.tokenHash = some r.val := by
  obtain ⟨cfg', clock', hsessions⟩ := service_sessions hrun
  have hinit : HashesApart (initial cfg' clock') :=
    (oauthFacts_initial (P := Included) cfg' clock').apart
  have h := hsessions.invariant (I := fun c => Coherent c ∧ HashesApart c)
    (fun _ _ _ _ _ hc _ hprog => ⟨hc.1.set hprog, hc.2.set hc.1 hprog⟩)
    ⟨coherent_initial cfg' clock', hinit⟩
  obtain ⟨_, row, hfind, hrow, rfl⟩ := h.2.find hr rfl
  obtain rfl := Option.some.inj (hrow.symm.trans hr)
  exact hfind

/-- A challenge that is stored was opened by a sign-in, and expires within
its five minutes. -/
theorem challenge_expires {id : TokenHash} {state : PreAuthState} {deadline : Option Int}
    (hentry : c.shared.account.preAuth.entry id = some (state, deadline)) :
    (c.shared.account.openedWith id).isSome ∧
      ∃ t, deadline = some t ∧ t ≤ c.shared.account.now + preAuthTtlSecs * nanosPerSec := by
  have h : Challenged (accountOf c) :=
    (steps_accountOf hrun).invariant (fun _ _ _ _ _ hc _ hprog => hc.set hprog)
      (challenged_initial cfg deviceAuth clock)
  exact h.opened.stored id state deadline hentry

/-- **Removals exclude each other.** Of an account, one request at a time
is between locking its row and committing the removal of its factors. -/
theorem removals_exclude {i j : Nat} {userId : Uuid}
    (hi : (c.procs i).own.removing = some userId)
    (hj : (c.procs j).own.removing = some userId) : i = j := by
  have h : WritersOk c :=
    hrun.invariant (fun _ _ _ _ _ hc _ hprog => hc.step hprog)
      (writersOk_initial config cfg deviceAuth clock ahead)
  obtain ⟨l, hl, hholder, -⟩ := (h.procs i).held userId hi
  obtain ⟨l', hl', hholder', -⟩ := (h.procs j).held userId hj
  obtain rfl := Option.some.inj (hl.symm.trans hl')
  exact hholder.symm.trans hholder'

end Runs

/-! ## A refresh, a challenge and a reset -/

def Served (c : FactorConf) : Prop :=
  Steps factorProgram Free
    (factorInitial defaultFactors shortSessions ⟨300, 5⟩ (instant 100) 0) c

/-- Request 1 shows the token 1 and gets the session 3. -/
def refreshSteps : List (Nat × FactorAct) :=
  (1, .account (.start (.session (.refreshToken ⟨1, none, none, none⟩)))) ::
    [{}, {}, {}, {}, { tokenHash := 2 }, {}, {}, { uuid := 3 }, {}, {}].map
      fun ch => (1, .account (.session ch))

theorem exists_signed_in :
    ∃ c, Served c ∧ ∃ r ∈ c.shared.account.sessions.store 2,
      ∃ c' ∈ exec factorProgram Free c refreshSteps,
        ∃ r' ∈ c'.shared.account.sessions.store 2, r'.val.replacedBySessionId = some 3 :=
  exists_steps sessionSchedule (by decide +kernel)

theorem refreshed_by_kin :
    ∃ c, Served c ∧ ∃ r r', c.shared.account.sessions.store 2 = some r ∧
      c.shared.account.sessions.store 3 = some r' ∧ Kin r.val r'.val ∧
      r.val.revokedAt = some r'.val.createdAt := by
  obtain ⟨c, hrun, -, -, c', hexec, r, hr, hnext⟩ := exists_signed_in
  have hrun' := hrun.trans (steps_of_exec hexec)
  obtain ⟨r', h⟩ := replaced_by_kin hrun' hr hnext
  exact ⟨c', hrun', r, r', hr, h⟩

theorem refreshed_only_ages :
    ∃ c c', Served c ∧ Steps factorProgram Free c c' ∧ ∃ r r',
      c.shared.account.sessions.store 2 = some r ∧
      c'.shared.account.sessions.store 2 = some r' ∧ Evolves r.val r'.val := by
  obtain ⟨c, hrun, r, hr, c', hexec, -⟩ := exists_signed_in
  have hlater := steps_of_exec hexec
  obtain ⟨r', h⟩ := session_only_ages hrun hlater hr
  exact ⟨c, c', hrun, hlater, r, r', hr, h⟩

theorem signed_in_token_finds :
    ∃ c, Served c ∧ ∃ r ∈ c.shared.account.sessions.store 2,
      c.shared.account.sessions.findByTokenHash r.val.tokenHash = some r.val := by
  obtain ⟨c, hrun, r, hr, -⟩ := exists_signed_in
  exact ⟨c, hrun, r, hr, token_finds_session hrun hr⟩

theorem opened_challenge_expires :
    ∃ c state t, Served c ∧ c.shared.account.preAuth.entry 7 = some (state, some t) ∧
      t ≤ c.shared.account.now + preAuthTtlSecs * nanosPerSec := by
  obtain ⟨c, hrun, hsome⟩ : ∃ c, Served c ∧ (c.shared.account.preAuth.entry 7).isSome :=
    exists_steps (totpSetup ++ challengeSchedule 2 .totp 7) (by decide +kernel)
  obtain ⟨⟨state, deadline⟩, hentry⟩ := Option.isSome_iff_exists.mp hsome
  obtain ⟨-, t, rfl, hle⟩ := challenge_expires hrun hentry
  exact ⟨c, state, t, hrun, hentry, hle⟩

theorem reset_excludes :
    ∃ c, Served c ∧ (c.procs 2).own.removing = some 1 ∧
      ∀ j, (c.procs j).own.removing = some 1 → j = 2 := by
  obtain ⟨c, hrun, hremoving⟩ : ∃ c, Served c ∧ (c.procs 2).own.removing = some 1 :=
    exists_steps ((resetSessionSchedule 0).take 6) (by decide +kernel)
  exact ⟨c, hrun, hremoving, fun j hj => removals_exclude hrun hj hremoving⟩

end AuthApi
