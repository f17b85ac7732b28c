import AuthApi.ChallengePurge
import AuthApi.LogoutRace

/-!
# No sign-in outlives a reset, if it keeps out of its way

A sign-in that has checked the old password can still issue a session,
or store a challenge, when the reset is over. In a sheltered run neither
happens: every session such a sign-in yields is revoked, and no
challenge it has opened can be answered (`no_sign_in_survives_reset`).
-/

namespace AuthApi

open Conc Pg

/-! ## The sessions sign-ins yield -/

def IssuePc.userId : IssuePc → Uuid
  | .clock args => args.userId
  | .start args _ _ _ => args.userId
  | .insert args _ _ _ _ => args.userId
  | .commit new => new.val.userId

/-- The session code issues a session of the account, or has ended. -/
def Pc.issuesFor (userId : Uuid) : Pc → Prop
  | .issue pc => pc.userId = userId
  | .done _ => True
  | _ => False

variable {i : Nat} {pc' : Pc} {s s' : Shared} {userId : Uuid}

theorem IssueStepped.issuesFor {ch : Choice} {pc : IssuePc}
    (h : IssueStepped i s ch pc s' pc') : pc'.issuesFor pc.userId := by
  cases h with
  | drew | began => rfl
  | refused | committed => trivial
  | inserted _ hval => exact congrArg Session.userId hval

theorem Pc.issuesFor_step {b : Act} {pc : Pc} (h : sessionProgram i b s pc = some (s', pc'))
    (hpc : pc.issuesFor userId) : pc'.issuesFor userId := by
  cases stepped h with
  | tick | configure => exact hpc
  | start hidle =>
    rw [hidle] at hpc
    exact hpc.elim
  | fail => trivial
  | @go ch _ _ hgo =>
    cases pc with
    | issue q =>
      obtain rfl : q.userId = userId := hpc
      exact (issueStepped hgo).issuesFor
    | done => cases hgo
    | _ => exact hpc.elim

/-- The session `id` of the account is revoked, or left to the reset. -/
def Covered (r : Nat) (userId : Uuid) (c : AccountConf) (id : Uuid) : Prop :=
  ∃ row, c.shared.sessions.store id = some row ∧ row.val.userId = userId ∧
    (row.val.revokedAt = none →
      LeftTo c.shared.sessions.db r (.allByUser userId) id (c.procs r).session)

/-- What the reset does to the sessions sign-ins yield. Version 0 is that
of the old password. -/
structure SignInsEnded (r : Nat) (userId : Uuid) (c : AccountConf) : Prop where
  idle : (c.procs r).flow = .idle → (c.procs r).session = .idle
  issues : ∀ j user version, (c.procs j).flow.proven c.shared = some (user, version) →
    (c.procs j).session.issuesFor user
  revoked : ((c.procs r).phase userId).late = true →
    (c.procs r).session.hasRevoked (.allByUser userId) = true
  awaiting : ((c.procs r).phase userId).late = true → ∀ j,
    (c.procs j).awaiting c.shared ≠ some (userId, 0)
  yielded : (c.procs r).phase userId ≠ .other → ∀ id, ⟨userId, 0, id⟩ ∈ c.shared.signedIn →
    Covered r userId c id

section Steps

variable {i r : Nat} {userId user id : Uuid} {c : AccountConf} {a : AccountAct}
  {s s' : AccountState} {p p' : Request} {pair : Uuid × Nat}

theorem AccountStepped.idle (h : AccountStepped i s p a s' p')
    (hidle : p.flow = .idle → p.session = .idle) (hflow' : p'.flow = .idle) :
    p'.session = .idle := by
  cases h with
  | session hact hstep =>
    have hflow := (sessionStep_fields hstep).1
    have hpc := sessionStep_part hstep
    rw [hidle (hflow ▸ hflow')] at hpc
    generalize p'.session = pc' at hpc ⊢
    generalize s'.sessions = sessions at hpc
    cases stepped hpc with
    | tick | configure => rfl
    | start => cases a <;> cases hact
    | go hgo => cases hgo
    | fail hrunning => cases hrunning
  | start hidle' h =>
    cases h with
    | aloof haloof =>
      rw [hflow'] at haloof
      cases haloof
    | _ => cases hflow'
  | signIn hp h | complete hp h | password hp h => cases h <;> cases hflow'
  | aloof hp hp' | fail hp' =>
    rw [hflow'] at hp'
    cases hp'

theorem Flow.proven_of_aloof {flow : Flow} (h : flow.aloof = true) : flow.proven s = none := by
  cases flow <;> first | rfl | cases h

theorem AccountStepped.issues (h : AccountStepped i s p a s' p')
    (hissues : ∀ user version, p.flow.proven s = some (user, version) → p.session.issuesFor user)
    {version : Nat} (hproven : p'.flow.proven s' = some (user, version)) :
    p'.session.issuesFor user := by
  cases h with
  | session hact hstep =>
    obtain ⟨hflow, -, -, hopened, -⟩ := sessionStep_fields hstep
    rw [hflow, show p.flow.proven s' = p.flow.proven s by
      simp only [Flow.proven, AccountState.versionOf, hopened]] at hproven
    exact Pc.issuesFor_step (sessionStep_part hstep) (hissues user version hproven)
  | start hidle h =>
    cases h with
    | aloof haloof =>
      rw [Flow.proven_of_aloof haloof] at hproven
      cases hproven
    | _ => cases hproven
  | signIn hp h =>
    cases h with
    | issuing =>
      cases hproven
      rfl
    | _ => cases hproven
  | complete hp h =>
    cases h with
    | unlisted =>
      cases hproven
      rfl
    | _ => cases hproven
  | password hp h => cases h <;> cases hproven
  | aloof hp hp' =>
    rw [Flow.proven_of_aloof hp'] at hproven
    cases hproven
  | fail hp' =>
    rw [hp'] at hproven
    cases hproven

theorem Pc.hasRevoked_of_resets {pc : Pc} (h : pc.resets userId) (hlate : pc.phase.late = true) :
    pc.hasRevoked (.allByUser userId) = true := by
  unfold Pc.resets at h
  split at h <;> simp_all [Pc.phase, Phase.late, Pc.hasRevoked]

theorem SignInsEnded.own_revoked (h : SignInsEnded r userId c) (hr : Resetting r userId c)
    (hok : Sheltered r userId c r a)
    (hstep : AccountStepped r c.shared (c.procs r) a s p)
    (hlate : (p.phase userId).late = true) : p.session.hasRevoked (.allByUser userId) = true := by
  have hphase' : p.phase userId ≠ .other := by
    intro heq
    rw [heq] at hlate
    cases hlate
  have hphase : (c.procs r).phase userId ≠ .other := fun heq => hphase' (hstep.other hr.resets heq)
  have halone : ∀ call ∈ a.call, call.changes = some userId → call.resets = some userId :=
    fun call hcall hchanges => (hok.alone call hcall hchanges).2
  by_cases hchanging : p.flow.changing = some userId
  · have hresets := hstep.resets hr.resets halone hchanging
    rw [Request.phase_change (Flow.eq_of_changing hchanging)] at hlate
    exact Pc.hasRevoked_of_resets hresets hlate
  cases hstep with
  | session hact hstep =>
    have hflow := (sessionStep_fields hstep).1
    rw [Request.phase_of_flow hflow (hflow ▸ hchanging)] at hlate
    rcases Pc.hasRevoked_step (h.revoked hlate) (sessionStep_part hstep) with hrev | ⟨rfl, -⟩
    · exact hrev
    · cases a <;> cases hact
  | start hidle hentered =>
    cases hentered with
    | resetPassword user | changePassword user =>
      by_cases huser : user = userId
      · exact absurd (by rw [huser]; rfl) hchanging
      · exact absurd (if_neg huser) hphase'
    | signIn | complete => exact absurd rfl hphase'
    | aloof haloof => exact absurd (Request.phase_of_aloof haloof) hphase'
  | signIn hp | complete hp => exact absurd (by simp [Request.phase, hp]) hphase
  | aloof hp => exact absurd (Request.phase_of_aloof hp) hphase
  | fail hp' => exact absurd (by simp [Request.phase, hp']) hphase'
  | password hp hstep =>
    obtain rfl := Request.user_of_phase hp hphase
    cases hstep with
    | changed hdone =>
      have hresets := hr.resets (by rw [hp]; rfl)
      rw [hdone] at hresets
      show (c.procs r).session.hasRevoked _ = true
      rw [hdone, show _ = Revocation.allByUser _ from hresets]
      simp [Pc.hasRevoked, PasswordPc.userId]
    | refused => exact absurd rfl hphase'
    | cutOff | read => exact h.revoked (congrArg Phase.late (Request.phase_members hp))
    | deleted | cleared => exact h.revoked (congrArg Phase.late (Request.phase_drop hp))

/-! ### What is still to be issued -/

theorem Request.awaiting_of_phase (h : p.phase userId ≠ .other) : p.awaiting s = none := by
  have hflow : p.flow.proven s = none := by
    cases hflow : p.flow with
    | signIn | complete => exact absurd (by simp [Request.phase, hflow]) h
    | _ => rfl
  unfold Request.awaiting
  split
  · rename_i hp
    exact absurd (by simp [Request.phase, hp]) h
  · rename_i hp
    exact absurd (by simp [Request.phase, hp]) h
  · simp [hflow]

theorem ChallengeRely.versionOf (h : ChallengeRely i s s') {id : TokenHash}
    (hzero : s'.versionOf id = 0) : s.versionOf id = 0 := by
  unfold AccountState.versionOf at hzero ⊢
  cases hopened : s.openedWith id with
  | none => rfl
  | some v =>
    rw [h.opened id v hopened] at hzero
    exact hzero

theorem ChallengeRely.awaiting (h : ChallengeRely i s s')
    (hawaiting : p.awaiting s' = some (user, 0)) : p.awaiting s = some (user, 0) := by
  unfold Request.awaiting at hawaiting ⊢
  split
  · rename_i hp
    rw [hp] at hawaiting
    exact hawaiting
  · rename_i request challenge hp
    rw [hp] at hawaiting
    simp only [Option.some.injEq, Prod.mk.injEq] at hawaiting ⊢
    exact ⟨hawaiting.1, h.versionOf hawaiting.2⟩
  · split at hawaiting
    · simp_all
    · simp_all
    · split at hawaiting
      · rename_i hnone
        rw [if_pos hnone]
        unfold Flow.proven at hawaiting ⊢
        split
        · rename_i hp
          rw [hp] at hawaiting
          exact hawaiting
        · rename_i hp
          rw [hp] at hawaiting
          simp only [Option.some.injEq, Prod.mk.injEq] at hawaiting ⊢
          exact ⟨hawaiting.1, h.versionOf hawaiting.2⟩
        · split at hawaiting <;> simp_all
      · cases hawaiting

theorem Request.awaiting_of_aloof (h : p.flow.aloof = true) : p.awaiting s = none := by
  unfold Request.awaiting
  split <;> simp_all [Flow.aloof, Flow.proven_of_aloof]

/-- While a challenge that was opened with the old password can be taken,
it is listed for the purge. -/
theorem Purged.not_returned (h : Purged r userId c) (hc : Challenged c)
    {request : Completion} {challenge : PreAuthState}
    (hp : (c.procs i).flow = .complete (.take request challenge))
    (hget : (c.shared.preAuth.get c.shared.now request.challengeId).isSome)
    (huser : challenge.userId = userId) (hold : c.shared.versionOf request.challengeId = 0) :
    (c.procs r).phase userId ≠ .returned := by
  intro hphase
  obtain ⟨state, hstate⟩ := Option.isSome_iff_exists.mp hget
  obtain ⟨deadline, hentry, hlive⟩ := Redis.Store.get_eq_some.mp hstate
  obtain ⟨hopened, t, rfl, -⟩ := hc.opened.stored _ _ _ hentry
  obtain ⟨v, hv⟩ := Option.isSome_iff_exists.mp hopened
  have hsame : state = challenge :=
    ((hc.knows i).answering _ _ (by rw [hp]; rfl)).2 state _ hentry
  have hzero : v = 0 := by
    rw [AccountState.versionOf, hv] at hold
    exact hold
  have hmem := h.old [] (by rw [hphase]; rfl) request.challengeId t
    ⟨⟨state, hentry, by rw [hsame, huser]⟩, Redis.live_some.mp hlive⟩ (by rw [hv, hzero])
  cases hmem

/-- No request comes to have a session to issue for the old password once
the reset has committed. -/
theorem SignInsEnded.own_awaiting (h : SignInsEnded r userId c) (hc : Challenged c)
    (hr : Resetting r userId c)
    (hpurged : Purged r userId c) (hok : Sheltered r userId c i a)
    (hstep : AccountStepped i c.shared (c.procs i) a s p)
    (hlate : ((c.procs r).phase userId).late = true) : p.awaiting s ≠ some (userId, 0) := by
  intro hawaiting
  have hversion := hr.late hlate
  have hbefore : (c.procs i).awaiting c.shared ≠ some (userId, 0) := h.awaiting hlate i
  cases hstep with
  | session hact hstep =>
    obtain ⟨hflow, -, -, hopened, -⟩ := sessionStep_fields hstep
    refine hbefore ?_
    unfold Request.awaiting at hawaiting ⊢
    simp only [hflow, AccountState.versionOf, Flow.proven, hopened] at hawaiting ⊢
    split at hawaiting
    · exact hawaiting
    · exact hawaiting
    · split at hawaiting
      · rename_i hnone
        have hnone' : (c.procs i).session.outcome.isNone = true := by
          by_contra hsome
          simp only [Option.isNone_iff_eq_none] at hsome
          have hpc := Pc.outcome_step (sessionStep_part hstep) (Option.isSome_iff_ne_none.mpr hsome)
          rw [hpc] at hnone
          exact hsome (Option.isNone_iff_eq_none.mp hnone)
        rw [if_pos hnone']
        exact hawaiting
      · cases hawaiting
  | start hidle hentered =>
    cases hentered with
    | aloof haloof =>
      rw [Request.awaiting_of_aloof haloof] at hawaiting
      cases hawaiting
    | _ => simp [Request.awaiting, Flow.proven, Request.goto] at hawaiting
  | signIn hp hstep =>
    cases hstep with
    | checked =>
      simp only [Request.awaiting, Request.goto, Option.some.injEq, Prod.mk.injEq] at hawaiting
      rw [hawaiting.1, hversion] at hawaiting
      cases hawaiting.2
    | issuing =>
      refine hbefore ?_
      simp only [Request.awaiting, Flow.proven, Pc.outcome, Option.isNone_none, if_true]
        at hawaiting
      simp only [Request.awaiting, hp]
      exact hawaiting
    | ended hpc hanswer =>
      rw [Request.awaiting_of_aloof hanswer] at hawaiting
      cases hawaiting
    | _ => simp [Request.awaiting, Flow.proven, Request.goto] at hawaiting
  | complete hp hstep =>
    cases hstep with
    | taken hget =>
      simp only [Request.awaiting, Request.goto, Option.some.injEq, Prod.mk.injEq] at hawaiting
      obtain ⟨huser, hold⟩ := hawaiting
      have hle := hok.taking rfl hlate (hpurged.not_returned hc hp hget huser hold) _
        (by rw [hp]; rfl) huser
      rw [hversion] at hle
      exact absurd (hold ▸ hle) (by decide)
    | unlisted =>
      refine hbefore ?_
      simp only [Request.awaiting, Flow.proven, Pc.outcome, Option.isNone_none, if_true,
        AccountState.versionOf] at hawaiting
      simp only [Request.awaiting, hp, AccountState.versionOf]
      split at hawaiting <;> exact hawaiting
    | ended hanswer =>
      rw [Request.awaiting_of_aloof hanswer] at hawaiting
      cases hawaiting
    | _ => simp [Request.awaiting, Flow.proven, Request.goto] at hawaiting
  | password hp hstep =>
    cases hstep <;>
      simp [Request.awaiting, Flow.proven, Request.goto, Request.refuse, Request.answer]
        at hawaiting
  | aloof hp hp' =>
    rw [Request.awaiting_of_aloof hp'] at hawaiting
    cases hawaiting
  | fail hp' =>
    rw [Request.awaiting_of_aloof (by rw [hp']; rfl)] at hawaiting
    cases hawaiting

/-! ### What has been issued -/

theorem AccountStepped.signedIn (h : AccountStepped i s p a s' p') :
    s'.signedIn = s.signedIn ∨ ∃ ch user version new,
      a = .session ch ∧ s'.signedIn = ⟨user, version, new.val.id⟩ :: s.signedIn ∧
        p.flow.proven s = some (user, version) ∧ p.session = .issue (.commit new) ∧
        s'.sessions.db = s.sessions.db.commit i := by
  cases h with
  | session hact hstep =>
    rcases sessionStep_signedIn hstep with heq | ⟨user, version, id, pc, heq, hproven, hpc, hdone⟩
    · exact .inl heq
    · have hprog := sessionStep_part hstep
      rw [hpc] at hprog
      obtain ⟨ch, new, rfl, rfl, rfl, hcommit⟩ := issue_commits hprog hdone
      refine .inr ⟨ch, user, version, new, ?_, heq, hproven, hpc, congrArg Shared.db hcommit⟩
      cases a <;> cases hact
      rfl
  | start => exact .inl rfl
  | signIn hp h => exact .inl (by cases h <;> rfl)
  | complete hp h =>
    cases h with
    | unlisted => exact .inl (by split <;> rfl)
    | _ => exact .inl rfl
  | password hp h =>
    cases h with
    | deleted | cleared => exact .inl (by split <;> rfl)
    | _ => exact .inl rfl
  | aloof hp hp' h | fail hp' h => exact .inl h.signedIn

theorem Request.awaiting_of_proven (hproven : p.flow.proven s = some pair)
    (hnone : p.session.outcome = none) : p.awaiting s = some pair := by
  unfold Request.awaiting
  split
  · rename_i hp
    rw [hp] at hproven
    cases hproven
  · rename_i hp
    rw [hp] at hproven
    cases hproven
  · rw [hnone]
    exact hproven

theorem Request.phase_of_proven (hproven : p.flow.proven s = some pair) :
    p.phase userId = .other := by
  unfold Flow.proven at hproven
  split at hproven
  · rename_i hp
    simp [Request.phase, hp]
  · rename_i hp
    simp [Request.phase, hp]
  · cases hproven

/-- What is left to the reset stays left to it until it is revoked. -/
theorem Challenged.leftTo (hc : Challenged c)
    (hprog : accountProgram i a c.shared (c.procs i) = some (s, p)) {rev : Revocation}
    {row row' : SessionRow} (hrow : c.shared.sessions.store id = some row)
    (hcov : rev.covers row.val = true) (hrow' : s.sessions.store id = some row')
    (hlive : row'.val.revokedAt = none)
    (hleft : LeftTo c.shared.sessions.db r rev id (c.procs r).session) :
    LeftTo s.sessions.db r rev id ((c.set i s p).procs r).session := by
  cases accountProgram_part hprog with
  | same hs hp =>
    rw [hs]
    rcases c.procs_cases i s p r with ⟨rfl, hset⟩ | ⟨hir, hset⟩ <;> rw [hset]
    · rw [hp]
      exact hleft
    · exact hleft
  | stepped b hb =>
    rcases c.procs_cases i s p r with ⟨rfl, hset⟩ | ⟨hir, hset⟩ <;> rw [hset]
    · exact hleft.own_step (hc.sessions.procs r) hb hrow hcov hrow' hlive
    · have hother : LeftTo _ r rev id (((sessionsOf c).set i _ p.session).procs r) :=
        LeftTo.other_step (hc.sessions.kept (i := i) hb).rely hir hleft
      rw [Conf.set_procs_of_ne _ _ _ hir] at hother
      exact hother

theorem SignInsEnded.leftTo_of_before (h : SignInsEnded r userId c) (hr : Resetting r userId c)
    (hphase : (c.procs r).phase userId = .before) (db : SessionDb) (id : Uuid) :
    LeftTo db r (.allByUser userId) id (c.procs r).session := by
  by_cases hchanging : (c.procs r).flow.changing = some userId
  · rw [Request.phase_change (Flow.eq_of_changing hchanging)] at hphase
    have hresets := hr.resets hchanging
    unfold Pc.resets at hresets
    split at hresets <;> simp_all [Pc.phase, LeftTo, Pc.hasRevoked]
  · have hidle : (c.procs r).flow = .idle := by
      unfold Request.phase at hphase
      split at hphase
      · assumption
      · rename_i user hp
        split at hphase
        · rename_i huser
          exact absurd (by rw [hp, huser]; rfl) hchanging
        · cases hphase
      all_goals first | cases hphase | (split at hphase <;> cases hphase)
    rw [h.idle hidle]
    rfl

theorem Covered.step (h : Covered r userId c id) (hc : Challenged c)
    (hprog : accountProgram i a c.shared (c.procs i) = some (s, p)) :
    Covered r userId (c.set i s p) id := by
  obtain ⟨row, hrow, huser, hleft⟩ := h
  have hevolves : ∃ row', s.sessions.store id = some row' ∧ Evolves row.val row'.val := by
    cases accountProgram_part hprog with
    | same hs => exact ⟨row, hs ▸ hrow, .refl _⟩
    | stepped b hb => exact (hc.sessions.kept (i := i) hb).rely.evolves hrow
  obtain ⟨row', hrow', hev⟩ := hevolves
  exact ⟨row', hrow', hev.kin.userId.symm.trans huser, fun hlive =>
    hc.leftTo hprog hrow (by simp [Revocation.covers, huser]) hrow' hlive
      (hleft (hev.unrevoked hlive))⟩

theorem SignInsEnded.covered (h : SignInsEnded r userId c) (hc : Challenged c)
    (hr : Resetting r userId c)
    {ch : Choice} {new : SessionRow} (hok : Sheltered r userId c i (.session ch))
    (hbefore : (c.procs r).phase userId ≠ .other)
    (hproven : (c.procs i).flow.proven c.shared = some (userId, 0))
    (hpc : (c.procs i).session = .issue (.commit new))
    (hdb : s.sessions.db = c.shared.sessions.db.commit i) :
    Covered r userId (c.set i s p) new.val.id := by
  have hir : r ≠ i := by
    rintro rfl
    exact hbefore (Request.phase_of_proven hproven)
  have hlocal := hc.sessions.procs i
  rw [show (sessionsOf c).procs i = .issue (.commit new) from hpc] at hlocal
  obtain ⟨hheld, hslot, -⟩ := hlocal
  have hrow : s.sessions.store new.val.id = some new := by
    show s.sessions.db.committed new.val.id = some new
    have hcommit := congrFun (hheld.commit_one hslot) new.val.id
    rw [Function.update_self] at hcommit
    rw [hdb]
    exact hcommit
  have huser : new.val.userId = userId := by
    have hissues := h.issues i userId 0 hproven
    rw [hpc] at hissues
    exact hissues
  refine ⟨new, hrow, huser, fun _ => ?_⟩
  rw [Conf.set_procs_of_ne _ _ _ hir]
  have hawaiting := Request.awaiting_of_proven hproven (by rw [hpc]; rfl)
  cases hphase : (c.procs r).phase userId with
  | before => exact h.leftTo_of_before hr hphase _ _
  | updating =>
    refine absurd ?_ (hok.commits rfl hphase)
    simp [Request.yielding, hpc, hproven]
  | other => exact absurd hphase hbefore
  | committed | purging | returned =>
    exact absurd hawaiting (h.awaiting (by rw [hphase]; rfl) i)

theorem SignInsEnded.step (h : SignInsEnded r userId c) (hc : Challenged c)
    (hr : Resetting r userId c)
    (hpurged : Purged r userId c) (hok : Sheltered r userId c i a)
    (hprog : accountProgram i a c.shared (c.procs i) = some (s, p)) :
    SignInsEnded r userId (c.set i s p) := by
  have hstep := accountStepped hprog
  have hrely := (hc.kept hprog).rely
  have hissues : ∀ j user version, ((c.set i s p).procs j).flow.proven s = some (user, version) →
      ((c.set i s p).procs j).session.issuesFor user := by
    intro j user version hproven
    rcases c.procs_cases i s p j with ⟨rfl, hset⟩ | ⟨hji, hset⟩ <;> rw [hset] at hproven ⊢
    · exact hstep.issues (h.issues j) hproven
    · unfold Flow.proven at hproven
      split at hproven <;> cases hproven
      · rename_i hp
        exact h.issues j _ _ (by rw [hp]; rfl)
      · rename_i hp
        exact h.issues j _ _ (by rw [hp]; rfl)
  have hyielded : ((c.set i s p).procs r).phase userId ≠ .other → ∀ id,
      ⟨userId, 0, id⟩ ∈ s.signedIn → Covered r userId (c.set i s p) id := by
    intro hphase id hmem
    have hbefore : (c.procs r).phase userId ≠ .other := by
      rcases c.procs_cases i s p r with ⟨rfl, hset⟩ | ⟨hir, hset⟩ <;> rw [hset] at hphase
      · exact fun heq => hphase (hstep.other hr.resets heq)
      · exact hphase
    rcases hstep.signedIn with heq | ⟨ch, user, version, new, rfl, heq, hproven, hpc, hdb⟩
    · exact (h.yielded hbefore id (heq ▸ hmem)).step hc hprog
    · rw [heq] at hmem
      rcases List.mem_cons.mp hmem with hnew | hmem
      · cases hnew
        exact h.covered hc hr hok hbefore hproven hpc hdb
      · exact (h.yielded hbefore id hmem).step hc hprog
  by_cases hir : i = r
  · subst hir
    refine ⟨?_, hissues, ?_, ?_, hyielded⟩ <;> rw [Conf.set_procs_self]
    · exact hstep.idle h.idle
    · exact h.own_revoked hr hok hstep
    · intro hlate j hawaiting
      have hother : p.phase userId ≠ .other := by
        intro heq
        rw [heq] at hlate
        cases hlate
      rcases c.procs_cases i s p j with ⟨rfl, hset⟩ | ⟨hji, hset⟩ <;> rw [hset] at hawaiting
      · rw [Request.awaiting_of_phase hother] at hawaiting
        cases hawaiting
      have hlate' : ((c.procs i).phase userId).late = true →
          (c.procs j).awaiting c.shared ≠ some (userId, 0) := fun hl => h.awaiting hl j
      have hbefore := hrely.awaiting hawaiting
      cases hr.stepped hok hstep hother with
      | stayed hphase => exact hlate' (hphase ▸ hlate) hbefore
      | scanned hphase hphase' =>
        rw [hphase'] at hlate
        cases hlate
      | committed ha hphase hphase' hscan =>
        refine (hok.clear j).awaiting rfl ha hphase hscan ?_
        rw [hbefore]
        rfl
      | read ha hflow => exact hlate' (by rw [Request.phase_members hflow]; rfl) hbefore
      | deleted hflow | cleared hflow =>
        exact hlate' (by rw [Request.phase_drop hflow]; rfl) hbefore
      | left hphase' => exact hother hphase'
  · have hne : r ≠ i := Ne.symm hir
    refine ⟨?_, hissues, ?_, ?_, hyielded⟩ <;> rw [Conf.set_procs_of_ne _ _ _ hne]
    · exact h.idle
    · exact h.revoked
    · intro hlate j
      refine Conf.set_cases j ?_ fun j _ => ?_
      · exact h.own_awaiting hc hr hpurged hok hstep hlate
      · exact fun hawaiting => h.awaiting hlate j (hrely.awaiting hawaiting)

end Steps

/-! ## Runs -/

/-- Everything that holds along a sheltered run. -/
structure Guarded (r : Nat) (userId : Uuid) (c : AccountConf) : Prop where
  challenged : Challenged c
  resetting : Resetting r userId c
  purged : Purged r userId c
  ended : SignInsEnded r userId c

theorem guarded_initial (r : Nat) (userId : Uuid) (cfg : JwtConfig) (deviceAuth : DeviceAuthConfig)
    (clock : OffsetDateTime) : Guarded r userId (accountInitial cfg deviceAuth clock) where
  challenged := challenged_initial cfg deviceAuth clock
  resetting := ⟨fun _ _ => nofun, nofun, fun _ => rfl, nofun⟩
  purged := by
    refine ⟨fun _ id t halive => ?_, nofun, nofun⟩
    exact absurd rfl halive.stored
  ended := ⟨fun _ => rfl, nofun, nofun, fun _ _ => nofun, fun _ _ => nofun⟩

theorem Guarded.step {r : Nat} {c : AccountConf} {a : AccountAct} {s : AccountState} {p : Request}
    (h : Guarded r userId c) (hok : Sheltered r userId c i a)
    (hprog : accountProgram i a c.shared (c.procs i) = some (s, p)) :
    Guarded r userId (c.set i s p) where
  challenged := h.challenged.set hprog
  resetting := h.resetting.step hok (accountStepped hprog)
  purged := by
    by_cases hir : i = r
    · subst hir
      exact h.purged.own_step h.challenged h.resetting hok hprog
    · exact h.purged.other_step h.challenged h.resetting hok (Ne.symm hir) hprog
  ended := h.ended.step h.challenged h.resetting h.purged hok hprog

/-- **No sign-in outlives a reset in a sheltered run.** Once the reset has
returned, every session yielded by a sign-in whose first factor was
checked before the reset committed is revoked, and no challenge that such
a sign-in has opened is there to be answered. -/
theorem no_sign_in_survives_reset {r : Nat} {userId : Uuid} {cfg : JwtConfig}
    {deviceAuth : DeviceAuthConfig} {clock : OffsetDateTime} {c : AccountConf}
    (hrun : Steps accountProgram (Sheltered r userId) (accountInitial cfg deviceAuth clock) c)
    (hreturned : (c.procs r).flow.answer = some (.passwordChanged userId)) :
    (∀ version id, ⟨userId, version, id⟩ ∈ c.shared.signedIn →
      version < c.shared.passwordVersion userId →
      ∃ row, c.shared.sessions.store id = some row ∧ row.val.userId = userId ∧
        row.val.revokedAt.isSome) ∧
    ∀ id challenge, c.shared.preAuth.get c.shared.now id = some challenge →
      challenge.userId = userId →
      ∃ version, c.shared.openedWith id = some version ∧
        c.shared.passwordVersion userId ≤ version := by
  have h : Guarded r userId c :=
    hrun.invariant (fun _ _ a _ _ hc hok hprog => hc.step (a := a) hok hprog)
      (guarded_initial r userId cfg deviceAuth clock)
  have hphase : (c.procs r).phase userId = .returned := by
    have hflow : (c.procs r).flow = .done (.passwordChanged userId) := by
      unfold Flow.answer at hreturned
      split at hreturned <;> cases hreturned
      assumption
    simp [Request.phase, hflow]
  have hversion : c.shared.passwordVersion userId = 1 := h.resetting.late (by rw [hphase]; rfl)
  refine ⟨fun version id hmem hlt => ?_, fun id challenge hget huser => ?_⟩
  · rw [hversion] at hlt
    obtain rfl : version = 0 := by omega
    obtain ⟨row, hrow, huser, hleft⟩ := h.ended.yielded (by simp [hphase]) id hmem
    refine ⟨row, hrow, huser, ?_⟩
    by_contra hnone
    have hrevoked := h.ended.revoked (by rw [hphase]; rfl)
    rw [(hleft (Option.not_isSome_iff_eq_none.mp hnone)).not_hasRevoked] at hrevoked
    cases hrevoked
  · obtain ⟨deadline, hentry, hlive⟩ := Redis.Store.get_eq_some.mp hget
    obtain ⟨hopened, t, rfl, -⟩ := h.challenged.opened.stored id challenge deadline hentry
    obtain ⟨version, hv⟩ := Option.isSome_iff_exists.mp hopened
    refine ⟨version, hv, ?_⟩
    rw [hversion]
    by_contra hold
    obtain rfl : version = 0 := by omega
    have hmem := h.purged.old [] (by rw [hphase]; rfl) id t
      ⟨⟨challenge, hentry, huser⟩, Redis.live_some.mp hlive⟩ hv
    cases hmem

/-! ### Sign-ins before and after a reset -/

/-- Request 1 signs account 1 in and has checked the password. -/
def proveSchedule (i : Nat) : List (Nat × AccountAct) :=
  [(i, .start (.signIn ⟨1, none, none, none, false⟩)), (i, .go {})]

/-- It finds a second factor and opens the challenge 7. -/
def openSchedule (i : Nat) : List (Nat × AccountAct) :=
  [(i, .go { method := some .totp, tokenHash := 7 }), (i, .go {}), (i, .go {}), (i, .go {}),
    (i, .go {}), (i, .go {})]

/-- The challenge 7 is answered, up to the session it stands for. -/
def answerSchedule (i : Nat) : List (Nat × AccountAct) :=
  [(i, .start (.complete ⟨7, .totp, none, none, none⟩)), (i, .go {}), (i, .go {}), (i, .go {}),
    (i, .go {})]

/-- Request 2 resets the password while request 1 has checked the old one,
and returns; then `after` yields the session 5, which stays. -/
def YieldsAfter (after : List (Nat × AccountAct)) : Prop :=
  ∃ c₂ c₃ row, Steps accountProgram Free (accountInitial shortSessions ⟨300, 5⟩ (instant 100)) c₂ ∧
    (c₂.procs 2).flow.answer = some (.passwordChanged 1) ∧ c₂.shared.signedIn = [] ∧
    exec accountProgram Free c₂ after = some c₃ ∧ c₃.shared.signedIn = [⟨1, 0, 5⟩] ∧
    c₃.shared.passwordVersion 1 = 1 ∧ c₃.shared.sessions.store 5 = some row ∧
    row.val.userId = 1 ∧ row.val.revokedAt = none

theorem yieldsAfter_of_exec {after : List (Nat × AccountAct)}
    (h : ((exec accountProgram Free (accountInitial shortSessions ⟨300, 5⟩ (instant 100))
        (proveSchedule 1 ++ resetSchedule 2 1 ++ [(2, .session {})] ++ purgeSchedule 2)).any
          fun c₂ =>
      (c₂.procs 2).flow.answer = some (.passwordChanged 1) && c₂.shared.signedIn = [] &&
      (exec accountProgram Free c₂ after).any fun c₃ =>
      c₃.shared.signedIn = [⟨1, 0, 5⟩] && c₃.shared.passwordVersion 1 = 1 &&
      (c₃.shared.sessions.store 5).any fun row =>
      row.val.userId = 1 && row.val.revokedAt.isNone) = true) : YieldsAfter after := by
  simp only [Option.any_eq_true, Bool.and_eq_true, decide_eq_true_eq,
    Option.isNone_iff_eq_none] at h
  obtain ⟨c₂, h₂, ⟨hreturned, hnone⟩, c₃, h₃, ⟨hsigned, hversion⟩, row, hrow, huser, hlive⟩ := h
  exact ⟨c₂, c₃, row, steps_of_exec h₂, hreturned, hnone, h₃, hsigned, hversion, hrow, huser, hlive⟩

/-- The sign-in that has checked the old password goes on when the reset
has returned: it issues a session, or it opens a challenge, which is then
completed. -/
theorem sign_in_survives_reset :
    YieldsAfter ((1, .go {}) :: issueSchedule 1 9 4 5) ∧
      YieldsAfter (openSchedule 1 ++ answerSchedule 3 ++ issueSchedule 3 9 4 5) :=
  ⟨yieldsAfter_of_exec (by decide +kernel), yieldsAfter_of_exec (by decide +kernel)⟩

section Below

variable {r : Nat} {userId : Uuid} {c : AccountConf} {i : Nat} {a : AccountAct}

set_option synthInstance.maxSize 1000 in
instance (j : Nat) : Decidable (Clear r userId c i a j) :=
  decidable_of_iff _ (clear_iff r userId c i a j).symm

instance : Decidable (Orderly r userId c i a) :=
  decidable_of_iff _ (orderly_iff r userId c i a).symm

theorem Clear.of_idle {j : Nat} (hidle : (c.procs j).flow = .idle) : Clear r userId c i a j where
  awaiting := by simp [Request.awaiting, hidle, Flow.proven]
  unlisted := by simp [hidle, Flow.unlisted]
  popped := by simp [hidle, Flow.popped]
  prompt := by simp [hidle, Flow.renewing]

theorem steps_sheltered {n : Nat} {c c' : AccountConf}
    (h : Steps accountProgram (Below n (Orderly r userId) (Clear r userId)) c c')
    (hidle : ∀ j, n ≤ j → (c.procs j).flow = .idle) :
    Steps accountProgram (Sheltered r userId) c c' :=
  (Steps.of_below (Q := fun p => p.flow = .idle) (fun _ _ _ _ => .of_idle) h hidle).mono
    fun _ _ _ hok => ⟨hok.1, hok.2⟩

end Below

/-- Request 1 has opened the challenge 7 and request 3 has issued the
session 5 when request 2 resets the password. -/
def signInsThenReset : List (Nat × AccountAct) :=
  proveSchedule 1 ++ openSchedule 1 ++ proveSchedule 3 ++ (3, .go {}) :: issueSchedule 3 9 4 5 ++
    [(3, .go {})] ++ resetSchedule 2 1 ++
    [(2, .session { row := 5 }), (2, .session {}), (2, .session {})] ++ purgeSchedule 2 ++
    [(2, .go {})]

theorem no_earlier_sign_in_survives_reset :
    ∃ c, Steps accountProgram (Sheltered 2 1) (accountInitial shortSessions ⟨300, 5⟩ (instant 100))
        c ∧ (c.procs 2).flow.answer = some (.passwordChanged 1) ∧
      (∃ row, c.shared.sessions.store 5 = some row ∧ row.val.userId = 1 ∧
        row.val.revokedAt.isSome) ∧
      c.shared.openedWith 7 = some 0 ∧
      ∀ challenge, c.shared.preAuth.get c.shared.now 7 = some challenge → challenge.userId ≠ 1 := by
  obtain ⟨c, hexec, hreturned, hmem, hversion, hopened⟩ :
      ∃ c ∈ exec accountProgram (Below 4 (Orderly 2 1) (Clear 2 1))
      (accountInitial shortSessions ⟨300, 5⟩ (instant 100)) signInsThenReset,
      (c.procs 2).flow.answer = some (.passwordChanged 1) ∧ ⟨1, 0, 5⟩ ∈ c.shared.signedIn ∧
      c.shared.passwordVersion 1 = 1 ∧ c.shared.openedWith 7 = some 0 := by
    decide +kernel
  have hsteps := steps_sheltered (steps_of_exec hexec) fun j _ => rfl
  obtain ⟨hsessions, hchallenges⟩ := no_sign_in_survives_reset hsteps hreturned
  refine ⟨c, hsteps, hreturned, hsessions 0 5 hmem (by omega), hopened,
    fun challenge hget huser => ?_⟩
  obtain ⟨version, hv, hle⟩ := hchallenges 7 challenge hget huser
  rw [hopened] at hv
  cases hv
  omega

end AuthApi
