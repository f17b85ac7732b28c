import AuthApi.ApprovalReset
import AuthApi.PgIndex

/-!
# A code yields one session, unless its redemption fails late

`redeem` consumes the code in its own transaction, and `issue_tokens`
commits the session in another one. A redemption that fails after the
second commit and before the first rolls back the consumption: the code
can be redeemed again, and a second session is issued from it
(`code_redeemed_again`).

In every run in which no redemption fails between the two commits, a
code yields one session at most (`one_session_per_code`). A session that
was issued from the code is then always matched by the consumed row,
committed or still in the transaction of the redemption that issued it
(`CodeOnce.spent`), and nobody else gets the row while it is.
-/

namespace AuthApi

open Conc Pg

/-! ## Redemptions on their way -/

/-- The request has not called into the session code yet. -/
def Flow.uncalled : Flow → Bool
  | .idle => true
  | .redeem (.start _) => true
  | .redeem (.consume _ _) => true
  | .redeem (.visit _ _) => true
  | .redeem (.replay _) => true
  | .redeem (.burn _ _) => true
  | .redeem (.checks _ _) => true
  | _ => false

/-- The code a redemption has consumed. -/
def Flow.redeemed : Flow → Option AuthorizationCode
  | .redeem (.burn entry _) => some entry
  | .redeem (.checks _ entry) => some entry
  | .redeem (.issue entry) => some entry
  | .redeem (.commit entry _) => some entry
  | _ => none

structure Request.Orderly (p : Request) : Prop where
  uncalled : p.flow.uncalled = true → p.session = .idle
  consumed : ∀ entry ∈ p.flow.redeemed, entry.consumedAt.isSome

def Pc.issued : Pc → Bool
  | .done (.tokens _) => true
  | _ => false

/-- The code from which the request has committed a session, while its own
transaction has not committed. -/
def Request.unsettled (p : Request) : Option TokenHash :=
  match p.flow with
  | .redeem (.issue entry) => if p.session.issued then some entry.codeHash else none
  | .redeem (.commit entry _) => some entry.codeHash
  | _ => none

/-- No redemption fails between the commit of its session and its own. -/
def FailsEarly (c : AccountConf) (i : Nat) : AccountAct → Prop
  | .fail => (c.procs i).unsettled = none
  | _ => True

instance (c : AccountConf) (i : Nat) (a : AccountAct) : Decidable (FailsEarly c i a) := by
  unfold FailsEarly
  split <;> infer_instance

section Steps

variable {i : Nat} {inp : Input} {s s' : AccountState} {p p' : Request} {pc : Pc} {b : Act}

theorem orderly_done {answer : Answer} : Request.Orderly ⟨.done answer, pc⟩ :=
  ⟨by rintro ⟨⟩, by rintro _ ⟨⟩⟩

theorem orderly_of_other (hu : p.flow.uncalled = false) (hr : p.flow.redeemed = none) :
    p.Orderly := by
  refine ⟨fun h => ?_, fun entry hentry => ?_⟩
  · rw [hu] at h
    cases h
  · rw [hr] at hentry
    cases hentry

theorem consumedAt_of_visit {codes codes' : CodeDb} {hash : TokenHash}
    {startedAt : OffsetDateTime} {entry : AuthorizationCode}
    (h : codes.visit i hash (·.redeemable startedAt) (fun code => some (code.consume startedAt))
      = some (.updated entry, codes')) : entry.consumedAt.isSome := by
  rcases Db.visit_spec (fun r r' hr => by cases hr; rfl) h with ⟨r, r', hv, -, -, hr, -⟩ |
    ⟨hv, -⟩ | ⟨r, hv, -⟩
  · cases hv
    cases hr
    rfl
  · cases hv
  · cases hv

theorem RedeemStepped.orderly {pc : RedeemPc} (hp : p.flow = .redeem pc) (h : p.Orderly)
    (hstep : RedeemStepped i inp s p pc s' p') : p'.Orderly := by
  obtain ⟨huncalled, hconsumed⟩ := h
  rw [hp] at huncalled hconsumed
  cases hstep with
  | began | found | missed | lost => exact ⟨fun _ => huncalled rfl, by rintro _ ⟨⟩⟩
  | took hvisit =>
    have hentry := consumedAt_of_visit hvisit
    split
    · refine ⟨fun _ => huncalled rfl, ?_⟩
      rintro _ ⟨⟩
      exact hentry
    · refine ⟨fun _ => huncalled rfl, ?_⟩
      rintro _ ⟨⟩
      exact hentry
  | revokes => exact orderly_of_other rfl rfl
  | refused => exact ⟨fun _ => huncalled rfl, hconsumed⟩
  | issues | attached => exact ⟨by rintro ⟨⟩, hconsumed⟩
  | _ => exact orderly_done

theorem idle_step {sessions sessions' : Shared} (hb : ∀ call, b ≠ .start call)
    (h : sessionProgram i b sessions .idle = some (sessions', pc)) :
    pc = .idle ∧ sessions'.db = sessions.db := by
  cases stepped h with
  | tick | configure => exact ⟨rfl, rfl⟩
  | start => exact absurd rfl (hb _)
  | go hgo => cases hgo
  | fail hrunning => cases hrunning

theorem sessionStep_orderly (h : p.Orderly) (hb : ∀ call, b ≠ .start call)
    (hstep : sessionStep i b s p = some (s', p')) : p'.Orderly := by
  obtain ⟨_, _, hpc, rfl, rfl⟩ := sessionStepped hstep
  refine ⟨fun hu => ?_, h.consumed⟩
  have hidle := h.uncalled hu
  rw [hidle] at hpc
  exact (idle_step hb hpc).1

/-- The request is not a redemption. A code it has inserted is a new
one. -/
def Flow.elsewhere : Flow → Bool
  | .idle => false
  | .redeem _ => false
  | .approve (.commit code) => code.consumedAt.isNone && code.sessionId.isNone
  | _ => true

theorem orderly_elsewhere (h : p.flow.elsewhere = true) : p.Orderly := by
  refine orderly_of_other ?_ ?_ <;> cases hflow : p.flow with
  | idle | redeem =>
    rw [hflow] at h
    cases h
  | _ => rfl

theorem ApproveStepped.elsewhere {pc : ApprovePc} (h : ApproveStepped i inp s p pc s' p') :
    p'.flow.elsewhere = true := by
  cases h <;> rfl

theorem DeviceStepped.elsewhere {pc : DevicePc} (h : DeviceStepped i inp s p pc s' p') :
    p'.flow.elsewhere = true ∧ s'.codes = s.codes := by
  cases h with
  | drawn hdraw =>
    obtain ⟨-, rfl⟩ := s.draw_eq_some hdraw
    exact ⟨rfl, rfl⟩
  | issuing _ hs => rcases hs with rfl | rfl <;> exact ⟨rfl, rfl⟩
  | _ => exact ⟨rfl, rfl⟩

theorem SignInStepped.elsewhere {pc : SignInPc} (h : SignInStepped i inp s p pc s' p') :
    p'.flow.elsewhere = true := by
  cases h <;> rfl

theorem CompleteStepped.elsewhere {pc : CompletePc} (h : CompleteStepped inp s p pc s' p') :
    p'.flow.elsewhere = true := by
  cases h <;> rfl

theorem PasswordStepped.elsewhere {pc : PasswordPc} (h : PasswordStepped inp s p pc s' p') :
    p'.flow.elsewhere = true := by
  cases h <;> rfl

theorem enter_orderly {call : AccountCall} (h : p.session = .idle)
    (hstep : call.enter i s p = some (s', p')) : p'.Orderly := by
  cases call with
  | redeem =>
    cases hstep
    exact ⟨fun _ => h, by rintro _ ⟨⟩⟩
  | session call | resetPassword userId
  | changePassword =>
    obtain ⟨-, -, -, rfl⟩ := AccountState.call_eq_some hstep
    exact orderly_of_other rfl rfl
  | _ =>
    cases hstep
    exact orderly_of_other rfl rfl

theorem AccountAct.base_ne_start {a : AccountAct} (h : a.base = some b) (call : Call) :
    b ≠ .start call := by
  rintro rfl
  cases a <;> cases h

theorem accountProgram_orderly {a : AccountAct} (h : p.Orderly)
    (hstep : accountProgram i a s p = some (s', p')) : p'.Orderly := by
  cases accountMoved hstep with
  | session hact hstep => exact sessionStep_orderly h (AccountAct.base_ne_start hact) hstep
  | start hidle hstep => exact enter_orderly (h.uncalled (by rw [hidle]; rfl)) hstep
  | approve _ hstep => exact orderly_elsewhere hstep.elsewhere
  | redeem hp hstep => exact hstep.orderly hp h
  | device _ hstep => exact orderly_elsewhere hstep.elsewhere.1
  | signIn _ hstep => exact orderly_elsewhere hstep.elsewhere
  | complete _ hstep => exact orderly_elsewhere hstep.elsewhere
  | password _ hstep => exact orderly_elsewhere hstep.elsewhere
  | failed | gaveUp => exact orderly_done

end Steps

/-! ## From the commit of the session to the commit of the code -/

section Unsettled

variable {i : Nat} {s s' : AccountState} {p p' : Request} {k : TokenHash} {flow : Flow}
  {userId : Uuid} {a : AccountAct}

theorem redeem_of_grant (h : flow.grant = some (.code k, userId)) : ∃ pc, flow = .redeem pc := by
  cases flow with
  | redeem pc => exact ⟨pc, rfl⟩
  | device pc => cases pc <;> cases h
  | _ => cases h

theorem writing_of_grant (h : flow.grant = some (.code k, userId)) :
    ∃ code, flow.writing = some code ∧
      code.codeHash = k := by
  obtain ⟨pc, rfl⟩ := redeem_of_grant h
  cases pc <;> cases h <;> exact ⟨_, rfl, rfl⟩

theorem consuming_of_writing {code : AuthorizationCode} (h : flow.writing = some code) :
    flow.consuming = none := by
  cases flow with
  | redeem pc => cases pc <;> cases h <;> rfl
  | _ => rfl

theorem unsettled_cases (h : p.unsettled = some k) :
    (∃ entry, p.flow = .redeem (.issue entry) ∧ p.session.issued = true ∧ entry.codeHash = k) ∨
      ∃ entry sessionId, p.flow = .redeem (.commit entry sessionId) ∧ entry.codeHash = k := by
  unfold Request.unsettled at h
  split at h
  · split at h <;> cases h
    exact .inl ⟨_, ‹_›, ‹_›, rfl⟩
  · cases h
    exact .inr ⟨_, _, ‹_›, rfl⟩
  · cases h

theorem writing_of_unsettled (h : p.unsettled = some k) : ∃ code, p.flow.writing = some code ∧
    code.codeHash = k := by
  rcases unsettled_cases h with ⟨entry, hflow, -, rfl⟩ | ⟨entry, sessionId, hflow, rfl⟩ <;>
    rw [hflow] <;> exact ⟨_, rfl, rfl⟩

theorem redeem_moved {pc : RedeemPc} (hp : p.flow = .redeem pc)
    (h : accountProgram i a s p = some (s', p')) :
    (∃ b, sessionStep i b s p = some (s', p')) ∨ (∃ inp, RedeemStepped i inp s p pc s' p') ∨
      a = .fail ∧ s'.issued = s.issued := by
  cases accountMoved h with
  | session _ h => exact .inl ⟨_, h⟩
  | redeem hp' h =>
    rw [hp] at hp'
    cases hp'
    exact .inr (.inl ⟨_, h⟩)
  | failed | gaveUp => exact .inr (.inr ⟨rfl, rfl⟩)
  | start hp' | approve hp' | device hp' | signIn hp' | complete hp' | password hp' =>
    rw [hp] at hp'
    cases hp'

theorem sessionStep_unsettled {b : Act} (h : p.unsettled = some k)
    (hstep : sessionStep i b s p = some (s', p')) : p'.unsettled = some k := by
  have hsame := (sessionStep_fields hstep).1
  rcases unsettled_cases h with ⟨entry, hflow, hissued, rfl⟩ | ⟨entry, sessionId, hflow, rfl⟩
  · have hdone : p.session.outcome.isSome := by
      cases hs : p.session with
      | done => rfl
      | _ => rw [hs] at hissued; cases hissued
    simp only [Request.unsettled, hsame, hflow, Pc.outcome_step (sessionStep_part hstep) hdone,
      hissued, if_true]
  · simp only [Request.unsettled, hsame, hflow]

theorem unsettled_step (h : p.unsettled = some k) (ha : a ≠ .fail) (hlocal : p.flow.Local i s)
    (horderly : p.Orderly) (hstep : accountProgram i a s p = some (s', p')) :
    p'.unsettled = some k ∨ ∃ row, s'.codes.committed k = some row ∧ row.consumedAt.isSome := by
  rcases unsettled_cases h with ⟨entry, hflow, hissued, rfl⟩ | ⟨entry, sessionId, hflow, rfl⟩
  · rcases redeem_moved hflow hstep with ⟨b, hb⟩ | ⟨inp, hredeem⟩ | ⟨hfail, -⟩
    · exact .inl (sessionStep_unsettled h hb)
    · cases hredeem with
      | attached => exact .inl rfl
      | failed hdone =>
        rw [hdone] at hissued
        cases hissued
    · exact absurd hfail ha
  · rcases redeem_moved hflow hstep with ⟨b, hb⟩ | ⟨inp, hredeem⟩ | ⟨hfail, -⟩
    · exact .inl (sessionStep_unsettled h hb)
    · cases hredeem
      have hw := hlocal.writing (entry.attachSession sessionId) (by rw [hflow]; rfl)
      refine .inr ⟨entry.attachSession sessionId, ?_, ?_⟩
      · show (s.codes.commit i).committed entry.codeHash = _
        rw [hw.commit]
        exact Function.update_self ..
      · exact horderly.consumed entry (by rw [hflow]; rfl)
    · exact absurd hfail ha

theorem issued_unsettled {sessionId : Uuid} (horderly : p.Orderly)
    (hgrant : p.flow.grant = some (.code k, userId))
    (hnew : s'.issued = ⟨.code k, userId, sessionId⟩ :: s.issued)
    (hstep : accountProgram i a s p = some (s', p')) :
    p'.unsettled = some k ∧ p'.session.outcome.isSome := by
  have hsame : s'.issued = s.issued → False := fun h => by simp [h] at hnew
  obtain ⟨pc, hflow⟩ := redeem_of_grant hgrant
  rcases redeem_moved hflow hstep with ⟨b, hb⟩ | ⟨inp, hredeem⟩ | ⟨-, hissued⟩
  · obtain ⟨_, _, -, rfl, rfl⟩ := sessionStepped hb
    unfold AccountState.recordIssue at hsame
    split at hsame
    · rename_i hissue
      rw [hflow] at hgrant
      cases pc with
      | checks =>
        rw [horderly.uncalled (by rw [hflow]; rfl)] at hissue
        cases hissue
      | issue =>
        cases hgrant
        simp only [Request.unsettled, hflow]
        exact ⟨rfl, rfl⟩
      | _ => cases hgrant
    · exact (hsame (recordChange_issued _)).elim
  · cases hredeem <;> exact (hsame rfl).elim
  · exact (hsame hissued).elim

end Unsettled

/-! ## Runs -/

def AccountState.fromCode (s : AccountState) (k : TokenHash) : List Issuance :=
  s.issued.filter fun issuance => decide (issuance.approval = .code k)

def AccountState.Consumed (s : AccountState) (k : TokenHash) : Prop :=
  ∃ row, s.codes.committed k = some row ∧ row.consumedAt.isSome

structure CodeOnce (c : AccountConf) : Prop where
  account : Accountable c
  orderly : ∀ i, (c.procs i).Orderly
  spent : ∀ k, c.shared.fromCode k ≠ [] →
    c.shared.Consumed k ∨ ∃ i, (c.procs i).unsettled = some k
  fresh : ∀ i k userId, (c.procs i).flow.grant = some (.code k, userId) →
    (c.procs i).session.outcome = none → c.shared.fromCode k = []
  once : ∀ k, (c.shared.fromCode k).length ≤ 1

section Runs

variable {c : AccountConf} {i j : Nat} {k : TokenHash} {a : AccountAct} {s : AccountState}
  {p : Request} {userId : Uuid}

theorem Accountable.writing_unique (h : Accountable c) {code code' : AuthorizationCode}
    (hi : (c.procs i).flow.writing = some code) (hj : (c.procs j).flow.writing = some code')
    (heq : code.codeHash = code'.codeHash) : i = j := by
  obtain ⟨-, old, hslot, -⟩ := (h.locally i).writing code hi
  obtain ⟨-, old', hslot', -⟩ := (h.locally j).writing code' hj
  rw [heq, hslot'] at hslot
  simp only [Slot.mk.injEq, Option.some.injEq, Prod.mk.injEq] at hslot
  exact hslot.2.1.symm

section

variable (h : CodeOnce c) (hprog : accountProgram i a c.shared (c.procs i) = some (s, p))
include h hprog

/-- A step adds one session to those issued from a code, of which the code
has been granted to the request, or none. -/
theorem fromCode_step (k : TokenHash) :
    s.fromCode k = c.shared.fromCode k ∨
      (∃ issuance, s.fromCode k = [issuance]) ∧ p.unsettled = some k ∧
        p.session.outcome.isSome ∧ c.shared.fromCode k = [] ∧
        ∃ userId, (c.procs i).flow.grant = some (.code k, userId) := by
  rcases (h.account.approvals hprog).issues with hsame | ⟨approval, userId, id, hnew, hgrant, hnone⟩
  · left
    rw [AccountState.fromCode, hsame]
    rfl
  · by_cases happroval : approval = .code k
    · subst happroval
      have hempty := h.fresh i k userId hgrant hnone
      obtain ⟨hunsettled, hsome⟩ := issued_unsettled (h.orderly i) hgrant hnew hprog
      refine .inr ⟨⟨⟨.code k, userId, id⟩, ?_⟩, hunsettled, hsome, hempty, userId, hgrant⟩
      rw [AccountState.fromCode, hnew, List.filter_cons_of_pos (by simp)]
      exact congrArg _ hempty
    · left
      rw [AccountState.fromCode, hnew, List.filter_cons_of_neg (by simpa using happroval)]
      rfl

theorem CodeOnce.spent_set (hok : FailsEarly c i a) (hne : s.fromCode k ≠ []) :
    s.Consumed k ∨ ∃ j, ((c.set i s p).procs j).unsettled = some k := by
  rcases fromCode_step h hprog k with hsame | ⟨-, hunsettled, -⟩
  · rcases h.spent k (hsame ▸ hne) with ⟨row, hrow, hconsumed⟩ | ⟨j, hj⟩
    · obtain ⟨row', hrow', rfl | hconsumed'⟩ := (h.account.approvals hprog).rows k row hrow
      · exact .inl ⟨row', hrow', hconsumed⟩
      · exact .inl ⟨row', hrow', hconsumed'⟩
    · by_cases hji : j = i
      · subst hji
        have ha : a ≠ .fail := by
          rintro rfl
          have hnone : (c.procs j).unsettled = none := hok
          rw [hnone] at hj
          cases hj
        rcases unsettled_step hj ha (h.account.locally j) (h.orderly j) hprog with hp | hrow
        · exact .inr ⟨j, by rw [Conf.set_procs_self]; exact hp⟩
        · exact .inl hrow
      · exact .inr ⟨j, by rw [Conf.set_procs_of_ne _ _ _ hji]; exact hj⟩
  · exact .inr ⟨i, by rw [Conf.set_procs_self]; exact hunsettled⟩

/-- A code that a request has just claimed has yielded nothing: the row was
not consumed, and nobody else has it. -/
theorem CodeOnce.claimed (hgrant : p.flow.grant = some (.code k, userId))
    (hclaim : c.shared.Claimable (c.procs i).flow (.code k)) : c.shared.fromCode k = [] := by
  obtain ⟨startedAt, row, hconsuming, hrow, hredeemable⟩ := hclaim
  by_contra hne
  rcases h.spent k hne with ⟨row', hrow', hconsumed⟩ | ⟨j, hj⟩
  · rw [hrow] at hrow'
    cases hrow'
    simp [AuthorizationCode.redeemable, Option.isSome_iff_ne_none.mp hconsumed] at hredeemable
  · obtain ⟨code, hcode, hhash⟩ := writing_of_unsettled hj
    obtain ⟨code', hcode', hhash'⟩ := writing_of_grant hgrant
    have hji : j ≠ i := by
      rintro rfl
      rw [consuming_of_writing hcode] at hconsuming
      cases hconsuming
    have hother : ((c.set i s p).procs j).flow.writing = some code := by
      rw [Conf.set_procs_of_ne _ _ _ hji]
      exact hcode
    have hown : ((c.set i s p).procs i).flow.writing = some code' := by
      rw [Conf.set_procs_self]
      exact hcode'
    exact hji ((h.account.set hprog).writing_unique hother hown (hhash.trans hhash'.symm))

theorem CodeOnce.fresh_set (hgrant : ((c.set i s p).procs j).flow.grant = some (.code k, userId))
    (hnone : ((c.set i s p).procs j).session.outcome = none) : s.fromCode k = [] := by
  rcases c.procs_cases i s p j with ⟨rfl, hset⟩ | ⟨hji, hset⟩ <;> rw [hset] at hgrant hnone
  · rcases fromCode_step h hprog k with hsame | ⟨-, -, hsome, -⟩
    · rw [hsame]
      rcases (h.account.approvals hprog).grant _ _ hgrant hnone with ⟨hgrant', hnone'⟩ | hclaim
      · exact h.fresh j k userId hgrant' hnone'
      · exact h.claimed hprog hgrant hclaim
    · rw [hnone] at hsome
      cases hsome
  · rcases fromCode_step h hprog k with hsame | ⟨-, -, -, -, userId', hgrant'⟩
    · exact hsame ▸ h.fresh j k userId hgrant hnone
    · obtain ⟨code, hcode, hhash⟩ := writing_of_grant hgrant
      obtain ⟨code', hcode', hhash'⟩ := writing_of_grant hgrant'
      exact absurd (h.account.writing_unique hcode hcode' (hhash.trans hhash'.symm)) hji

theorem CodeOnce.set (hok : FailsEarly c i a) : CodeOnce (c.set i s p) where
  account := h.account.set hprog
  orderly j := by
    refine Conf.set_cases j ?_ fun j _ => ?_
    · exact accountProgram_orderly (h.orderly i) hprog
    · exact h.orderly j
  spent k hne := h.spent_set hprog hok hne
  fresh j k userId hgrant hnone := h.fresh_set hprog hgrant hnone
  once k := by
    rcases fromCode_step h hprog k with hsame | ⟨⟨issuance, hone⟩, -⟩
    · exact hsame ▸ h.once k
    · rw [show (c.set i s p).shared = s from rfl, hone]
      exact le_rfl

end

/-- **A code yields one session.** In every run in which no redemption
fails between the commit of its session and its own, at most one session
is ever committed on the strength of a code. -/
theorem one_session_per_code {cfg : JwtConfig} {deviceAuth : DeviceAuthConfig}
    {clock : OffsetDateTime} (k : TokenHash)
    (hrun : Steps accountProgram FailsEarly (accountInitial cfg deviceAuth clock) c) :
    (c.shared.fromCode k).length ≤ 1 := by
  suffices CodeOnce c from this.once k
  refine hrun.invariant (I := CodeOnce) (fun _ _ a _ _ h hok hprog => h.set (a := a) hprog hok) ?_
  refine ⟨AccountReachable.accountable ⟨cfg, deviceAuth, clock, .refl⟩,
    fun _ => ⟨fun _ => rfl, by rintro _ ⟨⟩⟩, fun _ h => absurd rfl h, fun _ _ _ _ _ => rfl,
    fun _ => Nat.zero_le _⟩

end Runs

/-- A redemption that commits, and the code presented again. -/
def redeemThenReplay : List (Nat × AccountAct) :=
  approveSchedule ++ redeemSchedule 3 ++ issueSchedule 3 9 4 5 ++ [(3, .go {}), (3, .go {})] ++
    replaySchedule

theorem one_session_of_replayed_code :
    ∃ c, Steps accountProgram FailsEarly (accountInitial shortSessions ⟨300, 5⟩ (instant 100)) c ∧
      (c.procs 4).flow.answer = some (.error .invalidAuthorizationCode) ∧
      c.shared.fromCode 7 ≠ [] ∧ (c.shared.fromCode 7).length ≤ 1 := by
  obtain ⟨c, hc, hanswer, hissued⟩ : ∃ c ∈ exec accountProgram FailsEarly
      (accountInitial shortSessions ⟨300, 5⟩ (instant 100)) redeemThenReplay,
      (c.procs 4).flow.answer = some (.error .invalidAuthorizationCode) ∧
      c.shared.fromCode 7 ≠ [] := by
    decide +kernel
  exact ⟨c, steps_of_exec hc, hanswer, hissued, one_session_per_code 7 (steps_of_exec hc)⟩

/-- The second redemption starts when the first has failed. -/
def failThenRedeem : List (Nat × AccountAct) :=
  approveSchedule ++ redeemSchedule 3 ++ issueSchedule 3 9 4 5 ++ [(3, .fail)] ++
    redeemSchedule 2 ++ issueSchedule 2 10 14 15 ++ [(2, .go {}), (2, .go {})]

/-- The first redemption has committed its session when it fails, which
rolls the consumption back: the second one gets a session too. -/
theorem code_redeemed_again :
    ∃ c, AccountReachable c ∧ c.shared.fromCode 7 = [⟨.code 7, 1, 15⟩, ⟨.code 7, 1, 5⟩] ∧
      (c.shared.sessions.db.committed 5).isSome ∧ (c.shared.sessions.db.committed 15).isSome := by
  obtain ⟨c, hc, hissued, hfirst, hsecond⟩ :
      ∃ c ∈ exec accountProgram Free (accountInitial shortSessions ⟨300, 5⟩ (instant 100))
      failThenRedeem, c.shared.fromCode 7 = [⟨.code 7, 1, 15⟩, ⟨.code 7, 1, 5⟩] ∧
      (c.shared.sessions.db.committed 5).isSome ∧ (c.shared.sessions.db.committed 15).isSome := by
    decide +kernel
  exact ⟨c, ⟨_, _, _, steps_of_exec hc⟩, hissued, hfirst, hsecond⟩

end AuthApi
