import AuthApi.ApprovalSteps
import AuthApi.Lifetime

/-!
# Approvals outlive a password change

A user approves a client or a device, and the session is issued later,
when the code is redeemed or the device polls. A password change revokes
the sessions there are and purges the challenges of the account. It does
not touch `authorization_codes` nor the device entries, and neither
`redeem` nor `poll` looks at the password: an approval given before the
change still yields a session after it (`approval_survives_reset`).

What does hold is that nothing else does. If, when the change returns,
no approval given before its commit is outstanding, then no later
request issues a session on the strength of one
(`no_session_from_earlier_approval`). An approval is outstanding while
it can be claimed, and while a request that has claimed it has not
issued its session.
-/

namespace AuthApi

open Conc Pg

/-! ## Approvals that are not outstanding -/

/-- The approval can no longer be claimed, and no request that has claimed
it has its session still to issue. A code is redeemed in a transaction
that started before it expired, which may be some time ago. -/
structure Settled (c : AccountConf) (approval : Approval) : Prop where
  gone : match approval with
    | .code hash => ∀ row, c.shared.codes.committed hash = some row →
        row.consumedAt.isSome ∨ row.expiresAt ≤ c.shared.sessions.now ∧
          ∀ i startedAt, (c.procs i).flow.consuming = some (hash, startedAt) →
            row.expiresAt ≤ startedAt
    | .device hash => c.shared.devices.get c.shared.now hash = none
  finished : ∀ i userId, (c.procs i).flow.grant = some (approval, userId) →
    (c.procs i).session.outcome.isSome

section Settled

variable {c : AccountConf} {i : Nat} {a : AccountAct} {s : AccountState} {p : Request}
  {approval : Approval} {userId : Uuid} {hash : TokenHash}

theorem Settled.not_claimable (h : Settled c approval) :
    ¬ c.shared.Claimable (c.procs i).flow approval := by
  cases approval with
  | code =>
    rintro ⟨startedAt, row, hconsuming, hrow, hred⟩
    simp only [AuthorizationCode.redeemable, Bool.and_eq_true, decide_eq_true_eq] at hred
    rcases h.gone row hrow with hconsumed | ⟨-, hexpired⟩
    · rw [Option.isNone_iff_eq_none.mp hred.1] at hconsumed
      cases hconsumed
    · exact absurd hred.2 (not_lt.mpr (hexpired i startedAt hconsuming))
  | device hash =>
    intro hlive
    have hnone : c.shared.devices.get c.shared.now hash = none := h.gone
    rw [AccountState.Claimable, hnone] at hlive
    cases hlive

variable (hc : Accountable c) (hprog : accountProgram i a c.shared (c.procs i) = some (s, p))
include hc hprog

theorem Settled.gone_code (h : Settled c (.code hash))
    (hgiven : (.code hash, userId) ∈ c.shared.given) {row' : AuthorizationCode}
    (hrow' : s.codes.committed hash = some row') :
    row'.consumedAt.isSome ∨ row'.expiresAt ≤ s.sessions.now ∧
      ∀ j startedAt, ((c.set i s p).procs j).flow.consuming = some (hash, startedAt) →
        row'.expiresAt ≤ startedAt := by
  have hstep := hc.approvals hprog
  obtain ⟨row, hrow⟩ := Option.isSome_iff_exists.mp (hc.recorded.codes hash userId hgiven)
  obtain ⟨row'', hrow'', hsame⟩ := hstep.rows hash row hrow
  obtain rfl := Option.some.inj (hrow'.symm.trans hrow'')
  rcases hsame with rfl | hconsumed
  · rcases h.gone row' hrow with hconsumed | ⟨hexpired, hopen⟩
    · exact .inl hconsumed
    · refine .inr ⟨hexpired.trans (OffsetDateTime.toMicros_mono (hc.clock_le hprog)), ?_⟩
      intro j startedAt hj
      rcases c.procs_cases i s p j with ⟨rfl, hset⟩ | ⟨hji, hset⟩ <;> rw [hset] at hj
      · rcases hstep.consuming hash startedAt hj with hold | rfl
        · exact hopen j startedAt hold
        · exact hexpired
      · exact hopen j startedAt hj
  · exact .inl hconsumed

theorem Settled.gone_device (h : Settled c (.device hash))
    (hgiven : (.device hash, userId) ∈ c.shared.given) : s.devices.get s.now hash = none := by
  have hnone : c.shared.devices.get c.shared.now hash = none := h.gone
  by_contra hsome
  obtain ⟨entry, hentry⟩ := Option.ne_none_iff_exists'.mp hsome
  rcases (hc.approvals hprog).devices hash with hsame | habsent | hlive | hreserving
  · have hle : c.shared.now ≤ s.now := OffsetDateTime.le_iff.mp (hc.clock_le hprog)
    rw [Redis.Store.get_of_later hentry hsame hle] at hnone
    cases hnone
  · obtain ⟨deadline, heq, -⟩ := Redis.Store.get_eq_some.mp hentry
    rw [habsent] at heq
    cases heq
  · rw [hnone] at hlive
    cases hlive
  · exact ((hc.locally i).reserved hash hreserving).fresh userId hgiven

theorem Settled.step (h : Settled c approval) (hgiven : (approval, userId) ∈ c.shared.given) :
    Settled (c.set i s p) approval where
  gone := by
    cases approval with
    | code => exact fun row' hrow' => h.gone_code hc hprog hgiven hrow'
    | device => exact h.gone_device hc hprog hgiven
  finished j user hgrant := by
    rcases c.procs_cases i s p j with ⟨rfl, hset⟩ | ⟨hji, hset⟩ <;> rw [hset] at hgrant ⊢
    · by_contra hnone
      rw [Option.not_isSome_iff_eq_none] at hnone
      rcases (hc.approvals hprog).grant approval user hgrant hnone with ⟨hold, hnone'⟩ | hclaim
      · have hsome := h.finished j user hold
        rw [hnone'] at hsome
        cases hsome
      · exact h.not_claimable hclaim
    · exact h.finished j user hgrant

theorem Settled.issued (h : Settled c approval) {user sessionId : Uuid}
    (hissued : ⟨approval, user, sessionId⟩ ∈ s.issued) :
    ⟨approval, user, sessionId⟩ ∈ c.shared.issued := by
  rcases (hc.approvals hprog).issues with heq | ⟨approval', user', sessionId', heq, hgrant, hnone⟩
  · exact heq ▸ hissued
  · rw [heq] at hissued
    rcases List.mem_cons.mp hissued with hnew | hold
    · cases hnew
      have hsome := h.finished i user hgrant
      rw [hnone] at hsome
      cases hsome
    · exact hold

end Settled

/-! ## Password changes -/

/-- Request `r` commits its change of the password of `userId` in a step
from `c₁`, and has returned in `c₂`. -/
structure ChangesPassword (r : Nat) (userId : Uuid) (c₁ c₂ : AccountConf) : Prop where
  changing : (c₁.procs r).flow.changing = some userId
  before : (c₁.procs r).session.committed = false
  commits : ∃ ch s p, accountProgram r (.session ch) c₁.shared (c₁.procs r) = some (s, p) ∧
    p.session.committed = true ∧ Steps accountProgram Free (c₁.set r s p) c₂
  returned : (c₂.procs r).flow.answer = some (.passwordChanged userId)

theorem ChangesPassword.steps {r : Nat} {userId : Uuid} {c₁ c₂ : AccountConf}
    (h : ChangesPassword r userId c₁ c₂) : Steps accountProgram Free c₁ c₂ := by
  obtain ⟨ch, s, p, hprog, -, hrun⟩ := h.commits
  exact .head (.mk trivial hprog) hrun

theorem Accountable.steps {c c' : AccountConf} (h : Accountable c)
    (hrun : Steps accountProgram Free c c') : Accountable c' ∧ c.shared.given ⊆ c'.shared.given :=
  hrun.invariant (I := fun c' => Accountable c' ∧ c.shared.given ⊆ c'.shared.given)
    (fun _ _ _ _ _ hc _ hprog =>
      ⟨hc.1.set hprog, List.Subset.trans hc.2 (hc.1.approvals hprog).given⟩) ⟨h, List.Subset.refl _⟩

/-- **No session is issued after a password change on the strength of an
approval given before it**, in every run in which no such approval is
outstanding when the change returns: the change commits in a step from
`c₁` and has returned in `c₂`, and `c₃` is any later state. -/
theorem no_session_from_earlier_approval {c₁ c₂ c₃ : AccountConf} {r : Nat} {userId : Uuid}
    (hreach : AccountReachable c₁) (hchange : ChangesPassword r userId c₁ c₂)
    (hsettled : ∀ approval, (approval, userId) ∈ c₁.shared.given → Settled c₂ approval)
    (hlater : Steps accountProgram Free c₂ c₃) {approval : Approval} {user sessionId : Uuid}
    (hgiven : (approval, userId) ∈ c₁.shared.given)
    (hissued : ⟨approval, user, sessionId⟩ ∈ c₃.shared.issued) :
    ⟨approval, user, sessionId⟩ ∈ c₂.shared.issued := by
  obtain ⟨h₂, hsub⟩ := hreach.accountable.steps hchange.steps
  have hinv : Accountable c₃ ∧ Settled c₃ approval ∧ (approval, userId) ∈ c₃.shared.given ∧
      (⟨approval, user, sessionId⟩ ∈ c₃.shared.issued →
        ⟨approval, user, sessionId⟩ ∈ c₂.shared.issued) := by
    refine hlater.invariant (I := fun c => Accountable c ∧ Settled c approval ∧
      (approval, userId) ∈ c.shared.given ∧ (⟨approval, user, sessionId⟩ ∈ c.shared.issued →
        ⟨approval, user, sessionId⟩ ∈ c₂.shared.issued)) ?_
      ⟨h₂, hsettled approval hgiven, hsub hgiven, id⟩
    rintro c i a s p ⟨hc, hset, hmem, hold⟩ - hprog
    exact ⟨hc.set hprog, hset.step hc hprog hmem, (hc.approvals hprog).given hmem,
      fun hnew => hold (hset.issued hc hprog hnew)⟩
  exact hinv.2.2.2 hissued

/-! ### Approvals before and after a reset -/

/-- The account 1 approves a client; its code is drawn as 7. -/
def approveSchedule : List (Nat × AccountAct) :=
  [(1, .start (.approve ⟨1, "app", "callback", "challenge", none, none⟩)), (1, .go {}),
    (1, .go { tokenHash := 7 }), (1, .go {})]

/-- The client redeems the code, up to the session it is to issue. -/
def redeemSchedule (i : Nat) : List (Nat × AccountAct) :=
  [(i, .start (.redeem ⟨7, "challenge", "app", "callback", none, none, none⟩)),
    (i, .go {}), (i, .go {}), (i, .go {}), (i, .go {})]

/-- A device asks for an approval (code 8), the account 1 gives it. -/
def deviceSchedule : List (Nat × AccountAct) :=
  [(1, .start (.initiateDevice ⟨none, none, "tv", none⟩)), (1, .go { tokenHash := 8 }),
    (1, .go { userCode := "ABCD-2345" }), (1, .go {}),
    (4, .start (.verifyDevice "ABCD-2345" 1)), (4, .go {}), (4, .go {}), (4, .go {}),
    (4, .go {}), (4, .go {}), (4, .go {})]

/-- The device polls, up to the session it is to receive. -/
def pollSchedule : List (Nat × AccountAct) :=
  [(3, .start (.pollDevice ⟨8, "tv", none, none, none⟩)), (3, .go {}), (3, .go {}), (3, .go {}),
    (3, .go {})]

/-- Given before the reset of request 2 commits, `approval` is used after
the reset has returned, and the session 5 is issued. -/
def Survives (approval : Approval) : Prop :=
  ∃ c₁ c₂ c₃, AccountReachable c₁ ∧ ChangesPassword 2 1 c₁ c₂ ∧
    Steps accountProgram Free c₂ c₃ ∧ (approval, 1) ∈ c₁.shared.given ∧
    c₂.shared.issued = [] ∧ c₃.shared.issued = [⟨approval, 1, 5⟩]

theorem survives_of_exec {approval : Approval} (before after : List (Nat × AccountAct))
    (h : ((exec accountProgram Free (accountInitial shortSessions ⟨300, 5⟩ (instant 100))
        (before ++ resetSchedule 2 1)).any fun c₁ =>
      (c₁.procs 2).flow.changing = some 1 && !(c₁.procs 2).session.committed &&
      decide ((approval, 1) ∈ c₁.shared.given) &&
      (exec accountProgram Free c₁ [(2, .session {})]).any fun c =>
      (c.procs 2).session.committed &&
      (exec accountProgram Free c (purgeSchedule 2)).any fun c₂ =>
      (c₂.procs 2).flow.answer = some (.passwordChanged 1) && c₂.shared.issued = [] &&
      (exec accountProgram Free c₂ after).any fun c₃ =>
      c₃.shared.issued = [⟨approval, 1, 5⟩]) = true) : Survives approval := by
  simp only [Option.any_eq_true, Bool.and_eq_true, Bool.not_eq_true', decide_eq_true_eq] at h
  obtain ⟨c₁, h₁, ⟨⟨hchanging, hbefore⟩, hgiven⟩, c, hc, hcommitted, c₂, h₂, ⟨hreturned, hnone⟩,
    c₃, h₃, hissued⟩ := h
  obtain ⟨s, p, hprog, rfl⟩ := exec_one hc
  rw [Conf.set_procs_self] at hcommitted
  exact ⟨c₁, c₂, c₃, ⟨_, _, _, steps_of_exec h₁⟩,
    ⟨hchanging, hbefore, ⟨_, s, p, hprog, hcommitted, steps_of_exec h₂⟩, hreturned⟩,
    steps_of_exec h₃, hgiven, hnone, hissued⟩

/-- A code and a device request, approved before the reset, both yield a
session after it. -/
theorem approval_survives_reset : Survives (.code 7) ∧ Survives (.device 8) :=
  ⟨survives_of_exec approveSchedule (redeemSchedule 3 ++ issueSchedule 3 9 4 5)
      (by decide +kernel),
    survives_of_exec deviceSchedule (pollSchedule ++ issueSchedule 3 9 4 5) (by decide +kernel)⟩

/-- The code is redeemed before the reset, which revokes the session 5. -/
def redeemThenReset : List (Nat × AccountAct) :=
  approveSchedule ++ redeemSchedule 3 ++ issueSchedule 3 9 4 5 ++ [(3, .go {}), (3, .go {})] ++
    resetSchedule 2 1 ++ [(2, .session { row := 5 })]

/-- The code is presented again, by another client. -/
def replaySchedule : List (Nat × AccountAct) :=
  [(4, .start (.redeem ⟨7, "challenge", "other", "callback", none, none, none⟩)),
    (4, .go {}), (4, .go {}), (4, .go {})]

theorem no_session_from_redeemed_code :
    ∃ c₁ c₂ c₃, AccountReachable c₁ ∧ ChangesPassword 2 1 c₁ c₂ ∧
      Steps accountProgram Free c₂ c₃ ∧ (.code 7, 1) ∈ c₁.shared.given ∧
      (c₃.procs 4).flow.answer = some (.error .invalidAuthorizationCode) ∧
      ⟨.code 7, 1, 5⟩ ∈ c₂.shared.issued := by
  obtain ⟨c₁, h₁, hchanging, hbefore, hgiven, c, hc, hcommitted, c₂, h₂, hreturned,
      ⟨row, hrow, hconsumed⟩, hnone, c₃, h₃, hanswer, hissued⟩ :
      ∃ c₁ ∈ exec accountProgram Free (accountInitial shortSessions ⟨300, 5⟩ (instant 100))
        redeemThenReset, (c₁.procs 2).flow.changing = some 1 ∧
      (c₁.procs 2).session.committed = false ∧ c₁.shared.given = [(.code 7, 1)] ∧
      ∃ c ∈ exec accountProgram Free c₁ [(2, .session {})], (c.procs 2).session.committed ∧
      ∃ c₂ ∈ exec accountProgram Free c ((2, .session {}) :: purgeSchedule 2),
      (c₂.procs 2).flow.answer = some (.passwordChanged 1) ∧
      (∃ row ∈ c₂.shared.codes.committed 7, row.consumedAt.isSome) ∧
      (∀ i ∈ [1, 2, 3], (c₂.procs i).flow.grant = none) ∧
      ∃ c₃ ∈ exec accountProgram Free c₂ replaySchedule,
      (c₃.procs 4).flow.answer = some (.error .invalidAuthorizationCode) ∧
      ⟨.code 7, 1, 5⟩ ∈ c₃.shared.issued := by
    decide +kernel
  obtain ⟨s, p, hprog, rfl⟩ := exec_one hc
  rw [Conf.set_procs_self] at hcommitted
  have hmem : ((.code 7, 1) : Approval × Uuid) ∈ c₁.shared.given := by
    rw [hgiven]
    exact List.mem_singleton_self _
  have hchange : ChangesPassword 2 1 c₁ c₂ :=
    ⟨hchanging, hbefore, ⟨_, s, p, hprog, hcommitted, steps_of_exec h₂⟩, hreturned⟩
  have hidle : ∀ i, (c₂.procs i).flow.grant = none := by
    intro i
    by_cases hi : i ∈ [1, 2, 3]
    · exact hnone i hi
    · simp only [List.mem_cons, List.not_mem_nil, or_false, not_or] at hi
      rw [exec_procs h₂ (by simp [purgeSchedule, hi]), Conf.set_procs_of_ne _ _ _ hi.2.1,
        exec_procs h₁ (by simp [redeemThenReset, approveSchedule, redeemSchedule, issueSchedule,
          resetSchedule, hi])]
      rfl
  have hsettled : ∀ approval, (approval, 1) ∈ c₁.shared.given → Settled c₂ approval := by
    intro approval happroval
    rw [hgiven] at happroval
    cases List.mem_singleton.mp happroval
    refine ⟨fun row' hrow' => .inl ?_, fun i userId hgrant => ?_⟩
    · rw [Option.some.inj (hrow'.symm.trans hrow)]
      exact hconsumed
    · rw [hidle i] at hgrant
      cases hgrant
  exact ⟨c₁, c₂, c₃, ⟨_, _, _, steps_of_exec h₁⟩, hchange, steps_of_exec h₃, hmem, hanswer,
    no_session_from_earlier_approval ⟨_, _, _, steps_of_exec h₁⟩ hchange hsettled
      (steps_of_exec h₃) hmem hissued⟩

end AuthApi
