import AuthApi.ChallengeReset
import AuthApi.FactorSteps

/-!
# Completions of a challenge

A completion loads its challenge, passes its check, takes the challenge
out of Redis and has a session issued. Its steps are partly this system's
and partly the account system's; `Stage` is how far it has got in both,
and `StageMoved` what one step of its own can do to that.

`CompletionsOk` holds in every state reached: a completion has loaded the
challenge that was stored under the id it was given, answers it in one of
the ways that challenge admits, and has its session issued for the account
in it.
-/

namespace AuthApi

open Conc

/-! ## Stages -/

inductive Stage where
  | loading (request : Completion)
  | checking (request : Completion) (challenge : PreAuthState) (pc : CompletionPc)
  | taking (request : Completion) (challenge : PreAuthState) (evidence : Evidence)
  | unindexing (request : Completion) (challenge : PreAuthState) (evidence : Evidence)
  | issuing (challengeId : TokenHash) (userId : Uuid) (evidence : Evidence)

def FactorProc.stage (p : FactorProc) : Option Stage :=
  match p.own, p.account.flow with
  | .complete _ .load, .complete (.load request) => some (.loading request)
  | .complete _ pc, .complete (.verify request challenge) => some (.checking request challenge pc)
  | .complete _ (.check (.passed evidence)), .complete (.take request challenge) =>
    some (.taking request challenge evidence)
  | .complete _ (.check (.passed evidence)), .complete (.unindex request challenge) =>
    some (.unindexing request challenge evidence)
  | .complete _ (.check (.passed evidence)), .complete (.issue challengeId userId) =>
    some (.issuing challengeId userId evidence)
  | _, _ => none

/-- A completion is at one of the stages. -/
def FactorProc.Staged (p : FactorProc) : Prop :=
  ∀ code pc flow, p.own = .complete code pc → p.account.flow = .complete flow → p.stage.isSome

section

variable (i : Nat) (s : FactorState) (p : FactorProc) (s' : FactorState) (p' : FactorProc)

/-- What a step of process `i` does to the stage it is at, and the sign-in
it completes. -/
inductive StageMoved : Option CompletedSignIn → Prop
  /-- It is no completion, or has ended. -/
  | out (h : p'.stage = none) : StageMoved none
  | stays (h : p'.stage = p.stage)
      (hsession : SessionPart i s.account p.account s'.account p'.account) :
      StageMoved none
  | entered {request} (h : p'.stage = some (.loading request)) : StageMoved none
  | loaded {request challenge} (h : p.stage = some (.loading request))
      (hget : s.account.preAuth.get s.now request.challengeId = some challenge)
      (hanswers : request.factor.answers challenge = true)
      (h' : p'.stage = some (.checking request challenge .load)) : StageMoved none
  | checked {request challenge code pc pc' inp}
      (h : p.stage = some (.checking request challenge pc))
      (hcheck : CompletionStepped inp s code (.complete (.verify request challenge)) pc s'
        (.complete code pc')) (h' : p'.stage = some (.checking request challenge pc')) :
      StageMoved none
  | verified {request challenge evidence}
      (h : p.stage = some (.checking request challenge (.check (.passed evidence))))
      (h' : p'.stage = some (.taking request challenge evidence)) : StageMoved none
  | took {request challenge evidence} (h : p.stage = some (.taking request challenge evidence))
      (hget : (s.account.preAuth.get s.now request.challengeId).isSome)
      (hdel : s'.account.preAuth = s.account.preAuth.del request.challengeId)
      (h' : p'.stage = some (.unindexing request challenge evidence)) : StageMoved none
  | unindexed {request challenge evidence}
      (h : p.stage = some (.unindexing request challenge evidence))
      (h' : p'.stage = some (.issuing request.challengeId challenge.userId evidence))
      (hsession : p'.account.session = .issue (.clock (request.issueArgs challenge))) :
      StageMoved none
  | yields {r userId new} (h : p.stage = some (.issuing r.challengeId userId r.evidence))
      (h' : p'.stage = p.stage) (hcommit : p.account.session = .issue (.commit new))
      (huser : r.userId = new.val.userId)
      (hdone : p'.account.session = .done (.tokens r.sessionId)) :
      StageMoved (some r)

end

variable {c : FactorConf} {i j : Nat} {a : FactorAct} {inp : FactorInput} {s s' : FactorState}
  {p p' : FactorProc} {own : FactorFlow} {code : Code} {pc : CompletionPc} {request : Completion}
  {flow : CompletePc} {q : Request} {b : AccountAct} {challenge : PreAuthState}

theorem stage_none_of_own (h : ∀ code pc, p.own ≠ .complete code pc) : p.stage = none := by
  unfold FactorProc.stage
  split <;> first | rfl | exact absurd ‹_› (h _ _)

theorem stage_none_of_flow (h : ∀ pc, p.account.flow ≠ .complete pc) : p.stage = none := by
  unfold FactorProc.stage
  split <;> first | rfl | exact absurd ‹_› (h _)

theorem FactorProc.Staged.of_own (h : ∀ code pc, p.own ≠ .complete code pc) : p.Staged :=
  fun code pc _ hown _ => absurd hown (h code pc)

theorem FactorProc.Staged.of_flow (h : ∀ pc, p.account.flow ≠ .complete pc) : p.Staged :=
  fun _ _ pc _ hflow => absurd hflow (h pc)

theorem Staged.load (h : p.Staged) (hown : p.own = .complete code pc)
    (hflow : p.account.flow = .complete (.load request)) : pc = .load := by
  have hstage := h _ _ _ hown hflow
  simp only [FactorProc.stage, hown, hflow] at hstage
  split at hstage <;> simp_all

theorem Staged.passed (h : p.Staged) (hown : p.own = .complete code pc)
    (hflow : p.account.flow = .complete flow) (hload : ∀ request, flow ≠ .load request)
    (hverify : ∀ request challenge, flow ≠ .verify request challenge) :
    ∃ evidence, pc = .check (.passed evidence) := by
  have hstage := h _ _ _ hown hflow
  simp only [FactorProc.stage, hown, hflow] at hstage
  split at hstage <;> simp_all

theorem FactorProc.Staged.of_stage {stage : Stage} (h : p.stage = some stage) : p.Staged :=
  fun _ _ _ _ _ => h ▸ rfl

theorem completeStep_stage {inp : Input} {account : AccountState} (hstaged : p.Staged)
    (hown : p.own = .complete code pc) (hflow : p.account.flow = .complete flow)
    (hadmits : p.own.admitsGo s p.account.flow inp = true)
    (h : completeStep i inp s.account p.account flow = some (account, q))
    (hs' : s'.account = account) :
    (⟨p.own, q⟩ : FactorProc).Staged ∧ StageMoved i s p s' ⟨p.own, q⟩ none := by
  have hout : ∀ {answer : Answer}, q.flow = .done answer →
      (⟨p.own, q⟩ : FactorProc).Staged ∧ StageMoved i s p s' ⟨p.own, q⟩ none := by
    intro answer hq
    have hne : ∀ pc, q.flow ≠ .complete pc := fun pc hpc => by
      rw [hq] at hpc
      cases hpc
    exact ⟨.of_flow hne, .out (stage_none_of_flow hne)⟩
  cases completeStepped h with
  | @loaded request challenge hget hanswers =>
    obtain rfl := Staged.load hstaged hown hflow
    have hstage : (⟨p.own, p.account.goto (.complete (.verify request challenge))⟩ :
        FactorProc).stage = some (.checking request challenge .load) := by
      simp only [FactorProc.stage, hown, Request.goto]
    exact ⟨.of_stage hstage, .loaded (by simp only [FactorProc.stage, hown, hflow]) hget
      hanswers hstage⟩
  | @verified request challenge hrefusal =>
    simp only [FactorFlow.admitsGo, hown, hflow, hrefusal] at hadmits
    split at hadmits
    · rename_i evidence
      have hstage : (⟨p.own, p.account.goto (.complete (.take request challenge))⟩ :
          FactorProc).stage = some (.taking request challenge evidence) := by
        simp only [FactorProc.stage, hown, Request.goto]
      exact ⟨.of_stage hstage, .verified (by simp only [FactorProc.stage, hown, hflow]) hstage⟩
    · cases hadmits
    · cases hadmits
  | @taken request challenge hget =>
    obtain ⟨evidence, rfl⟩ := Staged.passed hstaged hown hflow (by simp) (by simp)
    have hstage : (⟨p.own, p.account.goto (.complete (.unindex request challenge))⟩ :
        FactorProc).stage = some (.unindexing request challenge evidence) := by
      simp only [FactorProc.stage, hown, Request.goto]
    exact ⟨.of_stage hstage, .took (by simp only [FactorProc.stage, hown, hflow]) hget
      (by rw [hs']) hstage⟩
  | @unlisted request challenge =>
    obtain ⟨evidence, rfl⟩ := Staged.passed hstaged hown hflow (by simp) (by simp)
    have hstage : (⟨p.own, ⟨.complete (.issue request.challengeId challenge.userId),
        .issue (.clock (request.issueArgs challenge))⟩⟩ : FactorProc).stage =
        some (.issuing request.challengeId challenge.userId evidence) := by
      simp only [FactorProc.stage, hown]
    exact ⟨.of_stage hstage, .unindexed (by simp only [FactorProc.stage, hown, hflow]) hstage rfl⟩
  | ended => exact hout rfl

theorem CompletionStepped.stage (hown : p.own = .complete code pc)
    (h : CompletionStepped inp s code p.account.flow pc s' own) :
    (⟨own, p.account⟩ : FactorProc).Staged ∧ StageMoved i s p s' ⟨own, p.account⟩ none := by
  cases hflow : p.account.flow with
  | complete flow =>
    cases flow with
    | verify request challenge =>
      rw [hflow] at h
      obtain ⟨pc', rfl⟩ : ∃ pc', own = .complete code pc' := by
        cases h <;> exact ⟨_, rfl⟩
      have hstage : (⟨.complete code pc', p.account⟩ : FactorProc).stage =
          some (.checking request challenge pc') := by
        simp only [FactorProc.stage, hflow]
      exact ⟨.of_stage hstage, .checked (by simp only [FactorProc.stage, hown, hflow]) h hstage⟩
    | _ =>
      rw [hflow] at h
      cases h
  | _ =>
    rw [hflow] at h
    cases h

theorem FactorFlow.Next.not_complete {own' : FactorFlow} (h : own.Next own')
    (hown : ∀ code pc, own ≠ .complete code pc) (code : Code) (pc : CompletionPc) :
    own' ≠ .complete code pc := by
  rintro rfl
  rcases h with h | ⟨error, h⟩
  · cases own <;> first | exact hown _ _ rfl | cases h
  · cases h

theorem AccountStepped.not_complete {a : AccountAct} {s s' : AccountState} {p p' : Request}
    (h : AccountStepped i s p a s' p') (hp : ∀ pc, p.flow ≠ .complete pc)
    (ha : ∀ call, a ≠ .start call) (pc : CompletePc) : p'.flow ≠ .complete pc := by
  intro hp'
  cases h with
  | session _ h => exact hp pc ((sessionStep_fields h).1 ▸ hp')
  | start _ _ => exact ha _ rfl
  | signIn _ h | password _ h => cases h <;> cases hp'
  | complete hflow _ => exact hp _ hflow
  | aloof _ haloof =>
    rw [hp'] at haloof
    cases haloof
  | fail hdone =>
    rw [hp'] at hdone
    cases hdone

theorem admits_idle (h : admits s p b = true) (hb : b = .fail ∨ ∃ call, b = .start call) :
    p.own = .idle := by
  rcases hb with rfl | ⟨call, rfl⟩ <;> simp only [admits] at h <;> split at h <;>
    first | assumption | cases h

theorem completes_moved {r : CompletedSignIn} (h : p.completes q = some r)
    (hflow : q.flow = p.account.flow) : StageMoved i s p s' ⟨p.own, q⟩ (some r) := by
  unfold FactorProc.completes at h
  split at h <;> cases h
  rename_i hown hissue hcommit hdone
  have hstage : p.stage = (⟨p.own, q⟩ : FactorProc).stage := by
    simp only [FactorProc.stage, hflow]
  exact .yields (by simp only [FactorProc.stage, hown, hissue]; rfl) hstage.symm hcommit rfl hdone

/-- A step of the session code is one of a reset, or changes nothing here
but the list of completed sign-ins. -/
theorem settleSession_cases (i : Nat) (s : FactorState) (p : FactorProc) (account : AccountState)
    (q : Request) :
    ((∀ code pc, (settleSession i s p account q).2.own ≠ .complete code pc) ∧
      (settleSession i s p account q).1.completed = s.completed) ∨
    settleSession i s p account q =
      ({ s with account := account, completed := (p.completes q).toList ++ s.completed },
        ⟨p.own, q⟩) := by
  unfold settleSession
  split
  · exact .inl ⟨by simp, rfl⟩
  · split <;> exact .inl ⟨by simp, rfl⟩
  · exact .inr rfl

/-- **A step moves a completion from one stage to the next, or ends it.** -/
theorem FactorStepped.stage (h : FactorStepped i s p a s' p') (hstaged : p.Staged) :
    p'.Staged ∧ ∃ record, StageMoved i s p s' p' record ∧
      s'.completed = record.toList ++ s.completed := by
  have hpart := h.session_part
  have hout : (∀ code pc, p'.own ≠ .complete code pc) → p'.Staged ∧ StageMoved i s p s' p' none :=
    fun hne => ⟨.of_own hne, .out (stage_none_of_own hne)⟩
  have hstage : p'.own = p.own → p'.account.flow = p.account.flow →
      p'.stage = p.stage ∧ p'.Staged := fun hown hflow => by
    have hstage : p'.stage = p.stage := by
      simp only [FactorProc.stage, hown, hflow]
    refine ⟨hstage, fun code pc flow hown' hflow' => ?_⟩
    rw [hstage]
    exact hstaged code pc flow (hown ▸ hown') (hflow ▸ hflow')
  have hsame : p'.own = p.own → p'.account.flow = p.account.flow →
      p'.Staged ∧ StageMoved i s p s' p' none := fun hown hflow =>
    ⟨(hstage hown hflow).2, .stays (hstage hown hflow).1 hpart⟩
  have hnone : s'.completed = s.completed → p'.Staged ∧ StageMoved i s p s' p' none →
      p'.Staged ∧ ∃ record, StageMoved i s p s' p' record ∧
        s'.completed = record.toList ++ s.completed :=
    fun hcompleted hmoved => ⟨hmoved.1, none, hmoved.2, hcompleted⟩
  cases h with
  | @account a account q hadmits h =>
    cases a with
    | session ch =>
      have hflow : q.flow = p.account.flow := (sessionStep_fields (i := i) (b := .go ch) h).1
      simp only [settle] at *
      rcases settleSession_cases i s p account q with ⟨hne, hcompleted⟩ | heq
      · exact hnone hcompleted (hout hne)
      · rw [heq] at hstage hsame ⊢
        rcases hrecord : p.completes q with _ | r
        · rw [hrecord] at hsame
          exact ⟨(hstage rfl hflow).2, none, (hsame rfl hflow).2, rfl⟩
        · exact ⟨(hstage rfl hflow).2, some r, completes_moved hrecord hflow, rfl⟩
    | start call =>
      exact hnone rfl (hout (by simp [settle, admits_idle hadmits (.inr ⟨call, rfl⟩)]))
    | fail => exact hnone rfl (hout (by simp [settle, admits_idle hadmits (.inl rfl)]))
    | go =>
      refine hnone rfl ?_
      cases hflow : p.account.flow with
      | complete =>
        cases hown : p.own with
        | complete =>
          simp only [accountProgram, flowStep, hflow] at h
          exact completeStep_stage hstaged hown hflow hadmits h rfl
        | _ => exact hout (by simp [settle, settleGo, hown])
      | _ =>
        have hne := (accountStepped h).not_complete (by simp [hflow]) (by simp)
        exact ⟨.of_flow hne, .out (stage_none_of_flow hne)⟩
    | tick t =>
      exact hnone rfl (hsame rfl (sessionStep_fields (i := i) (b := .tick t) h).1)
    | configure cfg =>
      exact hnone rfl (hsame rfl (sessionStep_fields (i := i) (b := .configure cfg) h).1)
  | @entered call own hidle hflow hcall =>
    refine hnone rfl (hout fun code pc => ?_)
    rintro rfl
    cases call <;> cases hcall
  | @called call own callee account q hidle hflow hcall h =>
    refine hnone rfl ?_
    cases call with
    | complete request code =>
      cases hcall
      simp only [accountProgram, hflow, AccountCall.enter] at h
      cases h
      have hstage : (⟨.complete code .load, p.account.goto (.complete (.load request))⟩ :
          FactorProc).stage = some (.loading request) := rfl
      exact ⟨.of_stage hstage, .entered hstage⟩
    | _ => cases hcall <;> exact hout (by simp)
  | @go inp _ own h =>
    refine hnone (ownStep_frame h).completed ?_
    cases hown : p.own with
    | complete =>
      simp only [ownStep, hown] at h
      exact (completionStepped h).stage hown
    | _ => exact hout ((ownStep_next h).not_complete (by simp [hown]))
  | drift | sweep => exact hnone rfl (hsame rfl rfl)
  | failed | failedAlone => exact hnone rfl (hout (by simp))

/-! ## The factor a check is of -/

def Evidence.factor : Evidence → SecondFactor
  | .totp _ => .totp
  | .mailed _ _ => .email
  | .recovery _ => .recoveryCode

def CheckPc.factor : CheckPc → Option SecondFactor
  | .verify _ _ => some .totp
  | .replay _ => some .totp
  | .clock _ => some .totp
  | .consume _ _ => some .totp
  | .remember _ => some .totp
  | .findOtp _ _ => some .email
  | .takeOtp _ => some .email
  | .findRecovery _ => some .recoveryCode
  | .takeRecovery _ => some .recoveryCode
  | .passed evidence => some evidence.factor
  | .refused _ => none

def CompletionPc.factor : CompletionPc → Option SecondFactor
  | .load => none
  | .primary => some .totp
  | .check pc => pc.factor

theorem CheckStepped.factor {userId : Uuid} {pc pc' : CheckPc} {factor : SecondFactor}
    (h : CheckStepped inp s userId pc s' pc') (hfactor : pc'.factor = some factor) :
    pc.factor = some factor := by
  cases h with
  | refused | replayed => cases hfactor
  | _ => exact hfactor

theorem CompletionStepped.factor {pc' : CompletionPc} {factor : SecondFactor}
    (h : CompletionStepped inp s code (.complete (.verify request challenge)) pc s'
      (.complete code pc'))
    (hpc : ∀ f ∈ pc.factor, f = request.factor) (hfactor : pc'.factor = some factor) :
    factor = request.factor := by
  cases h with
  | refused => cases hfactor
  | totp hrequest | email hrequest | recoveryCode hrequest =>
    cases hfactor
    exact hrequest.symm
  | read => exact hpc factor hfactor
  | checked hcheck => exact hpc factor (hcheck.factor hfactor)

/-! ## Challenges stored -/

/-- What Redis is told of a challenge. -/
def Challenge.state (challenge : Challenge) (rememberMe : Bool) : PreAuthState :=
  ⟨challenge.userId, rememberMe, some challenge.method⟩

/-- A request has just stored its challenge. -/
structure StoresChallenge (s s' : AccountState) (p p' : Request) (challenge : Challenge)
    (rememberMe : Bool) : Prop where
  flow : p.flow = .signIn (.store challenge rememberMe)
  next : p'.flow = .signIn (.count challenge)
  entry : s'.preAuth = s.preAuth.setEx s.now challenge.id (challenge.state rememberMe)
    (preAuthTtlSecs * nanosPerSec)
  opened : (s'.openedWith challenge.id).isSome

theorem AccountStepped.opens {s s' : AccountState} {p p' : Request}
    (h : AccountStepped i s p b s' p') :
    (∃ inp challenge rememberMe, b = .go inp ∧ StoresChallenge s s' p p' challenge rememberMe) ∨
      s'.openedWith = s.openedWith ∧
        (p.flow.storing = none ∨ ∀ challenge, p'.flow ≠ .signIn (.count challenge)) := by
  cases h with
  | session _ h =>
    obtain ⟨hflow, -, -, hopened, -⟩ := sessionStep_fields h
    refine .inr ⟨hopened, ?_⟩
    cases hstoring : p.flow.storing with
    | none => exact .inl rfl
    | some =>
      refine .inr fun challenge' hcount => ?_
      rw [← hflow, hcount] at hstoring
      cases hstoring
  | start hidle => exact .inr ⟨rfl, .inl (by rw [hidle]; rfl)⟩
  | signIn hp h =>
    cases h with
    | stored => exact .inl ⟨_, _, _, rfl, hp, rfl, rfl, by simp⟩
    | ended _ _ => exact .inr ⟨rfl, .inr fun _ hcount => by cases hcount⟩
    | _ => exact .inr ⟨rfl, .inl (by rw [hp]; rfl)⟩
  | complete hp h =>
    refine .inr ⟨?_, .inl (by rw [hp]; rfl)⟩
    cases h with
    | unlisted => split <;> rfl
    | _ => rfl
  | password hp h =>
    refine .inr ⟨?_, .inl (by rw [hp]; rfl)⟩
    cases h with
    | deleted | cleared => split <;> rfl
    | _ => rfl
  | aloof hp hp' h =>
    refine .inr ⟨h.openedWith, .inr fun challenge hcount => ?_⟩
    rw [hcount] at hp'
    cases hp'
  | fail hp' h => exact .inr ⟨h.openedWith, .inr (by simp [hp'])⟩

theorem FactorStepped.stores (h : FactorStepped i s p a s' p') :
    (∃ challenge rememberMe,
      StoresChallenge s.account s'.account p.account p'.account challenge rememberMe ∧
        s'.stored =
          Function.update s.stored challenge.id (some (challenge.state rememberMe))) ∨
      s'.account.openedWith = s.account.openedWith ∧ s'.stored = s.stored := by
  cases h with
  | @account b account q _ h =>
    rcases (accountStepped h).opens with
      ⟨inp, challenge, rememberMe, rfl, hstores⟩ | ⟨hopened, hnot⟩
    · refine .inl ⟨challenge, rememberMe, hstores, ?_⟩
      simp only [settle, settleGo, FactorProc.stores, hstores.flow, hstores.next]
      rfl
    · rw [settle_account]
      refine .inr ⟨hopened, ?_⟩
      cases b with
      | session =>
        simp only [settle, settleSession]
        repeat' split
        all_goals rfl
      | go inp =>
        have hnone : p.stores q = none := by
          unfold FactorProc.stores
          split
          · rename_i hstore hcount
            rcases hnot with hnot | hnot
            · rw [hstore] at hnot
              cases hnot
            · exact absurd hcount (hnot _)
          · rfl
        simp only [settle, settleGo, hnone]
      | _ => rfl
  | entered | drift | sweep | failedAlone => exact .inr ⟨rfl, rfl⟩
  | called _ _ _ h =>
    rcases (accountStepped h).opens with ⟨_, _, _, hgo, _⟩ | ⟨hopened, -⟩
    · cases hgo
    · exact .inr ⟨hopened, rfl⟩
  | go h => exact .inr ⟨by rw [(ownStep_frame h).account], (ownStep_frame h).stored⟩
  | failed _ h =>
    rcases (accountStepped (a := .fail) h).opens with ⟨_, _, _, hgo, _⟩ | ⟨hopened, -⟩
    · cases hgo
    · exact .inr ⟨hopened, rfl⟩

/-! ## Runs -/

/-- The completion has loaded the challenge that was stored, and may answer
it the way it does. -/
structure Asked (s : FactorState) (request : Completion) (challenge : PreAuthState) : Prop where
  stored : s.stored request.challengeId = some challenge
  answers : request.factor.answers challenge = true

/-- What a completion at a stage knows, its session code at `session`. -/
def Stage.Knows (s : FactorState) (session : Pc) : Stage → Prop
  | .loading _ => True
  | .checking request challenge pc =>
    Asked s request challenge ∧ ∀ factor ∈ pc.factor, factor = request.factor
  | .taking request challenge evidence =>
    Asked s request challenge ∧ evidence.factor = request.factor
  | .unindexing request challenge evidence =>
    Asked s request challenge ∧ evidence.factor = request.factor
  | .issuing challengeId userId evidence =>
    ∃ challenge, s.stored challengeId = some challenge ∧ challenge.userId = userId ∧
      evidence.factor.answers challenge = true ∧ session.issuesFor userId

def StoredGrows (s s' : FactorState) : Prop :=
  ∀ id challenge, s.stored id = some challenge → s'.stored id = some challenge

theorem Asked.mono (h : Asked s request challenge) (hgrows : StoredGrows s s') :
    Asked s' request challenge :=
  ⟨hgrows _ _ h.stored, h.answers⟩

theorem Stage.Knows.mono {stage : Stage} {session : Pc} (h : stage.Knows s session)
    (hgrows : StoredGrows s s') : stage.Knows s' session := by
  cases stage with
  | loading => trivial
  | checking request challenge pc | taking request challenge evidence
  | unindexing => exact ⟨h.1.mono hgrows, h.2⟩
  | issuing =>
    obtain ⟨challenge, hstored, hrest⟩ := h
    exact ⟨challenge, hgrows _ _ hstored, hrest⟩

theorem Stage.Knows.session {stage : Stage} {session session' : Pc} (h : stage.Knows s session)
    (hissues : ∀ userId, session.issuesFor userId → session'.issuesFor userId) :
    stage.Knows s session' := by
  cases stage with
  | issuing =>
    obtain ⟨challenge, hstored, huser, hanswers, hfor⟩ := h
    exact ⟨challenge, hstored, huser, hanswers, hissues _ hfor⟩
  | _ => exact h

structure CompletionsOk (c : FactorConf) : Prop where
  challenged : Challenged (accountOf c)
  entries : ∀ id challenge deadline,
    c.shared.account.preAuth.entry id = some (challenge, deadline) →
      c.shared.stored id = some challenge
  opened : ∀ id challenge, c.shared.stored id = some challenge →
    (c.shared.account.openedWith id).isSome
  staged : ∀ i, (c.procs i).Staged
  knows : ∀ i stage, (c.procs i).stage = some stage →
    stage.Knows c.shared (c.procs i).account.session

section

variable (h : CompletionsOk c) (hprog : factorProgram i a c.shared (c.procs i) = some (s', p'))
include h hprog

theorem CompletionsOk.kept : ChallengeKept i c.shared.account s'.account p'.account := by
  rcases (factorStepped hprog).account_part with ⟨hs, hp⟩ | ⟨b, hb⟩
  · have hknows := h.challenged.knows i
    rw [hs, hp]
    exact .of_same h.challenged.opened le_rfl rfl rfl (fun _ _ h => h) fun _ => hknows
  · exact h.challenged.kept (i := i) hb

theorem CompletionsOk.grows : StoredGrows c.shared s' := by
  intro id challenge hstored
  rcases (factorStepped hprog).stores with ⟨challenge', rememberMe, hstores, heq⟩ | ⟨-, heq⟩
  · have hunopened := ((h.challenged.knows i).storing challenge' (by
      show (c.procs i).account.flow.storing = _
      rw [hstores.flow]
      rfl)).2
    have hne : id ≠ challenge'.id := by
      rintro rfl
      have hopened := h.opened _ _ hstored
      rw [show c.shared.account.openedWith challenge'.id = none from hunopened] at hopened
      cases hopened
    rw [heq, Function.update_of_ne hne, hstored]
  · rw [heq, hstored]

theorem CompletionsOk.step_entries (id : TokenHash) (challenge : PreAuthState)
    (deadline : Option Int) (hentry : s'.account.preAuth.entry id = some (challenge, deadline)) :
    s'.stored id = some challenge := by
  have hkept := h.kept hprog
  rcases (factorStepped hprog).stores with ⟨challenge', rememberMe, hstores, heq⟩ | ⟨hsame, heq⟩
  · rw [hstores.entry] at hentry
    by_cases hid : id = challenge'.id
    · subst hid
      rw [Redis.Store.setEx_entry_self] at hentry
      cases hentry
      rw [heq, Function.update_self]
    · rw [Redis.Store.setEx_entry_of_ne hid] at hentry
      rw [heq, Function.update_of_ne hid]
      exact h.entries id challenge deadline hentry
  · -- Only opened challenges have entries, and those of an opened one do not change.
    have hopened := (hkept.opened.stored id challenge deadline hentry).1
    rw [hsame] at hopened
    rw [heq]
    rcases hkept.rely.entries id hopened with hkeep | hgone
    · exact h.entries id challenge deadline (hkeep ▸ hentry)
    · rw [hgone] at hentry
      cases hentry

theorem CompletionsOk.step_opened (id : TokenHash) (challenge : PreAuthState)
    (hstored : s'.stored id = some challenge) : (s'.account.openedWith id).isSome := by
  have hrely := (h.kept hprog).rely
  rcases (factorStepped hprog).stores with ⟨challenge', rememberMe, hstores, heq⟩ | ⟨-, heq⟩
  · by_cases hid : id = challenge'.id
    · subst hid
      exact hstores.opened
    · rw [heq, Function.update_of_ne hid] at hstored
      exact hrely.isSome (h.opened id challenge hstored)
  · rw [heq] at hstored
    exact hrely.isSome (h.opened id challenge hstored)

end

theorem SessionPart.issuesFor {s s' : AccountState} {p p' : Request}
    (h : SessionPart i s p s' p') (userId : Uuid) (hfor : p.session.issuesFor userId) :
    p'.session.issuesFor userId := by
  cases h with
  | same hs hp => exact hp ▸ hfor
  | stepped b hb => exact Pc.issuesFor_step hb hfor

section

variable (h : CompletionsOk c) (hprog : factorProgram i a c.shared (c.procs i) = some (s', p'))
include h hprog

theorem CompletionsOk.step_own {stage : Stage} (hstage : p'.stage = some stage) :
    stage.Knows s' p'.account.session := by
  have hgrows := h.grows hprog
  obtain ⟨-, record, hmoved, -⟩ := (factorStepped hprog).stage (h.staged i)
  have hknows := h.knows i
  cases hmoved with
  | out h' =>
    rw [h'] at hstage
    cases hstage
  | stays h' hsession =>
    exact ((hknows stage (h' ▸ hstage)).mono hgrows).session hsession.issuesFor
  | entered h' =>
    rw [h'] at hstage
    cases hstage
    trivial
  | loaded h₀ hget hanswers h' =>
    rw [h'] at hstage
    cases hstage
    obtain ⟨deadline, hentry, -⟩ := Redis.Store.get_eq_some.mp hget
    exact ⟨⟨hgrows _ _ (h.entries _ _ _ hentry), hanswers⟩, nofun⟩
  | checked h₀ hcheck h' =>
    rw [h'] at hstage
    cases hstage
    obtain ⟨hasked, hfactor⟩ := hknows _ h₀
    exact ⟨hasked.mono hgrows, fun factor hf => hcheck.factor hfactor hf⟩
  | verified h₀ h' =>
    rw [h'] at hstage
    cases hstage
    obtain ⟨hasked, hfactor⟩ := hknows _ h₀
    exact ⟨hasked.mono hgrows, hfactor _ rfl⟩
  | took h₀ hget hdel h' =>
    rw [h'] at hstage
    cases hstage
    exact (hknows _ h₀).mono hgrows
  | unindexed h₀ h' hsession =>
    rw [h'] at hstage
    cases hstage
    obtain ⟨hasked, hfactor⟩ := (hknows _ h₀).mono hgrows
    exact ⟨_, hasked.stored, rfl, hfactor ▸ hasked.answers, hsession ▸ rfl⟩
  | yields h₀ h' hcommit huser hdone =>
    rw [h'] at hstage
    exact ((hknows stage hstage).mono hgrows).session fun _ _ => hdone ▸ trivial

theorem CompletionsOk.step : CompletionsOk (c.set i s' p') := by
  refine ⟨?_, h.step_entries hprog, h.step_opened hprog, fun j => ?_, fun j stage hstage => ?_⟩
  · exact (accountOf_step hprog).invariant (fun _ _ _ _ _ hc _ hb => hc.set hb) h.challenged
  · refine Conf.set_cases j ?_ fun j _ => ?_
    · exact ((factorStepped hprog).stage (h.staged i)).1
    · exact h.staged j
  · rcases c.procs_cases i s' p' j with ⟨rfl, hset⟩ | ⟨hji, hset⟩ <;> rw [hset] at hstage ⊢
    · exact h.step_own hprog hstage
    · exact (h.knows j stage hstage).mono (h.grows hprog)

end

theorem completionsOk_initial (config : FactorConfig) (cfg : JwtConfig)
    (deviceAuth : DeviceAuthConfig) (clock : OffsetDateTime) (ahead : Int) :
    CompletionsOk (factorInitial config cfg deviceAuth clock ahead) where
  challenged := challenged_initial cfg deviceAuth clock
  entries _ _ _ h := nomatch h
  opened _ _ h := nomatch h
  staged _ := .of_own fun _ _ h => nomatch h
  knows _ _ h := nomatch h

/-! ### Schedules -/

/-- Account 1 sets TOTP up with the secret 7, at time 100; its recovery
codes are 100 to 109. -/
def totpSetup : List (Nat × FactorAct) :=
  setupSchedule 0 ⟨1, .totp, some 7⟩ 10 ++ proveSetupSchedule 1 ⟨1, 10, .totp, 7003⟩ ++
    finishSetupSchedule 1 100

/-- Request `i` signs account 1 in, up to the challenge `id`. -/
def challengeSchedule (i : Nat) (method : ChallengeMethod) (id : TokenHash) :
    List (Nat × FactorAct) :=
  [(i, .start (.signIn ⟨1, none, none, none, false⟩)), (i, .account (.go {})),
    (i, .account (.go { method := some method, tokenHash := id }))] ++
    List.replicate 4 (i, .account (.go {}))

/-- Request `i` answers the challenge `id`, up to the `steps` statements of
its check. -/
def checkCodeSchedule (i : Nat) (id : TokenHash) (factor : SecondFactor) (code : Code)
    (steps : Nat) :
    List (Nat × FactorAct) :=
  [(i, .start (.complete ⟨id, factor, none, none, none⟩ code)), (i, .account (.go {}))] ++
    List.replicate steps (i, .go {})

/-- It goes on with the verdict, and takes the challenge. -/
def takeSchedule (i : Nat) : List (Nat × FactorAct) :=
  [(i, .account (.go {})), (i, .account (.go {}))]

def yieldSchedule (i : Nat) : List (Nat × FactorAct) :=
  (i, .account (.go {})) :: (issueSchedule i 9 4 5).map fun (i, a) => (i, .account a)

end AuthApi
