import AuthApi.Completions

/-!
# A challenge and a code are good for one session

A completion takes its challenge out of Redis with a `DEL` that has to
remove it, after its check has used up a mailed code or a recovery code
with an `UPDATE` that has to find it unused. Of the completions that race
for a challenge, or for a code, one gets it (`Conc.Once`), and no other
comes to hold it while that one is on its way to the session.

So no two sessions come from one challenge, from one mailed code or from
one recovery code, and each is of the account, and was proved in one of
the ways, its challenge names (`completed_once`).
-/

namespace AuthApi

open Conc

/-! ## What a completion holds -/

def Stage.taken : Stage → Option TokenHash
  | .unindexing request _ _ => some request.challengeId
  | .issuing challengeId _ _ => some challengeId
  | _ => none

def Stage.evidence : Stage → Option Evidence
  | .checking _ _ (.check (.passed evidence)) => some evidence
  | .taking _ _ evidence => some evidence
  | .unindexing _ _ evidence => some evidence
  | .issuing _ _ evidence => some evidence
  | _ => none

/-- The stage of a completion, until its session is issued or refused. -/
def FactorProc.underway (p : FactorProc) : Option Stage :=
  match p.stage with
  | some (.issuing challengeId userId evidence) =>
    if p.account.session.outcome.isNone then some (.issuing challengeId userId evidence)
    else none
  | stage => stage

def FactorProc.taken (p : FactorProc) : Option TokenHash := p.underway.bind Stage.taken

/-- What a completion has passed its check with, by its `key`. -/
def FactorProc.shown (key : Evidence → Option Uuid) (p : FactorProc) : Option Uuid :=
  p.underway.bind fun stage => stage.evidence.bind key

def Evidence.mailedCode : Evidence → Option Uuid
  | .mailed id _ => some id
  | _ => none

def Evidence.recoveryCode : Evidence → Option Uuid
  | .recovery id => some id
  | _ => none

variable {c : FactorConf} {i j : Nat} {a : FactorAct} {inp : FactorInput} {s s' : FactorState}
  {p p' : FactorProc} {own : FactorFlow} {record : Option CompletedSignIn} {challengeId : TokenHash}
  {evidence : Evidence} {userId id : Uuid} {challenge : PreAuthState} {pc : CompletionPc}
  {request : Completion} {code : Code}

theorem SessionPart.outcome {s s' : AccountState} {p p' : Request}
    (h : SessionPart i s p s' p') (hended : p.session.outcome.isSome) : p'.session = p.session := by
  cases h with
  | same _ hp => exact hp
  | stepped b hb => exact Pc.outcome_step hb hended

theorem underway_stays (hstage : p'.stage = p.stage)
    (hsession : SessionPart i s.account p.account s'.account p'.account) :
    p'.underway = p.underway ∨ p'.underway = none := by
  by_cases hended : p.account.session.outcome.isSome
  · exact .inl (by simp only [FactorProc.underway, hstage, hsession.outcome hended])
  · rw [Option.not_isSome_iff_eq_none] at hended
    simp only [FactorProc.underway, hstage, hended]
    split
    · split
      · exact .inl rfl
      · exact .inr rfl
    · exact .inl rfl

theorem underway_of_stage {stage : Stage} (h : p.stage = some stage)
    (hissuing : ∀ challengeId userId evidence, stage ≠ .issuing challengeId userId evidence) :
    p.underway = some stage := by
  unfold FactorProc.underway
  split
  · rename_i hstage
    exact absurd (Option.some.inj (h.symm.trans hstage)) (hissuing _ _ _)
  · exact h

theorem underway_of_issuing (h : p.stage = some (.issuing challengeId userId evidence))
    (hsession : p.account.session.outcome = none) :
    p.underway = some (.issuing challengeId userId evidence) := by
  simp only [FactorProc.underway, h, hsession]
  rfl

theorem underway_of_outcome (h : p.stage = some (.issuing challengeId userId evidence))
    (hsession : p.account.session.outcome.isSome) : p.underway = none := by
  obtain ⟨outcome, houtcome⟩ := Option.isSome_iff_exists.mp hsession
  simp only [FactorProc.underway, h, houtcome]
  rfl

theorem StageMoved.taken {spent spent' : TokenHash → Prop} {used : List TokenHash}
    (h : StageMoved i s p s' p' record)
    (htakes : ∀ request challenge evidence,
      p.stage = some (.taking request challenge evidence) →
      (s.account.preAuth.get s.now request.challengeId).isSome →
      s'.account.preAuth = s.account.preAuth.del request.challengeId →
      ¬ spent request.challengeId ∧ spent' request.challengeId) :
    Handled spent spent' p.taken used p'.taken
      ((record.map (·.challengeId)).toList ++ used) := by
  unfold FactorProc.taken
  cases h with
  | out h' =>
    rw [show p'.underway = none by simp only [FactorProc.underway, h']]
    exact .drops
  | stays h' hsession =>
    rcases underway_stays h' hsession with heq | heq <;> rw [heq]
    · exact .keeps
    · exact .drops
  | entered h' | loaded _ _ _ h' | checked _ _ h' | verified _ h' =>
    rw [underway_of_stage h' (by simp)]
    exact .drops
  | took h₀ hget hdel h' =>
    obtain ⟨hfree, hspent⟩ := htakes _ _ _ h₀ hget hdel
    rw [underway_of_stage h' (by simp)]
    exact .takes hfree hspent
  | unindexed h₀ h' hsession =>
    rw [underway_of_stage h₀ (by simp), underway_of_issuing h' (by rw [hsession]; rfl)]
    exact .keeps
  | yields h₀ h' hcommit huser hdone =>
    rw [underway_of_issuing h₀ (by rw [hcommit]; rfl),
      underway_of_outcome (h'.trans h₀) (by rw [hdone]; rfl)]
    exact .uses rfl

theorem eq_passed (h : (Stage.checking request challenge pc).evidence = some evidence) :
    pc = .check (.passed evidence) := by
  cases pc with
  | check pc =>
    cases pc with
    | passed =>
      cases h
      rfl
    | _ => cases h
  | _ => cases h

theorem CompletionStepped.passed
    (h : CompletionStepped inp s code (.complete (.verify request challenge)) pc s'
      (.complete code (.check (.passed evidence)))) :
    ∃ pc', pc = .check pc' ∧ CheckStepped inp s challenge.userId pc' s' (.passed evidence) := by
  cases h with
  | checked hcheck => exact ⟨_, rfl, hcheck⟩

theorem StageMoved.shown {spent spent' : Uuid → Prop} {used : List Uuid}
    {key : Evidence → Option Uuid} (h : StageMoved i s p s' p' record)
    (htakes : ∀ inp request challenge pc evidence id,
      p.stage = some (.checking request challenge (.check pc)) →
      CheckStepped inp s challenge.userId pc s' (.passed evidence) →
      key evidence = some id → ¬ spent id ∧ spent' id) :
    Handled spent spent' (p.shown key) used (p'.shown key)
      ((record.bind fun r => key r.evidence).toList ++ used) := by
  unfold FactorProc.shown
  cases h with
  | out h' =>
    rw [show p'.underway = none by simp only [FactorProc.underway, h']]
    exact .drops
  | stays h' hsession =>
    rcases underway_stays h' hsession with heq | heq <;> rw [heq]
    · exact .keeps
    · exact .drops
  | entered h' | loaded _ _ _ h' =>
    rw [underway_of_stage h' (by simp)]
    exact .drops
  | @checked request challenge _ _ pc' _ h₀ hcheck h' =>
    rw [underway_of_stage h' (by simp)]
    show Handled spent spent' _ used ((Stage.checking request challenge pc').evidence.bind key) used
    cases hevidence : (Stage.checking request challenge pc').evidence with
    | none => exact .drops
    | some evidence =>
      obtain rfl := eq_passed hevidence
      obtain ⟨pc, rfl, hstep⟩ := hcheck.passed
      rw [Option.bind_some]
      cases hkey : key evidence with
      | none => exact .drops
      | some =>
        obtain ⟨hfree, hspent⟩ := htakes _ _ _ _ _ _ h₀ hstep hkey
        exact .takes hfree hspent
  | verified h₀ h' | took h₀ _ _ h' =>
    rw [underway_of_stage h₀ (by simp), underway_of_stage h' (by simp)]
    exact .keeps
  | unindexed h₀ h' hsession =>
    rw [underway_of_stage h₀ (by simp), underway_of_issuing h' (by rw [hsession]; rfl)]
    exact .keeps
  | @yields r _ _ h₀ h' hcommit huser hdone =>
    rw [underway_of_issuing h₀ (by rw [hcommit]; rfl),
      underway_of_outcome (h'.trans h₀) (by rw [hdone]; rfl)]
    show Handled spent spent' (key r.evidence) used none ((key r.evidence).toList ++ used)
    cases hkey : key r.evidence with
    | none => exact .drops
    | some => exact .uses rfl

/-! ## The tables of codes -/

/-- Mailed codes and recovery codes have ids that were drawn for them. -/
structure CodesOk (s : FactorState) : Prop where
  mailed : ∀ code ∈ s.emailCodes, code.id ∈ s.ids
  owner : ∀ code ∈ s.emailCodes, ∀ code' ∈ s.emailCodes,
    code.id = code'.id → code.userId = code'.userId
  recovery : ∀ code ∈ s.recoveryCodes, code.id ∈ s.ids

/-- A later version of a mailed code. -/
structure Email2faCode.Follows (code' code : Email2faCode) : Prop where
  id : code'.id = code.id
  userId : code'.userId = code.userId
  used : code.usedAt.isSome → code'.usedAt.isSome

structure RecoveryCode.Follows (code' code : RecoveryCode) : Prop where
  id : code'.id = code.id
  used : code.usedAt.isSome → code'.usedAt.isSome

/-- What a step can do to the codes: none comes back, and one code is mailed
at a time. -/
structure CodesGrow (s s' : FactorState) : Prop where
  ids : s.ids ⊆ s'.ids
  mailed : ∃ new : Option Email2faCode, (∀ code ∈ new, code.id ∉ s.ids ∧ code.id ∈ s'.ids) ∧
    ∀ code' ∈ s'.emailCodes, code' ∈ new ∨ ∃ code ∈ s.emailCodes, code'.Follows code
  recovery : ∀ code' ∈ s'.recoveryCodes, (code'.id ∉ s.ids ∧ code'.id ∈ s'.ids) ∨
    ∃ code ∈ s.recoveryCodes, code'.Follows code

theorem CodesGrow.of_subset (hids : s.ids ⊆ s'.ids) (hmailed : s'.emailCodes ⊆ s.emailCodes)
    (hrecovery : s'.recoveryCodes ⊆ s.recoveryCodes) : CodesGrow s s' where
  ids := hids
  mailed := ⟨none, nofun, fun code' hmem => .inr ⟨code', hmailed hmem, rfl, rfl, fun h => h⟩⟩
  recovery code' hmem := .inr ⟨code', hrecovery hmem, rfl, fun h => h⟩

theorem CodesGrow.refl (s : FactorState) : CodesGrow s s :=
  .of_subset (fun _ h => h) (fun _ h => h) (fun _ h => h)

theorem CodesGrow.of_cons {new : Email2faCode} {rest : List Email2faCode}
    (hids : s'.ids = new.id :: s.ids) (hfresh : new.id ∉ s.ids)
    (hmailed : s'.emailCodes = new :: rest) (hrest : rest ⊆ s.emailCodes)
    (hrecovery : s'.recoveryCodes = s.recoveryCodes) : CodesGrow s s' where
  ids := hids ▸ List.subset_cons_self _ _
  mailed := by
    refine ⟨some new, ?_, fun code' hmem => ?_⟩
    · rintro _ ⟨⟩
      exact ⟨hfresh, hids ▸ List.mem_cons_self⟩
    · rw [hmailed] at hmem
      rcases List.mem_cons.mp hmem with rfl | hmem
      · exact .inl rfl
      · exact .inr ⟨code', hrest hmem, rfl, rfl, fun h => h⟩
  recovery code' hmem := .inr ⟨code', hrecovery ▸ hmem, rfl, fun h => h⟩

theorem createOtp_codes {challenge : Option TokenHash}
    (h : s.createOtp inp userId challenge = some s') : CodesGrow s s' := by
  simp only [FactorState.createOtp] at h
  split at h
  · split at h
    · cases h
    · rename_i hdraw
      obtain ⟨hfresh, rfl⟩ := FactorState.drawId_eq_some hdraw
      cases h
      exact .of_cons rfl hfresh rfl List.filter_sublist.subset rfl
  · cases h

theorem replaceRecovery_codes {fresh : List (Uuid × Code)}
    (h : s.replaceRecovery userId fresh = some s') : CodesGrow s s' := by
  simp only [FactorState.replaceRecovery] at h
  split at h <;> cases h
  rename_i hfresh
  refine ⟨List.subset_append_right _ _, ⟨none, (fun _ hcode => by cases hcode), fun code' hmem =>
    .inr ⟨code', hmem, rfl, rfl, fun h => h⟩⟩, fun code' hmem => ?_⟩
  rcases List.mem_append.mp hmem with hnew | hkept
  · obtain ⟨⟨⟨id, code⟩, n⟩, hzip, rfl⟩ := List.mem_map.mp hnew
    have hmem := List.mem_map_of_mem (f := Prod.fst) hzip
    rw [List.zipIdx_map_fst] at hmem
    have hid : id ∈ fresh.map Prod.fst := List.mem_map_of_mem (f := Prod.fst) hmem
    exact .inl ⟨hfresh.2.2.1 id hid, List.mem_append_left _ hid⟩
  · exact .inr ⟨code', List.mem_of_mem_filter hkept, rfl, fun h => h⟩

theorem consumeOtp_codes (s : FactorState) (userId : Uuid) :
    CodesGrow s (s.consumeOtp userId) where
  ids _ h := h
  mailed := by
    refine ⟨none, nofun, fun code' hmem => .inr ?_⟩
    obtain ⟨code, hcode, rfl⟩ := List.mem_map.mp hmem
    refine ⟨code, hcode, ?_⟩
    split
    · exact ⟨rfl, rfl, fun _ => rfl⟩
    · exact ⟨rfl, rfl, fun h => h⟩
  recovery code' hmem := .inr ⟨code', hmem, rfl, fun h => h⟩

theorem consumeRecovery_codes (s : FactorState) (id : Uuid) :
    CodesGrow s (s.consumeRecovery id) where
  ids _ h := h
  mailed := ⟨none, nofun, fun code' hmem => .inr ⟨code', hmem, rfl, rfl, fun h => h⟩⟩
  recovery := by
    intro code' hmem
    obtain ⟨code, hcode, rfl⟩ := List.mem_map.mp hmem
    refine .inr ⟨code, hcode, ?_⟩
    split
    · exact ⟨rfl, fun _ => rfl⟩
    · exact ⟨rfl, fun h => h⟩

theorem CheckStepped.codes {pc pc' : CheckPc} (h : CheckStepped inp s userId pc s' pc') :
    CodesGrow s s' := by
  cases h with
  | tookOtp => exact consumeOtp_codes s _
  | tookRecovery => exact consumeRecovery_codes s _
  | _ => exact .of_subset (fun _ h => h) (fun _ h => h) (fun _ h => h)

theorem ActivateStepped.codes_grow {pc : ActivatePc} (h : ActivateStepped i inp s pc s' own) :
    CodesGrow s s' := by
  cases h with
  | checked hcheck => exact hcheck.codes
  | marked hmark =>
    obtain ⟨_, rfl⟩ := mark_changes hmark
    exact .of_subset (fun _ h => h) (fun _ h => h) (fun _ h => h)
  | replaced hreplace => exact replaceRecovery_codes hreplace
  | _ => exact .of_subset (fun _ h => h) (fun _ h => h) (fun _ h => h)

theorem DisableStepped.recovery {pc : DisablePc} (h : DisableStepped i inp s pc s' own) :
    s'.recoveryCodes ⊆ s.recoveryCodes := by
  cases h with
  | locked hlock =>
    obtain ⟨-, -, rfl⟩ := FactorState.lockRow_eq_some hlock
    exact fun _ h => h
  | committed =>
    split
    · exact List.filter_sublist.subset
    · exact fun _ h => h
  | _ => exact fun _ h => h

theorem EnrolStepped.codes {pc : EnrolPc} (h : EnrolStepped i inp s pc s' own) :
    CodesGrow s s' := by
  cases h with
  | registered | linked =>
    exact .of_subset (List.subset_cons_self _ _) (fun _ h => h) (fun _ h => h)
  | _ => exact .of_subset (fun _ h => h) (fun _ h => h) (fun _ h => h)

theorem CompletionStepped.codes {flow : Flow}
    (h : CompletionStepped inp s code flow pc s' own) : CodesGrow s s' := by
  cases h with
  | checked hcheck => exact hcheck.codes
  | _ => exact .refl s

theorem ownStep_codes (h : ownStep i inp s p = some (s', own)) : CodesGrow s s' := by
  unfold ownStep at h
  split at h
  · cases h
  · obtain ⟨_, rfl⟩ := (setupStepped h).changes
    exact .of_subset (fun _ h => h) (fun _ h => h) (fun _ h => h)
  · exact (activateStepped h).codes_grow
  · have hrecovery := (disableStepped h).recovery
    obtain ⟨_, _, _, _, rfl⟩ := (disableStepped h).changes
    exact .of_subset (fun _ h => h) (fun _ h => h) hrecovery
  · obtain ⟨_, _, rfl⟩ := (resetMoved h).changes
    exact .of_subset (fun _ h => h) (fun _ h => h) (fun _ h => h)
  · exact (enrolStepped h).codes
  · obtain ⟨-, _, _, hcreate⟩ := mailStepped h
    exact createOtp_codes hcreate
  · exact (completionStepped h).codes
  · split at h <;> cases h
    exact createOtp_codes ‹_›
  · split at h <;> cases h
    exact replaceRecovery_codes ‹_›
  · cases h

theorem commitReset_recovery (s : FactorState) (i : Nat) (session : Pc) (d : Removal) :
    (s.commitReset i session d).recoveryCodes ⊆ s.recoveryCodes := by
  simp only [FactorState.commitReset]
  split
  · exact List.filter_sublist.subset
  · exact fun _ h => h

theorem FactorStepped.codes (h : FactorStepped i s p a s' p') : CodesGrow s s' := by
  cases h with
  | @account b account q _ _ =>
    cases b with
    | session =>
      simp only [settle, settleSession]
      split
      · exact .of_subset (fun _ h => h) (fun _ h => h) (commitReset_recovery _ _ _ _)
      · split <;> exact .of_subset (fun _ h => h) (fun _ h => h) (fun _ h => h)
      · exact .of_subset (fun _ h => h) (fun _ h => h) (fun _ h => h)
    | _ => exact .of_subset (fun _ h => h) (fun _ h => h) (fun _ h => h)
  | go h => exact ownStep_codes h
  | _ => exact .of_subset (fun _ h => h) (fun _ h => h) (fun _ h => h)

theorem CodesOk.grow (h : CodesOk s) (hgrow : CodesGrow s s') : CodesOk s' := by
  obtain ⟨new, hfresh, hmailed⟩ := hgrow.mailed
  refine ⟨fun code' hmem => ?_, fun code hcode code' hcode' heq => ?_, fun code' hmem => ?_⟩
  · rcases hmailed code' hmem with hnew | ⟨code, hcode, hfollows⟩
    · exact (hfresh code' hnew).2
    · exact hfollows.id ▸ hgrow.ids (h.mailed code hcode)
  · rcases hmailed code hcode with hnew | ⟨old, hold, hfollows⟩ <;>
      rcases hmailed code' hcode' with hnew' | ⟨old', hold', hfollows'⟩
    · rw [Option.mem_unique hnew hnew']
    · refine absurd (h.mailed old' hold') ?_
      rw [← hfollows'.id, ← heq]
      exact (hfresh code hnew).1
    · refine absurd (h.mailed old hold) ?_
      rw [← hfollows.id, heq]
      exact (hfresh code' hnew').1
    · rw [hfollows.userId, hfollows'.userId]
      exact h.owner old hold old' hold' (by rw [← hfollows.id, ← hfollows'.id, heq])
  · rcases hgrow.recovery code' hmem with ⟨-, hdrawn⟩ | ⟨code, hcode, hfollows⟩
    · exact hdrawn
    · exact hfollows.id ▸ hgrow.ids (h.recovery code hcode)

/-! ### What is used up -/

/-- The challenge was stored, and is gone. -/
def FactorState.challengeSpent (s : FactorState) (id : TokenHash) : Prop :=
  (s.account.openedWith id).isSome ∧ s.account.preAuth.entry id = none

/-- The code was mailed, and is not left unused. -/
def FactorState.mailedSpent (s : FactorState) (id : Uuid) : Prop :=
  id ∈ s.ids ∧ ∀ code ∈ s.emailCodes, code.id = id → code.usedAt.isSome

def FactorState.recoverySpent (s : FactorState) (id : Uuid) : Prop :=
  id ∈ s.ids ∧ ∀ code ∈ s.recoveryCodes, code.id = id → code.usedAt.isSome

theorem CodesGrow.mailedSpent (h : CodesGrow s s') (hspent : s.mailedSpent id) :
    s'.mailedSpent id := by
  obtain ⟨new, hfresh, hmailed⟩ := h.mailed
  refine ⟨h.ids hspent.1, fun code' hmem hid => ?_⟩
  rcases hmailed code' hmem with hnew | ⟨code, hcode, hfollows⟩
  · exact absurd (hid ▸ hspent.1) (hfresh code' hnew).1
  · exact hfollows.used (hspent.2 code hcode (hfollows.id ▸ hid))

theorem CodesGrow.recoverySpent (h : CodesGrow s s') (hspent : s.recoverySpent id) :
    s'.recoverySpent id := by
  refine ⟨h.ids hspent.1, fun code' hmem hid => ?_⟩
  rcases h.recovery code' hmem with ⟨hfresh, -⟩ | ⟨code, hcode, hfollows⟩
  · exact absurd (hid ▸ hspent.1) hfresh
  · exact hfollows.used (hspent.2 code hcode (hfollows.id ▸ hid))

/-- The mailed code `id` is one of the account's. -/
def FactorState.mailedTo (s : FactorState) (id userId : Uuid) : Prop :=
  id ∈ s.ids ∧ ∀ code ∈ s.emailCodes, code.id = id → code.userId = userId

theorem CodesGrow.mailedTo (h : CodesGrow s s') (hto : s.mailedTo id userId) :
    s'.mailedTo id userId := by
  obtain ⟨new, hfresh, hmailed⟩ := h.mailed
  refine ⟨h.ids hto.1, fun code' hmem hid => ?_⟩
  rcases hmailed code' hmem with hnew | ⟨code, hcode, hfollows⟩
  · exact absurd (hid ▸ hto.1) (hfresh code' hnew).1
  · rw [hfollows.userId]
    exact hto.2 code hcode (hfollows.id ▸ hid)

theorem CodesOk.mailedTo_of_matching (h : CodesOk s) {digest : OtpDigest}
    (hid : id ∈ s.matchingOtp digest) : s.mailedTo id digest.userId := by
  simp only [FactorState.matchingOtp, latestCodes, List.mem_map, List.mem_filter,
    Bool.and_eq_true, decide_eq_true_eq] at hid
  obtain ⟨code, ⟨⟨hcode, ⟨huser, -⟩, -⟩, -⟩, rfl⟩ := hid
  exact ⟨h.mailed code hcode, fun code' hcode' heq =>
    (h.owner code' hcode' code hcode heq).trans huser⟩

theorem CheckStepped.mailed {pc : CheckPc}
    (h : CheckStepped inp s userId pc s' (.passed evidence))
    (hkey : evidence.mailedCode = some id) (hto : pc = .takeOtp id → s.mailedTo id userId) :
    ¬ s.mailedSpent id ∧ s'.mailedSpent id := by
  cases h with
  | consumed | remembered | tookRecovery => cases hkey
  | tookOtp hactive =>
    cases hkey
    obtain ⟨hdrawn, howner⟩ := hto rfl
    simp only [List.any_eq_true, Bool.and_eq_true, decide_eq_true_eq] at hactive
    obtain ⟨code, hcode, hid, hunused⟩ := hactive
    refine ⟨fun hspent => ?_, hdrawn, fun code' hmem hid' => ?_⟩
    · have hused := hspent.2 code hcode hid
      simp only [Email2faCode.active, Bool.and_eq_true, Option.isNone_iff_eq_none] at hunused
      rw [hunused.1] at hused
      cases hused
    · obtain ⟨old, hold, rfl⟩ := List.mem_map.mp hmem
      split at hid'
      · rename_i hconsumed
        rw [if_pos hconsumed]
        rfl
      · rename_i hkept
        rw [if_neg hkept]
        simpa [howner old hold hid', Option.isSome_iff_ne_none] using hkept

theorem CheckStepped.recovery {pc : CheckPc} (hok : CodesOk s)
    (h : CheckStepped inp s userId pc s' (.passed evidence))
    (hkey : evidence.recoveryCode = some id) : ¬ s.recoverySpent id ∧ s'.recoverySpent id := by
  cases h with
  | consumed | remembered | tookOtp => cases hkey
  | tookRecovery husable =>
    cases hkey
    simp only [List.any_eq_true, Bool.and_eq_true, decide_eq_true_eq] at husable
    obtain ⟨code, hcode, rfl, hunused⟩ := husable
    refine ⟨fun hspent => ?_, hok.recovery code hcode, fun code' hmem hid' => ?_⟩
    · have hused := hspent.2 code hcode rfl
      simp only [RecoveryCode.usable, Bool.and_eq_true, Option.isNone_iff_eq_none] at hunused
      rw [hunused.1] at hused
      cases hused
    · obtain ⟨old, hold, rfl⟩ := List.mem_map.mp hmem
      split at hid'
      · rename_i hconsumed
        rw [if_pos hconsumed]
        rfl
      · rename_i hkept
        exact absurd hid' hkept

/-! ## Runs -/

structure SingleUse (c : FactorConf) : Prop where
  completions : CompletionsOk c
  codes : CodesOk c.shared
  /-- A completion takes a mailed code of its account. -/
  finds : ∀ i request challenge id,
    (c.procs i).stage = some (.checking request challenge (.check (.takeOtp id))) →
      c.shared.mailedTo id challenge.userId
  challenges : Once c.shared.challengeSpent FactorProc.taken
    (c.shared.completed.map (·.challengeId)) c.procs
  mailed : Once c.shared.mailedSpent (FactorProc.shown Evidence.mailedCode)
    (c.shared.completed.filterMap (·.evidence.mailedCode)) c.procs
  recovery : Once c.shared.recoverySpent (FactorProc.shown Evidence.recoveryCode)
    (c.shared.completed.filterMap (·.evidence.recoveryCode)) c.procs
  answered : ∀ r ∈ c.shared.completed, ∃ challenge, c.shared.stored r.challengeId = some challenge ∧
    challenge.userId = r.userId ∧ r.evidence.factor.answers challenge = true

theorem CompletionStepped.takeOtp
    (h : CompletionStepped inp s code (.complete (.verify request challenge)) pc s'
      (.complete code (.check (.takeOtp id)))) :
    s' = s ∧ ∃ digest, digest.userId = challenge.userId ∧ id ∈ s.matchingOtp digest := by
  cases h with
  | checked hcheck =>
    cases hcheck with
    | foundOtp hmem => exact ⟨rfl, _, rfl, hmem⟩

theorem SingleUse.step_finds (h : SingleUse c)
    (hprog : factorProgram i a c.shared (c.procs i) = some (s', p'))
    (hstage : p'.stage = some (.checking request challenge (.check (.takeOtp id)))) :
    s'.mailedTo id challenge.userId := by
  have hgrow := (factorStepped hprog).codes
  obtain ⟨-, record, hmoved, -⟩ := (factorStepped hprog).stage (h.completions.staged i)
  cases hmoved with
  | out h' | entered h' | loaded _ _ _ h' | verified _ h' | took _ _ _ h' | unindexed _ h' =>
    rw [h'] at hstage
    cases hstage
  | stays h' => exact hgrow.mailedTo (h.finds i request challenge id (h' ▸ hstage))
  | checked h₀ hcheck h' =>
    rw [h'] at hstage
    cases hstage
    obtain ⟨rfl, digest, huser, hid⟩ := hcheck.takeOtp
    exact huser ▸ h.codes.mailedTo_of_matching hid
  | yields h₀ h' =>
    rw [h', h₀] at hstage
    cases hstage

theorem SingleUse.step_challenges (h : SingleUse c)
    (hprog : factorProgram i a c.shared (c.procs i) = some (s', p')) :
    Once s'.challengeSpent FactorProc.taken (s'.completed.map (·.challengeId))
      (c.set i s' p').procs := by
  obtain ⟨-, record, hmoved, hcompleted⟩ := (factorStepped hprog).stage (h.completions.staged i)
  have hrely := (h.completions.kept hprog).rely
  have hused : s'.completed.map (·.challengeId) =
      (record.map (·.challengeId)).toList ++ c.shared.completed.map (·.challengeId) := by
    rw [hcompleted]
    cases record <;> rfl
  rw [hused]
  refine h.challenges.step (fun id hspent => ?_) (hmoved.taken fun request challenge evidence
    hstage hget hdel => ⟨fun hspent => ?_, ?_, ?_⟩)
  · refine ⟨hrely.isSome hspent.1, ?_⟩
    rcases hrely.entries id hspent.1 with heq | heq
    · exact heq.trans hspent.2
    · exact heq
  · obtain ⟨state, hstate⟩ := Option.isSome_iff_exists.mp hget
    obtain ⟨deadline, hentry, -⟩ := Redis.Store.get_eq_some.mp hstate
    rw [hspent.2] at hentry
    cases hentry
  · have hasked := (h.completions.knows i _ hstage).1
    exact hrely.isSome (h.completions.opened _ _ hasked.stored)
  · rw [hdel, Redis.Store.del_entry_self]

theorem filterMap_record (key : Evidence → Option Uuid) (record : Option CompletedSignIn)
    (completed : List CompletedSignIn) :
    (record.toList ++ completed).filterMap (fun r => key r.evidence) =
      (record.bind fun r => key r.evidence).toList ++
        completed.filterMap fun r => key r.evidence := by
  cases record with
  | none => rfl
  | some r =>
    show (r :: completed).filterMap _ = (key r.evidence).toList ++ _
    cases hkey : key r.evidence <;> simp [hkey]

section

variable (h : SingleUse c) (hprog : factorProgram i a c.shared (c.procs i) = some (s', p'))
include h hprog

theorem SingleUse.step_mailed :
    Once s'.mailedSpent (FactorProc.shown Evidence.mailedCode)
      (s'.completed.filterMap (·.evidence.mailedCode)) (c.set i s' p').procs := by
  obtain ⟨-, record, hmoved, hcompleted⟩ := (factorStepped hprog).stage (h.completions.staged i)
  rw [hcompleted, filterMap_record]
  refine h.mailed.step (fun id => (factorStepped hprog).codes.mailedSpent)
    (hmoved.shown fun inp request challenge pc evidence id hstage hcheck hkey => ?_)
  exact hcheck.mailed hkey fun hpc => h.finds i request challenge id (hpc ▸ hstage)

theorem SingleUse.step_recovery :
    Once s'.recoverySpent (FactorProc.shown Evidence.recoveryCode)
      (s'.completed.filterMap (·.evidence.recoveryCode)) (c.set i s' p').procs := by
  obtain ⟨-, record, hmoved, hcompleted⟩ := (factorStepped hprog).stage (h.completions.staged i)
  rw [hcompleted, filterMap_record]
  refine h.recovery.step (fun id => (factorStepped hprog).codes.recoverySpent)
    (hmoved.shown fun inp request challenge pc evidence id hstage hcheck hkey => ?_)
  exact hcheck.recovery h.codes hkey

theorem SingleUse.step_answered {r : CompletedSignIn} (hr : r ∈ s'.completed) :
    ∃ challenge, s'.stored r.challengeId = some challenge ∧ challenge.userId = r.userId ∧
      r.evidence.factor.answers challenge = true := by
  obtain ⟨-, record, hmoved, hcompleted⟩ := (factorStepped hprog).stage (h.completions.staged i)
  have hgrows := h.completions.grows hprog
  rw [hcompleted] at hr
  rcases List.mem_append.mp hr with hnew | hold
  · rw [Option.mem_toList] at hnew
    cases hnew
    cases hmoved with
    | yields h₀ h' hcommit huser =>
      obtain ⟨challenge, hstored, rfl, hanswers, hfor⟩ := h.completions.knows i _ h₀
      rw [hcommit] at hfor
      exact ⟨challenge, hgrows _ _ hstored, huser ▸ hfor.symm, hanswers⟩
  · obtain ⟨challenge, hstored, hrest⟩ := h.answered r hold
    exact ⟨challenge, hgrows _ _ hstored, hrest⟩

theorem SingleUse.step :
    SingleUse (c.set i s' p') where
  completions := h.completions.step hprog
  codes := h.codes.grow (factorStepped hprog).codes
  finds j request challenge id hstage := by
    rcases c.procs_cases i s' p' j with ⟨rfl, hset⟩ | ⟨hji, hset⟩ <;> rw [hset] at hstage
    · exact h.step_finds hprog hstage
    · exact (factorStepped hprog).codes.mailedTo (h.finds j request challenge id hstage)
  challenges := h.step_challenges hprog
  mailed := h.step_mailed hprog
  recovery := h.step_recovery hprog
  answered _ hr := h.step_answered hprog hr

end

theorem singleUse_initial (config : FactorConfig) (cfg : JwtConfig) (deviceAuth : DeviceAuthConfig)
    (clock : OffsetDateTime) (ahead : Int) :
    SingleUse (factorInitial config cfg deviceAuth clock ahead) where
  completions := completionsOk_initial config cfg deviceAuth clock ahead
  codes := ⟨nofun, nofun, nofun⟩
  finds _ _ _ _ h := nomatch h
  challenges := .empty fun _ => rfl
  mailed := .empty fun _ => rfl
  recovery := .empty fun _ => rfl
  answered := nofun

/-- **Nothing completes two sign-ins.** In every run no two of the sessions
that completions of challenges have yielded come from one challenge, from
one mailed code or from one recovery code; and each is of the account
recorded in its challenge, which admits the factor it was completed
with. -/
theorem completed_once {config : FactorConfig} {cfg : JwtConfig} {deviceAuth : DeviceAuthConfig}
    {clock : OffsetDateTime} {ahead : Int} {c : FactorConf}
    (hrun : Steps factorProgram Free (factorInitial config cfg deviceAuth clock ahead) c) :
    (c.shared.completed.map (·.challengeId)).Nodup ∧
      (c.shared.completed.filterMap (·.evidence.mailedCode)).Nodup ∧
      (c.shared.completed.filterMap (·.evidence.recoveryCode)).Nodup ∧
      ∀ r ∈ c.shared.completed, ∃ challenge, c.shared.stored r.challengeId = some challenge ∧
        challenge.userId = r.userId ∧ r.evidence.factor.answers challenge = true :=
  have h : SingleUse c :=
    hrun.invariant (fun _ _ a _ _ hc _ hprog => hc.step (a := a) hprog)
      (singleUse_initial config cfg deviceAuth clock ahead)
  ⟨h.challenges.nodup, h.mailed.nodup, h.recovery.nodup, h.answered⟩

/-- Requests 3 and 4 answer one challenge, with a recovery code and with a
TOTP code. Both pass their check; one completes the sign-in. -/
theorem one_of_two_completions :
    ∃ c, Steps factorProgram Free
        (factorInitial defaultFactors shortSessions ⟨300, 5⟩ (instant 100) 0) c ∧
      c.shared.completed = [⟨7, 1, 5, .recovery 100⟩] ∧
      (c.procs 4).account.flow.answer = some (.error .tokenInvalid) ∧
      (c.shared.completed.map (·.challengeId)).Nodup ∧
      (c.shared.completed.filterMap (·.evidence.recoveryCode)).Nodup := by
  obtain ⟨c, hexec, hcompleted, hrefused⟩ :
      ∃ c ∈ exec factorProgram Free (factorInitial defaultFactors shortSessions ⟨300, 5⟩
      (instant 100) 0) (totpSetup ++ [(0, .account (.tick (instant 200)))] ++ challengeSchedule 2
      .totp 7 ++ checkCodeSchedule 3 7 .recoveryCode 100 3 ++ checkCodeSchedule 4 7 .totp 7006 7 ++
      takeSchedule 3 ++ takeSchedule 4 ++ yieldSchedule 3),
      c.shared.completed = [⟨7, 1, 5, .recovery 100⟩] ∧
      (c.procs 4).account.flow.answer = some (.error .tokenInvalid) := by
    decide +kernel
  have hsteps := steps_of_exec hexec
  obtain ⟨hchallenges, -, hrecovery, -⟩ := completed_once hsteps
  exact ⟨c, hsteps, hcompleted, hrefused, hchallenges, hrecovery⟩

end AuthApi
