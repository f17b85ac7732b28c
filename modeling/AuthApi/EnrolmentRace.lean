import AuthApi.FactorLocks
import AuthApi.Lifetime
import AuthApi.SessionRefinement
import Mathlib.Tactic.MkIffOfInductiveProp

/-!
# Factors added around a reset

A passkey or a linked identity is inserted by a request whose session
was checked when it began. A reset deletes what was added in its window,
and revokes the sessions of the account, in one transaction that has
locked the row of the account. A request that was let in before can
insert after the `COMMIT`, on behalf of a session that is revoked by
then (`enrolled_after_reset`).

A request whose session is revoked when it comes to its `INSERT` is the
main way in; a factor whose transaction began before the window, and the
passkey an administrator keeps, are the others. Without these, no factor
that one of the revoked sessions added in the window is left
(`no_factor_left`).
-/

namespace AuthApi

open Conc Pg.Db

/-! ## Sessions a statement has returned -/

/-- The sessions a revocation has returned are those it has revoked, in a
transaction that is not committed yet. -/
def Returned (i : Nat) (s : Shared) (pc : Pc) : Prop :=
  ∀ session ∈ pc.returned, ∃ row, s.db.pending i session.id = some row ∧
    row.val.revokedAt.isSome

variable {pc pc' : Pc} {ch : Choice} {id : Uuid} {q : AccessFactor → Bool}
  {f : AccessFactor} {e : Nat × AccessFactor} {record : ResetRecord}

theorem Pc.returned_of_calm (h : pc.calm = true) : pc.returned = [] := by
  cases pc with
  | revoke pc =>
    cases pc with
    | familyStart => rfl
    | _ => cases h
  | _ => rfl

theorem Returned.of_nil {i : Nat} {s : Shared} (h : pc.returned = []) : Returned i s pc := by
  simp [Returned, h]

section Visits

variable {i : Nat} {s : Shared} {rev : Revocation} {forget : Forget} {startedAt : OffsetDateTime}
  {left left' : List Uuid} {returned : List Session} {k : Uuid} {db : SessionDb}

theorem Returned.skipped (hr : Returned i s (.revoke (.visit rev forget startedAt left returned)))
    (hvisit : s.db.visit i k (fun r => rev.selects r.val) (rev.apply startedAt) =
      some (.skipped, db)) :
    Returned i { s with db := db } (.revoke (.visit rev forget startedAt left' returned)) := by
  rcases visit_spec (fun r r' h => (rev.apply_updates startedAt r r' h).1) hvisit with
    ⟨_, _, hv, -⟩ | ⟨-, -, hc⟩ | ⟨_, hv, -⟩
  · cases hv
  · intro session hmem
    rw [hc.pending_none]
    exact hr session hmem
  · cases hv

theorem Returned.updated {r : SessionRow}
    (hr : Returned i s (.revoke (.visit rev forget startedAt left returned)))
    (hvisit : s.db.visit i k (fun r => rev.selects r.val) (rev.apply startedAt) =
      some (.updated r, db)) :
    Returned i { s with db := db }
      (.revoke (.visit rev forget startedAt left' (returned ++ [r.val]))) := by
  rcases visit_spec (fun r r' h => (rev.apply_updates startedAt r r' h).1) hvisit with
    ⟨_, _, hv, -, -, happly, hc⟩ | ⟨hv, -⟩ | ⟨_, hv, -⟩
  · cases hv
    have hrevoked : r.val.revokedAt.isSome := by
      rw [Revocation.apply_eq_some happly]
      exact rev.set_revoked startedAt _
    intro session hmem
    by_cases hne : session.id = k
    · refine ⟨r, ?_, hrevoked⟩
      rw [hne, hc.self]
      rfl
    · rw [hc.rest session.id hne]
      rcases List.mem_append.mp hmem with hmem | hmem
      · exact hr session hmem
      · obtain rfl := List.mem_singleton.mp hmem
        exact absurd (key_of_view hc.view_self) hne
  · cases hv
  · cases hv

end Visits

theorem Returned.own_step {i : Nat} {a : Act} {s s' : Shared} (hr : Returned i s pc)
    (h : sessionProgram i a s pc = some (s', pc')) : Returned i s' pc' := by
  cases stepped h with
  | tick | configure => exact hr
  | @start call _ _ =>
    refine .of_nil ?_
    cases call <;> rfl
  | fail => exact .of_nil rfl
  | go h =>
    cases pc with
    | revoke =>
      cases revokeStepped h with
      | skipped _ hvisit => exact hr.skipped hvisit
      | updated _ hvisit => exact hr.updated hvisit
      | _ => exact .of_nil rfl
    | _ => exact .of_nil (Pc.returned_of_calm (advance_calm (fun _ heq => by cases heq) h))

theorem Returned.stable {i j : Nat} {s s' : Shared} (hr : Returned j s pc) (hrely : Rely i s s')
    (hne : j ≠ i) : Returned j s' pc := by
  intro session hmem
  obtain ⟨row, hrow, hrevoked⟩ := hr session hmem
  refine ⟨row, ?_, hrevoked⟩
  rw [pending, hrely.db.others session.id j hne (holder_of_pending hrow)]
  exact hrow

variable {c : FactorConf} {i j : Nat} {a : FactorAct} {inp : FactorInput} {s s' : FactorState}
  {p p' : FactorProc} {own : FactorFlow} {d : Removal} {userId : Uuid}

structure SessionsOk (c : FactorConf) : Prop where
  coherent : Coherent (sessionsOf (accountOf c))
  returned : ∀ i, Returned i c.shared.account.sessions (c.procs i).account.session

theorem SessionsOk.step (h : SessionsOk c)
    (hprog : factorProgram i a c.shared (c.procs i) = some (s', p')) :
    SessionsOk (c.set i s' p') := by
  have hset : sessionsOf (accountOf (c.set i s' p')) =
      (sessionsOf (accountOf c)).set i s'.account.sessions p'.account.session := by
    rw [accountOf_set, sessionsOf_set]
  cases (factorStepped hprog).session_part with
  | same hs hp =>
    refine ⟨?_, fun j => ?_⟩
    · have hsame : (sessionsOf (accountOf c)).set i s'.account.sessions p'.account.session =
          sessionsOf (accountOf c) := by
        simp only [sessionsOf, accountOf, Conf.set, hs, hp, Conf.mk.injEq, true_and]
        exact Function.update_eq_self i _
      rw [hset, hsame]
      exact h.coherent
    · have hproc : ((c.set i s' p').procs j).account.session = (c.procs j).account.session := by
        by_cases hji : j = i
        · subst hji
          rw [Conf.set_procs_self]
          exact hp
        · rw [Conf.set_procs_of_ne _ _ _ hji]
      rw [hproc, Conf.set_shared, hs]
      exact h.returned j
  | stepped b hb =>
    refine ⟨?_, fun j => ?_⟩
    · rw [hset]
      exact h.coherent.set hb
    · refine Conf.set_cases j ?_ fun j hji => ?_
      · exact (h.returned i).own_step hb
      · exact (h.returned j).stable (h.coherent.kept hb).rely hji

theorem SessionsOk.revoked (h : SessionsOk c)
    (hprog : factorProgram i a c.shared (c.procs i) = some (s', p')) {row : SessionRow}
    (hrow : c.shared.account.sessions.db.committed id = some row)
    (hrevoked : row.val.revokedAt.isSome) :
    ∃ row', s'.account.sessions.db.committed id = some row' ∧ row'.val.revokedAt.isSome := by
  cases (factorStepped hprog).session_part with
  | same hs => exact ⟨row, hs ▸ hrow, hrevoked⟩
  | stepped b hb =>
    obtain ⟨row', hrow', hev⟩ := (h.coherent.kept hb).rely.evolves hrow
    exact ⟨row', hrow', hev.revoked hrevoked⟩

/-! ## The condition -/

/-- The request whose factor is about to be inserted. -/
def FactorFlow.inserting : FactorFlow → Option Enrolment
  | .enrol (.insert request _) => some request
  | _ => none

/-- The removal that is about to delete passkeys or identities, and the
start of its window. -/
def FactorFlow.clearingFactors : FactorFlow → Option (Removal × Int)
  | .reset (.passkeys d since) => some (d, since)
  | .reset (.identities d since) => some (d, since)
  | _ => none

def KeptFactor.isPasskey : KeptFactor → Bool
  | .passkey _ => true
  | .method _ => false

@[mk_iff]
structure EnrolsApart (c : FactorConf) (i : Nat) (a : FactorAct) : Prop where
  /-- A factor is inserted only while the session of its request is not
  revoked. -/
  inserts : ∀ request ∈ (a.executes (c.procs i).own).inserting,
    ∀ row ∈ c.shared.account.sessions.db.committed request.sessionId, row.val.revokedAt = none
  /-- A reset keeps no passkey. -/
  keeps : ∀ removal ∈ (a.executes (c.procs i).own).clearingFactors,
    ∀ kept ∈ removal.1.kept, kept.isPasskey = false
  /-- The transaction of a factor inserted in the window has begun in it. -/
  began : ∀ removal ∈ (a.executes (c.procs i).own).clearingFactors,
    ∀ f ∈ c.shared.factors, f.userId = removal.1.userId → removal.2 < f.insertedAt →
      removal.2 < f.createdAt

/-! ## What a step does to the factors -/

/-- What a step of process `i` does to the tables of passkeys and
identities and to the record of resets. -/
inductive FactorEffect (i : Nat) (p : FactorProc) (a : FactorAct) (s s' : FactorState) : Prop
  | shrinks (hfactors : s'.factors ⊆ s.factors) (hlinking : s'.linking ⊆ s.linking)
      (hresets : s'.resets = s.resets)
  | inserted {request : Enrolment} {f : AccessFactor}
      (hown : (a.executes p.own).inserting = some request)
      (hreferable : s.referable i request.userId = true) (huser : f.userId = request.userId)
      (hby : f.addedBy = request.sessionId) (hfactors : s'.factors ⊆ f :: s.factors)
      (hlinking : s'.linking ⊆ (i, f) :: s.linking) (hresets : s'.resets = s.resets)
  | linked (hfactors : s'.factors ⊆ s.linking.map Prod.snd ++ s.factors)
      (hlinking : s'.linking ⊆ s.linking) (hresets : s'.resets = s.resets)
  | committed {d : Removal} (hown : p.own = .reset (.commit d))
      (hfactors : s'.factors = s.factors.filter fun f => f.id ∉ d.factors)
      (hlinking : s'.linking = s.linking)
      (hresets : s'.resets =
        ⟨d.userId, d.since, p.account.session.returned.map Session.id⟩ :: s.resets)
      (hsessions : s'.account.sessions.db = s.account.sessions.db.commit i)

theorem FactorEffect.of_eq (hfactors : s'.factors = s.factors) (hlinking : s'.linking = s.linking)
    (hresets : s'.resets = s.resets) : FactorEffect i p a s s' :=
  .shrinks (by rw [hfactors]; exact List.Subset.refl _) (by rw [hlinking]; exact List.Subset.refl _)
    hresets

theorem EnrolStepped.factors {pc : EnrolPc} (hown : p.own = .enrol pc)
    (h : EnrolStepped i inp s pc s' own) :
    FactorEffect i p (.go inp) s s' := by
  cases h with
  | registered hfree =>
    exact .inserted (by rw [hown]; rfl) hfree rfl rfl (List.Subset.refl _)
      (List.subset_cons_self _ _) rfl
  | linked hfree =>
    exact .inserted (by rw [hown]; rfl) hfree rfl rfl (List.subset_cons_self _ _)
      (List.Subset.refl _) rfl
  | committed =>
    refine .linked ?_ (List.filter_sublist.subset) rfl
    exact List.append_subset.mpr ⟨fun f hf => List.mem_append_left _
      (List.map_subset _ (List.filter_sublist.subset) hf), List.subset_append_right _ _⟩
  | _ => exact .of_eq rfl rfl rfl

theorem rollback_linking (s : FactorState) (i : Nat) : (s.rollback i).linking ⊆ s.linking :=
  List.filter_sublist.subset

theorem DisableStepped.linking {pc : DisablePc} (h : DisableStepped i inp s pc s' own) :
    s'.linking ⊆ s.linking := by
  cases h with
  | locked hlock =>
    obtain ⟨-, -, rfl⟩ := FactorState.lockRow_eq_some hlock
    exact List.Subset.refl _
  | missed | turnedDown | guarded => exact rollback_linking s i
  | _ => exact List.Subset.refl _

theorem ownStep_factors (h : ownStep i inp s p = some (s', own)) :
    FactorEffect i p (.go inp) s s' := by
  unfold ownStep at h
  split at h <;> rename_i hown
  · cases h
  · obtain ⟨_, rfl⟩ := (setupStepped h).changes
    exact .of_eq rfl rfl rfl
  · obtain ⟨-, hfactors, hlinking⟩ := (activateStepped h).tables
    exact .of_eq hfactors hlinking (activateStepped h).frame.resets
  · have hlinking := (disableStepped h).linking
    obtain ⟨_, _, _, _, rfl⟩ := (disableStepped h).changes
    exact .shrinks (List.Subset.refl _) hlinking rfl
  · obtain ⟨_, _, rfl⟩ := (resetMoved h).changes
    exact .of_eq rfl rfl rfl
  · exact (enrolStepped h).factors hown
  · have hframe := mailStep_frame h
    exact .of_eq hframe.factors hframe.linking hframe.resets
  · have hframe := (completionStepped h).frame
    exact .of_eq hframe.factors hframe.linking hframe.resets
  · split at h <;> cases h
    have hframe := createOtp_frame ‹_›
    exact .of_eq hframe.factors hframe.linking hframe.resets
  · split at h <;> cases h
    have hframe := replaceRecovery_frame ‹_›
    exact .of_eq hframe.factors hframe.linking hframe.resets
  · cases h

theorem committed_sessions {account : AccountState} {q : Request}
    (hown : p.own = .reset (.commit d)) (hadmits : admits s p (.session ch) = true)
    (h : accountProgram i (.session ch) s.account p.account = some (account, q)) :
    account.sessions.db = s.account.sessions.db.commit i := by
  simp only [admits, hown, ResetPc.runsSession] at hadmits
  split at hadmits
  · rename_i rev forget startedAt returned hsession
    have hgo := sessionStep_part h
    rw [hsession] at hgo
    simp only [sessionProgram, advance, revokeStep] at hgo
    split at hgo <;>
      (simp only [Option.some.injEq, Prod.mk.injEq] at hgo
       rw [← hgo.1])
  · cases hadmits

theorem FactorStepped.factors (h : FactorStepped i s p a s' p') : FactorEffect i p a s s' := by
  cases h with
  | @account a account q hadmits h =>
    cases a with
    | session ch =>
      simp only [settle, settleSession]
      split
      · rename_i d hown
        exact .committed hown rfl rfl rfl (committed_sessions hown hadmits h)
      · split
        · exact .shrinks (List.Subset.refl _) (rollback_linking s i) rfl
        · exact .of_eq rfl rfl rfl
      · exact .of_eq rfl rfl rfl
    | _ => exact .of_eq rfl rfl rfl
  | go h => exact ownStep_factors h
  | failed _ _ | failedAlone _ _ => exact .shrinks (List.Subset.refl _) (rollback_linking s i) rfl
  | _ => exact .of_eq rfl rfl rfl

/-! ## What a reset has deleted -/

/-- The factors of this sort that were inserted in the window are among
those the reset deletes. -/
def Gone (s : FactorState) (d : Removal) (q : AccessFactor → Bool) : Prop :=
  ∀ since, d.since = some since → ∀ f ∈ s.factors, f.userId = d.userId → q f = true →
    since < f.insertedAt → f.id ∈ d.factors

def FactorFlow.ClearsFactors (s : FactorState) : FactorFlow → Prop
  | .reset (.methods d since) => d.since = some since
  | .reset (.delete d since _) => d.since = some since
  | .reset (.passkeys d since) => d.since = some since
  | .reset (.identities d since) => d.since = some since ∧ Gone s d (·.kind.isPasskey)
  | .reset (.promote d) => Gone s d fun _ => true
  | .reset (.promoteRow d _) => Gone s d fun _ => true
  | .reset (.codes d) => Gone s d fun _ => true
  | .reset (.revoke d) => Gone s d fun _ => true
  | .reset (.drop d _) => Gone s d fun _ => true
  | .reset (.commit d) => Gone s d fun _ => true
  | _ => True

theorem Gone.mono (h : Gone s d q)
    (hsub : d.since.isSome → ∀ f ∈ s'.factors, f.userId = d.userId → f ∈ s.factors) :
    Gone s' d q := by
  intro since hsince f hf huser
  exact h since hsince f (hsub (by simp [hsince]) f hf huser) huser

theorem FactorFlow.ClearsFactors.mono (h : own.ClearsFactors s)
    (hsub : ∀ userId, own.removing = some userId → own.exclusive = true →
      ∀ f ∈ s'.factors, f.userId = userId → f ∈ s.factors) : own.ClearsFactors s' := by
  cases own with
  | reset pc =>
    cases pc with
    | identities d => exact ⟨h.1, h.2.mono fun _ => hsub d.userId rfl rfl⟩
    | promote d | promoteRow d | codes d => exact Gone.mono h fun _ => hsub d.userId rfl rfl
    | revoke d | drop d | commit d => exact Gone.mono h fun hsome => hsub d.userId rfl hsome
    | _ => exact h
  | _ => trivial

theorem mem_taken (hf : f ∈ s.factors) (huser : f.userId = userId) (hq : q f = true) :
    f.id ∈ s.taken userId q := by
  refine List.mem_map.mpr ⟨f, List.mem_filter.mpr ⟨hf, ?_⟩, rfl⟩
  simp [huser, hq]

theorem ResetMoved.clearsFactors {pc : ResetPc} (h : ResetMoved i inp s pc s' own)
    (hc : (FactorFlow.reset pc).ClearsFactors s)
    (hkeeps : ∀ removal, (FactorFlow.reset pc).clearingFactors = some removal →
      ∀ kept ∈ removal.1.kept, kept.isPasskey = false)
    (hbegan : ∀ removal, (FactorFlow.reset pc).clearingFactors = some removal → ∀ f ∈ s.factors,
      f.userId = removal.1.userId → removal.2 < f.insertedAt → removal.2 < f.createdAt) :
    own.ClearsFactors s' := by
  obtain ⟨_, _, hs⟩ := h.changes
  have hfactors : s'.factors = s.factors := by rw [hs]
  refine FactorFlow.ClearsFactors.mono (s := s) ?_ (by
    intro _ _ _ f hf _
    exact hfactors ▸ hf)
  cases h with
  | spared => nofun
  | touched | locked => trivial
  | selected => rfl
  | @passkeys d =>
    refine ⟨hc, fun since' hsince f hf huser hpasskey hlate => ?_⟩
    cases hsince.symm.trans hc
    refine List.mem_append_left _ (mem_taken hf huser ?_)
    have hkept : d.kept ≠ some (.passkey f.id) := by
      intro hkept
      cases hkeeps _ rfl _ hkept
    simp [hpasskey, hbegan _ rfl f hf huser hlate, hkept]
  | @identities d since =>
    intro since' hsince f hf huser _ hlate
    cases hsince.symm.trans hc.1
    cases hpasskey : f.kind.isPasskey with
    | true => exact List.mem_append_right _ (hc.2 since hsince f hf huser hpasskey hlate)
    | false =>
      refine List.mem_append_left _ (mem_taken hf huser ?_)
      simp [hpasskey, hbegan _ rfl f hf huser hlate]
  | drops =>
    exact fun since hsince f hf huser hq hlate =>
      List.mem_append_right _ (hc since hsince f hf huser hq hlate)
  | _ => exact hc

/-! ## Identities not committed yet -/

/-- An identity that is inserted and not committed is one of the request
that is about to commit it. -/
def Linking (c : FactorConf) : Prop :=
  ∀ e ∈ c.shared.linking, ∃ request, (c.procs e.1).own = .enrol (.commit request)

theorem EnrolStepped.linking {pc : EnrolPc} (h : EnrolStepped i inp s pc s' own)
    (he : e ∈ s'.linking) (hi : e.1 = i) (hold : e ∈ s.linking → ∃ request, pc = .commit request) :
    ∃ request, own = .enrol (.commit request) := by
  cases h with
  | refused hpc =>
    obtain ⟨_, rfl⟩ := hold he
    exact absurd rfl (hpc _)
  | linked => exact ⟨_, rfl⟩
  | committed => simp [hi] at he
  | authenticated | started | registered =>
    obtain ⟨_, hpc⟩ := hold he
    cases hpc

theorem FactorStepped.linking_own (h : FactorStepped i s p a s' p') (he : e ∈ s'.linking)
    (hi : e.1 = i) (hold : e ∈ s.linking → ∃ request, p.own = .enrol (.commit request)) :
    ∃ request, p'.own = .enrol (.commit request) := by
  cases h with
  | @account a account q _ _ =>
    cases a with
    | session ch =>
      simp only [settle, settleSession] at he ⊢
      split at he <;> rename_i hown
      · obtain ⟨_, hpc⟩ := hold he
        rw [hown] at hpc
        cases hpc
      · split at he
        · obtain ⟨_, hpc⟩ := hold (rollback_linking _ i he)
          rw [hown] at hpc
          cases hpc
        · obtain ⟨_, hpc⟩ := hold he
          rw [hown] at hpc
          cases hpc
      · obtain ⟨request, hpc⟩ := hold he
        exact ⟨request, by simp [hpc]⟩
    | _ => exact hold he
  | entered hidle _ _ | called hidle _ _ _ =>
    obtain ⟨_, hpc⟩ := hold he
    rw [hidle] at hpc
    cases hpc
  | @go inp s' own hgo =>
    by_cases henrol : ∃ pc, p.own = .enrol pc
    · obtain ⟨pc, hown⟩ := henrol
      simp only [ownStep, hown] at hgo
      refine (enrolStepped hgo).linking he hi fun hmem => ?_
      obtain ⟨request, hpc⟩ := hold hmem
      rw [hown] at hpc
      cases hpc
      exact ⟨request, rfl⟩
    · have hmem : e ∈ s.linking := by
        cases ownStep_factors hgo with
        | shrinks _ hlinking | linked _ hlinking => exact hlinking he
        | committed _ _ hlinking => exact hlinking ▸ he
        | inserted hown _ _ _ _ _ _ =>
          change p.own.inserting = _ at hown
          unfold FactorFlow.inserting at hown
          split at hown
          · exact absurd ⟨_, ‹_›⟩ henrol
          · cases hown
      obtain ⟨_, hpc⟩ := hold hmem
      exact absurd ⟨_, hpc⟩ henrol
  | failed | failedAlone => simp [FactorState.rollback, hi] at he
  | _ => exact hold he

theorem Linking.step (h : Linking c)
    (hprog : factorProgram i a c.shared (c.procs i) = some (s', p')) : Linking (c.set i s' p') := by
  have hstep := factorStepped hprog
  intro e he
  by_cases hi : e.1 = i
  · rw [hi, Conf.set_procs_self]
    exact hstep.linking_own he hi fun hold => hi ▸ h e hold
  · rw [Conf.set_procs_of_ne _ _ _ hi]
    refine h e ?_
    cases hstep.factors with
    | shrinks _ hlinking | linked _ hlinking => exact hlinking he
    | inserted _ _ _ _ _ hlinking =>
      rcases List.mem_cons.mp (hlinking he) with rfl | hmem
      · exact absurd rfl hi
      · exact hmem
    | committed _ _ hlinking => exact hlinking ▸ he

/-! ## Every run -/

structure EnrolsOk (c : FactorConf) : Prop where
  writers : WritersOk c
  sessions : SessionsOk c
  linking : Linking c
  apart : ∀ i userId, (c.procs i).own.removing = some userId → (c.procs i).own.exclusive = true →
    ∀ e ∈ c.shared.linking, e.2.userId ≠ userId
  procs : ∀ i, (c.procs i).own.ClearsFactors c.shared
  revoked : ∀ record ∈ c.shared.resets, ∀ id ∈ record.revoked,
    ∃ row, c.shared.account.sessions.db.committed id = some row ∧ row.val.revokedAt.isSome
  cleared : ∀ record ∈ c.shared.resets, ∀ since, record.since = some since →
    ∀ f, f ∈ c.shared.factors ∨ (∃ j, (j, f) ∈ c.shared.linking) → f.userId = record.userId →
      f.addedBy ∈ record.revoked → ¬ since < f.insertedAt

/-- The row that a removal has locked `FOR UPDATE` no other request can
refer to. -/
theorem EnrolsOk.not_referable (h : EnrolsOk c) (hremoving : (c.procs j).own.removing = some userId)
    (hexclusive : (c.procs j).own.exclusive = true) (hne : j ≠ i) :
    c.shared.referable i userId = false := by
  obtain ⟨l, hl, hholder, hforUpdate⟩ := (h.writers.procs j).held userId hremoving
  simp [FactorState.referable, hl, hholder, hforUpdate hexclusive, hne]

theorem FactorFlow.clearsFactors_of_kind (h : own.kind ≠ some .reset) : own.ClearsFactors s := by
  cases own with
  | reset => exact absurd rfl h
  | _ => trivial

/-- A removal that has locked the row `FOR UPDATE` had done so before, or
does it with this step. -/
theorem DisableStepped.exclusive {pc : DisablePc} (h : DisableStepped i inp s pc s' own)
    (hremoving : own.removing = some userId) :
    (FactorFlow.disable pc).removing = some userId ∨ s.lockRow i userId = some s' := by
  cases h with
  | locked hlock =>
    cases hremoving
    exact .inr hlock
  | deleted => exact .inl (by split at hremoving <;> exact hremoving)
  | _ => first | exact .inl hremoving | cases hremoving

theorem ResetMoved.exclusive {pc : ResetPc} (h : ResetMoved i inp s pc s' own)
    (hremoving : own.removing = some userId) (hexclusive : own.exclusive = true) :
    ((FactorFlow.reset pc).removing = some userId ∧ (FactorFlow.reset pc).exclusive = true) ∨
      s.lockRow i userId = some s' := by
  cases h with
  | locked hlock =>
    cases hremoving
    exact .inr hlock
  | spared | touched => cases hexclusive
  | _ => first | exact .inl ⟨hremoving, hexclusive⟩ | exact .inl ⟨hremoving, rfl⟩

section

variable (h : EnrolsOk c)
include h

section

variable (hstep : FactorStepped i c.shared (c.procs i) a s' p')
include hstep

theorem EnrolsOk.exclusive_apart (hremoving : p'.own.removing = some userId)
    (hexclusive : p'.own.exclusive = true) : ∀ e ∈ s'.linking, e.2.userId ≠ userId := by
  have hlocked : c.shared.lockRow i userId = some s' → (∀ pc, (c.procs i).own ≠ .enrol pc) →
      ∀ e ∈ s'.linking, e.2.userId ≠ userId := by
    rintro hlock hown ⟨j, f⟩ he
    obtain ⟨-, hfree, rfl⟩ := FactorState.lockRow_eq_some hlock
    refine hfree j f he ?_
    rintro rfl
    obtain ⟨request, hpc⟩ := h.linking _ he
    exact hown _ hpc
  generalize hown : p'.own = own at hremoving hexclusive
  have hmoved := hown ▸ hstep.moved
  cases hmoved with
  | stays _ hframe => exact hframe.linking ▸ h.apart i userId hremoving hexclusive
  | enters call => cases call <;> cases hremoving
  | ends | commits | givesUp => cases hremoving
  | goes _ hgo =>
    have hnext := ownStep_next hgo
    have hsub : s'.linking ⊆ c.shared.linking → (c.procs i).own.removing = some userId →
        (c.procs i).own.exclusive = true → ∀ e ∈ s'.linking, e.2.userId ≠ userId :=
      fun hsub hr he e hmem => h.apart i userId hr he e (hsub hmem)
    by_cases hdisable : (c.procs i).own.kind = some .disable
    · obtain ⟨pc, hpc⟩ := FactorFlow.eq_disable hdisable
      rw [hpc] at hsub
      simp only [ownStep, hpc] at hgo
      rcases (disableStepped hgo).exclusive hremoving with hbefore | hlock
      · exact hsub ((disableStepped hgo).linking) hbefore rfl
      · exact hlocked hlock (by simp [hpc])
    by_cases hreset : (c.procs i).own.kind = some .reset
    · obtain ⟨pc, hpc⟩ := FactorFlow.eq_reset hreset
      rw [hpc] at hsub
      simp only [ownStep, hpc] at hgo
      rcases (resetMoved hgo).exclusive hremoving hexclusive with ⟨hbefore, hbefore'⟩ | hlock
      · obtain ⟨_, _, rfl⟩ := (resetMoved hgo).changes
        exact hsub (List.Subset.refl _) hbefore hbefore'
      · exact hlocked hlock (by simp [hpc])
    · rw [(FactorFlow.removing_none (hnext.kind_ne hdisable) (hnext.kind_ne hreset)).1]
        at hremoving
      cases hremoving

/-- What another removal relies on: no factor of its account is added. -/
theorem EnrolsOk.factors_apart (hremoving : (c.procs j).own.removing = some userId)
    (hexclusive : (c.procs j).own.exclusive = true) (hne : j ≠ i) (hf : f ∈ s'.factors)
    (huser : f.userId = userId) : f ∈ c.shared.factors := by
  cases hstep.factors with
  | shrinks hfactors => exact hfactors hf
  | @inserted request f' _ hreferable huser' _ hfactors _ _ =>
    rcases List.mem_cons.mp (hfactors hf) with rfl | hmem
    · rw [← huser', huser, h.not_referable hremoving hexclusive hne] at hreferable
      cases hreferable
    · exact hmem
  | linked hfactors =>
    rcases List.mem_append.mp (hfactors hf) with hmem | hmem
    · obtain ⟨e, he, rfl⟩ := List.mem_map.mp hmem
      exact absurd huser (h.apart j userId hremoving hexclusive e he)
    · exact hmem
  | committed _ hfactors =>
    rw [hfactors] at hf
    exact List.mem_of_mem_filter hf

theorem EnrolsOk.step_procs (hok : EnrolsApart c i a) (j : Nat) :
    ((c.set i s' p').procs j).own.ClearsFactors s' := by
  refine Conf.set_cases j ?_ fun j hji => ?_
  · generalize hown : p'.own = own
    have hmoved := hown ▸ hstep.moved
    cases hmoved with
    | stays _ hframe =>
      exact (h.procs i).mono fun _ _ _ f hf _ => hframe.factors ▸ hf
    | enters call => cases call <;> trivial
    | ends | commits | givesUp => trivial
    | goes ha hgo =>
      subst ha
      by_cases hreset : (c.procs i).own.kind = some .reset
      · obtain ⟨pc, hpc⟩ := FactorFlow.eq_reset hreset
        have hclears := h.procs i
        have hkeeps := hok.keeps
        have hbegan := hok.began
        simp only [FactorAct.executes] at hkeeps hbegan
        rw [hpc] at hclears hkeeps hbegan
        simp only [ownStep, hpc] at hgo
        exact (resetMoved hgo).clearsFactors hclears hkeeps hbegan
      · exact FactorFlow.clearsFactors_of_kind ((ownStep_next hgo).kind_ne hreset)
  · exact (h.procs j).mono fun _ hr he f hf huser => h.factors_apart hstep hr he hji hf huser

theorem EnrolsOk.step_apart (j : Nat)
    (hremoving : ((c.set i s' p').procs j).own.removing = some userId)
    (hexclusive : ((c.set i s' p').procs j).own.exclusive = true) :
    ∀ e ∈ s'.linking, e.2.userId ≠ userId := by
  rcases c.procs_cases i s' p' j with ⟨rfl, hset⟩ | ⟨hji, hset⟩ <;>
    rw [hset] at hremoving hexclusive
  · exact h.exclusive_apart hstep hremoving hexclusive
  · intro e he
    have hold := h.apart j userId hremoving hexclusive e
    cases hstep.factors with
    | shrinks _ hlinking | linked _ hlinking => exact hold (hlinking he)
    | @inserted request f _ hreferable huser _ _ hlinking _ =>
      rcases List.mem_cons.mp (hlinking he) with rfl | hmem
      · intro heq
        rw [← huser, heq, h.not_referable hremoving hexclusive hji] at hreferable
        cases hreferable
      · exact hold hmem
    | committed _ _ hlinking => exact hold (hlinking ▸ he)

omit hstep in
theorem EnrolsOk.step_revoked (hprog : factorProgram i a c.shared (c.procs i) = some (s', p'))
    (hrecord : record ∈ s'.resets) (hid : id ∈ record.revoked) :
    ∃ row, s'.account.sessions.db.committed id = some row ∧ row.val.revokedAt.isSome := by
  have hold : record ∈ c.shared.resets → ∃ row, s'.account.sessions.db.committed id = some row ∧
      row.val.revokedAt.isSome := by
    intro hmem
    obtain ⟨row, hrow, hrevoked⟩ := h.revoked record hmem id hid
    exact h.sessions.revoked hprog hrow hrevoked
  cases (factorStepped hprog).factors with
  | shrinks _ _ hresets | inserted _ _ _ _ _ _ hresets | linked _ _ hresets =>
    exact hold (hresets ▸ hrecord)
  | committed _ _ _ hresets hsessions =>
    rw [hresets] at hrecord
    rcases List.mem_cons.mp hrecord with rfl | hmem
    · obtain ⟨session, hsession, rfl⟩ := List.mem_map.mp hid
      obtain ⟨row, hrow, hrevoked⟩ := h.sessions.returned i session hsession
      refine ⟨row, ?_, hrevoked⟩
      rw [hsessions, commit_view, view_eq, hrow]
      rfl
    · exact hold hmem

theorem EnrolsOk.step_cleared (hok : EnrolsApart c i a) (hrecord : record ∈ s'.resets) {since : Int}
    (hsince : record.since = some since) (hf : f ∈ s'.factors ∨ ∃ j, (j, f) ∈ s'.linking)
    (huser : f.userId = record.userId) (hby : f.addedBy ∈ record.revoked) :
    ¬ since < f.insertedAt := by
  have hold := fun hmem hf => h.cleared record hmem since hsince f hf huser hby
  cases hstep.factors with
  | shrinks hfactors hlinking hresets =>
    refine hold (hresets ▸ hrecord) ?_
    rcases hf with hf | ⟨j, hf⟩
    · exact .inl (hfactors hf)
    · exact .inr ⟨j, hlinking hf⟩
  | @inserted request f' hown _ _ hby' hfactors hlinking hresets =>
    rw [hresets] at hrecord
    have hnew : f ≠ f' := by
      rintro rfl
      obtain ⟨row, hrow, hrevoked⟩ := h.revoked record hrecord _ hby
      rw [hby'] at hrow
      rw [hok.inserts request hown row hrow] at hrevoked
      cases hrevoked
    refine hold hrecord ?_
    rcases hf with hf | ⟨j, hf⟩
    · exact .inl ((List.mem_cons.mp (hfactors hf)).resolve_left hnew)
    · refine .inr ⟨j, (List.mem_cons.mp (hlinking hf)).resolve_left fun heq => ?_⟩
      cases heq
      exact hnew rfl
  | linked hfactors hlinking hresets =>
    refine hold (hresets ▸ hrecord) ?_
    rcases hf with hf | ⟨j, hf⟩
    · rcases List.mem_append.mp (hfactors hf) with hmem | hmem
      · obtain ⟨⟨j, f⟩, he, rfl⟩ := List.mem_map.mp hmem
        exact .inr ⟨j, he⟩
      · exact .inl hmem
    · exact .inr ⟨j, hlinking hf⟩
  | @committed d hown hfactors hlinking hresets _ =>
    rw [hresets] at hrecord
    rw [hfactors, hlinking] at hf
    rcases List.mem_cons.mp hrecord with rfl | hmem
    · intro hlate
      rcases hf with hf | ⟨j, hf⟩
      · have hgone := h.procs i
        rw [hown] at hgone
        obtain ⟨hf, hkept⟩ := List.mem_filter.mp hf
        have hmem := hgone since hsince f hf huser rfl hlate
        simp [hmem] at hkept
      · refine h.apart i d.userId (by rw [hown]; rfl) ?_ (j, f) hf huser
        rw [hown]
        exact Option.isSome_iff_exists.mpr ⟨since, hsince⟩
    · refine hold hmem ?_
      rcases hf with hf | hf
      · exact .inl (List.mem_of_mem_filter hf)
      · exact .inr hf

end

theorem EnrolsOk.step (hok : EnrolsApart c i a)
    (hprog : factorProgram i a c.shared (c.procs i) = some (s', p')) : EnrolsOk (c.set i s' p') :=
  have hstep := factorStepped hprog
  { writers := h.writers.step hprog
    sessions := h.sessions.step hprog
    linking := h.linking.step hprog
    apart := fun j _ hr he => h.step_apart hstep j hr he
    procs := h.step_procs hstep hok
    revoked := fun _ hrecord _ hid => h.step_revoked hprog hrecord hid
    cleared := fun _ hrecord _ hsince _ hf huser hby =>
      h.step_cleared hstep hok hrecord hsince hf huser hby }

end

theorem enrolsOk_initial (config : FactorConfig) (cfg : JwtConfig) (deviceAuth : DeviceAuthConfig)
    (clock : OffsetDateTime) (ahead : Int) :
    EnrolsOk (factorInitial config cfg deviceAuth clock ahead) where
  writers := writersOk_initial config cfg deviceAuth clock ahead
  sessions := ⟨coherent_initial cfg clock, fun _ => .of_nil rfl⟩
  linking := nofun
  apart := nofun
  procs _ := trivial
  revoked := nofun
  cleared := nofun

/-- **Factors of revoked sessions.** In a run that meets the condition,
once a reset with a window has committed, no passkey and no linked
identity of the account is left that a request of a session the reset has
revoked has inserted after the start of the window. -/
theorem no_factor_left {config : FactorConfig} {cfg : JwtConfig} {deviceAuth : DeviceAuthConfig}
    {clock : OffsetDateTime} {ahead : Int} {c : FactorConf}
    (hrun : Steps factorProgram EnrolsApart (factorInitial config cfg deviceAuth clock ahead) c)
    {record : ResetRecord} (hrecord : record ∈ c.shared.resets) {since : Int}
    (hsince : record.since = some since) {f : AccessFactor} (hf : f ∈ c.shared.factors)
    (huser : f.userId = record.userId) (hby : f.addedBy ∈ record.revoked) :
    ¬ since < f.insertedAt :=
  have h : EnrolsOk c :=
    hrun.invariant (fun _ _ a _ _ hc hok hprog => hc.step (a := a) hok hprog)
      (enrolsOk_initial config cfg deviceAuth clock ahead)
  h.cleared record hrecord since hsince f (.inl hf) huser hby

/-! ## A request that was let in before the reset -/

/-- Request 0 signs account 1 in, to the session 2. -/
def sessionSchedule : List (Nat × FactorAct) :=
  (0, .account (.start (.session (.issueTokens webSignIn)))) ::
    (issueSchedule 0 1 1 2).map fun (i, a) => (i, .account a)

/-- Request 1, of that session, is let in and begins its transaction. -/
def enrolSchedule (kind : FactorKind) : List (Nat × FactorAct) :=
  (1, .start (.enrol ⟨1, 2, kind⟩ 5)) :: List.replicate 5 (1, .account (.session {})) ++
    [(1, .go {}), (1, .go {})]

/-- Request 2 resets the password of account 1, and revokes the session. -/
def resetSessionSchedule (tokenCreatedAt : Int) : List (Nat × FactorAct) :=
  [(2, .start (.resetPassword 1 tokenCreatedAt)), (2, .account (.session {})),
    (2, .account (.session {}))] ++ List.replicate 9 (2, .go {}) ++
    [(2, .account (.session {})), (2, .account (.session { row := 2 })), (2, .go {}),
      (2, .account (.session {}))]

instance : Decidable (EnrolsApart c i a) := decidable_of_iff _ (enrolsApart_iff c i a).symm

def FactorFlow.succeeded : FactorFlow → Bool
  | .done none => true
  | _ => false

theorem FactorFlow.eq_of_succeeded {own : FactorFlow} (h : own.succeeded = true) :
    own = .done none := by
  cases own with
  | done error =>
    cases error with
    | none => rfl
    | some => cases h
  | _ => cases h

def FactorFlow.wasReset : FactorFlow → Bool
  | .reset .after => true
  | _ => false

theorem FactorFlow.eq_of_wasReset {own : FactorFlow} (h : own.wasReset = true) :
    own = .reset .after := by
  cases own with
  | reset pc =>
    cases pc with
    | after => rfl
    | _ => cases h
  | _ => cases h

/-- A passkey is inserted after the reset has committed, by a request of
the session that the reset has revoked. -/
theorem enrolled_after_reset :
    ∃ c, Steps factorProgram Free
        (factorInitial defaultFactors shortSessions ⟨300, 5⟩ (instant 1000000) 0) c ∧
      (c.procs 1).own = .done none ∧ (c.procs 2).own = .reset .after ∧
      ∃ record ∈ c.shared.resets, ∃ since, record.since = some since ∧
        ∃ f ∈ c.shared.factors, f.userId = record.userId ∧ f.addedBy ∈ record.revoked ∧
          since < f.insertedAt := by
  obtain ⟨c, hexec, hfirst, hsecond, hresets, hfactors⟩ :
      ∃ c ∈ exec factorProgram Free (factorInitial defaultFactors shortSessions ⟨300, 5⟩
      (instant 1000000) 0) (sessionSchedule ++ enrolSchedule (.passkey 9) ++ resetSessionSchedule
      (1000000 * nanosPerSec) ++ [(1, .go { uuid := 300 })]), (c.procs 1).own.succeeded ∧
      (c.procs 2).own.wasReset ∧ c.shared.resets = [⟨1, some (740800 * nanosPerSec), [2]⟩] ∧
      c.shared.factors = [⟨300, 1, .passkey 9, 1000000 * nanosPerSec, 2,
      1000000 * nanosPerSec⟩] := by
    decide +kernel
  refine ⟨c, steps_of_exec hexec, FactorFlow.eq_of_succeeded hfirst,
    FactorFlow.eq_of_wasReset hsecond, _, by rw [hresets]; exact .head _, _, rfl,
    _, by rw [hfactors]; exact .head _, rfl, .head _, by decide⟩

/-- The same request, before the window of the reset: its passkey stays. -/
theorem enrolled_before_window :
    ∃ c, Steps factorProgram EnrolsApart
        (factorInitial defaultFactors shortSessions ⟨300, 5⟩ (instant 1000000) 0) c ∧
      ∃ record ∈ c.shared.resets, ∃ since, record.since = some since ∧
        ∃ f ∈ c.shared.factors, f.userId = record.userId ∧ f.addedBy ∈ record.revoked ∧
          ¬ since < f.insertedAt := by
  obtain ⟨c, hexec, hresets, hfactors⟩ :
      ∃ c ∈ exec factorProgram EnrolsApart
      (factorInitial defaultFactors shortSessions ⟨300, 5⟩ (instant 1000000) 0)
      (sessionSchedule ++ enrolSchedule (.passkey 9) ++ [(1, .go { uuid := 300 })] ++
      [(0, .account (.tick (instant 2000000)))] ++ resetSessionSchedule (2000000 * nanosPerSec)),
      c.shared.resets = [⟨1, some (1740800 * nanosPerSec), [2]⟩] ∧
      c.shared.factors = [⟨300, 1, .passkey 9, 1000000 * nanosPerSec, 2,
      1000000 * nanosPerSec⟩] := by
    decide +kernel
  have hrecord : (⟨1, some (1740800 * nanosPerSec), [2]⟩ : ResetRecord) ∈ c.shared.resets := by
    rw [hresets]
    exact .head _
  have hf : (⟨300, 1, .passkey 9, 1000000 * nanosPerSec, 2, 1000000 * nanosPerSec⟩ :
      AccessFactor) ∈ c.shared.factors := by
    rw [hfactors]
    exact .head _
  exact ⟨c, steps_of_exec hexec, _, hrecord, _, rfl, _, hf, rfl, .head _,
    no_factor_left (steps_of_exec hexec) hrecord rfl hf rfl (.head _)⟩

end AuthApi
