import AuthApi.SessionFamily

/-!
# The stamp of a revocation

A revocation stamps the sessions it ends with `NOW()`, the start of its
transaction, and a session is stamped with the start of the transaction
that created it. The table refuses a session revoked before it was
created. So a session that a later transaction commits while a
revocation is open aborts the revocation, if the snapshot of its
`UPDATE` shows the session (`sign_in_aborts_reset`).

Without such a session the `UPDATE` goes through
(`revocation_not_aborted`): every row it comes to was created before the
transaction of the revocation started.
-/

namespace AuthApi

open Conc Pg

/-! ## Constraints -/

variable {now : OffsetDateTime} {ch : Choice} {i r : Nat} {pc' pc : Pc} {s s' : Shared}
  {q : RevokePc} {a : Act} {c : SessionConf}

theorem le_of_mem_orElse {o : Option OffsetDateTime} {created : OffsetDateTime}
    (ho : ∀ t ∈ o, created ≤ t) (h : created ≤ now) : ∀ t ∈ (o <|> some now), created ≤ t := by
  intro t ht
  cases o with
  | none => exact Option.some.inj ht ▸ h
  | some => exact ho t ht

/-- A revocation whose stamp is not before the creation of the row passes
every constraint. -/
theorem Revocation.apply_of_created (rev : Revocation) {r : SessionRow}
    (h : r.val.createdAt ≤ now) : ∃ r', rev.apply now r = some r' := by
  have hchecks : (rev.set now r.val).Checks := by
    obtain ⟨hexp, hrev, hrot, hcomp, hrepl, hcons, hself⟩ := r.property
    cases rev with
    | family =>
      refine ⟨hexp, le_of_mem_orElse hrev h, hrot, le_of_mem_orElse hcomp h, ?_,
        .inr ⟨?_, ?_, ?_⟩, hself⟩
      · refine hrepl.imp_right ?_
        rintro ⟨h₁, h₂, -⟩
        exact ⟨h₁, h₂, by simp [set]⟩
      all_goals simp [set]
    | _ =>
      refine ⟨hexp, fun t ht => Option.some.inj ht ▸ h, hrot, hcomp, ?_, ?_, hself⟩
      · refine hrepl.imp_right ?_
        rintro ⟨h₁, h₂, -⟩
        exact ⟨h₁, h₂, rfl⟩
      · refine hcons.imp_right ?_
        rintro ⟨h₁, h₂, -⟩
        exact ⟨h₁, h₂, rfl⟩
  exact ⟨⟨_, hchecks⟩, Session.checked_eq_some.mpr rfl⟩

theorem Revocation.covers_evolves {rev : Revocation} {s t : Session} (h : Evolves s t) :
    rev.covers t = rev.covers s := by
  cases rev <;>
    simp [covers, h.id, h.kin.sessionFamilyId, h.kin.userId, h.kin.clientId]

/-! ## Nothing is created in the future -/

/-- The stamp of the session a request has started to create. -/
def Pc.began : Pc → Option OffsetDateTime
  | .issue (.insert _ _ _ _ startedAt) => some startedAt
  | .issue (.commit new) => some new.val.createdAt
  | .rotate (.lock _ _ _ startedAt) => some startedAt
  | .rotate (.insert _ startedAt _) => some startedAt
  | .rotate (.update _ _ new) => some new.val.createdAt
  | .rotate (.commit _ _ new) => some new.val.createdAt
  | _ => none

theorem IssueStepped.stamped {q : IssuePc} (hq : ∀ t ∈ (Pc.issue q).began, t ≤ s.now)
    (h : IssueStepped i s ch q s' pc') : ∀ t ∈ pc'.began, t ≤ s.now := by
  cases h with
  | inserted _ hval =>
    rintro t ⟨⟩
    rw [hval]
    exact hq _ rfl
  | _ => simp [Pc.began]

theorem RotateStepped.stamped {q : RotatePc} (hq : ∀ t ∈ (Pc.rotate q).began, t ≤ s.now)
    (h : RotateStepped i s ch q s' pc') : ∀ t ∈ pc'.began, t ≤ s.now := by
  cases h with
  | locked | updated => exact hq
  | inserted hval =>
    rintro t ⟨⟩
    rw [hval]
    exact hq _ rfl
  | _ => simp [Pc.began]

theorem Pc.began_step (hpc : ∀ t ∈ pc.began, t ≤ s.now)
    (h : sessionProgram i a s pc = some (s', pc')) : ∀ t ∈ pc'.began, t ≤ s.now := by
  cases stepped h with
  | tick | configure => exact hpc
  | @start call hidle hadmitted => cases call <;> simp [Call.entry, Pc.began]
  | fail => simp [Pc.began]
  | @go ch _ _ h =>
    cases pc with
    | idle | done => cases h
    | issue => exact (issueStepped h).stamped hpc
    | rotate => exact (rotateStepped h).stamped hpc
    -- The other requests create nothing, or have yet to begin.
    | refresh => cases refreshStepped h <;> rintro _ ⟨⟩
    | revoke => cases revokeStepped h <;> rintro _ ⟨⟩
    | verify => cases verifyStepped h <;> rintro _ ⟨⟩

def Pc.creating : Pc → Option SessionRow
  | .issue (.commit new) => some new
  | .rotate (.commit _ _ new) => some new
  | _ => none

/-- A row that is new in the table is the one the step was to commit. -/
theorem Coherent.creating_or_evolves {k : Uuid} {row : SessionRow} (h : Coherent c)
    (hprog : sessionProgram i a c.shared (c.procs i) = some (s, pc)) (hrow : s.store k = some row) :
    (∃ row₀, c.shared.store k = some row₀ ∧ Evolves row₀.val row.val) ∨
      a.proceeds = true ∧ (c.procs i).creating = some row := by
  rcases h.store_step hprog with heq | ⟨ch, op, rfl, hop, hstep⟩
  · exact .inl ⟨row, heq ▸ hrow, .refl _⟩
  · rcases hstep.origin hrow with hev | ⟨rfl, -⟩ | ⟨old, rotated, rfl, -⟩
    · exact .inl hev
    · rw [Pc.commits_issue hop]
      exact .inr ⟨rfl, rfl⟩
    · rw [Pc.commits_rotate hop]
      exact .inr ⟨rfl, rfl⟩

theorem Pc.began_of_creating {new : SessionRow} (h : pc.creating = some new) :
    pc.began = some new.val.createdAt := by
  cases pc with
  | issue q | rotate q => cases q <;> cases h; rfl
  | _ => cases h

/-- No session, committed or on its way, is stamped later than now. -/
structure Timely (c : SessionConf) : Prop where
  coherent : Coherent c
  rows : ∀ k row, c.shared.store k = some row → row.val.createdAt ≤ c.shared.now
  began : ∀ i, ∀ t ∈ (c.procs i).began, t ≤ c.shared.now

theorem Timely.step (h : Timely c)
    (hprog : sessionProgram i a c.shared (c.procs i) = some (s, pc)) : Timely (c.set i s pc) := by
  have hclock : c.shared.now ≤ s.now :=
    OffsetDateTime.toMicros_mono (h.coherent.kept hprog).rely.clock
  refine ⟨h.coherent.set hprog, fun k row hrow => ?_, fun j t ht => ?_⟩
  · refine le_trans ?_ hclock
    rcases h.coherent.creating_or_evolves hprog hrow with ⟨row₀, hrow₀, hev⟩ | ⟨-, hnew⟩
    · exact hev.createdAt ▸ h.rows k row₀ hrow₀
    · exact h.began i _ (Pc.began_of_creating hnew)
  · refine le_trans ?_ hclock
    rcases c.procs_cases i s pc j with ⟨rfl, hset⟩ | ⟨hji, hset⟩ <;> rw [hset] at ht
    · exact Pc.began_step (h.began j) hprog t ht
    · exact h.began j t ht

theorem timely_initial (cfg : JwtConfig) (clock : OffsetDateTime) : Timely (initial cfg clock) :=
  ⟨coherent_initial cfg clock, fun _ _ h => (by cases h), fun _ _ h => (by cases h)⟩

/-! ## Nothing a revocation comes to was created after it began -/

/-- The revocation of a transaction whose `UPDATE` has still to take its
snapshot, and its stamp. -/
def Pc.snapshotDue (s : Shared) : Pc → Option (Revocation × OffsetDateTime)
  | .revoke (.familySelect sessionId startedAt) =>
    (s.findById sessionId).map fun session => (.family session.sessionFamilyId, startedAt)
  | .revoke (.scan rev _ startedAt) => some (rev, startedAt)
  | _ => none

/-- The condition on a run: while the revocation of request `r` is open
and has not taken its snapshot, no session it covers is committed by a
transaction that began after it. -/
def NoLaterSession (r : Nat) (c : SessionConf) (i : Nat) (a : Act) : Prop :=
  a.proceeds = true → ∀ new ∈ (c.procs i).creating,
    ∀ due ∈ (c.procs r).snapshotDue c.shared,
      due.1.covers new.val = true → new.val.createdAt ≤ due.2

instance (r : Nat) (c : SessionConf) (i : Nat) (a : Act) :
    Decidable (NoLaterSession r c i a) := by
  unfold NoLaterSession
  infer_instance

/-- What the revocation has come to or will come to is older than its
stamp. -/
def Pc.OnTime (s : Shared) : Pc → Prop
  | .revoke (.visit _ _ startedAt left _) =>
    ∀ k ∈ left, ∃ row, s.store k = some row ∧ row.val.createdAt ≤ startedAt
  | pc => ∀ due ∈ pc.snapshotDue s, ∀ k row, s.store k = some row →
      due.1.covers row.val = true → row.val.createdAt ≤ due.2

theorem Pc.OnTime.of_calm (h : pc.calm = true) : pc.OnTime s := by
  cases pc with
  | revoke q =>
    cases q with
    | familyStart => simp [OnTime, snapshotDue]
    | _ => cases h
  | _ => simp [OnTime, snapshotDue]

theorem Pc.OnTime.own_step (h : Timely c) (hpc : c.procs r = .revoke q)
    (hq : (c.procs r).OnTime c.shared) (hstep : revokeStep r ch c.shared q = some (s, pc)) :
    pc.OnTime s := by
  have hlocal := h.coherent.procs r
  rw [hpc] at hq hlocal
  cases revokeStepped hstep with
  | familyStarted =>
    intro due hdue k row hrow _
    obtain ⟨session, -, rfl⟩ := Option.map_eq_some_iff.mp hdue
    exact h.rows k row hrow
  | selected hfind =>
    rintro due ⟨⟩
    exact hq _ (Option.map_eq_some_iff.mpr ⟨_, hfind, rfl⟩)
  | started =>
    rintro due ⟨⟩ k row hrow -
    exact h.rows k row hrow
  | scanned =>
    intro k hk
    obtain ⟨row, hview, hsel⟩ := Db.mem_scan.mp hk
    have hrow : c.shared.store k = some row := (Db.view_of_heldOnly hlocal k).symm.trans hview
    exact ⟨row, hrow, hq _ rfl k row hrow (Revocation.covers_of_selects hsel)⟩
  | skipped _ hvisit | updated _ hvisit =>
    intro k hk
    obtain ⟨row, hrow, hle⟩ := hq k (List.mem_of_mem_erase hk)
    exact ⟨row, ((Db.quiet_visit hvisit).committed_eq k).trans hrow, hle⟩
  | _ => simp [OnTime, snapshotDue]

/-- What is due of a revocation does not change while others run. -/
theorem Pc.snapshotDue_stable (hc : Coherent c) (hrely : Rely i c.shared s) :
    (c.procs r).snapshotDue s = (c.procs r).snapshotDue c.shared := by
  have hlocal := hc.procs r
  revert hlocal
  cases c.procs r with
  | revoke q =>
    cases q with
    | familySelect sessionId =>
      rintro ⟨-, row, hrow⟩
      obtain ⟨row', hrow', hev⟩ := hrely.evolves hrow
      have hfind : c.shared.findById sessionId = some row.val := congrArg _ hrow
      have hfind' : s.findById sessionId = some row'.val := congrArg _ hrow'
      simp [snapshotDue, hfind, hfind', hev.kin.sessionFamilyId]
    | _ => exact fun _ => rfl
  | _ => exact fun _ => rfl

section

variable (h : Timely c) (hr : (c.procs r).OnTime c.shared) (hok : NoLaterSession r c i a)
  (hprog : sessionProgram i a c.shared (c.procs i) = some (s, pc))
include h hr hok hprog

theorem Pc.OnTime.other_step : (c.procs r).OnTime s := by
  have hrely := (h.coherent.kept hprog).rely
  have hdue : ∀ due ∈ (c.procs r).snapshotDue s,
      (∀ k row, c.shared.store k = some row → due.1.covers row.val = true →
        row.val.createdAt ≤ due.2) →
      ∀ k row, s.store k = some row → due.1.covers row.val = true →
        row.val.createdAt ≤ due.2 := by
    intro due hdue hold k row hrow hcov
    rw [snapshotDue_stable h.coherent hrely] at hdue
    rcases h.coherent.creating_or_evolves hprog hrow with ⟨row₀, hrow₀, hev⟩ | ⟨hgo, hnew⟩
    · rw [hev.createdAt]
      exact hold k row₀ hrow₀ (Revocation.covers_evolves hev ▸ hcov)
    · exact hok hgo row hnew due hdue hcov
  have hsame := snapshotDue_stable (r := r) h.coherent hrely
  revert hr hdue hsame
  cases c.procs r with
  | revoke q =>
    cases q with
    | visit =>
      intro hr _ _ k hk
      obtain ⟨row, hrow, hle⟩ := hr k hk
      obtain ⟨row', hrow', hev⟩ := hrely.evolves hrow
      exact ⟨row', hrow', hev.createdAt ▸ hle⟩
    | _ => exact fun hr hdue hsame due hmem => hdue due hmem (hr due (hsame ▸ hmem))
  | _ => exact fun hr hdue hsame due hmem => hdue due hmem (hr due (hsame ▸ hmem))

theorem Pc.OnTime.step : ((c.set i s pc).procs r).OnTime s := by
  rcases c.procs_cases i s pc r with ⟨rfl, hset⟩ | ⟨hir, hset⟩ <;> rw [hset]
  · cases stepped hprog with
    | go hgo =>
      by_cases hrevoke : ∃ q, c.procs r = .revoke q
      · obtain ⟨q, hq⟩ := hrevoke
        rw [hq] at hgo
        exact own_step h hq hr hgo
      · exact .of_calm (advance_calm (fun q hq => hrevoke ⟨q, hq⟩) hgo)
    | @start call hidle hadmitted => cases call <;> simp [Call.entry, OnTime, snapshotDue]
    | fail => simp [OnTime, snapshotDue]
    | tick | configure => exact hr.other_step h hok hprog
  · exact hr.other_step h hok hprog

end

/-! ## Runs -/

/-- **No revocation is aborted**, in every run in which no session it
covers is committed by a later transaction before its snapshot: each row
it comes to is stamped at or after its creation, and no step of its
`UPDATE` violates a constraint. -/
theorem revocation_not_aborted {cfg : JwtConfig} {clock : OffsetDateTime} {c : SessionConf}
    {r : Nat} {rev : Revocation} {forget : Forget} {startedAt : OffsetDateTime}
    {left : List Uuid} {returned : List Session}
    (hrun : Steps sessionProgram (NoLaterSession r) (initial cfg clock) c)
    (hpc : c.procs r = .revoke (.visit rev forget startedAt left returned)) :
    (∀ k ∈ left, ∀ row, c.shared.store k = some row → rev.selects row.val = true →
      (∀ t ∈ (rev.set startedAt row.val).revokedAt, row.val.createdAt ≤ t) ∧
        ∀ t ∈ (rev.set startedAt row.val).compromisedAt, row.val.createdAt ≤ t) ∧
      ∀ ch s pc, sessionProgram r (.go ch) c.shared (c.procs r) = some (s, pc) →
        pc.outcome ≠ some (.error .violation) := by
  have hinv : Timely c ∧ (c.procs r).OnTime c.shared :=
    hrun.invariant (I := fun c => Timely c ∧ (c.procs r).OnTime c.shared)
      (fun _ _ a _ _ hc hok hprog => ⟨hc.1.step hprog, hc.2.step (a := a) hc.1 hok hprog⟩)
      ⟨timely_initial cfg clock, by simp [initial, Pc.OnTime, Pc.snapshotDue]⟩
  obtain ⟨htimely, hontime⟩ := hinv
  have hlocal := htimely.coherent.procs r
  rw [hpc] at hontime hlocal
  have happly : ∀ k ∈ left, ∀ row, c.shared.store k = some row →
      ∃ row', rev.apply startedAt row = some row' := by
    intro k hk row hrow
    obtain ⟨row', hrow', hle⟩ := hontime k hk
    obtain rfl := Option.some.inj (hrow.symm.trans hrow')
    exact rev.apply_of_created hle
  refine ⟨fun k hk row hrow _ => ?_, fun ch s pc hprog => ?_⟩
  · obtain ⟨row', hrow'⟩ := happly k hk row hrow
    have hval := Revocation.apply_eq_some hrow'
    have hcreated := (rev.set_evolves startedAt row.val).createdAt
    rw [← hcreated, ← hval]
    exact ⟨row'.property.revoked_after_creation, row'.property.compromised_after_creation⟩
  · rw [hpc] at hprog
    change revokeStep r ch c.shared (.visit rev forget startedAt left returned) = some (s, pc)
      at hprog
    cases revokeStepped hprog with
    | violated hmem hvisit =>
      exfalso
      rcases Db.Updating.visit_cases hlocal (rev.apply_updates startedAt) hvisit with
        ⟨hv, -⟩ | ⟨row, hrow, -, ⟨-, hv, -⟩ | ⟨-, hnone, -⟩ | ⟨row', -, -, hv | hv, -⟩⟩
      · cases hv
      · cases hv
      · obtain ⟨row', hrow'⟩ := happly _ hmem row hrow
        rw [hnone] at hrow'
        cases hrow'
      · cases hv
      · cases hv
    | _ => simp [Pc.outcome]

/-! ### A reset and a sign-in -/

/-- The reset of the account 1 begins, and a second later a sign-in of the
account. -/
def resetThenSignIn : List (Nat × Act) :=
  [(1, .start (resetPassword 1)), (1, .go {}), (1, .go {}), (2, .tick (instant 101))] ++
    signInSchedule 2 webSignIn 2 2 3

/-- The sign-in has committed when the `UPDATE` of the reset starts: the
reset fails, because the session 3 would be revoked before it was
created. -/
theorem sign_in_aborts_reset :
    ∃ c, runFrom shortSessions (instant 100)
        (resetThenSignIn ++ [(1, .go {}), (1, .go { row := 3 })]) = some c ∧
      (c.procs 2).outcome = some (.tokens 3) ∧
      (c.procs 1).outcome = some (.error .violation) := by
  decide +kernel

/-- A session of an earlier sign-in; the later one commits after the
snapshot of the reset. -/
def resetBeforeCommit : List (Nat × Act) :=
  signInSchedule 0 webSignIn 1 1 2 ++ resetThenSignIn.dropLast ++ [(1, .go {}), (2, .go {})]

theorem reset_not_aborted :
    ∃ c, exec sessionProgram (NoLaterSession 1) (initial shortSessions (instant 100))
        resetBeforeCommit = some c ∧ (c.procs 1).scanning = [2] ∧
      ∀ ch s pc, sessionProgram 1 (.go ch) c.shared (c.procs 1) = some (s, pc) →
        pc.outcome ≠ some (.error .violation) := by
  obtain ⟨c, hc, hscan⟩ : ∃ c ∈ exec sessionProgram (NoLaterSession 1)
      (initial shortSessions (instant 100)) resetBeforeCommit, (c.procs 1).scanning = [2] := by
    decide +kernel
  obtain ⟨rev, forget, startedAt, left, returned, hpc⟩ :=
    Pc.eq_visit_of_scanning (hscan ▸ List.cons_ne_nil _ _)
  exact ⟨c, hc, hscan, (revocation_not_aborted (steps_of_exec hc) hpc).2⟩

end AuthApi
