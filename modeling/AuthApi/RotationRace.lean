import AuthApi.SessionFamily

/-!
# Revocations racing rotations

A revocation is one `UPDATE`: it ends the sessions its snapshot shows. A
rotation that was open at that moment holds the lock of its old session,
and the new one is not visible yet. When the rotation commits, the
`UPDATE` wakes up, finds the old session revoked already and goes on:
the new session stays (`rotation_escapes`).

What the code does guarantee is a matter of that one window. If no
rotation commits while the `UPDATE` has still to visit the session it
replaces, every session reached from a covered one is revoked at the
end, the chain of a kept session excepted
(`revoked_of_no_rotation_in_scan`).
-/

namespace AuthApi

open Conc Pg

/-! ## Following rotations -/

/-- The session a revocation spares. -/
def Revocation.kept : Revocation → Option Uuid
  | .others _ keep => some keep
  | _ => none

variable {rev : Revocation} {i r : Nat} {pc : Pc} {s : Shared} {c c₀ : SessionConf} {k : Uuid}

/-- A revocation that is not for a single session covers the kin of what
it covers. -/
theorem Revocation.covers_of_kin {s t : Session} (hone : ∀ id, rev ≠ .one id) (hkin : Kin s t)
    (hcov : rev.covers s = true) : rev.covers t = true ∨ rev.kept = some t.id := by
  cases rev with
  | one id => exact absurd rfl (hone id)
  | family => exact .inl (by simpa [covers, hkin.sessionFamilyId] using hcov)
  | allByUser userId => exact .inl (by simpa [covers, hkin.userId] using hcov)
  | others userId keep =>
    by_cases hk : t.id = keep
    · exact .inr (congrArg some hk.symm)
    · refine .inl ?_
      simp only [covers, hkin.userId, Bool.and_eq_true, decide_eq_true_eq] at hcov
      simp [covers, hcov.1, hk]
  | byClient clientId => exact .inl (by simpa [covers, hkin.clientId] using hcov)

/-- Any table whose links keep the foreign key and the family, and no
request under way. -/
structure AtRest (c : SessionConf) : Prop where
  idle : ∀ i, c.procs i = .idle
  unlocked : ∀ k, c.shared.db.holder k = none
  linked : c.shared.store.Linked
  drawn : c.shared.Drawn

theorem Pc.Local.held (h : pc.Local i s) (hend : pc.running = false) : s.db.HeldOnly i [] := by
  cases pc with
  | idle | done => exact h
  | _ => cases hend

theorem AtRest.coherent (h : AtRest c) : Coherent c := by
  refine ⟨h.drawn, fun i => ?_⟩
  rw [h.idle i]
  intro k hk
  rw [h.unlocked k] at hk
  cases hk

theorem atRest_of_runFrom {cfg : JwtConfig} {clock : OffsetDateTime} {schedule : List (Nat × Act)}
    (h : runFrom cfg clock schedule = some c)
    (hdone : ∀ i ∈ schedule.map Prod.fst, (c.procs i).running = false) :
    AtRest ⟨c.shared, fun _ => .idle⟩ := by
  have hreach := reachable_of_runFrom h
  refine ⟨fun _ => rfl, fun k => ?_, hreach.store.linked, hreach.coherent.shared⟩
  have hheld : ∀ i, c.shared.db.HeldOnly i [] := by
    intro i
    refine Pc.Local.held (hreach.coherent.procs i) ?_
    by_cases hi : i ∈ schedule.map Prod.fst
    · exact hdone i hi
    · rw [exec_procs h hi]
      rfl
  by_contra hk
  obtain ⟨i, hi⟩ := Option.ne_none_iff_exists'.mp hk
  cases hheld i k hi

def Pc.hasRevoked (rev : Revocation) : Pc → Bool
  | .revoke (.familyIds rev' _) => rev' = rev
  | .revoke (.forget rev' _) => rev' = rev
  | .done (.revoked rev') => rev' = rev
  | _ => false

/-- The session replaced by a rotation that is about to commit. -/
def Pc.replacing : Pc → Option Uuid
  | .rotate (.commit old _ _) => some old.val.id
  | _ => none

/-- The condition on a run: no rotation commits while the `UPDATE` of
process `r` has still to visit the session it replaces. -/
def NoRotationInScan (r : Nat) (c : SessionConf) (i : Nat) (a : Act) : Prop :=
  a.proceeds = true → ∀ id ∈ (c.procs i).replacing, id ∉ (c.procs r).scanning

instance (r : Nat) (c : SessionConf) (i : Nat) (a : Act) :
    Decidable (NoRotationInScan r c i a) := by
  unfold NoRotationInScan
  infer_instance

/-! ## What is left to the revocation -/

/-- The session `k` is still to be ended by process `r`: its snapshot is
not taken, or the row is to be visited, or its new version waits for the
commit. -/
def LeftTo (db : SessionDb) (r : Nat) (rev : Revocation) (k : Uuid) : Pc → Prop
  | .revoke (.visit rev' _ _ left _) =>
    rev' = rev → k ∈ left ∨ ∃ v v', db.slot k = ⟨some v, some (r, some v')⟩
  | pc => pc.hasRevoked rev = false

theorem LeftTo.of_calm {db : SessionDb} (h : pc.calm = true) : LeftTo db r rev k pc := by
  cases pc with
  | revoke pc =>
    cases pc with
    | familyStart => rfl
    | _ => cases h
  | done outcome =>
    cases outcome with
    | revoked => cases h
    | _ => rfl
  | _ => rfl

section OwnSteps

variable {i : Nat} {s s' : Shared} {pc' : Pc} {rev : Revocation} {k : Uuid}
  {row row' : SessionRow}

section Visits

variable {rev' : Revocation} {forget : Forget} {startedAt : OffsetDateTime} {left : List Uuid}
  {returned returned' : List Session}

/-- The `UPDATE` comes to one of its rows. An unrevoked session that is
covered matches, so it gets its new version. -/
theorem LeftTo.visited {v : Db.Visit SessionRow} {db : SessionDb} {k₀ : Uuid}
    (hl : s.db.Updating i (fun r => rev'.selects r.val) (rev'.apply startedAt))
    (hvisit : s.db.visit i k₀ (fun r => rev'.selects r.val) (rev'.apply startedAt) = some (v, db))
    (hok : v ≠ .violation) (hrow : s.store k = some row) (hcov : rev.covers row.val = true)
    (hrow' : db.committed k = some row') (hlive : row'.val.revokedAt = none)
    (hleft : LeftTo s.db i rev k (.revoke (.visit rev' forget startedAt left returned))) :
    LeftTo db i rev k (.revoke (.visit rev' forget startedAt (left.erase k₀) returned')) := by
  rintro rfl
  by_cases hk : k = k₀
  · subst hk
    have hsame : row = row' :=
      Option.some.inj (hrow.symm.trans (((Db.quiet_visit hvisit).committed_eq k).symm.trans hrow'))
    obtain ⟨v', -, hslot⟩ := hl.visit_self (rev'.apply_updates startedAt) hvisit hrow
      (Revocation.selects_of_covers hcov (hsame ▸ hlive)) hok
    exact .inr ⟨_, v', hslot⟩
  · rcases hleft rfl with hmem | ⟨w, w', hslot⟩
    · exact .inl ((List.mem_erase_of_ne hk).mpr hmem)
    · exact .inr ⟨w, w', (hl.visit_of_ne (rev'.apply_updates startedAt) hvisit hk).trans hslot⟩

/-- What the commit wrote for `k` would be its row now. -/
theorem LeftTo.not_committed
    (hl : s.db.Updating i (fun r => rev'.selects r.val) (rev'.apply startedAt))
    (hrow' : (s.db.commit i).committed k = some row') (hlive : row'.val.revokedAt = none)
    (hleft : LeftTo s.db i rev k (.revoke (.visit rev' forget startedAt [] returned))) :
    rev' ≠ rev := by
  intro heq
  rcases hleft heq with hmem | ⟨v, v', hslot⟩
  · cases hmem
  · have hcommit : (s.db.commit i).committed k = some v' := by
      rw [Db.commit_committed, Db.holder, Db.view, hslot]
      simp [Slot.holder, Slot.view, Slot.pending]
    have htouched := hl k (by rw [Db.holder, hslot]; rfl)
    rw [hslot] at htouched
    cases htouched with
    | updated _ happly =>
      rw [hcommit] at hrow'
      have hset := rev'.set_revoked startedAt v.val
      rw [← Revocation.apply_eq_some happly, Option.some.inj hrow', hlive] at hset
      cases hset

end Visits

/-- Whatever step process `i` takes, a covered session that is unrevoked
before and after stays left to it. -/
theorem LeftTo.own_step {a : Act} {pc : Pc} (hl : pc.Local i s)
    (h : sessionProgram i a s pc = some (s', pc')) (hrow : s.store k = some row)
    (hcov : rev.covers row.val = true) (hrow' : s'.store k = some row')
    (hlive : row'.val.revokedAt = none) (hleft : LeftTo s.db i rev k pc) :
    LeftTo s'.db i rev k pc' := by
  cases stepped h with
  | tick | configure => exact hleft
  | @start call hidle hadmitted => cases call <;> rfl
  | fail => rfl
  | @go ch _ _ h =>
    cases pc with
    | revoke =>
      cases revokeStepped h with
      | scanned =>
        -- The snapshot: a covered, unrevoked session is in it.
        rintro rfl
        have hsame : row = row' := Option.some.inj (hrow.symm.trans hrow')
        exact .inl (Db.mem_scan.mpr ⟨row, (Db.view_of_heldOnly hl k).trans hrow,
          Revocation.selects_of_covers hcov (hsame ▸ hlive)⟩)
      | skipped _ hvisit | updated _ hvisit =>
        exact LeftTo.visited hl hvisit nofun hrow hcov hrow' hlive hleft
      | committed | committedFamily =>
        simp [LeftTo, Pc.hasRevoked, LeftTo.not_committed hl hrow' hlive hleft]
      | familyIds | forgot | forgets => exact hleft
      | _ => rfl
    | _ => exact .of_calm (advance_calm (fun _ hpc => by cases hpc) h)

end OwnSteps

/-- A rotation under another process than `r` takes no session that is left
to `r`, except one still to be visited. -/
theorem LeftTo.not_rotated (hc : Coherent c) {old rotated new : SessionRow} (hne : r ≠ i)
    (hpc : c.procs i = .rotate (.commit old rotated new))
    (hscan : old.val.id ∉ (c.procs r).scanning)
    (h : LeftTo c.shared.db r rev old.val.id (c.procs r)) :
    LeftTo c.shared.db r rev k (c.procs r) := by
  cases hr : c.procs r with
  | revoke q =>
    cases q with
    | visit =>
      intro heq
      rw [hr] at h hscan
      rcases h heq with hmem | ⟨v, v', hslot⟩
      · exact absurd hmem hscan
      · have hlocal := hc.procs i
        rw [hpc] at hlocal
        have hslot' : c.shared.db.slot old.val.id = ⟨some old, some (i, some rotated)⟩ :=
          hlocal.2.1
        rw [hslot'] at hslot
        simp only [Slot.mk.injEq, Option.some.injEq, Prod.mk.injEq] at hslot
        exact absurd hslot.2.1.symm hne
    | _ =>
      rw [hr] at h
      exact h
  | _ =>
    rw [hr] at h
    exact h

theorem LeftTo.other_step (hrely : Rely i c.shared s) (hne : r ≠ i)
    (h : LeftTo c.shared.db r rev k (c.procs r)) :
    LeftTo s.db r rev k ((c.set i s pc).procs r) := by
  rw [Conf.set_procs_of_ne _ _ _ hne]
  cases hr : c.procs r with
  | revoke q =>
    rw [hr] at h
    cases q with
    | visit =>
      intro heq
      rcases h heq with hmem | ⟨v, v', hslot⟩
      · exact .inl hmem
      · exact .inr ⟨v, v', Db.guar_others hrely.db hne hslot rfl⟩
    | _ => exact h
  | _ =>
    rw [hr] at h
    exact h

/-! ## Runs -/

/-- What holds along the run: every unrevoked session reached from a
covered one is left to the revocation, or belongs to the kept chain. -/
structure Chased (c₀ : SessionConf) (r : Nat) (rev : Revocation) (c : SessionConf) : Prop where
  coherent : Coherent c
  linked : c.shared.store.Linked
  stays : ∀ k row, c₀.shared.store k = some row →
    ∃ row', c.shared.store k = some row' ∧ Evolves row.val row'.val
  left : ∀ k₀ row₀ k row, c₀.shared.store k₀ = some row₀ → rev.covers row₀.val = true →
    c.shared.store.Reaches k₀ k → c.shared.store k = some row → row.val.revokedAt = none →
    LeftTo c.shared.db r rev k (c.procs r) ∨
      ∃ keep, rev.kept = some keep ∧ c.shared.store.Reaches keep k

theorem Chased.covers (h : Chased c₀ r rev c) (hone : ∀ id, rev ≠ .one id) {k₀ : Uuid}
    {row₀ row : SessionRow} (hrow₀ : c₀.shared.store k₀ = some row₀)
    (hcov : rev.covers row₀.val = true) (hreach : c.shared.store.Reaches k₀ k)
    (hrow : c.shared.store k = some row) :
    rev.covers row.val = true ∨ ∃ keep, rev.kept = some keep ∧ c.shared.store.Reaches keep k := by
  obtain ⟨row₁, hrow₁, hev⟩ := h.stays k₀ row₀ hrow₀
  obtain ⟨row', hrow', hkin⟩ := h.linked.kin_of_reaches hrow₁ hreach
  obtain rfl := Option.some.inj (hrow.symm.trans hrow')
  rcases Revocation.covers_of_kin hone (hev.kin.trans hkin) hcov with h | h
  · exact .inl h
  · have hid : row.val.id = k := c.shared.db.keyed k row (.inl hrow)
    exact .inr ⟨k, hid ▸ h, .refl⟩

theorem Chased.step {a : Act} (h : Chased c₀ r rev c) (hone : ∀ id, rev ≠ .one id)
    (hok : NoRotationInScan r c i a)
    (hprog : sessionProgram i a c.shared (c.procs i) = some (s, pc)) :
    Chased c₀ r rev (c.set i s pc) := by
  have hkept := h.coherent.kept hprog
  have hstore := h.coherent.store_step hprog
  have hexcused : ∀ keep k, c.shared.store.Reaches keep k → s.store.Reaches keep k := by
    intro keep k hreach
    rcases hstore with heq | ⟨_, op, -, -, hstep⟩
    · exact heq ▸ hreach
    · exact hstep.reaches hreach
  -- A session that was reached and unrevoked before the step.
  have hbefore : ∀ k₀ row₀ k row, c₀.shared.store k₀ = some row₀ → rev.covers row₀.val = true →
      c.shared.store.Reaches k₀ k → s.store k = some row → row.val.revokedAt = none →
      LeftTo s.db r rev k ((c.set i s pc).procs r) ∨
        ∃ keep, rev.kept = some keep ∧ s.store.Reaches keep k := by
    intro k₀ row₀ k row hrow₀ hcov hreach hrow hlive
    obtain ⟨row₁, hrow₁, hev₁⟩ := h.stays k₀ row₀ hrow₀
    obtain ⟨row', hrow', -⟩ := h.linked.kin_of_reaches hrow₁ hreach
    obtain ⟨row'', hrow'', hev⟩ := hkept.rely.evolves hrow'
    obtain rfl := Option.some.inj (hrow.symm.trans hrow'')
    rcases h.left k₀ row₀ k row' hrow₀ hcov hreach hrow' (hev.unrevoked hlive) with hleft |
      ⟨keep, hk, hr⟩
    · by_cases hir : r = i
      · subst hir
        rcases h.covers hone hrow₀ hcov hreach hrow' with hcov' | ⟨keep, hk, hr⟩
        · left
          rw [Conf.set_procs_self]
          exact hleft.own_step (h.coherent.procs r) hprog hrow' hcov' hrow hlive
        · exact .inr ⟨keep, hk, hexcused keep k hr⟩
      · exact .inl (hleft.other_step hkept.rely hir)
    · exact .inr ⟨keep, hk, hexcused keep k hr⟩
  refine ⟨h.coherent.set hprog, ?_, ?_, ?_⟩
  · rcases hstore with heq | ⟨_, op, -, -, hstep⟩
    · exact (show s.store.Linked from heq ▸ h.linked)
    · exact hstep.linked h.linked
  · intro k row hrow
    obtain ⟨row', hrow', hev⟩ := h.stays k row hrow
    obtain ⟨row'', hrow'', hev'⟩ := hkept.rely.evolves hrow'
    exact ⟨row'', hrow'', hev.trans hev'⟩
  · intro k₀ row₀ k row hrow₀ hcov hreach hrow hlive
    rcases hstore with heq | ⟨ch, op, rfl, hop, hstep⟩
    · exact hbefore k₀ row₀ k row hrow₀ hcov (heq ▸ hreach) hrow hlive
    · rcases hstep.reaches_cases hreach with hreach' | ⟨old, rotated, new, rfl, rfl, hold, hrow',
          hlive', -, hlink⟩
      · exact hbefore k₀ row₀ k row hrow₀ hcov hreach' hrow hlive
      · -- `k` was put behind `old` by this very step.
        have hpc := Pc.commits_rotate hop
        have hscan : old.val.id ∉ (c.procs r).scanning := by
          have := hok rfl old.val.id
          rw [hpc] at this
          exact this rfl
        rcases h.left k₀ row₀ old.val.id old hrow₀ hcov hold hrow' hlive' with
          hleft | ⟨keep, hk, hr⟩
        · left
          by_cases hir : r = i
          · subst hir
            rw [Conf.set_procs_self]
            exact .of_calm (advance_calm (fun q hq => by rw [hpc] at hq; cases hq) hprog)
          · exact (hleft.not_rotated h.coherent hir hpc hscan).other_step hkept.rely hir
        · exact .inr ⟨keep, hk, (hexcused keep _ hr).tail hlink⟩

theorem AtRest.chased (h : AtRest c) (r : Nat) (rev : Revocation) :
    Chased c r rev c where
  coherent := h.coherent
  linked := h.linked
  stays k row hrow := ⟨row, hrow, .refl _⟩
  left _ _ _ _ _ _ _ _ _ := by
    left
    rw [h.idle r]
    rfl

/-- **A revocation ends the chains it covers**, in every run in which no
rotation commits while the `UPDATE` has still to visit the session it
replaces: once it has committed, every session reached from one it covers
is revoked, unless it is reached from the kept session. -/
theorem revoked_of_no_rotation_in_scan {c₀ c : SessionConf} {r : Nat} {rev : Revocation}
    (hone : ∀ id, rev ≠ .one id) (h₀ : AtRest c₀)
    (hrun : Steps sessionProgram (NoRotationInScan r) c₀ c)
    (hdone : (c.procs r).hasRevoked rev = true) {k₀ k : Uuid} {row₀ row : SessionRow}
    (hrow₀ : c₀.shared.store k₀ = some row₀) (hcov : rev.covers row₀.val = true)
    (hreach : c.shared.store.Reaches k₀ k) (hrow : c.shared.store k = some row) :
    row.val.revokedAt.isSome ∨ ∃ keep, rev.kept = some keep ∧ c.shared.store.Reaches keep k := by
  have hchased : Chased c₀ r rev c :=
    hrun.invariant (fun _ _ a _ _ hc hok hprog => hc.step (a := a) hone hok hprog)
      (h₀.chased r rev)
  by_cases hlive : row.val.revokedAt = none
  · rcases hchased.left k₀ row₀ k row hrow₀ hcov hreach hrow hlive with hleft | hkept
    · exfalso
      revert hleft hdone
      cases c.procs r with
      | revoke q => cases q <;> simp_all [LeftTo, Pc.hasRevoked]
      | _ => simp_all [LeftTo]
    · exact .inr hkept
  · exact .inl (Option.ne_none_iff_isSome.mp hlive)

/-! ### A sign-in, its refresh and a revocation -/

/-- The table after one sign-in: the session 2 of the account 1. -/
def oneSession : SessionConf where
  shared := ((runFrom shortSessions (instant 100) (signInSchedule 0 webSignIn 1 1 2)).getD
    (initial shortSessions (instant 100))).shared
  procs _ := .idle

theorem oneSession_atRest : AtRest oneSession := by
  obtain ⟨c, hc, hdone⟩ : ∃ c ∈ runFrom shortSessions (instant 100)
      (signInSchedule 0 webSignIn 1 1 2), (c.procs 0).running = false := by
    decide +kernel
  have heq : oneSession = ⟨c.shared, fun _ => .idle⟩ := by rw [oneSession, hc, Option.getD_some]
  rw [heq]
  refine atRest_of_runFrom hc fun i hi => ?_
  have hi0 : i = 0 := by simpa [signInSchedule] using hi
  rw [hi0]
  exact hdone

/-- The refresh of request 1 stands before its `COMMIT`; then
`revoke_all` (request 2) lists the sessions and begins. -/
def refreshAndRevokeAll : List (Nat × Act) :=
  refreshSchedule 1 ⟨1, none, none, none⟩ 2 ++ rotateSchedule 1 3 ++
    [(2, .start (revokeAll 1 2 false)), (2, .go {}), (2, .go {})]

/-- The snapshot of the `UPDATE` is taken, the rotation commits, the
`UPDATE` finds the session 2 revoked. -/
def rotationInScan : List (Nat × Act) :=
  refreshAndRevokeAll ++ [(2, .go {}), (1, .go {}), (2, .go { row := 2 }), (2, .go {}),
    (2, .go {}), (2, .go {}), (2, .go {})]

/-- Both requests succeed, and the session 3, which replaced the revoked
session 2, is left unrevoked. -/
theorem rotation_escapes :
    ∃ c, exec sessionProgram Free oneSession rotationInScan = some c ∧ AtRest oneSession ∧
      (c.procs 1).outcome = some (.tokens 3) ∧
      (c.procs 2).outcome = some (.revoked (.allByUser 1)) ∧
      (∃ old, oneSession.shared.store 2 = some old ∧
        (Revocation.allByUser 1).covers old.val = true) ∧
      c.shared.store.Reaches 2 3 ∧
      ∃ new, c.shared.store 3 = some new ∧ new.val.revokedAt = none := by
  obtain ⟨c, hc, h₁, h₂, ⟨old, hold⟩, hlink, hnew⟩ :
      ∃ c ∈ exec sessionProgram Free oneSession rotationInScan,
      (c.procs 1).outcome = some (.tokens 3) ∧
      (c.procs 2).outcome = some (.revoked (.allByUser 1)) ∧
      (∃ r ∈ oneSession.shared.store 2, (Revocation.allByUser 1).covers r.val) ∧
      (∃ r ∈ c.shared.store 2, r.val.replacedBySessionId = some 3) ∧ ∃ r ∈ c.shared.store 3,
      r.val.revokedAt = none := by
    decide +kernel
  exact ⟨c, hc, oneSession_atRest, h₁, h₂, ⟨old, hold⟩, .single hlink, hnew⟩

/-- The rotation commits before the snapshot, and the `UPDATE` revokes
the session 3. -/
def rotationBeforeScan : List (Nat × Act) :=
  refreshAndRevokeAll ++ [(1, .go {}), (2, .go {}), (2, .go { row := 3 }), (2, .go {}),
    (2, .go {}), (2, .go {}), (2, .go {})]

theorem revoked_of_rotation_before_scan :
    ∃ c, exec sessionProgram (NoRotationInScan 2) oneSession rotationBeforeScan = some c ∧
      c.shared.store.Reaches 2 3 ∧
      ∃ row, c.shared.store 3 = some row ∧ row.val.revokedAt.isSome := by
  obtain ⟨c, hc, hdone, ⟨old, hold, hcov⟩, hlink, hsome⟩ :
      ∃ c ∈ exec sessionProgram (NoRotationInScan 2) oneSession rotationBeforeScan,
      (c.procs 2).hasRevoked (.allByUser 1) ∧
      (∃ r ∈ oneSession.shared.store 2, (Revocation.allByUser 1).covers r.val) ∧
      (∃ r ∈ c.shared.store 2, r.val.replacedBySessionId = some 3) ∧ (c.shared.store 3).isSome := by
    decide +kernel
  obtain ⟨row, hrow⟩ := Option.isSome_iff_exists.mp hsome
  refine ⟨c, hc, .single hlink, row, hrow, ?_⟩
  rcases revoked_of_no_rotation_in_scan (fun _ => Revocation.noConfusion) oneSession_atRest
    (steps_of_exec hc) hdone hold hcov (.single hlink) hrow with h | ⟨keep, hkeep, -⟩
  · exact h
  · cases hkeep

end AuthApi
