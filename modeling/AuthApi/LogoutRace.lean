import AuthApi.RotationRace

/-!
# A logout racing a refresh

`logout` and the token revocation of RFC 7009 read a session and then
revoke it by its id, if it is still unrevoked. A refresh that rotates
the session in between leaves them nothing to revoke: the logout answers
as usual, and the session that replaced the old one goes on
(`refresh_survives_logout`).

The window is from the read to the commit. If no rotation of the session
commits in it, nothing of the family is active once the logout has
revoked (`no_active_after_logout`): the session was the only unrevoked
one of its family when it was read, and a family only grows by rotating
its unrevoked session.
-/

namespace AuthApi

open Conc Pg

/-- The session a logout or a token revocation is about to read. -/
def Pc.reads (s : Shared) : Pc → Option Uuid
  | .revoke (.logout sessionId _ _) => some sessionId
  | .revoke (.oauth _ tokenHash) => (s.findByTokenHash tokenHash).map Session.id
  | _ => none

/-- The revocation decided on and not committed yet. -/
def Pc.ending : Pc → Option Revocation
  | .revoke (.start rev _) => some rev
  | .revoke (.scan rev _ _) => some rev
  | .revoke (.visit rev _ _ _ _) => some rev
  | _ => none

/-- The request has ended and has revoked nothing. -/
def Pc.gaveUp : Pc → Bool
  | .done (.revoked _) => false
  | .done _ => true
  | _ => false

/-- The condition on a run: no rotation commits that replaces the one
session request `r` is ending. -/
def NoRotationOf (r : Nat) (c : SessionConf) (i : Nat) (a : Act) : Prop :=
  a.proceeds = true → ∀ id ∈ (c.procs i).replacing, (c.procs r).ending ≠ some (.one id)

instance (r : Nat) (c : SessionConf) (i : Nat) (a : Act) : Decidable (NoRotationOf r c i a) := by
  unfold NoRotationOf
  infer_instance

variable {a : Act} {i r : Nat} {pc pc' : Pc} {rev : Revocation} {s s' : Shared} {k family k₀ : Uuid}
  {c : SessionConf}

theorem Pc.ending_step (hpc : pc.ending = some rev) (h : sessionProgram i a s pc = some (s', pc')) :
    pc'.ending = some rev ∨ pc'.hasRevoked rev = true ∨ pc'.gaveUp = true := by
  cases stepped h with
  | tick | configure => exact .inl hpc
  | start hidle =>
    subst hidle
    cases hpc
  | fail => exact .inr (.inr rfl)
  | @go ch _ _ h =>
    cases pc with
    | revoke =>
      cases revokeStepped h with
      | started | scanned | skipped | updated => exact .inl hpc
      | committed | committedFamily =>
        cases hpc
        exact .inr (.inl (decide_eq_true rfl))
      | violated => exact .inr (.inr rfl)
      | _ => cases hpc
    | _ => cases hpc

theorem Pc.hasRevoked_step (hpc : pc.hasRevoked rev = true)
    (h : sessionProgram i a s pc = some (s', pc')) :
    pc'.hasRevoked rev = true ∨ a = .fail ∧ pc'.gaveUp = true := by
  cases stepped h with
  | tick | configure => exact .inl hpc
  | start hidle =>
    subst hidle
    cases hpc
  | fail => exact .inr ⟨rfl, rfl⟩
  | @go ch _ _ h =>
    cases pc with
    | revoke =>
      cases revokeStepped h with
      | familyIds | forgot | forgets => exact .inl hpc
      | _ => cases hpc
    | done => cases h
    | _ => cases hpc

theorem Pc.gaveUp_step (hpc : pc.gaveUp = true) (h : sessionProgram i a s pc = some (s', pc')) :
    pc'.gaveUp = true := by
  cases pc with
  | done =>
    cases stepped h with
    | tick | configure => exact hpc
    | start hidle => cases hidle
    | go h => cases h
    | fail hrunning => cases hrunning
  | _ => cases hpc

/-! ## The family while its session is being ended -/

/-- While request `r` is ending the session `k₀`, no other session of the
family is unrevoked; once it has ended it, none is. -/
structure Cornered (r : Nat) (k₀ family : Uuid) (c : SessionConf) : Prop where
  coherent : Coherent c
  present : ∃ row, c.shared.store k₀ = some row ∧ row.val.sessionFamilyId = family
  stage : (c.procs r).gaveUp = true ∨
    (((c.procs r).ending = some (.one k₀) ∨ (c.procs r).hasRevoked (.one k₀) = true) ∧
      ∀ k row, c.shared.store k = some row → row.val.sessionFamilyId = family →
        row.val.revokedAt = none → k = k₀ ∧ LeftTo c.shared.db r (.one k₀) k₀ (c.procs r))

theorem LeftTo.not_hasRevoked {db : SessionDb} (h : LeftTo db r rev k pc) :
    pc.hasRevoked rev = false := by
  cases pc with
  | revoke q =>
    cases q with
    | visit => rfl
    | _ => exact h
  | _ => exact h

theorem Cornered.unrevoked_before {row : SessionRow} (h : Cornered r k₀ family c)
    (hgave : (c.procs r).gaveUp = false) (hok : NoRotationOf r c i a)
    (hprog : sessionProgram i a c.shared (c.procs i) = some (s, pc)) (hrow : s.store k = some row)
    (hfam : row.val.sessionFamilyId = family) (hlive : row.val.revokedAt = none) :
    ∃ row₀, c.shared.store k = some row₀ ∧ row₀.val.sessionFamilyId = family ∧
      row₀.val.revokedAt = none := by
  rcases h.coherent.store_step hprog with heq | ⟨ch, op, rfl, hop, hstep⟩
  · exact ⟨row, heq ▸ hrow, hfam, hlive⟩
  rcases hstep.origin hrow with ⟨row₀, hrow₀, hev⟩ | ⟨-, hfresh⟩ |
      ⟨old, rotated, rfl, hold, hlive', hkin⟩
  · exact ⟨row₀, hrow₀, hev.kin.sessionFamilyId.trans hfam, hev.unrevoked hlive⟩
  · -- A sign-in starts another family.
    obtain ⟨row₁, hrow₁, hfam₁⟩ := h.present
    exact absurd (hfam₁.trans hfam.symm) (hfresh k₀ row₁ hrow₁)
  · -- The rotated session was the only unrevoked one, `k₀`.
    exfalso
    obtain hfail | ⟨hstage, honly⟩ := h.stage
    · rw [hfail] at hgave
      cases hgave
    obtain ⟨hid, hleft⟩ := honly old.val.id old hold (hkin.sessionFamilyId.trans hfam) hlive'
    have hpc := Pc.commits_rotate hop
    rcases hstage with hend | hrev
    · refine hok rfl k₀ ?_ hend
      rw [hpc]
      exact congrArg some hid
    · rw [hleft.not_hasRevoked] at hrev
      cases hrev

theorem Cornered.step (h : Cornered r k₀ family c) (hok : NoRotationOf r c i a)
    (hprog : sessionProgram i a c.shared (c.procs i) = some (s, pc)) :
    Cornered r k₀ family (c.set i s pc) := by
  have hkept := h.coherent.kept hprog
  refine ⟨h.coherent.set hprog, ?_, ?_⟩
  · obtain ⟨row, hrow, hfam⟩ := h.present
    obtain ⟨row', hrow', hev⟩ := hkept.rely.evolves hrow
    exact ⟨row', hrow', hev.kin.sessionFamilyId.symm.trans hfam⟩
  cases hgave : (c.procs r).gaveUp with
  | true =>
    left
    rcases c.procs_cases i s pc r with ⟨rfl, hset⟩ | ⟨hir, hset⟩ <;> rw [hset]
    · exact Pc.gaveUp_step hgave hprog
    · exact hgave
  | false =>
    obtain hfail | ⟨hstage, honly⟩ := h.stage
    · rw [hgave] at hfail
      cases hfail
    by_cases hir : r = i
    · subst hir
      rw [Conf.set_procs_self]
      have hstage' : pc.gaveUp = true ∨
          (pc.ending = some (.one k₀) ∨ pc.hasRevoked (.one k₀) = true) := by
        rcases hstage with hend | hrev
        · rcases Pc.ending_step hend hprog with h | h | h
          · exact .inr (.inl h)
          · exact .inr (.inr h)
          · exact .inl h
        · exact (Pc.hasRevoked_step hrev hprog).symm.imp And.right .inr
      refine hstage'.imp_right fun hst => ⟨hst, fun k row hrow hfam hlive => ?_⟩
      obtain ⟨row₀, hrow₀, hfam₀, hlive₀⟩ :=
        h.unrevoked_before hgave hok hprog hrow hfam hlive
      obtain ⟨rfl, hleft⟩ := honly k row₀ hrow₀ hfam₀ hlive₀
      have hid : row₀.val.id = k := c.shared.db.keyed k row₀ (.inl hrow₀)
      exact ⟨rfl, hleft.own_step (h.coherent.procs r) hprog hrow₀ (decide_eq_true hid) hrow
        hlive⟩
    · right
      refine ⟨?_, fun k row hrow hfam hlive => ?_⟩
      · rw [Conf.set_procs_of_ne _ _ _ hir]
        exact hstage
      · obtain ⟨row₀, hrow₀, hfam₀, hlive₀⟩ :=
          h.unrevoked_before hgave hok hprog hrow hfam hlive
        obtain ⟨rfl, hleft⟩ := honly k row₀ hrow₀ hfam₀ hlive₀
        exact ⟨rfl, hleft.other_step hkept.rely hir⟩

/-! ## Runs -/

theorem Pc.reads_step {ch : Choice} (hpc : pc.reads s = some k)
    (h : sessionProgram i (.go ch) s pc = some (s', pc')) :
    s' = s ∧ ((∃ forget, pc' = .revoke (.start (.one k) forget)) ∨ pc' = .done .nothing) := by
  cases pc with
  | revoke q =>
    cases q with
    | logout =>
      cases hpc
      cases h
      exact ⟨rfl, .inl ⟨_, rfl⟩⟩
    | oauth =>
      obtain ⟨session, hfind, rfl⟩ := Option.map_eq_some_iff.mp hpc
      simp only [sessionProgram, advance, revokeStep, hfind] at h
      split at h <;> cases h
      · exact ⟨rfl, .inl ⟨_, rfl⟩⟩
      · exact ⟨rfl, .inr rfl⟩
    | _ => cases hpc
  | _ => cases hpc

/-- **After a logout nothing of the family is active**, in every run in
which no rotation of the session commits between the read of the logout
and its commit. -/
theorem no_active_after_logout {c₀ c : SessionConf} {r : Nat} {ch : Choice} {s : Shared}
    {pc : Pc} {k₀ : Uuid} {row₀ : SessionRow} (h₀ : Reachable c₀)
    (hreads : (c₀.procs r).reads c₀.shared = some k₀)
    (hrow₀ : c₀.shared.store k₀ = some row₀)
    (hactive : row₀.val.isActive c₀.shared.clock = true)
    (hread : sessionProgram r (.go ch) c₀.shared (c₀.procs r) = some (s, pc))
    (hrun : Steps sessionProgram (NoRotationOf r) (c₀.set r s pc) c)
    (hdone : (c.procs r).hasRevoked (.one k₀) = true) {k : Uuid} {row : SessionRow}
    (hrow : c.shared.store k = some row)
    (hfam : row.val.sessionFamilyId = row₀.val.sessionFamilyId) :
      row.val.isActive c.shared.clock = false := by
  have hlive₀ : row₀.val.revokedAt = none := by
    simp only [Session.isActive, Bool.and_eq_true, Option.isNone_iff_eq_none] at hactive
    exact hactive.1
  obtain ⟨rfl, hpc⟩ := Pc.reads_step hreads hread
  have hstart : Cornered r k₀ row₀.val.sessionFamilyId (c₀.set r c₀.shared pc) := by
    refine ⟨h₀.coherent.set hread, ⟨row₀, hrow₀, rfl⟩, ?_⟩
    rw [Conf.set_procs_self]
    rcases hpc with ⟨forget, rfl⟩ | rfl
    · refine .inr ⟨.inl rfl, fun k row hrow hfam hlive => ⟨?_, rfl⟩⟩
      exact h₀.store.unrevoked_unique hrow hrow₀ hfam hlive hlive₀
    · exact .inl rfl
  have hend : Cornered r k₀ row₀.val.sessionFamilyId c :=
    hrun.invariant (fun _ _ a _ _ hc hok hprog => hc.step (a := a) hok hprog) hstart
  have hrevoked : row.val.revokedAt ≠ none := by
    intro hlive
    rcases hend.stage with hgave | ⟨-, honly⟩
    · revert hgave hdone
      cases c.procs r with
      | done outcome => cases outcome <;> simp [Pc.gaveUp, Pc.hasRevoked]
      | _ => simp [Pc.gaveUp]
    · obtain ⟨-, hleft⟩ := honly k row hrow hfam hlive
      rw [hleft.not_hasRevoked] at hdone
      cases hdone
  simp [Session.isActive, hrevoked]

/-! ### A logout and a refresh of the session 2 -/

/-- A sign-in, a refresh of its session 2 on the way to `rotate`, and a
logout about to read the session. -/
def logoutAndRefresh : List (Nat × Act) :=
  signInSchedule 0 webSignIn 1 1 2 ++ refreshSchedule 1 ⟨1, none, none, none⟩ 2 ++
    [(2, .start (.logout 2 9 1000))]

/-- The logout reads, the refresh replaces the session 2 by the session 3,
the logout finds nothing to revoke. -/
def rotationAfterRead : List (Nat × Act) :=
  [(2, .go {})] ++ rotateSchedule 1 3 ++ [(1, .go {})] ++
    [(2, .go {}), (2, .go {}), (2, .go {}), (2, .go {}), (2, .go {}), (2, .go {}), (2, .go {})]

/-- The logout found the session 2 active, both requests succeed, and the
session 3 of its family is active at the end. -/
theorem refresh_survives_logout :
    ∃ c₀ c, runFrom shortSessions (instant 100) logoutAndRefresh = some c₀ ∧
      exec sessionProgram Free c₀ rotationAfterRead = some c ∧
      (c₀.procs 2).reads c₀.shared = some 2 ∧
      (∃ row, c₀.shared.store 2 = some row ∧ row.val.isActive c₀.shared.clock = true ∧
        row.val.sessionFamilyId = 1) ∧
      (c.procs 2).outcome = some (.revoked (.one 2)) ∧
      (c.procs 1).outcome = some (.tokens 3) ∧
      ∃ row, c.shared.store 3 = some row ∧ row.val.sessionFamilyId = 1 ∧
        row.val.isActive c.shared.clock = true := by
  simp only [exists_and_left]
  decide +kernel

/-- The logout commits first, and the refresh loses the session. -/
def rotationAfterLogout : List (Nat × Act) :=
  [(2, .go {}), (2, .go {}), (2, .go { row := 2 }), (2, .go {}), (1, .go {}), (1, .go {})]

theorem no_active_when_logout_first :
    ∃ c₀ s pc c, runFrom shortSessions (instant 100) logoutAndRefresh = some c₀ ∧
      sessionProgram 2 (.go {}) c₀.shared (c₀.procs 2) = some (s, pc) ∧
      exec sessionProgram (NoRotationOf 2) (c₀.set 2 s pc) rotationAfterLogout = some c ∧
      ∃ row, c.shared.store 2 = some row ∧ row.val.isActive c.shared.clock = false := by
  obtain ⟨c₀, hc₀, ⟨s, pc⟩, hread, c, hc, hreads, hdone, row₀, hrow₀, hactive, row, hrow, hfam⟩ :
      ∃ c₀ ∈ runFrom shortSessions (instant 100) logoutAndRefresh,
      ∃ p ∈ sessionProgram 2 (.go {}) c₀.shared (c₀.procs 2),
      ∃ c ∈ exec sessionProgram (NoRotationOf 2) (c₀.set 2 p.1 p.2) rotationAfterLogout,
      (c₀.procs 2).reads c₀.shared = some 2 ∧ (c.procs 2).hasRevoked (.one 2) ∧
      ∃ r₀ ∈ c₀.shared.store 2, r₀.val.isActive c₀.shared.clock ∧ ∃ r ∈ c.shared.store 2,
      r.val.sessionFamilyId = r₀.val.sessionFamilyId := by
    decide +kernel
  exact ⟨c₀, s, pc, c, hc₀, hread, hc, row, hrow,
    no_active_after_logout (reachable_of_runFrom hc₀) hreads hrow₀ hactive hread
      (steps_of_exec hc) hdone hrow hfam⟩

end AuthApi
