import AuthApi.RevocationStamp

/-!
# No session outlives its sign-in

`Lifetime` follows one chain of rotations. In the service a refresh
computes an expiry from a session it has read statements ago, and
commits it after others have revoked, refreshed or reconfigured. What it
has computed stays within the lifetime of the family all the same
(`session_within_lifetime`): the family and its start are of the row it
will lock, whoever changes that row.
-/

namespace AuthApi

open Conc

def Session.Capped (L : Nat) (s : Session) : Prop :=
  s.expiresAt ≤ s.familyCreatedAt.saturatingAdd (seconds L)

/-- A rotation is given the start of the family it computes the expiry
from. -/
def NewSession.Capped (L : Nat) (input : NewSession) : Prop :=
  ∃ t, input.familyCreatedAt = some t ∧ input.expiresAt ≤ t.saturatingAdd (seconds L)

/-- What a request has computed for the session it is to commit. -/
def Pc.Capped (L : Nat) (clock : OffsetDateTime) : Pc → Prop
  | .issue (.start _ cfg now _) => cfg.maxSessionLifetimeSecs = L ∧ now ≤ clock
  | .issue (.insert _ cfg now _ startedAt) =>
    cfg.maxSessionLifetimeSecs = L ∧ ∃ start, startedAt = start.toMicros ∧ now ≤ start
  | .issue (.commit new) => new.val.Capped L
  | .rotate (.start _ _ input) => input.Capped L
  | .rotate (.lock _ _ input _) => input.Capped L
  | .rotate (.insert input _ _) => input.Capped L
  | .rotate (.update _ _ new) => new.val.Capped L
  | .rotate (.commit _ _ new) => new.val.Capped L
  | _ => True

section Steps

variable {L i : Nat} {ch : Choice} {s s' : Shared} {pc pc' : Pc} {input : NewSession} {a : Act}

theorem NewSession.Capped.replace (h : input.Capped L) (now : OffsetDateTime) (id : Uuid)
    (old : Session) : (input.replace now id old).Capped L := by
  obtain ⟨t, ht, hle⟩ := h
  simp only [Session.Capped, NewSession.replace, NewSession.create, ht, Option.getD_some]
  exact (OffsetDateTime.toMicros_le _).trans hle

theorem IssueStepped.capped {q : IssuePc} (hq : (Pc.issue q).Capped L s.clock)
    (hL : s.config.maxSessionLifetimeSecs = L) (h : IssueStepped i s ch q s' pc') :
    pc'.Capped L s'.clock := by
  cases h with
  | drew => exact ⟨hL, le_rfl⟩
  | began => exact ⟨hq.1, _, rfl, hq.2⟩
  | inserted _ hval =>
    obtain ⟨hcfg, start, rfl, hle⟩ := hq
    rw [Pc.Capped, hval]
    exact (issued_within _ _ _ _ hcfg hle).expires_le
  | refused | committed => trivial

theorem RotateStepped.capped {q : RotatePc} (hq : (Pc.rotate q).Capped L s.clock)
    (h : RotateStepped i s ch q s' pc') : pc'.Capped L s'.clock := by
  cases h with
  | began | locked | updated => exact hq
  | inserted hval =>
    rw [Pc.Capped, hval]
    exact hq.replace _ _ _
  | refused | lost | committed => trivial

theorem Pc.Capped.mono {clock clock' : OffsetDateTime} (h : pc.Capped L clock)
    (hle : clock ≤ clock') : pc.Capped L clock' := by
  cases pc with
  | issue q =>
    cases q with
    | start => exact ⟨h.1, h.2.trans hle⟩
    | _ => exact h
  | rotate q => cases q <;> exact h
  | _ => trivial

theorem Pc.Capped.step (hpc : pc.Capped L s.clock) (hL : s.config.maxSessionLifetimeSecs = L)
    (h : sessionProgram i a s pc = some (s', pc')) : pc'.Capped L s'.clock := by
  cases stepped h with
  | tick hle => exact hpc.mono hle
  | configure => exact hpc
  | @start call => cases call <;> trivial
  | fail => trivial
  | go hgo =>
    cases pc with
    | idle | done => cases hgo
    | issue => exact (issueStepped hgo).capped hpc hL
    | refresh =>
      cases refreshStepped hgo with
      | drew => exact ⟨_, rfl, hL ▸ min_le_right _ _⟩
      | _ => trivial
    | rotate => exact (rotateStepped hgo).capped hpc
    | revoke => cases revokeStepped hgo <;> trivial
    | verify => cases verifyStepped hgo <;> trivial

end Steps

/-! ## Runs -/

structure LifetimeOk (L : Nat) (c : SessionConf) : Prop where
  coherent : Coherent c
  rows : ∀ k row, c.shared.store k = some row → row.val.Capped L
  procs : ∀ i, (c.procs i).Capped L c.shared.clock

theorem LifetimeOk.set {L i : Nat} {c : SessionConf} {a : Act} {s : Shared} {pc : Pc}
    (h : LifetimeOk L c) (hL : c.shared.config.maxSessionLifetimeSecs = L)
    (hprog : sessionProgram i a c.shared (c.procs i) = some (s, pc)) :
    LifetimeOk L (c.set i s pc) := by
  have hclock := (h.coherent.kept hprog).rely.clock
  refine ⟨h.coherent.set hprog, fun k row hrow => ?_, fun j => ?_⟩
  · rcases h.coherent.creating_or_evolves hprog hrow with ⟨old, hold, hev⟩ | ⟨-, hnew⟩
    · rw [Session.Capped, hev.expiresAt, ← hev.kin.familyCreatedAt]
      exact h.rows k old hold
    · -- The row is the one the step was to commit.
      have hown := h.procs i
      generalize c.procs i = p at hown hnew
      cases p with
      | issue q | rotate q => cases q <;> cases hnew; exact hown
      | _ => cases hnew
  · refine Conf.set_cases j ?_ fun j _ => ?_
    · exact (h.procs i).step hL hprog
    · exact (h.procs j).mono hclock

/-- **No session outlives its sign-in.** Whatever requests interleave, and
whichever refresh TTLs are configured on the way, a session expires at most
the maximum lifetime after its family began, as long as that setting stays. -/
theorem session_within_lifetime {L : Nat} {cfg : JwtConfig} {clock : OffsetDateTime}
    {c : SessionConf} (hrun : Steps sessionProgram
      (fun c _ _ => c.shared.config.maxSessionLifetimeSecs = L) (initial cfg clock) c)
    {k : Uuid} {row : SessionRow} (hrow : c.shared.store k = some row) :
    row.val.expiresAt ≤ row.val.familyCreatedAt.saturatingAdd (seconds L) := by
  have h : LifetimeOk L c := by
    refine hrun.invariant (fun _ _ _ _ _ hc hL hprog => hc.set hL hprog)
      ⟨coherent_initial cfg clock, fun k row hrow => ?_, fun _ => trivial⟩
    cases hrow
  exact h.rows k row hrow

theorem refreshed_within_lifetime :
    ∃ c row, Steps sessionProgram (fun c _ _ => c.shared.config.maxSessionLifetimeSecs = 3600)
        (initial shortSessions (instant 100)) c ∧ c.shared.store 3 = some row ∧
      row.val.expiresAt ≤ row.val.familyCreatedAt.saturatingAdd (seconds 3600) := by
  obtain ⟨c, hexec, hsome⟩ : ∃ c ∈ exec sessionProgram
      (fun c _ _ => c.shared.config.maxSessionLifetimeSecs = 3600)
      (initial shortSessions (instant 100)) refreshedOnce, (c.shared.store 3).isSome := by
    decide +kernel
  obtain ⟨row, hrow⟩ := Option.isSome_iff_exists.mp hsome
  exact ⟨c, row, steps_of_exec hexec, hrow, session_within_lifetime (steps_of_exec hexec) hrow⟩

end AuthApi
