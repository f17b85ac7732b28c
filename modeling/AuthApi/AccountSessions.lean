import AuthApi.AccountSteps

/-!
# The session system inside the account system

A step of a request is a step of the session system or leaves the
sessions alone (`accountProgram_part`). Every run of the account system
is therefore a run of the session system, seen through `sessionsOf`, and
what was proved of those runs holds of these.
-/

namespace AuthApi

open Conc

/-- What a step does to the sessions: nothing, or one step of the session
system. -/
inductive SessionPart (i : Nat) (s : AccountState) (p : Request) (s' : AccountState)
    (p' : Request) : Prop
  | same (hs : s'.sessions = s.sessions) (hp : p'.session = p.session)
  | stepped (a : Act)
      (h : sessionProgram i a s.sessions p.session = some (s'.sessions, p'.session))

section SessionPart

variable {i : Nat} {inp : Input} {s s' : AccountState} {p p' : Request} {call : Call} {flow : Flow}

theorem SessionPart.of_start (call : Call) (hidle : p.session = .idle)
    (hadmitted : call.admitted s.sessions = true) (hs : s'.sessions = s.sessions)
    (hp : p'.session = call.entry) : SessionPart i s p s' p' := by
  refine .stepped (.start call) ?_
  rw [hidle, hs, hp]
  exact if_pos hadmitted

theorem AccountState.call_part (h : s.call i p call flow = some (s', p')) :
    SessionPart i s p s' p' := by
  unfold AccountState.call at h
  split at h <;> cases h
  rename_i sessions pc hstart
  exact .stepped _ hstart

theorem ApproveStepped.part {pc : ApprovePc} (h : ApproveStepped i inp s p pc s' p') :
    SessionPart i s p s' p' := by
  cases h <;> exact .same rfl rfl

theorem RedeemStepped.part {pc : RedeemPc} (h : RedeemStepped i inp s p pc s' p') :
    SessionPart i s p s' p' := by
  cases h with
  | revokes _ _ _ _ _ hidle hpresent => exact .of_start (.revokeFamily _) hidle hpresent rfl rfl
  | issues hidle => exact .of_start (.issueTokens _) hidle rfl rfl rfl
  | _ => exact .same rfl rfl

theorem DeviceStepped.part {pc : DevicePc} (h : DeviceStepped i inp s p pc s' p') :
    SessionPart i s p s' p' := by
  cases h with
  | drawn hdraw =>
    obtain ⟨-, rfl⟩ := s.draw_eq_some hdraw
    exact .same rfl rfl
  | issuing hidle hs =>
    rcases hs with rfl | rfl <;> exact .of_start (.issueTokens _) hidle rfl rfl rfl
  | _ => exact .same rfl rfl

theorem SignInStepped.part {pc : SignInPc} (h : SignInStepped i inp s p pc s' p') :
    SessionPart i s p s' p' := by
  cases h with
  | issuing hidle => exact .of_start (.issueTokens _) hidle rfl rfl rfl
  | _ => exact .same rfl rfl

theorem CompleteStepped.part {pc : CompletePc} (h : CompleteStepped inp s p pc s' p') :
    SessionPart i s p s' p' := by
  cases h with
  | unlisted hidle => exact .of_start (.issueTokens _) hidle rfl (by split <;> rfl) rfl
  | _ => exact .same rfl rfl

theorem PasswordStepped.part {pc : PasswordPc} (h : PasswordStepped inp s p pc s' p') :
    SessionPart i s p s' p' := by
  cases h with
  | deleted | cleared => exact .same (by split <;> rfl) rfl
  | _ => exact .same rfl rfl

theorem recordChange_sessions (pc : Pc) : (s.recordChange p pc).sessions = s.sessions := by
  unfold AccountState.recordChange
  split
  · split <;> rfl
  · rfl

theorem recordIssue_sessions (pc : Pc) : (s.recordIssue p pc).sessions = s.sessions := by
  unfold AccountState.recordIssue
  split <;> rfl

theorem sessionStep_part {a : Act} (h : sessionStep i a s p = some (s', p')) :
    sessionProgram i a s.sessions p.session = some (s'.sessions, p'.session) := by
  obtain ⟨_, _, hstep, rfl, rfl⟩ := sessionStepped h
  rw [recordIssue_sessions, recordChange_sessions]
  exact hstep

theorem accountProgram_part {a : AccountAct} (h : accountProgram i a s p = some (s', p')) :
    SessionPart i s p s' p' := by
  cases accountMoved h with
  | session _ h => exact .stepped _ (sessionStep_part h)
  | @start call _ _ _ h =>
    cases call <;> first
      | exact AccountState.call_part h
      | (cases h; exact .same rfl rfl)
  | approve _ h => exact h.part
  | redeem _ h => exact h.part
  | device _ h => exact h.part
  | signIn _ h => exact h.part
  | complete _ h => exact h.part
  | password _ h => exact h.part
  | failed _ hfail => exact .stepped _ hfail
  | gaveUp => exact .same rfl rfl

end SessionPart

/-- The sessions of a configuration, and where the requests are in the
session code. -/
def sessionsOf (c : AccountConf) : SessionConf :=
  ⟨c.shared.sessions, fun i => (c.procs i).session⟩

theorem sessionsOf_set (c : AccountConf) (i : Nat) (s : AccountState) (p : Request) :
    sessionsOf (c.set i s p) = (sessionsOf c).set i s.sessions p.session := by
  simp only [sessionsOf, Conf.set, Conf.mk.injEq, true_and]
  funext j
  by_cases hj : j = i <;> simp [hj]

variable {c : AccountConf}

theorem sessionsOf_step {i : Nat} {a : AccountAct} {s : AccountState} {p : Request}
    (hprog : accountProgram i a c.shared (c.procs i) = some (s, p)) :
    sessionsOf (c.set i s p) = sessionsOf c ∨
      ∃ b, sessionProgram i b (sessionsOf c).shared ((sessionsOf c).procs i)
        = some (s.sessions, p.session) := by
  rw [sessionsOf_set]
  cases accountProgram_part hprog with
  | same hs hp =>
    left
    rw [hs, hp]
    simp only [sessionsOf, Conf.set, Conf.mk.injEq, true_and]
    exact Function.update_eq_self i _
  | stepped b hstep => exact .inr ⟨b, hstep⟩

/-- **Every run is a run of the session system.** -/
theorem steps_sessionsOf {ok : AccountConf → Nat → AccountAct → Prop} {c' : AccountConf}
    (h : Steps accountProgram ok c c') :
    Steps sessionProgram Free (sessionsOf c) (sessionsOf c') := by
  refine h.simulate fun c i a s p _ hprog => ?_
  rcases sessionsOf_step hprog with heq | ⟨b, hb⟩
  · rw [heq]
    exact .refl
  · rw [sessionsOf_set]
    exact .single (.mk trivial hb)

theorem AccountReachable.sessions (h : AccountReachable c) : Reachable (sessionsOf c) := by
  obtain ⟨cfg, deviceAuth, clock, hrun⟩ := h
  exact ⟨cfg, clock, steps_sessionsOf hrun⟩

end AuthApi
