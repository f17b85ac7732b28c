import AuthApi.Lifetime
import AuthApi.MethodTable
import Mathlib.Tactic.MkIffOfInductiveProp

/-!
# Which secret a setup has proven

`verify_setup` reads the method, checks a code against the secret it has
read, and marks the row by its id. A second setup may give the row a new
secret in between: the mark then stands for a secret nobody has shown a
code of. The endpoint for mailed codes marks the row it is given
whatever its type, so it too can verify a TOTP method
(`stale_secret_verified`).

A method becomes verified with a code of its own secret as long as no
setup restarts a method that a `verify_setup` has read and not marked
yet, and mailed codes are not used on TOTP methods
(`verified_with_own_code`).
-/

namespace AuthApi

open Conc Pg.Db

/-! ## The condition -/

/-- The method a `verify_setup` has read and not marked yet. -/
def FactorFlow.verifying : FactorFlow → Option Uuid
  | .activate (.check request _) => some request.methodId
  | .activate (.mark request _) => some request.methodId
  | _ => none

/-- The method a setup is about to restart. -/
def FactorFlow.restarting : FactorFlow → Option Uuid
  | .setup (.restart _ id _) => some id
  | _ => none

/-- The method that is about to be marked for a mailed code. -/
def FactorFlow.markingMailed : FactorFlow → Option Uuid
  | .activate (.mark request _) => if request.endpoint = .email then some request.methodId else none
  | _ => none

/-- A mailed code does not verify a TOTP method. -/
@[mk_iff]
structure TypedMark (c : FactorConf) (i : Nat) (a : FactorAct) : Prop where
  typed : ∀ id ∈ (a.executes (c.procs i).own).markingMailed,
    ∀ r ∈ c.shared.methods.committed id, r.val.methodType ≠ .totp

/-- A setup does not restart a method that request `j` is verifying. -/
@[mk_iff]
structure SecretKept (c : FactorConf) (i : Nat) (a : FactorAct) (j : Nat) : Prop where
  kept : ∀ id ∈ (a.executes (c.procs i).own).restarting, (c.procs j).own.verifying ≠ some id

structure ProvesOwnSecret (c : FactorConf) (i : Nat) (a : FactorAct) : Prop
    extends TypedMark c i a where
  others : ∀ j, SecretKept c i a j

/-! ## What a verification knows -/

/-- The method has this secret as long as it is not verified. -/
def FactorState.Holds (s : FactorState) (id : Uuid) (secret : Secret) : Prop :=
  ∃ r, s.methods.committed id = some r ∧
    (r.val.isVerified = false → r.val.totpSecret = some secret)

def FactorFlow.Proves (s : FactorState) : FactorFlow → Prop
  | .activate (.check request pc) =>
    (∀ r, pc.reading = some r → r.Right s.config) ∧
      (request.endpoint = .totp → (∃ error, pc = .refused error) ∨
        ∃ secret, pc.secret = some secret ∧ s.Holds request.methodId secret)
  | .activate (.mark request evidence) =>
    request.endpoint = .totp →
      ∃ r, evidence = .totp r ∧ r.Right s.config ∧ s.Holds request.methodId r.secret
  | _ => True

variable {c : FactorConf} {i : Nat} {a : FactorAct} {inp : FactorInput} {s s' : FactorState}
  {p p' : FactorProc} {own : FactorFlow} {id : Uuid}

theorem FactorState.Holds.step {secret : Secret} (h : s.Holds id secret) (hok : MethodsOk s.methods)
    (hstep : FactorStepped i s p a s' p') (hkept : (a.executes p.own).restarting ≠ some id) :
    s'.Holds id secret := by
  obtain ⟨r, hr, hsecret⟩ := h
  rcases hstep.methods.committed_cases hok id with ⟨r₀, r', hr₀, hr', hev⟩ | ⟨hnone, -⟩
  · cases hr.symm.trans hr₀
    refine ⟨r', hr', fun hun => ?_⟩
    cases hev with
    | follows hfollows =>
      rw [hfollows.totpSecret_eq]
      exact hsecret (hfollows.isVerified_eq ▸ hun)
    | restarted hown =>
      rw [hown, key_of_committed hr'] at hkept
      exact absurd rfl hkept
    | marked _ _ _ hnew =>
      rw [(MethodRow.markVerified_eq_some hnew).1] at hun
      cases hun
  · cases hr.symm.trans hnone

theorem FactorFlow.Proves.stable (h : own.Proves s) (hok : MethodsOk s.methods)
    (hstep : FactorStepped i s p a s' p')
    (hkept : ∀ id ∈ (a.executes p.own).restarting, own.verifying ≠ some id) : own.Proves s' := by
  have hholds : ∀ {id secret}, own.verifying = some id → s.Holds id secret →
      s'.Holds id secret := fun hid hs =>
    hs.step hok hstep fun hres => hkept _ hres hid
  cases own with
  | activate pc =>
    cases pc with
    | check =>
      refine ⟨fun r hr => hstep.config ▸ h.1 r hr, fun htotp => ?_⟩
      rcases h.2 htotp with hrefused | ⟨secret, hsecret, hs⟩
      · exact .inl hrefused
      · exact .inr ⟨secret, hsecret, hholds rfl hs⟩
    | mark =>
      intro htotp
      obtain ⟨r, hr, hright, hs⟩ := h htotp
      exact ⟨r, hr, hstep.config ▸ hright, hholds rfl hs⟩
    | _ => trivial
  | _ => trivial

theorem ActivateStepped.proves {pc : ActivatePc} (h : (FactorFlow.activate pc).Proves s)
    (hgo : ActivateStepped i inp s pc s' own) : own.Proves s' := by
  cases hgo with
  | @found request r pc hr _ hjudge =>
    simp only [Activation.judge] at hjudge
    split at hjudge
    · cases hjudge
    · split at hjudge
      · cases hjudge
        exact ⟨(fun _ hr => by cases hr), fun htotp => by simp_all⟩
      · split at hjudge <;> cases hjudge
        rename_i secret hsecret
        exact ⟨(fun _ hr => by cases hr),
          fun _ => .inr ⟨secret, rfl, r, hr, fun _ => hsecret⟩⟩
  | @passed request evidence =>
    obtain ⟨hright, hsecret⟩ := h
    intro htotp
    rcases hsecret htotp with ⟨error, herror⟩ | ⟨secret, hs, hholds⟩
    · cases herror
    · cases evidence with
      | totp r =>
        cases hs
        exact ⟨r, rfl, hright r rfl, hholds⟩
      | _ => cases hs
  | checked hcheck =>
    obtain ⟨hright, hsecret⟩ := h
    have hframe := hcheck.frame
    refine ⟨fun r hr => ?_, fun htotp => ?_⟩
    · rw [hframe.config]
      rcases hcheck.reading hr with hr | ⟨-, -, hr, -⟩
      · exact hright r hr
      · exact hr
    · rcases hsecret htotp with ⟨error, rfl⟩ | ⟨secret, hs, r, hr, hun⟩
      · cases hcheck with
        | refused => exact .inl ⟨_, rfl⟩
      · rcases hcheck.secret hs with hrefused | hs'
        · exact .inl hrefused
        · exact .inr ⟨secret, hs', r, hframe.methods ▸ hr, hun⟩
  | _ => trivial

theorem FactorFlow.proves_of_kind (h : own.kind ≠ some .activate) : own.Proves s := by
  cases own with
  | activate => exact absurd rfl h
  | _ => trivial

theorem ownStep_proves (h : p.own.Proves s) (hgo : ownStep i inp s p = some (s', own)) :
    own.Proves s' := by
  by_cases hkind : p.own.kind = some .activate
  · obtain ⟨pc, hpc⟩ := FactorFlow.eq_activate hkind
    rw [hpc] at h
    simp only [ownStep, hpc] at hgo
    exact (activateStepped hgo).proves h
  · refine FactorFlow.proves_of_kind ?_
    rcases ownStep_next hgo with hsame | ⟨error, rfl⟩
    · rw [hsame]
      exact hkind
    · nofun

/-! ## Every run -/

/-- The invariant: every request knows what it has proven. -/
structure Proven (c : FactorConf) : Prop where
  methods : MethodsOk c.shared.methods
  procs : ∀ i, (c.procs i).own.Proves c.shared

theorem Proven.step (h : Proven c) (hok : ProvesOwnSecret c i a)
    (hprog : factorProgram i a c.shared (c.procs i) = some (s, p)) : Proven (c.set i s p) := by
  have hstep := factorStepped hprog
  have hstable : ∀ j, (c.procs j).own.Proves s := fun j =>
    (h.procs j).stable h.methods hstep (hok.others j).kept
  refine ⟨hstep.methods.ok h.methods, fun j => ?_⟩
  refine Conf.set_cases j ?_ fun j _ => ?_
  · show p.own.Proves s
    generalize hown : p.own = own
    have hmoved := hown ▸ hstep.moved
    cases hmoved with
    | stays => exact hstable i
    | enters call => cases call <;> trivial
    | ends | commits | givesUp => trivial
    | goes _ hgo => exact ownStep_proves (h.procs i) hgo
  · exact hstable j

theorem proven_initial (config : FactorConfig) (cfg : JwtConfig) (deviceAuth : DeviceAuthConfig)
    (clock : OffsetDateTime) (ahead : Int) :
    Proven (factorInitial config cfg deviceAuth clock ahead) :=
  ⟨methodsOk_empty, fun _ => trivial⟩

/-- A method becomes verified when a `verify_setup` marks it, and no other
way. -/
theorem FactorStepped.verifies (h : FactorStepped i s p a s' p') (hok : MethodsOk s.methods)
    {r r' : MethodRow} (hold : s.methods.committed id = some r)
    (hnew : s'.methods.committed id = some r') (hun : r.val.isVerified = false)
    (hver : r'.val.isVerified = true) :
    ∃ request evidence now, a.executes p.own = .activate (.mark request evidence) ∧
      request.methodId = id ∧ r.markVerified now = some r' := by
  rcases h.methods.committed_cases hok id with ⟨r₀, r₁, hr₀, hr₁, hev⟩ | ⟨hnone, -⟩
  · cases hold.symm.trans hr₀
    cases hnew.symm.trans hr₁
    cases hev with
    | follows hfollows =>
      rw [hfollows.isVerified_eq, hun] at hver
      cases hver
    | restarted _ _ hrestart =>
      rw [(MethodRow.restart_eq_some hrestart).1] at hver
      exact absurd (hver.symm.trans hun) (by decide)
    | @marked request evidence now hown hkey _ hmark =>
      have hid : r'.val.id = id := s'.methods.keyed id r' (.inl hnew)
      exact ⟨request, evidence, now, hown, hkey.symm.trans hid, hmark⟩
  · cases hold.symm.trans hnone

/-- **The secret that was proven.** In a run that meets the condition, a
step that makes a TOTP method verified is the mark of a `verify_setup` of
that method, whose code was, within the skew, one of the secret the row
has then. -/
theorem verified_with_own_code {config : FactorConfig} {cfg : JwtConfig}
    {deviceAuth : DeviceAuthConfig} {clock : OffsetDateTime} {ahead : Int} {c : FactorConf}
    (hrun : Steps factorProgram ProvesOwnSecret
      (factorInitial config cfg deviceAuth clock ahead) c)
    {i : Nat} {a : FactorAct} {s : FactorState} {p : FactorProc} (hok : ProvesOwnSecret c i a)
    (hprog : factorProgram i a c.shared (c.procs i) = some (s, p)) {id : Uuid} {r r' : MethodRow}
    (hold : c.shared.methods.committed id = some r) (hnew : s.methods.committed id = some r')
    (htotp : r.val.methodType = .totp) (hun : r.val.isVerified = false)
    (hver : r'.val.isVerified = true) :
    ∃ request reading secret, (c.procs i).own = .activate (.mark request (.totp reading)) ∧
      request.methodId = id ∧ r'.val.totpSecret = some secret ∧
      verifyCode config.totp config.totpSkew secret reading.code
        (reading.readAt / nanosPerSec) = some true := by
  have h : Proven c :=
    hrun.invariant (fun _ _ a _ _ hc hok hprog => hc.step (a := a) hok hprog)
      (proven_initial config cfg deviceAuth clock ahead)
  obtain ⟨request, evidence, now, hown, rfl, hmark⟩ :=
    (factorStepped hprog).verifies h.methods hold hnew hun hver
  have hown' : (c.procs i).own = .activate (.mark request evidence) := by
    cases a <;> first | exact hown | cases hown
  -- A mailed code cannot have marked a TOTP method.
  have hendpoint : request.endpoint = .totp := by
    cases hendpoint : request.endpoint with
    | totp => rfl
    | email =>
      have hmailed : request.methodId ∈ (a.executes (c.procs i).own).markingMailed := by
        simp [hown, FactorFlow.markingMailed, hendpoint]
      exact absurd htotp (hok.typed _ hmailed r hold)
  have hproves := h.procs i
  rw [hown'] at hproves
  obtain ⟨reading, rfl, hright, r₀, hr₀, hsecret⟩ := hproves hendpoint
  cases hold.symm.trans hr₀
  refine ⟨request, reading, reading.secret, hown', rfl, ?_, ?_⟩
  · rw [(MethodRow.markVerified_eq_some hmark).1]
    exact hsecret hun
  · rw [Reading.Right, config_run hrun] at hright
    exact hright

/-! ## A setup in between -/

/-- The reading by which a method is about to be marked. -/
def FactorFlow.markedBy : FactorFlow → Option Reading
  | .activate (.mark _ (.totp reading)) => some reading
  | _ => none

/-- Account 1 sets TOTP up with secret 7, and a code of it is accepted.
Before the method is marked, the setup is restarted with secret 8; the
mark then verifies a method whose secret the code is not of. -/
theorem stale_secret_verified :
    ∃ c, Steps factorProgram Free
        (factorInitial defaultFactors shortSessions ⟨300, 5⟩ (instant 1000) 0) c ∧
      ∃ s p r r', factorProgram 1 (.go {}) c.shared (c.procs 1) = some (s, p) ∧
        c.shared.methods.committed 100 = some r ∧ s.methods.committed 100 = some r' ∧
        r.val.methodType = .totp ∧ r.val.isVerified = false ∧ r'.val.isVerified = true ∧
        ¬ ∃ request reading secret, (c.procs 1).own = .activate (.mark request (.totp reading)) ∧
          request.methodId = 100 ∧ r'.val.totpSecret = some secret ∧
          verifyCode defaultFactors.totp defaultFactors.totpSkew secret reading.code
            (reading.readAt / nanosPerSec) = some true := by
  obtain ⟨c, hexec, ⟨s, p⟩, hprog, ⟨r, hr, htotp, hun⟩, ⟨r', hr', hver, hsecret⟩, read, hread,
      hwrong⟩ : ∃ c ∈ exec factorProgram Free
      (factorInitial defaultFactors shortSessions ⟨300, 5⟩ (instant 1000) 0)
      (setupSchedule 0 ⟨1, .totp, some 7⟩ 100 ++ proveSetupSchedule 1 ⟨1, 100, .totp, 7033⟩ ++
      setupSchedule 2 ⟨1, .totp, some 8⟩ 101),
      ∃ next ∈ factorProgram 1 (.go {}) c.shared (c.procs 1),
      (∃ r ∈ c.shared.methods.committed 100, r.val.methodType = .totp ∧ r.val.isVerified = false) ∧
      (∃ r' ∈ next.1.methods.committed 100, r'.val.isVerified = true ∧
      r'.val.totpSecret = some 8) ∧ ∃ reading ∈ (c.procs 1).own.markedBy,
      verifyCode defaultFactors.totp defaultFactors.totpSkew 8 reading.code
      (reading.readAt / nanosPerSec) = some false := by
    decide +kernel
  refine ⟨c, steps_of_exec hexec, s, p, r, r', hprog, hr, hr', htotp, hun, hver, ?_⟩
  rintro ⟨request, reading, secret, hown, -, hs, hright⟩
  cases hsecret.symm.trans hs
  rw [hown] at hread
  cases hread
  rw [hwrong] at hright
  cases hright

section Below

instance (j : Nat) : Decidable (SecretKept c i a j) :=
  decidable_of_iff _ (secretKept_iff c i a j).symm

instance : Decidable (TypedMark c i a) :=
  decidable_of_iff _ (typedMark_iff c i a).symm

theorem SecretKept.of_idle {j : Nat} (hidle : (c.procs j).own = .idle) : SecretKept c i a j where
  kept := by simp [hidle, FactorFlow.verifying]

theorem steps_provesOwnSecret {n : Nat} {c c' : FactorConf}
    (h : Steps factorProgram (Below n TypedMark SecretKept) c c')
    (hidle : ∀ j, n ≤ j → (c.procs j).own = .idle) :
    Steps factorProgram ProvesOwnSecret c c' :=
  (Steps.of_below (Q := fun p => p.own = .idle) (fun _ _ _ _ => .of_idle) h hidle).mono
    fun _ _ _ hok => ⟨hok.1, hok.2⟩

end Below

/-- Without the second setup the code is one of the method's secret. -/
theorem own_secret_verified :
    ∃ c s p r', Steps factorProgram ProvesOwnSecret
        (factorInitial defaultFactors shortSessions ⟨300, 5⟩ (instant 1000) 0) c ∧
      factorProgram 1 (.go {}) c.shared (c.procs 1) = some (s, p) ∧
      s.methods.committed 100 = some r' ∧ r'.val.isVerified = true ∧
      ∃ request reading secret, (c.procs 1).own = .activate (.mark request (.totp reading)) ∧
        request.methodId = 100 ∧ r'.val.totpSecret = some secret ∧
        verifyCode defaultFactors.totp defaultFactors.totpSkew secret reading.code
          (reading.readAt / nanosPerSec) = some true := by
  obtain ⟨c, hexec, ⟨r, hr, htotp, hun⟩, hok, hnot, ⟨s, p⟩, hprog, r', hr', hver⟩ :
      ∃ c ∈ exec factorProgram (Below 2 TypedMark SecretKept)
      (factorInitial defaultFactors shortSessions ⟨300, 5⟩ (instant 1000) 0)
      (setupSchedule 0 ⟨1, .totp, some 7⟩ 100 ++ proveSetupSchedule 1 ⟨1, 100, .totp, 7033⟩),
      (∃ r ∈ c.shared.methods.committed 100,
        r.val.methodType = .totp ∧ r.val.isVerified = false) ∧
      Below 2 TypedMark SecretKept c 1 (.go {}) ∧ (c.procs 1).own.restarting = none ∧
      ∃ next ∈ factorProgram 1 (.go {}) c.shared (c.procs 1),
      ∃ r' ∈ next.1.methods.committed 100, r'.val.isVerified = true := by
    decide +kernel
  have hsteps := steps_provesOwnSecret (steps_of_exec hexec) fun j _ => rfl
  have hstep : ProvesOwnSecret c 1 (.go {}) :=
    ⟨hok.2.1, fun j => ⟨by simp [FactorAct.executes, hnot]⟩⟩
  exact ⟨c, s, p, r', hsteps, hprog, hr', hver,
    verified_with_own_code hsteps hstep hprog hr hr' htotp hun hver⟩

end AuthApi
