import AuthApi.Lifetime
import AuthApi.MethodTable
import Mathlib.Tactic.MkIffOfInductiveProp

/-!
# Methods verified in the window of a reset

A reset removes the methods whose `created_at` is in its window. That
column is written by the setup, not by the verification: a method that
was set up before the window and verified inside it stays, and so does
one that is verified between the `DELETE` and the `COMMIT`
(`verified_in_window_kept`).

Where neither happens, no method that was verified in the window is left
after the `COMMIT`, save the one an administrator keeps
(`window_cleared`).
-/

namespace AuthApi

open Conc Pg.Db

/-- The method was marked verified after `since`. -/
def MethodRow.lateFor (userId : Uuid) (since : Int) (r : MethodRow) : Bool :=
  r.ofUser userId && r.verifiedAt.any fun t => since < t

variable {r : MethodRow} {since : Int} {userId : Uuid}

theorem MethodRow.lateFor_eq_true :
    r.lateFor userId since = true ↔
      (r.deleted = false ∧ r.val.userId = userId) ∧ ∃ t, r.verifiedAt = some t ∧ since < t := by
  simp only [lateFor, Bool.and_eq_true, ofUser_eq_true, Option.any_eq_true, decide_eq_true_eq]

theorem MethodRow.Follows.lateFor {r' : MethodRow} (h : r.Follows r')
    (hlate : r'.lateFor userId since = true) : r.lateFor userId since = true := by
  rw [lateFor_eq_true] at hlate ⊢
  obtain ⟨⟨hlive, huser⟩, hat⟩ := hlate
  refine ⟨⟨?_, h.userId_eq ▸ huser⟩, h.verifiedAt ▸ hat⟩
  by_contra hdeleted
  rw [h.deleted (by simpa using hdeleted)] at hlive
  cases hlive

/-! ## The condition -/

/-- The removal of a reset between the `DELETE` of its methods and its
`COMMIT`, with the rows the `DELETE` has still to visit. -/
def FactorFlow.clearing : FactorFlow → Option (Removal × List Uuid)
  | .reset (.delete d _ left) => some (d, left)
  | .reset (.passkeys d _) => some (d, [])
  | .reset (.identities d _) => some (d, [])
  | .reset (.promote d) => some (d, [])
  | .reset (.promoteRow d _) => some (d, [])
  | .reset (.codes d) => some (d, [])
  | .reset (.revoke d) => some (d, [])
  | .reset (.drop d _) => some (d, [])
  | .reset (.commit d) => some (d, [])
  | _ => none

/-- The account and the window of a reset that is about to delete
methods. -/
def FactorFlow.deleting : FactorFlow → Option (Uuid × Int)
  | .reset (.methods d since) => some (d.userId, since)
  | _ => none

/-- No method that was set up before the window has been verified in it. -/
@[mk_iff]
structure SetUpInWindow (c : FactorConf) (i : Nat) (a : FactorAct) : Prop where
  created : ∀ window ∈ (a.executes (c.procs i).own).deleting,
    ∀ r ∈ c.shared.methods.viewed i, r.lateFor window.1 window.2 = true →
      window.2 < r.val.createdAt

/-- A method of an account is not marked while request `j` is clearing the
account's window. -/
@[mk_iff]
structure MarkedApart (c : FactorConf) (i : Nat) (a : FactorAct) (j : Nat) : Prop where
  apart : ∀ id ∈ (a.executes (c.procs i).own).marking,
    ∀ r ∈ c.shared.methods.committed id,
      (c.procs j).own.clearing.map (·.1.userId) ≠ some r.val.userId

structure WindowKept (c : FactorConf) (i : Nat) (a : FactorAct) : Prop
    extends SetUpInWindow c i a where
  others : ∀ j, MarkedApart c i a j

/-! ## What a reset knows of the methods -/

/-- Every method verified in the window that transaction `i` still sees was
set up in it, and is kept, or one of `left`. -/
def Cleared (s : FactorState) (i : Nat) (d : Removal) (left : List Uuid) : Prop :=
  ∀ since, d.since = some since → ∀ k r, s.methods.view i k = some r →
    r.lateFor d.userId since = true →
      since < r.val.createdAt ∧ (d.kept = some (.method k) ∨ k ∈ left)

/-- A program point that has the window names the one of its removal. -/
def FactorFlow.windowed : FactorFlow → Bool
  | .reset (.methods d since) => d.since = some since
  | .reset (.delete d since _) => d.since = some since
  | .reset (.passkeys d since) => d.since = some since
  | .reset (.identities d since) => d.since = some since
  | _ => true

structure FactorFlow.Clears (own : FactorFlow) (i : Nat) (s : FactorState) : Prop where
  windowed : own.windowed = true
  cleared : ∀ d left, own.clearing = some (d, left) → Cleared s i d left

variable {c : FactorConf} {i : Nat} {a : FactorAct} {inp : FactorInput} {s s' : FactorState}
  {p p' : FactorProc} {own : FactorFlow} {d : Removal} {left : List Uuid} {k : Uuid}

theorem Cleared.congr (h : Cleared s i d left) (hm : s'.methods = s.methods) :
    Cleared s' i d left := by
  unfold Cleared
  rw [hm]
  exact h

theorem Cleared.changed {w : Option MethodRow} (h : Cleared s i d left)
    (hc : Changed i k w s.methods s'.methods)
    (hw : ∀ r' ∈ w, ∃ r, s.methods.view i k = some r ∧ r.Follows r') : Cleared s' i d left := by
  intro since hsince k' r' hr' hlate
  by_cases hne : k' = k
  · subst hne
    cases w with
    | none => exact h since hsince k' r' (hc.view_none ▸ hr') hlate
    | some =>
      cases hc.view_self.symm.trans hr'
      obtain ⟨r, hr, hfollows⟩ := hw r' rfl
      rw [hfollows.createdAt_eq]
      exact h since hsince k' r hr (hfollows.lateFor hlate)
  · exact h since hsince k' r' (hc.view_of_ne (.inr hne) ▸ hr') hlate

theorem Cleared.visited {v : Visit MethodRow} {methods : MethodDb} (h : Cleared s i d left)
    (hsince : d.since = some since)
    (hvisit : s.methods.visit i k (d.takes since) MethodRow.delete = some (v, methods)) :
    Cleared { s with methods := methods } i d (left.erase k) := by
  intro since' hsince' k' r' hr' hlate
  cases hsince.symm.trans hsince'
  rcases visit_delete takes_live hvisit with ⟨r, r₁, -, hr, -, hdelete, hc, -⟩ | ⟨-, hskip, hc⟩
  · by_cases hne : k' = k
    · subst hne
      cases hc.view_self.symm.trans hr'
      obtain ⟨-, -, hdeleted⟩ := MethodRow.follows_of_delete hdelete
      rw [MethodRow.lateFor_eq_true, hdeleted] at hlate
      cases hlate.1.1
    · obtain ⟨hcreated, hkept⟩ :=
        h since hsince k' r' (hc.view_of_ne (.inr hne) ▸ hr') hlate
      exact ⟨hcreated, hkept.imp_right fun hmem => (List.mem_erase_of_ne hne).mpr hmem⟩
  · have hr : s.methods.view i k' = some r' := hc.view_none ▸ hr'
    obtain ⟨hcreated, hkept⟩ := h since hsince k' r' hr hlate
    refine ⟨hcreated, ?_⟩
    by_cases hne : k' = k
    · subst hne
      -- It matches all of the condition but the last part.
      have htakes := hskip r' hr
      have hof := MethodRow.ofUser_eq_true.mpr (MethodRow.lateFor_eq_true.mp hlate).1
      simp only [Removal.takes, hof, hcreated, decide_true, Bool.true_and, ne_eq,
        decide_eq_false_iff_not, Decidable.not_not] at htakes
      have hkey : r'.val.id = k' := method_key hr
      rw [hkey] at htakes
      exact .inl htakes
    · exact hkept.imp_right fun hmem => (List.mem_erase_of_ne hne).mpr hmem

theorem Cleared.stable {j : Nat} (h : Cleared s j d left) (hok : MethodsOk s.methods)
    (hunmarked : Unmarked s.methods) (hstep : FactorStepped i s p a s' p') (hne : j ≠ i)
    (hapart : ∀ id ∈ (a.executes p.own).marking, ∀ r ∈ s.methods.committed id,
      r.val.userId ≠ d.userId) : Cleared s' j d left := by
  intro since hsince k r' hr' hlate
  rcases hstep.methods.view_cases hok hne k with ⟨r, r₁, hr, hr₁, hev⟩ | ⟨-, hfresh⟩
  · cases hr'.symm.trans hr₁
    cases hev with
    | follows hfollows =>
      rw [hfollows.createdAt_eq]
      exact h since hsince k r hr (hfollows.lateFor hlate)
    | restarted _ hold hnew =>
      -- A method that can be restarted was never verified.
      obtain ⟨r₀, hr₀, hfollows⟩ := hok.view hr
      obtain ⟨-, -, hat⟩ := MethodRow.restart_eq_some hnew
      obtain ⟨-, t, ht, -⟩ := MethodRow.lateFor_eq_true.mp hlate
      simp only [MethodRow.restartable, Bool.and_eq_true, Bool.not_eq_true'] at hold
      have hnone := hunmarked k r₀ hr₀ (hfollows.isVerified_eq ▸ hold.2)
      rw [hat, hfollows.verifiedAt, hnone] at ht
      cases ht
    | @marked request evidence now hown hkey _ hnew =>
      have hmarking : k ∈ (a.executes p.own).marking := by
        have hk : r'.val.id = k := method_key hr'
        rw [hown, ← hk, hkey]
        rfl
      obtain ⟨r₀, hr₀, hfollows⟩ := hok.view hr
      obtain ⟨⟨-, huser⟩, -⟩ := MethodRow.lateFor_eq_true.mp hlate
      rw [(MethodRow.markVerified_eq_some hnew).1] at huser
      exact absurd (hfollows.userId_eq.symm.trans huser) (hapart k hmarking r₀ hr₀)
  · obtain ⟨-, t, ht, -⟩ := MethodRow.lateFor_eq_true.mp hlate
    rw [(hfresh r' hr').unmarked] at ht
    cases ht

/-! ## The steps of a reset -/

theorem cleared_scan (hsince : d.since = some since)
    (hwindow : ∀ r ∈ s.methods.viewed i, r.lateFor d.userId since = true →
      since < r.val.createdAt) :
    Cleared s i d (s.methods.scan i (d.takes since)) := by
  intro since' hsince' k r hr hlate
  cases hsince.symm.trans hsince'
  have hkey : r.val.id = k := method_key hr
  have hcreated := hwindow r (mem_viewed.mpr (hkey.symm ▸ hr)) hlate
  refine ⟨hcreated, ?_⟩
  by_cases hkept : d.kept = some (.method k)
  · exact .inl hkept
  · refine .inr (mem_scan.mpr ⟨r, hr, ?_⟩)
    have hof := MethodRow.ofUser_eq_true.mpr (MethodRow.lateFor_eq_true.mp hlate).1
    simp [Removal.takes, hof, hcreated, hkey, hkept]

theorem resetStep_clears {session : Pc} {pc : ResetPc} (h : (FactorFlow.reset pc).Clears i s)
    (hwindow : ∀ d since, pc = .methods d since → ∀ r ∈ s.methods.viewed i,
      r.lateFor d.userId since = true → since < r.val.createdAt)
    (hgo : resetStep i inp s session pc = some (s', own)) : own.Clears i s' := by
  cases resetMoved hgo with
  | spared => exact ⟨rfl, by rintro _ _ ⟨⟩; nofun⟩
  | touched | locked => exact ⟨rfl, nofun⟩
  | selected => exact ⟨decide_eq_true rfl, nofun⟩
  | scanned =>
    refine ⟨h.windowed, ?_⟩
    rintro _ _ ⟨⟩
    exact cleared_scan (of_decide_eq_true h.windowed) (hwindow _ _ rfl)
  | cleared | passkeys =>
    have hcleared := h.cleared _ [] rfl
    refine ⟨h.windowed, ?_⟩
    rintro _ _ ⟨⟩
    exact hcleared
  | deleted hvisit =>
    refine ⟨h.windowed, ?_⟩
    rintro _ _ ⟨⟩
    exact (h.cleared _ _ rfl).visited (of_decide_eq_true h.windowed) hvisit
  | promoted hpromote hv =>
    have hcleared := h.cleared _ [] rfl
    refine ⟨rfl, ?_⟩
    rintro _ _ ⟨⟩
    rcases promoteRow_spec not_deleted_live hpromote with ⟨r, r', -, hr, -, hset, hc, -⟩ |
      ⟨-, -, hc⟩ | ⟨rfl, -⟩
    · refine hcleared.changed hc fun r₁ hr₁ => ?_
      cases hr₁
      exact ⟨r, hr, (MethodRow.follows_of_setPrimary hset).1⟩
    · exact hcleared.changed hc nofun
    · exact (hv rfl).elim
  | dropping hvisit =>
    have hcleared := h.cleared _ [] rfl
    refine ⟨rfl, ?_⟩
    rintro _ _ ⟨⟩
    rcases visit_delete ofUser_live hvisit with ⟨r, r', -, hr, -, hdelete, hc, -⟩ | ⟨-, -, hc⟩
    · refine hcleared.changed hc fun r₁ hr₁ => ?_
      cases hr₁
      exact ⟨r, hr, (MethodRow.follows_of_delete hdelete).1⟩
    · exact hcleared.changed hc nofun
  | _ =>
    have hcleared := h.cleared _ [] rfl
    refine ⟨rfl, ?_⟩
    rintro _ _ ⟨⟩
    exact hcleared

/-! ## Every run -/

theorem FactorFlow.clears_of_kind (h : own.kind ≠ some .reset) : own.Clears i s := by
  cases own with
  | reset => exact absurd rfl h
  | _ => exact ⟨rfl, nofun⟩

theorem ownStep_clears (h : p.own.Clears i s)
    (hwindow : ∀ window ∈ p.own.deleting, ∀ r ∈ s.methods.viewed i,
      r.lateFor window.1 window.2 = true → window.2 < r.val.createdAt)
    (hgo : ownStep i inp s p = some (s', own)) : own.Clears i s' := by
  by_cases hkind : p.own.kind = some .reset
  · obtain ⟨pc, hpc⟩ := FactorFlow.eq_reset hkind
    rw [hpc] at h hwindow
    simp only [ownStep, hpc] at hgo
    refine resetStep_clears h ?_ hgo
    rintro d since rfl
    exact hwindow (d.userId, since) rfl
  · refine FactorFlow.clears_of_kind ?_
    rcases ownStep_next hgo with hsame | ⟨error, rfl⟩
    · rw [hsame]
      exact hkind
    · nofun

structure Clearing (c : FactorConf) : Prop where
  methods : MethodsOk c.shared.methods
  unmarked : Unmarked c.shared.methods
  procs : ∀ i, (c.procs i).own.Clears i c.shared

theorem Clearing.step (h : Clearing c) (hok : WindowKept c i a)
    (hprog : factorProgram i a c.shared (c.procs i) = some (s, p)) : Clearing (c.set i s p) := by
  have hstep := factorStepped hprog
  refine ⟨hstep.methods.ok h.methods, hstep.methods.unmarked h.methods h.unmarked, fun j => ?_⟩
  refine Conf.set_cases j ?_ fun j hji => ?_
  · show p.own.Clears i s
    generalize hown : p.own = own
    have hmoved := hown ▸ hstep.moved
    cases hmoved with
    | stays _ hframe =>
      exact ⟨(h.procs i).windowed, fun d left hd =>
        ((h.procs i).cleared d left hd).congr hframe.methods⟩
    | enters call => cases call <;> exact ⟨rfl, nofun⟩
    | ends | commits | givesUp => exact ⟨rfl, nofun⟩
    | goes ha hgo =>
      subst ha
      exact ownStep_clears (h.procs i) hok.created hgo
  · refine ⟨(h.procs j).windowed, fun d left hd => ?_⟩
    refine ((h.procs j).cleared d left hd).stable h.methods h.unmarked hstep hji ?_
    intro id hid r hr huser
    refine (hok.others j).apart id hid r hr ?_
    rw [hd, huser]
    rfl

theorem clearing_initial (config : FactorConfig) (cfg : JwtConfig) (deviceAuth : DeviceAuthConfig)
    (clock : OffsetDateTime) (ahead : Int) :
    Clearing (factorInitial config cfg deviceAuth clock ahead) :=
  ⟨methodsOk_empty, nofun, fun _ => ⟨rfl, nofun⟩⟩

/-- **The window of a reset.** In a run that meets the condition, when a
reset with a window commits, no method of the account that was marked
verified after the start of the window is left, save the one the reset
has kept for an administrator. -/
theorem window_cleared {config : FactorConfig} {cfg : JwtConfig} {deviceAuth : DeviceAuthConfig}
    {clock : OffsetDateTime} {ahead : Int} {c : FactorConf}
    (hrun : Steps factorProgram WindowKept (factorInitial config cfg deviceAuth clock ahead) c)
    {i : Nat} {ch : Choice} {s : FactorState} {p : FactorProc} {d : Removal} {since : Int}
    (hown : (c.procs i).own = .reset (.commit d)) (hsince : d.since = some since)
    (hprog : factorProgram i (.account (.session ch)) c.shared (c.procs i) = some (s, p))
    {id : Uuid} {r : MethodRow} {t : Int} (hr : s.methods.committed id = some r)
    (hlive : r.deleted = false) (huser : r.val.userId = d.userId)
    (hverified : r.verifiedAt = some t) (hlate : since < t) : d.kept = some (.method id) := by
  have h : Clearing c :=
    hrun.invariant (fun _ _ a _ _ hc hok hprog => hc.step (a := a) hok hprog)
      (clearing_initial config cfg deviceAuth clock ahead)
  have hview : c.shared.methods.view i id = some r := by
    rw [settled_commit hown hprog, commit_view] at hr
    exact hr
  have hcleared := (h.procs i).cleared d [] (by rw [hown]; rfl)
  have hlate' : r.lateFor d.userId since = true :=
    MethodRow.lateFor_eq_true.mpr ⟨⟨hlive, huser⟩, t, hverified, hlate⟩
  rcases (hcleared since hsince id r hview hlate').2 with hkept | hmem
  · exact hkept
  · cases hmem

/-! ## A setup older than the window -/

def FactorFlow.committing : FactorFlow → Option Removal
  | .reset (.commit d) => some d
  | _ => none

theorem FactorFlow.committing_eq_some {own : FactorFlow} {d : Removal}
    (h : own.committing = some d) : own = .reset (.commit d) := by
  cases own with
  | reset pc =>
    cases pc with
    | commit =>
      cases h
      rfl
    | _ => cases h
  | _ => cases h

/-- A method is set up, verified eighty hours later, and left in place by a
reset an instant after that, although its window is 72 hours and nothing
is kept. -/
theorem verified_in_window_kept :
    ∃ c, Steps factorProgram Free
        (factorInitial defaultFactors shortSessions ⟨300, 5⟩ (instant 1000000) 0) c ∧
      ∃ s p d since r t, (c.procs 2).own = .reset (.commit d) ∧ d.since = some since ∧
        factorProgram 2 (.account (.session {})) c.shared (c.procs 2) = some (s, p) ∧
        s.methods.committed 100 = some r ∧ r.deleted = false ∧ r.val.userId = d.userId ∧
        r.verifiedAt = some t ∧ since < t ∧ d.kept = none := by
  obtain ⟨c, hexec, d, hown, huser, hsince, hkept, ⟨s, p⟩, hprog, r, hr, hlive, huser',
      hverified⟩ : ∃ c ∈ exec factorProgram Free
      (factorInitial defaultFactors shortSessions ⟨300, 5⟩ (instant 1000000) 0)
      (setupSchedule 0 ⟨1, .totp, some 7⟩ 100 ++ [(0, .account (.tick (instant 1288000)))] ++
      proveSetupSchedule 1 ⟨1, 100, .totp, 49933⟩ ++ finishSetupSchedule 1 200 ++
      resetFactorsSchedule 2 1 (1288100 * nanosPerSec) {}), ∃ d ∈ (c.procs 2).own.committing,
      d.userId = 1 ∧ d.since = some (1028900 * nanosPerSec) ∧ d.kept = none ∧
      ∃ next ∈ factorProgram 2 (.account (.session {})) c.shared (c.procs 2),
      ∃ r ∈ next.1.methods.committed 100, r.deleted = false ∧ r.val.userId = 1 ∧
      r.verifiedAt = some (1288000 * nanosPerSec) := by
    decide +kernel
  exact ⟨c, steps_of_exec hexec, s, p, d, _, r, _, FactorFlow.committing_eq_some hown, hsince,
    hprog, hr, hlive, huser'.trans huser.symm, hverified, by decide, hkept⟩

section Below

instance (j : Nat) : Decidable (MarkedApart c i a j) :=
  decidable_of_iff _ (markedApart_iff c i a j).symm

instance : Decidable (SetUpInWindow c i a) :=
  decidable_of_iff _ (setUpInWindow_iff c i a).symm

theorem MarkedApart.of_idle {j : Nat} (hidle : (c.procs j).own = .idle) :
    MarkedApart c i a j where
  apart := by simp [hidle, FactorFlow.clearing]

theorem steps_windowKept {n : Nat} {c c' : FactorConf}
    (h : Steps factorProgram (Below n SetUpInWindow MarkedApart) c c')
    (hidle : ∀ j, n ≤ j → (c.procs j).own = .idle) : Steps factorProgram WindowKept c c' :=
  (Steps.of_below (Q := fun p => p.own = .idle) (fun _ _ _ _ => .of_idle) h hidle).mono
    fun _ _ _ hok => ⟨hok.1, hok.2⟩

end Below

/-- An administrator whose only method was verified in the window keeps
it. -/
theorem administrator_keeps_method :
    ∃ c s p d since r t, Steps factorProgram WindowKept
        (factorInitial defaultFactors shortSessions ⟨300, 5⟩ (instant 1000000) 0) c ∧
      (c.procs 2).own = .reset (.commit d) ∧ d.since = some since ∧
      factorProgram 2 (.account (.session {})) c.shared (c.procs 2) = some (s, p) ∧
      s.methods.committed 100 = some r ∧ r.deleted = false ∧ r.val.userId = d.userId ∧
      r.verifiedAt = some t ∧ since < t ∧ d.kept = some (.method 100) := by
  obtain ⟨c, hexec, d, hcommitting, huser, hsince, ⟨s, p⟩, hprog, r, hr, hlive, huser',
      hverified⟩ : ∃ c ∈ exec factorProgram (Below 3 SetUpInWindow MarkedApart)
      (factorInitial defaultFactors shortSessions ⟨300, 5⟩ (instant 1000000) 0)
      (setupSchedule 0 ⟨1, .totp, some 7⟩ 100 ++ proveSetupSchedule 1 ⟨1, 100, .totp, 40333⟩ ++
      finishSetupSchedule 1 200 ++ resetFactorsSchedule 2 1 (1000100 * nanosPerSec)
      { administrator := true, kept := .method 100 }), ∃ d ∈ (c.procs 2).own.committing,
      d.userId = 1 ∧ d.since = some (740900 * nanosPerSec) ∧
      ∃ next ∈ factorProgram 2 (.account (.session {})) c.shared (c.procs 2),
      ∃ r ∈ next.1.methods.committed 100, r.deleted = false ∧ r.val.userId = 1 ∧
      r.verifiedAt = some (1000000 * nanosPerSec) := by
    decide +kernel
  have hown := FactorFlow.committing_eq_some hcommitting
  have hsteps := steps_windowKept (steps_of_exec hexec) fun j _ => rfl
  have hlate : (740900 * nanosPerSec : Int) < 1000000 * nanosPerSec := by decide
  exact ⟨c, s, p, d, _, r, _, hsteps, hown, hsince, hprog, hr, hlive, huser'.trans huser.symm,
    hverified, hlate, window_cleared hsteps hown hsince hprog hr hlive
      (huser'.trans huser.symm) hverified hlate⟩

end AuthApi
