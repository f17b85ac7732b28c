import AuthApi.Challenges
import Mathlib.Tactic.MkIffOfInductiveProp

/-!
# A reset racing sign-ins

`reset_password` ends the account's sessions in one transaction and purges
its challenges afterwards, through the index. A sign-in that has checked
the old password may be anywhere in between. `Sheltered` says which steps
such sign-ins and completions must not take at which moment of the reset.

This file follows the reset itself: the phases it goes through, what each
of its steps does (`ResetStepped`), and that the password changes exactly
once, when its transaction commits (`Resetting`).
-/

namespace AuthApi

open Conc

/-! ## How far the reset is -/

inductive Phase where
  | before
  | updating
  | committed
  | purging (ids : List TokenHash)
  | returned
  /-- A reset that gave up, or another request. -/
  | other
deriving DecidableEq

def Pc.phase : Pc → Phase
  | .revoke (.visit ..) => .updating
  | .revoke (.familyIds ..) => .committed
  | .revoke (.forget ..) => .committed
  | .revoke _ => .before
  | .done (.revoked _) => .committed
  | _ => .other

/-- How far the request is with resetting the password of `userId`. -/
def Request.phase (userId : Uuid) (p : Request) : Phase :=
  match p.flow with
  | .idle => .before
  | .password (.change user) => if user = userId then p.session.phase else .other
  | .password (.members user) => if user = userId then .committed else .other
  | .password (.drop user ids) => if user = userId then .purging ids else .other
  | .done (.passwordChanged user) => if user = userId then .returned else .other
  | _ => .other

/-- The transaction has not committed. -/
def Phase.early : Phase → Bool
  | .before => true
  | .updating => true
  | _ => false

/-- The transaction has committed. -/
def Phase.late : Phase → Bool
  | .committed => true
  | .purging _ => true
  | .returned => true
  | _ => false

/-- The purge has not read the index. -/
def Phase.unread : Phase → Bool
  | .before => true
  | .updating => true
  | .committed => true
  | _ => false

/-- What the purge has still to delete, once it has read the index. -/
def Phase.left : Phase → Option (List TokenHash)
  | .purging ids => some ids
  | .returned => some []
  | _ => none

/-! ## The condition -/

/-- The account and the password version of a sign-in that is past its
check and has not listed its challenge. -/
def Flow.unlisted : Flow → Option (Uuid × Nat)
  | .signIn (.method request version) => some (request.userId, version)
  | .signIn (.store challenge _) => some (challenge.userId, challenge.version)
  | .signIn (.count challenge) => some (challenge.userId, challenge.version)
  | .signIn (.evict challenge _) => some (challenge.userId, challenge.version)
  | .signIn (.drop challenge _ _) => some (challenge.userId, challenge.version)
  | _ => none

/-- The challenge a sign-in has removed from an index and not deleted. -/
def Flow.popped : Flow → Option (Uuid × TokenHash)
  | .signIn (.drop challenge _ id) => some (challenge.userId, id)
  | _ => none

/-- The account whose index a sign-in is about to renew. -/
def Flow.renewing : Flow → Option Uuid
  | .signIn (.expire challenge) => some challenge.userId
  | _ => none

/-- The challenge a completion is about to take, and whose it is. -/
def Flow.taking : Flow → Option (TokenHash × Uuid)
  | .complete (.take request challenge) => some (request.challengeId, challenge.userId)
  | _ => none

/-- The account whose index the purge is about to read. -/
def Flow.reading : Flow → Option Uuid
  | .password (.members userId) => some userId
  | _ => none

/-- The account and the password version of a request that has a session
to issue. A sign-in that has not looked for a second factor yet may be
one. -/
def Request.awaiting (s : AccountState) (p : Request) : Option (Uuid × Nat) :=
  match p.flow with
  | .signIn (.method request version) => some (request.userId, version)
  | .complete (.unindex request challenge) =>
    some (challenge.userId, s.versionOf request.challengeId)
  | flow => if p.session.outcome.isNone then flow.proven s else none

/-- The account whose sign-in is about to commit its session. -/
def Request.yielding (s : AccountState) (p : Request) : Option Uuid :=
  match p.session with
  | .issue (.commit _) => (p.flow.proven s).map Prod.fst
  | _ => none

def AccountAct.proceeds : AccountAct → Bool
  | .session _ => true
  | _ => false

def AccountAct.call : AccountAct → Option AccountCall
  | .start call => some call
  | _ => none

def AccountAct.time : AccountAct → Option OffsetDateTime
  | .tick t => some t
  | _ => none

def AccountAct.input : AccountAct → Option Input
  | .go inp => some inp
  | _ => none

/-- The request is not cut off, and Redis answers. -/
def AccountAct.unhindered : AccountAct → Bool
  | .go inp => inp.redisUp && inp.refusal.isNone
  | .fail => false
  | _ => true

def AccountCall.changes : AccountCall → Option Uuid
  | .resetPassword userId => some userId
  | .changePassword userId _ _ => some userId
  | _ => none

def AccountCall.resets : AccountCall → Option Uuid
  | .resetPassword userId => some userId
  | _ => none

/-- What request `j` must not be doing when request `i` takes the step
`a`. -/
@[mk_iff]
structure Clear (r : Nat) (userId : Uuid) (c : AccountConf) (i : Nat) (a : AccountAct)
    (j : Nat) : Prop where
  /-- When the reset commits, no session of the account is still to be
  issued. -/
  awaiting : i = r → a.proceeds = true → (c.procs r).phase userId = .updating →
    (c.procs r).session.scanning = [] →
    ((c.procs j).awaiting c.shared).map Prod.fst ≠ some userId
  /-- When the purge reads the index, no sign-in that has checked the old
  password has still to list its challenge. -/
  unlisted : i = r → a.input.isSome → (c.procs r).flow.reading = some userId →
    ∀ pair ∈ (c.procs j).flow.unlisted, pair.1 = userId →
      c.shared.passwordVersion userId ≤ pair.2
  /-- Nor has one an old challenge to delete that is no longer listed. -/
  popped : i = r → a.input.isSome → (c.procs r).flow.reading = some userId →
    ∀ pair ∈ (c.procs j).flow.popped, pair.1 = userId →
      c.shared.passwordVersion userId ≤ c.shared.versionOf pair.2
  /-- An index does not expire between `SADD` and `EXPIRE`. -/
  prompt : ∀ t ∈ a.time, (c.procs j).flow.renewing = some userId →
    ∀ entry ∈ c.shared.userPreAuth.entry userId, ∀ deadline ∈ entry.2, t.nanos ≤ deadline

/-- What the step `a` of request `i` must not be. -/
@[mk_iff]
structure Orderly (r : Nat) (userId : Uuid) (c : AccountConf) (i : Nat) (a : AccountAct) :
    Prop where
  /-- Nobody else changes the password. -/
  alone : ∀ call ∈ a.call, call.changes = some userId → i = r ∧ call.resets = some userId
  /-- While the `UPDATE` of the reset runs, no sign-in commits a session
  of the account. -/
  commits : a.proceeds = true → (c.procs r).phase userId = .updating →
    (c.procs i).yielding c.shared ≠ some userId
  /-- Between the commit and the end of the purge, no old challenge of the
  account is taken. -/
  taking : a.input.isSome → ((c.procs r).phase userId).late = true →
    (c.procs r).phase userId ≠ .returned → ∀ pair ∈ (c.procs i).flow.taking, pair.2 = userId →
      c.shared.passwordVersion userId ≤ c.shared.versionOf pair.1
  /-- Requests that work on the index of the account get through. -/
  listing : (c.procs i).flow.listing = some userId → a.unhindered = true

/-- The condition on a run: one reset of the password, by request `r`,
and no sign-in or completion of the account in one of its gaps. -/
structure Sheltered (r : Nat) (userId : Uuid) (c : AccountConf) (i : Nat) (a : AccountAct) :
    Prop extends Orderly r userId c i a where
  clear : ∀ j, Clear r userId c i a j

/-! ## The steps of the reset -/

def PasswordPc.userId : PasswordPc → Uuid
  | .change userId => userId
  | .members userId => userId
  | .drop userId _ => userId

/-- The account whose password a request changes, the purge included. -/
def Flow.purges : Flow → Option Uuid
  | .password pc => some pc.userId
  | _ => none

/-- Where the session code of `reset_password` can be. -/
def Pc.resets (userId : Uuid) : Pc → Prop
  | .revoke (.list user keep _) => user = userId ∧ keep = none
  | .revoke (.start rev _) => rev = .allByUser userId
  | .revoke (.scan rev _ _) => rev = .allByUser userId
  | .revoke (.visit rev _ _ _ _) => rev = .allByUser userId
  | .revoke (.familyIds rev _) => rev = .allByUser userId
  | .revoke (.forget rev _) => rev = .allByUser userId
  | .done (.revoked rev) => rev = .allByUser userId
  | .done (.error _) => True
  | _ => False

/-- What a step of that code does. -/
inductive PcReset (userId : Uuid) (pc : Pc) (b : Act) (pc' : Pc) : Prop
  | stayed (hphase : pc'.phase = pc.phase) (hcommitted : pc'.committed = pc.committed)
  | scanned (hphase : pc.phase = .before) (hphase' : pc'.phase = .updating)
      (hcommitted : pc'.committed = pc.committed)
  | committed {ch : Choice} (hb : b = .go ch) (hphase : pc.phase = .updating)
      (hphase' : pc'.phase = .committed) (hscan : pc.scanning = [])
      (hcommitted : pc.committed = false) (hcommitted' : pc'.committed = true)
  | left (hphase' : pc'.phase = .other)

theorem Pc.resets_step {i : Nat} {b : Act} {s s' : Shared} {pc pc' : Pc} {userId : Uuid}
    (h : sessionProgram i b s pc = some (s', pc')) (hr : pc.resets userId) :
    pc'.resets userId ∧ PcReset userId pc b pc' := by
  cases stepped h with
  | tick | configure => exact ⟨hr, .stayed rfl rfl⟩
  | start hidle =>
    rw [hidle] at hr
    exact hr.elim
  | fail => exact ⟨trivial, .left rfl⟩
  | @go ch _ _ hgo =>
    cases pc with
    | revoke =>
      cases revokeStepped hgo with
      | listed =>
        obtain ⟨rfl, rfl⟩ := hr
        exact ⟨rfl, .stayed rfl rfl⟩
      | started | skipped | updated | familyIds | forgot | forgets =>
        exact ⟨hr, .stayed rfl rfl⟩
      | scanned => exact ⟨hr, .scanned rfl rfl rfl⟩
      | committed | committedFamily => exact ⟨hr, .committed rfl rfl rfl rfl rfl rfl⟩
      | violated => exact ⟨trivial, .left rfl⟩
      | _ => exact hr.elim
    | done => cases hgo
    | _ => exact hr.elim

/-- Everything a step of the reset can be when its purge gets through. -/
inductive ResetStepped (userId : Uuid) (s : AccountState) (p : Request) :
    AccountAct → AccountState → Request → Prop
  | stayed {a s' p'} (hphase : p'.phase userId = p.phase userId) (hpre : s'.preAuth = s.preAuth)
      (hindex : s'.userPreAuth = s.userPreAuth)
      (hversion : s'.passwordVersion userId = s.passwordVersion userId) :
      ResetStepped userId s p a s' p'
  | scanned {a s' p'} (hphase : p.phase userId = .before) (hphase' : p'.phase userId = .updating)
      (hpre : s'.preAuth = s.preAuth) (hindex : s'.userPreAuth = s.userPreAuth)
      (hversion : s'.passwordVersion userId = s.passwordVersion userId) :
      ResetStepped userId s p a s' p'
  | committed {a s' p'} (ha : a.proceeds = true) (hphase : p.phase userId = .updating)
      (hphase' : p'.phase userId = .committed) (hscan : p.session.scanning = [])
      (hpre : s'.preAuth = s.preAuth) (hindex : s'.userPreAuth = s.userPreAuth)
      (hversion : s'.passwordVersion userId = s.passwordVersion userId + 1) :
      ResetStepped userId s p a s' p'
  | read {a p'} (ha : a.input.isSome) (hflow : p.flow = .password (.members userId))
      (hphase' : p'.phase userId = .purging (s.members userId)) : ResetStepped userId s p a s p'
  | deleted {a id ids p'} (hflow : p.flow = .password (.drop userId (id :: ids)))
      (hphase' : p'.phase userId = .purging ids) :
      ResetStepped userId s p a { s with preAuth := s.preAuth.del id } p'
  | cleared {a p'} (hflow : p.flow = .password (.drop userId []))
      (hphase' : p'.phase userId = .returned) :
      ResetStepped userId s p a { s with userPreAuth := s.userPreAuth.del userId } p'
  | left {a s' p'} (hphase' : p'.phase userId = .other) : ResetStepped userId s p a s' p'

section ResetSteps

variable {r : Nat} {a : AccountAct} {s s' : AccountState} {p p' : Request} {userId : Uuid}
  {flow : Flow}

theorem Flow.purges_of_aloof (h : flow.aloof = true) : flow.purges = none := by
  cases flow <;> first | rfl | cases h

theorem Flow.changing_of_aloof (h : flow.aloof = true) : flow.changing = none := by
  cases flow <;> first | rfl | cases h

theorem Request.phase_change (hflow : p.flow = .password (.change userId)) :
    p.phase userId = p.session.phase := by
  simp [Request.phase, hflow]

theorem Request.phase_members (hflow : p.flow = .password (.members userId)) :
    p.phase userId = .committed := by
  simp [Request.phase, hflow]

theorem Request.phase_drop {ids : List TokenHash}
    (hflow : p.flow = .password (.drop userId ids)) : p.phase userId = .purging ids := by
  simp [Request.phase, hflow]

theorem Request.user_of_phase {pc : PasswordPc} (hp : p.flow = .password pc)
    (h : p.phase userId ≠ .other) : pc.userId = userId := by
  by_contra hne
  cases pc <;> exact h (by simp_all [Request.phase, PasswordPc.userId])

theorem Request.phase_of_aloof (h : p.flow.aloof = true) : p.phase userId = .other := by
  unfold Request.phase
  split <;> simp_all [Flow.aloof]

theorem Request.phase_of_flow (hflow : p'.flow = p.flow)
    (hchanging : p.flow.changing ≠ some userId) :
    p'.phase userId = p.phase userId := by
  unfold Request.phase
  rw [hflow]
  split
  · rfl
  · rename_i user hp
    have hne : user ≠ userId := by
      rintro rfl
      exact hchanging (by rw [hp]; rfl)
    simp [hne]
  all_goals rfl

/-- A step of the session code that is not the one of the reset. -/
theorem ResetStepped.of_session {b : Act} (h : sessionStep r b s p = some (s', p'))
    (hchanging : p.flow.changing ≠ some userId) : ResetStepped userId s p a s' p' := by
  obtain ⟨hflow, hpre, hindex, -, -⟩ := sessionStep_fields h
  refine .stayed (Request.phase_of_flow hflow hchanging) hpre hindex ?_
  rw [sessionStep_version h userId]
  simp [hchanging]

theorem AccountStepped.resets (h : AccountStepped r s p a s' p')
    (hresets : p.flow.changing = some userId → p.session.resets userId)
    (halone : ∀ call ∈ a.call, call.changes = some userId → call.resets = some userId)
    (hchanging : p'.flow.changing = some userId) : p'.session.resets userId := by
  cases h with
  | session hact hstep =>
    rw [(sessionStep_fields hstep).1] at hchanging
    exact (Pc.resets_step (sessionStep_part hstep) (hresets hchanging)).1
  | start hidle h =>
    cases h with
    | resetPassword =>
      obtain rfl := Option.some.inj hchanging
      exact ⟨rfl, rfl⟩
    | changePassword =>
      obtain rfl := Option.some.inj hchanging
      cases halone _ rfl rfl
    | signIn | complete => cases hchanging
    | aloof haloof =>
      rw [Flow.changing_of_aloof haloof] at hchanging
      cases hchanging
  | signIn hp h | complete hp h | password hp h => cases h <;> cases hchanging
  | aloof hp hp' =>
    rw [Flow.changing_of_aloof hp'] at hchanging
    cases hchanging
  | fail hp' =>
    rw [hp'] at hchanging
    cases hchanging

theorem Flow.eq_of_changing (h : flow.changing = some userId) :
    flow = .password (.change userId) := by
  unfold Flow.changing at h
  split at h <;> cases h
  rfl

section

variable (h : AccountStepped r s p a s' p')
include h

theorem AccountStepped.other (hresets : p.flow.changing = some userId → p.session.resets userId)
    (hother : p.phase userId = .other) : p'.phase userId = .other := by
  cases h with
  | session hact hstep =>
    have hflow := (sessionStep_fields hstep).1
    by_cases hchanging : p.flow.changing = some userId
    · have hp := Flow.eq_of_changing hchanging
      rw [Request.phase_change hp] at hother
      have hended : p.session.outcome.isSome := by
        have hr := hresets hchanging
        unfold Pc.resets at hr
        split at hr <;> simp_all [Pc.phase, Pc.outcome]
      rw [Request.phase_change (hflow.trans hp),
        Pc.outcome_step (sessionStep_part hstep) hended, hother]
    · rw [Request.phase_of_flow hflow hchanging, hother]
  | start hidle => simp [Request.phase, hidle] at hother
  | signIn hp h =>
    cases h with
    | ended hpc hanswer => exact Request.phase_of_aloof hanswer
    | _ => rfl
  | complete hp h =>
    cases h with
    | ended hanswer => exact Request.phase_of_aloof hanswer
    | _ => rfl
  | password hp h =>
    cases h with
    | changed hdone =>
      rename_i user rev
      by_cases huser : user = userId
      · subst huser
        rw [Request.phase_change hp, hdone] at hother
        cases hother
      · exact if_neg huser
    | refused => rfl
    | _ =>
      simp only [Request.phase, hp] at hother
      split at hother
      · cases hother
      · exact if_neg ‹_›
  | aloof hp hp' => exact Request.phase_of_aloof hp'
  | fail hp' => simp [Request.phase, hp']

theorem resetStepped (hphase : p.phase userId ≠ .other)
    (hresets : p.flow.changing = some userId → p.session.resets userId)
    (hup : p.flow.listing = some userId → a.unhindered = true) :
    ResetStepped userId s p a s' p' := by
  cases h with
  | @session a b s' p' hact hstep =>
    obtain ⟨hflow, hpre, hindex, -, -⟩ := sessionStep_fields hstep
    by_cases hchanging : p.flow.changing = some userId
    · have hpc := (Pc.resets_step (sessionStep_part hstep) (hresets hchanging)).2
      have hversion := sessionStep_version hstep userId
      have hp := Flow.eq_of_changing hchanging
      have hphase := Request.phase_change hp
      have hphase' := Request.phase_change (p := p') (hflow.trans hp)
      cases hpc with
      | stayed heq hcommitted =>
        refine .stayed (by rw [hphase, hphase', heq]) hpre hindex ?_
        rw [hversion, hcommitted]
        cases p.session.committed <;> simp
      | scanned hbefore hupdating hcommitted =>
        refine .scanned (hphase.trans hbefore) (hphase'.trans hupdating) hpre hindex ?_
        rw [hversion, hcommitted]
        cases p.session.committed <;> simp
      | committed hb hupdating hcommitted hscan hnot hcommit =>
        refine .committed ?_ (hphase.trans hupdating) (hphase'.trans hcommitted) hscan hpre
          hindex ?_
        · subst hb
          cases a <;> cases hact
          rfl
        · rw [hversion]
          simp [hchanging, hnot, hcommit]
      | left hother => exact .left (hphase'.trans hother)
    · exact .of_session hstep hchanging
  | start hidle h =>
    cases h with
    | resetPassword user =>
      by_cases huser : user = userId
      · subst huser
        refine .stayed ?_ rfl rfl rfl
        simp [Request.phase, hidle, AuthApi.resetPassword, Call.entry, Pc.phase]
      · exact .left (if_neg huser)
    | changePassword user =>
      by_cases huser : user = userId
      · subst huser
        refine .stayed ?_ rfl rfl rfl
        simp [Request.phase, hidle, AuthApi.changePassword, Call.entry, Pc.phase]
      · exact .left (if_neg huser)
    | signIn | complete => exact .left rfl
    | aloof haloof =>
      exact .left (Request.phase_of_aloof haloof)
  | @password inp pc s' p' hp h =>
    obtain rfl := Request.user_of_phase hp hphase
    have hup' : (Flow.password pc).listing = some pc.userId →
        inp.redisUp = true ∧ inp.refusal = none := by
      intro hlisting
      have := hup (hp ▸ hlisting)
      simpa [AccountAct.unhindered] using this
    cases h with
    | @changed user rev hdone =>
      have hcommitted : p.phase user = .committed := by
        rw [Request.phase_change hp, hdone]
        rfl
      exact .stayed ((Request.phase_members rfl).trans hcommitted.symm) rfl rfl rfl
    | refused => exact .left rfl
    | cutOff hinp => exact absurd (hup' rfl).2 hinp
    | read =>
      rw [if_pos (hup' rfl).1]
      exact .read rfl hp (Request.phase_drop rfl)
    | deleted =>
      rw [if_pos (hup' rfl).1]
      exact .deleted hp (Request.phase_drop rfl)
    | cleared =>
      rw [if_pos (hup' rfl).1]
      exact .cleared hp (if_pos rfl)
  | signIn hp | complete hp => exact absurd (by simp [Request.phase, hp]) hphase
  | aloof hp => exact absurd (Request.phase_of_aloof hp) hphase
  | fail hp' => exact .left (by simp [Request.phase, hp'])

theorem AccountStepped.version (hchanging : p.flow.changing ≠ some userId) :
    s'.passwordVersion userId = s.passwordVersion userId := by
  cases h with
  | session hact hstep =>
    rw [sessionStep_version hstep userId]
    simp [hchanging]
  | start => rfl
  | signIn hp h => cases h <;> rfl
  | complete hp h =>
    cases h with
    | unlisted => split <;> rfl
    | _ => rfl
  | password hp h =>
    cases h with
    | deleted | cleared => split <;> rfl
    | _ => rfl
  | aloof hp hp' h | fail hp' h => rw [h.passwordVersion]

theorem AccountStepped.purges (hpurges : p'.flow.purges = some userId) :
    p.flow.purges = some userId ∨ ∃ call ∈ a.call, call.changes = some userId := by
  cases h with
  | session hact hstep => exact .inl ((sessionStep_fields hstep).1 ▸ hpurges)
  | start hidle h =>
    cases h with
    | resetPassword | changePassword => exact .inr ⟨_, rfl, hpurges⟩
    | signIn | complete => cases hpurges
    | aloof haloof =>
      rw [Flow.purges_of_aloof haloof] at hpurges
      cases hpurges
  | signIn hp h | complete hp h => cases h <;> cases hpurges
  | password hp h =>
    rw [hp]
    cases h with
    | changed | read | deleted => exact .inl hpurges
    | _ => cases hpurges
  | aloof hp hp' =>
    rw [Flow.purges_of_aloof hp'] at hpurges
    cases hpurges
  | fail hp' =>
    rw [hp'] at hpurges
    cases hpurges

end

end ResetSteps

/-- Request `r` is the only one to change the password, and it is as far
as its program point says. -/
structure Resetting (r : Nat) (userId : Uuid) (c : AccountConf) : Prop where
  only : ∀ j, j ≠ r → (c.procs j).flow.purges ≠ some userId
  resets : (c.procs r).flow.changing = some userId → (c.procs r).session.resets userId
  early : ((c.procs r).phase userId).early = true → c.shared.passwordVersion userId = 0
  late : ((c.procs r).phase userId).late = true → c.shared.passwordVersion userId = 1

section Resetting

variable {r i : Nat} {userId : Uuid} {c : AccountConf} {a : AccountAct} {s : AccountState}
  {p : Request}

theorem Flow.purges_of_changing {flow : Flow} (h : flow.changing = some userId) :
    flow.purges = some userId := by
  rw [Flow.eq_of_changing h]
  rfl

theorem Resetting.stepped (h : Resetting r userId c) (hok : Sheltered r userId c r a)
    (hstep : AccountStepped r c.shared (c.procs r) a s p) (hphase : p.phase userId ≠ .other) :
    ResetStepped userId c.shared (c.procs r) a s p :=
  resetStepped hstep (fun heq => hphase (hstep.other h.resets heq)) h.resets hok.listing

theorem Resetting.step (h : Resetting r userId c) (hok : Sheltered r userId c i a)
    (hstep : AccountStepped i c.shared (c.procs i) a s p) : Resetting r userId (c.set i s p) := by
  have halone : ∀ call ∈ a.call, call.changes = some userId → call.resets = some userId :=
    fun call hcall hchanges => (hok.alone call hcall hchanges).2
  have honly : ∀ j, j ≠ r → ((c.set i s p).procs j).flow.purges ≠ some userId := by
    intro j hj
    rcases c.procs_cases i s p j with ⟨rfl, hset⟩ | ⟨hji, hset⟩ <;> rw [hset]
    · intro hpurges
      rcases hstep.purges hpurges with hbefore | ⟨call, hcall, hchanges⟩
      · exact h.only j hj hbefore
      · exact hj (hok.alone call hcall hchanges).1
    · exact h.only j hj
  by_cases hir : i = r
  · subst hir
    refine ⟨honly, ?_, ?_, ?_⟩
    · rw [Conf.set_procs_self]
      exact hstep.resets h.resets halone
    · rw [Conf.set_procs_self, Conf.set_shared]
      intro hearly
      have hphase : p.phase userId ≠ .other := by
        rintro heq
        rw [heq] at hearly
        cases hearly
      cases h.stepped hok hstep hphase with
      | stayed hphase hpre hindex hversion => rw [hversion, h.early (hphase ▸ hearly)]
      | scanned hphase hphase' hpre hindex hversion => rw [hversion, h.early (by rw [hphase]; rfl)]
      | _ => simp_all [Phase.early]
    · rw [Conf.set_procs_self, Conf.set_shared]
      intro hlate
      have hphase : p.phase userId ≠ .other := by
        rintro heq
        rw [heq] at hlate
        cases hlate
      cases h.stepped hok hstep hphase with
      | stayed hphase hpre hindex hversion => rw [hversion, h.late (hphase ▸ hlate)]
      | scanned hphase hphase' => simp_all [Phase.late]
      | committed ha hphase hphase' hscan hpre hindex hversion =>
        rw [hversion, h.early (by rw [hphase]; rfl)]
      | read ha hflow => exact h.late (by rw [Request.phase_members hflow]; rfl)
      | deleted hflow | cleared hflow =>
        exact h.late (by rw [Request.phase_drop hflow]; rfl)
      | left hphase' => exact absurd hphase' hphase
  · have hne : r ≠ i := Ne.symm hir
    have hversion : s.passwordVersion userId = c.shared.passwordVersion userId :=
      hstep.version fun hc => h.only i hir (Flow.purges_of_changing hc)
    refine ⟨honly, ?_, ?_, ?_⟩ <;> rw [Conf.set_procs_of_ne _ _ _ hne]
    · exact h.resets
    · exact fun hearly => hversion.trans (h.early hearly)
    · exact fun hlate => hversion.trans (h.late hlate)

end Resetting

end AuthApi
