import AuthApi.ChallengePurge
import AuthApi.Lifetime
import Mathlib.Data.List.Perm.Subperm

/-!
# How many challenges an account has open

A sign-in that needs a second factor stores its challenge first and
makes room for it afterwards: `SET`, `SCARD`, a `SPOP` and `DEL` for
every challenge too many, `SADD`, `EXPIRE`. The index is all it looks
at, and nothing orders two sign-ins. So `MAX_OPEN_CHALLENGES` is kept
only while the index has room when a challenge is stored and lists every
challenge of the account then (`open_challenges_bounded`); six sign-ins
side by side leave six challenges.
-/

namespace AuthApi

open Conc

/-- A completion would accept the challenge `id` of the account. -/
def Acceptable (s : AccountState) (userId : Uuid) (id : TokenHash) : Prop :=
  ∃ challenge, s.preAuth.get s.now id = some challenge ∧ challenge.userId = userId ∧
    ∃ factor : SecondFactor, factor.answers challenge = true

/-- The account whose challenge a sign-in is about to store. -/
def Flow.storingFor (flow : Flow) : Option Uuid := flow.storing.map Challenge.userId

/-- The account a sign-in has stored a challenge of that is not listed. -/
def Flow.openingFor (flow : Flow) : Option Uuid := flow.opening.map Challenge.userId

/-- The account a sign-in has taken a challenge out of the index of that
is not deleted. -/
def Flow.poppedFor (flow : Flow) : Option Uuid := flow.popped.map Prod.fst

/-- The account whose index the purge is about to delete. -/
def Flow.clearing : Flow → Option Uuid
  | .password (.drop userId []) => some userId
  | _ => none

/-- What request `j` must not be doing when request `i` takes the step
`a`. -/
@[mk_iff]
structure Apart (userId : Uuid) (c : AccountConf) (i : Nat) (a : AccountAct) (j : Nat) : Prop where
  /-- When a challenge is stored, the others are listed. -/
  opening : (c.procs i).flow.storingFor = some userId → a.input.isSome →
    (c.procs j).flow.openingFor ≠ some userId
  /-- Or deleted. -/
  popped : (c.procs i).flow.storingFor = some userId → a.input.isSome →
    (c.procs j).flow.poppedFor ≠ some userId
  /-- An index does not expire between `SADD` and `EXPIRE`. -/
  prompt : ∀ t ∈ a.time, (c.procs j).flow.renewing = some userId →
    ∀ entry ∈ c.shared.userPreAuth.entry userId, ∀ deadline ∈ entry.2, t.nanos ≤ deadline

/-- What the step `a` of request `i` must not be. -/
@[mk_iff]
structure Roomy (userId : Uuid) (c : AccountConf) (i : Nat) (a : AccountAct) : Prop where
  /-- A challenge is stored while the index has room. -/
  room : (c.procs i).flow.storingFor = some userId → a.input.isSome →
    (c.shared.members userId).length < maxOpenChallenges
  /-- Requests that work on the index get through. -/
  listing : (c.procs i).flow.listing = some userId → a.unhindered = true
  /-- A purge deletes an index that lists nothing alive. -/
  purged : (c.procs i).flow.clearing = some userId →
    ∀ id ∈ c.shared.members userId, c.shared.preAuth.get c.shared.now id = none

structure Uncrowded (userId : Uuid) (c : AccountConf) (i : Nat) (a : AccountAct) : Prop
    extends Roomy userId c i a where
  apart : ∀ j, Apart userId c i a j

/-- Every open challenge is known, and there are not too many. -/
structure Bounded (userId : Uuid) (c : AccountConf) : Prop where
  challenged : Challenged c
  traced : ∀ id t, Alive c.shared userId id t → Tracked c userId id t
  count : ∀ ids : List TokenHash, ids.Nodup →
    (∀ id ∈ ids, ∃ t, Alive c.shared userId id t) → ids.length ≤ maxOpenChallenges

section Bounded

variable {i : Nat} {userId : Uuid} {c : AccountConf} {a : AccountAct} {s : AccountState}
  {p : Request} {id : TokenHash} {t : Int}

theorem Uncrowded.attended (h : Uncrowded userId c i a) : Attended userId c i a :=
  ⟨h.listing, fun j => (h.apart j).prompt⟩

theorem Alive.get (h : Alive c.shared userId id t) :
    c.shared.preAuth.get c.shared.now id ≠ none := by
  obtain ⟨⟨state, hentry, -⟩, hlive⟩ := h
  rw [Redis.Store.get_eq_some.mpr ⟨some t, hentry, Redis.live_some.mpr hlive⟩]
  nofun

theorem AccountStepped.input_of_stored {challenge : Challenge} {rememberMe : Bool}
    (h : AccountStepped i c.shared (c.procs i) a s p)
    (hflow : (c.procs i).flow = .signIn (.store challenge rememberMe))
    (hflow' : p.flow = .signIn (.count challenge)) : a.input.isSome := by
  cases h with
  | session hact hstep =>
    rw [(sessionStep_fields hstep).1, hflow] at hflow'
    cases hflow'
  | start hidle =>
    rw [hflow] at hidle
    cases hidle
  | fail hp' =>
    rw [hp'] at hflow'
    cases hflow'
  | _ => rfl

theorem Tracked.cleared (h : Tracked c userId id t) (halive : Alive c.shared userId id t)
    (hp : (c.procs i).flow = .password (.drop userId []))
    (hpurged : ∀ id ∈ c.shared.members userId, c.shared.preAuth.get c.shared.now id = none) :
    Tracked (c.set i s p) userId id t := by
  rcases h.split i with ⟨ids, deadline, hl⟩ | ⟨challenge, hopen, -, -⟩ | hpop | h
  · exact absurd (hpurged id (hl.mem_members halive.live)) halive.get
  · rw [hp] at hopen
    cases hopen
  · rw [hp] at hpop
    cases hpop
  · exact h s p

theorem Bounded.traced_step (h : Bounded userId c) (hok : Uncrowded userId c i a)
    (hprog : accountProgram i a c.shared (c.procs i) = some (s, p))
    (halive : Alive s userId id t) : Tracked (c.set i s p) userId id t := by
  have hstep := accountStepped hprog
  rcases hstep.alive (h.challenged.now_le hprog) halive with
    hbefore | ⟨challenge, rememberMe, -, hflow', hid, huser, -⟩
  · have htraced := h.traced id t hbefore
    by_cases hp : (c.procs i).flow = .password (.drop userId [])
    · exact htraced.cleared hbefore hp (hok.purged (by rw [hp]; rfl))
    · exact htraced.step h.challenged hok.attended hstep hp hbefore halive.stored
  · refine .opening (j := i) ?_ hid huser
    rw [Conf.set_procs_self, hflow']
    rfl

theorem Bounded.mem_members (h : Bounded userId c)
    (hopening : ∀ j, (c.procs j).flow.openingFor ≠ some userId)
    (hpopped : ∀ j, (c.procs j).flow.poppedFor ≠ some userId)
    (halive : Alive c.shared userId id t) : id ∈ c.shared.members userId := by
  cases h.traced id t halive with
  | listed hl => exact hl.mem_members halive.live
  | @opening j challenge hopen hid huser =>
    refine absurd ?_ (hopening j)
    rw [Flow.openingFor, hopen, ← huser]
    rfl
  | @popped j hpop =>
    refine absurd ?_ (hpopped j)
    rw [Flow.poppedFor, hpop]
    rfl

section

variable (h : Bounded userId c) (hok : Uncrowded userId c i a)
  (hprog : accountProgram i a c.shared (c.procs i) = some (s, p))
include h hok hprog

theorem Bounded.count_step {ids : List TokenHash} (hnodup : ids.Nodup)
    (halive : ∀ id ∈ ids, ∃ t, Alive s userId id t) : ids.length ≤ maxOpenChallenges := by
  have hstep := accountStepped hprog
  have hnow := h.challenged.now_le hprog
  by_cases hstoring : (c.procs i).flow.storingFor = some userId ∧ a.input.isSome
  · obtain ⟨hstoring, hinput⟩ := hstoring
    obtain ⟨challenge, hchallenge, -⟩ := Option.map_eq_some_iff.mp hstoring
    -- All but the new one are listed, and the index has room for it.
    have hsub : ids.erase challenge.id ⊆ c.shared.members userId := by
      intro id hid
      obtain ⟨t, ht⟩ := halive id (List.mem_of_mem_erase hid)
      rcases hstep.alive hnow ht with hbefore | ⟨challenge', rememberMe, hflow, -, hid', -, -⟩
      · exact h.mem_members (fun j => (hok.apart j).opening hstoring hinput)
          (fun j => (hok.apart j).popped hstoring hinput) hbefore
      · rw [hflow] at hchallenge
        cases hchallenge
        rw [hid'] at hid
        exact absurd hid hnodup.not_mem_erase
    have hle := (List.subperm_of_subset (hnodup.erase challenge.id) hsub).length_le
    have hroom := hok.room hstoring hinput
    have hlen := List.le_length_erase (a := challenge.id) (l := ids)
    omega
  · refine h.count ids hnodup fun id hid => ?_
    obtain ⟨t, ht⟩ := halive id hid
    rcases hstep.alive hnow ht with hbefore | ⟨challenge, rememberMe, hflow, hflow', -, huser, -⟩
    · exact ⟨t, hbefore⟩
    · refine absurd ⟨?_, hstep.input_of_stored hflow hflow'⟩ hstoring
      rw [Flow.storingFor, hflow, ← huser]
      rfl

theorem Bounded.step : Bounded userId (c.set i s p) :=
  ⟨h.challenged.set hprog, fun _ _ halive => h.traced_step hok hprog halive,
    fun _ hnodup halive => h.count_step hok hprog hnodup halive⟩

end

theorem bounded_initial (userId : Uuid) (cfg : JwtConfig) (deviceAuth : DeviceAuthConfig)
    (clock : OffsetDateTime) : Bounded userId (accountInitial cfg deviceAuth clock) := by
  have hnone : ∀ id t, ¬ Alive (accountInitial cfg deviceAuth clock).shared userId id t := by
    rintro id t ⟨⟨state, hentry, -⟩, -⟩
    cases hentry
  refine ⟨challenged_initial cfg deviceAuth clock, fun id t h => absurd h (hnone id t),
    fun ids _ halive => ?_⟩
  cases ids with
  | nil => exact Nat.zero_le _
  | cons id =>
    obtain ⟨t, ht⟩ := halive id List.mem_cons_self
    exact absurd ht (hnone id t)

end Bounded

/-- **Open challenges.** In a run that meets the condition an account
never has more than `MAX_OPEN_CHALLENGES` challenges that a completion
would accept, whatever else runs. -/
theorem open_challenges_bounded {userId : Uuid} {cfg : JwtConfig} {deviceAuth : DeviceAuthConfig}
    {clock : OffsetDateTime} {c : AccountConf}
    (hrun : Steps accountProgram (Uncrowded userId) (accountInitial cfg deviceAuth clock) c)
    (ids : List TokenHash) (hnodup : ids.Nodup)
    (haccept : ∀ id ∈ ids, Acceptable c.shared userId id) : ids.length ≤ maxOpenChallenges := by
  have h : Bounded userId c :=
    hrun.invariant (fun _ _ a _ _ hc hok hprog => hc.step (a := a) hok hprog)
      (bounded_initial userId cfg deviceAuth clock)
  refine h.count ids hnodup fun id hid => ?_
  obtain ⟨challenge, hget, huser, -⟩ := haccept id hid
  obtain ⟨deadline, hentry, hlive⟩ := Redis.Store.get_eq_some.mp hget
  obtain ⟨-, t, rfl, -⟩ := h.challenged.opened.stored id challenge deadline hentry
  exact ⟨t, ⟨challenge, hentry, huser⟩, Redis.live_some.mp hlive⟩

/-! ## Sign-ins side by side -/

instance (s : AccountState) (userId : Uuid) (id : TokenHash) :
    Decidable (Acceptable s userId id) :=
  decidable_of_iff
    ((s.preAuth.get s.now id).any fun challenge =>
      challenge.userId = userId && SecondFactor.recoveryCode.answers challenge) (by
    simp only [Acceptable, Option.any_eq_true, Bool.and_eq_true, decide_eq_true_eq]
    refine exists_congr fun challenge => and_congr_right fun _ => and_congr_right fun _ => ?_
    refine ⟨fun h => ⟨_, h⟩, ?_⟩
    rintro ⟨factor, h⟩
    cases factor <;> simp_all [SecondFactor.answers])

/-- Request `i` signs account 1 in, finds a second factor, stores the
challenge `id` and counts the challenges listed. -/
def storeSchedule (i : Nat) (id : TokenHash) : List (Nat × AccountAct) :=
  [(i, .start (.signIn ⟨1, none, none, none, false⟩)), (i, .go {}),
    (i, .go { method := some .totp, tokenHash := id }), (i, .go {}), (i, .go {})]

/-- There is room for it, and it is listed. -/
def listSchedule (i : Nat) : List (Nat × AccountAct) :=
  [(i, .go {}), (i, .go {}), (i, .go {})]

/-- Six sign-ins store their challenges before any of them has listed its
own. When all have answered, all six challenges can be completed. -/
theorem six_challenges_open :
    ∃ c, Steps accountProgram Free (accountInitial shortSessions ⟨300, 5⟩ (instant 100)) c ∧
      (∀ i < 6, (c.procs i).flow.answer.isSome) ∧
      ∃ ids : List TokenHash, ids.Nodup ∧ (∀ id ∈ ids, Acceptable c.shared 1 id) ∧
        maxOpenChallenges < ids.length := by
  have hrun : ((exec accountProgram Free (accountInitial shortSessions ⟨300, 5⟩ (instant 100))
        ((List.range 6).flatMap (fun i => storeSchedule i (.ofNat 256 i)) ++
          (List.range 6).flatMap listSchedule)).any fun c =>
      (List.range 6).all (fun i => (c.procs i).flow.answer.isSome) &&
      [0, 1, 2, 3, 4, 5].all fun id => decide (Acceptable c.shared 1 id)) = true := by
    decide +kernel
  simp only [Option.any_eq_true, Bool.and_eq_true, List.all_eq_true, List.mem_range,
    decide_eq_true_eq] at hrun
  obtain ⟨c, hexec, hanswers, haccept⟩ := hrun
  exact ⟨c, steps_of_exec hexec, hanswers, [0, 1, 2, 3, 4, 5], by decide, haccept, by decide⟩

section Below

variable {userId : Uuid} {c : AccountConf} {i : Nat} {a : AccountAct}

set_option synthInstance.maxSize 1000 in
instance (j : Nat) : Decidable (Apart userId c i a j) :=
  decidable_of_iff _ (apart_iff userId c i a j).symm

instance : Decidable (Roomy userId c i a) :=
  decidable_of_iff _ (roomy_iff userId c i a).symm

theorem Apart.of_idle {j : Nat} (hidle : (c.procs j).flow = .idle) : Apart userId c i a j where
  opening := by simp [hidle, Flow.openingFor, Flow.opening]
  popped := by simp [hidle, Flow.poppedFor, Flow.popped]
  prompt := by simp [hidle, Flow.renewing]

theorem steps_uncrowded {n : Nat} {c c' : AccountConf}
    (h : Steps accountProgram (Below n (Roomy userId) (Apart userId)) c c')
    (hidle : ∀ j, n ≤ j → (c.procs j).flow = .idle) :
    Steps accountProgram (Uncrowded userId) c c' :=
  (Steps.of_below (Q := fun p => p.flow = .idle) (fun _ _ _ _ => .of_idle) h hidle).mono
    fun _ _ _ hok => ⟨hok.1, hok.2⟩

end Below

/-- One after the other, five sign-ins open five challenges, and all five
can be completed. -/
theorem five_challenges_bounded :
    ∃ c, Steps accountProgram (Uncrowded 1)
        (accountInitial shortSessions ⟨300, 5⟩ (instant 100)) c ∧
      (∀ id ∈ [0, 1, 2, 3, 4], Acceptable c.shared 1 id) ∧
      ∀ id ∉ [0, 1, 2, 3, 4], ¬ Acceptable c.shared 1 id := by
  have hrun : ((exec accountProgram (Below 5 (Roomy 1) (Apart 1))
        (accountInitial shortSessions ⟨300, 5⟩ (instant 100))
        ((List.range 5).flatMap fun i => storeSchedule i (.ofNat 256 i) ++ listSchedule i)).any
          fun c =>
      [0, 1, 2, 3, 4].all fun id => decide (Acceptable c.shared 1 id)) = true := by
    decide +kernel
  simp only [Option.any_eq_true, List.all_eq_true, decide_eq_true_eq] at hrun
  obtain ⟨c, hexec, haccept⟩ := hrun
  have hsteps := steps_uncrowded (steps_of_exec hexec) fun j _ => rfl
  refine ⟨c, hsteps, haccept, fun id hid hmore => ?_⟩
  have hle := open_challenges_bounded hsteps (id :: [0, 1, 2, 3, 4])
    (List.nodup_cons.mpr ⟨hid, by decide⟩) (List.forall_mem_cons.mpr ⟨hmore, haccept⟩)
  exact absurd hle (by simp [maxOpenChallenges])

end AuthApi
