import AuthApi.AccountSessions
import AuthApi.SessionRefinement

/-!
# Challenges

A sign-in that needs a second factor stores a challenge under a fresh id
and then lists it in the index of its account, one Redis command at a
time; it may have to make room in the index first. A completion takes the
challenge out again.

`Challenged` is what holds in every state reached: what is stored was
opened by a sign-in and lives for five minutes at most, and every request
knows the challenge it is working on. It needs no condition on the run.
-/

namespace AuthApi

open Conc

/-! ## What a request knows -/

/-- The challenge a sign-in has drawn an id for and not stored. -/
def Flow.storing : Flow → Option Challenge
  | .signIn (.store challenge _) => some challenge
  | _ => none

/-- The challenge a sign-in has stored and not listed. -/
def Flow.opening : Flow → Option Challenge
  | .signIn (.count challenge) => some challenge
  | .signIn (.evict challenge _) => some challenge
  | .signIn (.drop challenge _ _) => some challenge
  | _ => none

/-- The challenge a completion has read and not taken. -/
def Flow.answering : Flow → Option (TokenHash × PreAuthState)
  | .complete (.verify request challenge) => some (request.challengeId, challenge)
  | .complete (.take request challenge) => some (request.challengeId, challenge)
  | _ => none

/-- The challenge a completion has taken and not removed from the index. -/
def Flow.taken : Flow → Option TokenHash
  | .complete (.unindex request _) => some request.challengeId
  | _ => none

structure Flow.Knows (i : Nat) (s : AccountState) (flow : Flow) : Prop where
  storing : ∀ challenge ∈ flow.storing,
    s.drawn challenge.id = some i ∧ s.openedWith challenge.id = none
  opening : ∀ challenge ∈ flow.opening, s.openedWith challenge.id = some challenge.version
  answering : ∀ id state, flow.answering = some (id, state) → (s.openedWith id).isSome ∧
    ∀ state' deadline, s.preAuth.entry id = some (state', deadline) → state' = state
  taken : ∀ id ∈ flow.taken, (s.openedWith id).isSome ∧ s.preAuth.entry id = none

/-- Only drawn ids are opened, and only opened ones are stored. -/
structure AccountState.Opened (s : AccountState) : Prop where
  drawn : ∀ id, s.drawn id = none → s.openedWith id = none
  stored : ∀ id state deadline, s.preAuth.entry id = some (state, deadline) →
    (s.openedWith id).isSome ∧
      ∃ t, deadline = some t ∧ t ≤ s.now + preAuthTtlSecs * nanosPerSec

structure ChallengeRely (i : Nat) (s s' : AccountState) : Prop where
  drawn : ∀ id j, s.drawn id = some j → s'.drawn id = some j
  opened : ∀ id v, s.openedWith id = some v → s'.openedWith id = some v
  unopened : ∀ id, s.drawn id ≠ some i → s.openedWith id = none → s'.openedWith id = none
  entries : ∀ id, (s.openedWith id).isSome →
    s'.preAuth.entry id = s.preAuth.entry id ∨ s'.preAuth.entry id = none

structure ChallengeKept (i : Nat) (s s' : AccountState) (p' : Request) : Prop where
  opened : s'.Opened
  knows : p'.flow.Knows i s'
  rely : ChallengeRely i s s'

section Steps

variable {i j : Nat} {inp : Input} {s s' : AccountState} {p p' : Request} {flow : Flow}

theorem ChallengeRely.isSome (h : ChallengeRely i s s') {id : TokenHash}
    (hsome : (s.openedWith id).isSome) : (s'.openedWith id).isSome := by
  obtain ⟨v, hv⟩ := Option.isSome_iff_exists.mp hsome
  simp [h.opened id v hv]

theorem Flow.Knows.stable (h : flow.Knows j s) (hr : ChallengeRely i s s') (hne : j ≠ i) :
    flow.Knows j s' where
  storing challenge hc := by
    obtain ⟨hdrawn, hopened⟩ := h.storing challenge hc
    refine ⟨hr.drawn _ _ hdrawn, hr.unopened _ ?_ hopened⟩
    rw [hdrawn]
    exact fun heq => hne (Option.some.inj heq)
  opening challenge hc := hr.opened _ _ (h.opening challenge hc)
  answering id state hid := by
    obtain ⟨hopened, hsame⟩ := h.answering id state hid
    refine ⟨hr.isSome hopened, fun state' deadline hentry => ?_⟩
    rcases hr.entries id hopened with heq | heq
    · exact hsame state' deadline (heq ▸ hentry)
    · rw [heq] at hentry
      cases hentry
  taken id hid := by
    obtain ⟨hopened, hnone⟩ := h.taken id hid
    refine ⟨hr.isSome hopened, ?_⟩
    rcases hr.entries id hopened with heq | heq
    · exact heq.trans hnone
    · exact heq

/-- A request that is neither opening a challenge nor answering one. -/
structure Flow.Unaware (flow : Flow) : Prop where
  storing : flow.storing = none
  opening : flow.opening = none
  answering : flow.answering = none
  taken : flow.taken = none

theorem Flow.Unaware.knows (h : flow.Unaware) : flow.Knows i s where
  storing challenge hc := by
    rw [h.storing] at hc
    cases hc
  opening challenge hc := by
    rw [h.opening] at hc
    cases hc
  answering id state hid := by
    rw [h.answering] at hid
    cases hid
  taken id hid := by
    rw [h.taken] at hid
    cases hid

theorem Flow.unaware_of_aloof (h : flow.aloof = true) : flow.Unaware := by
  cases flow with
  | signIn | complete | password => cases h
  | _ => exact ⟨rfl, rfl, rfl, rfl⟩

theorem password_unaware (pc : PasswordPc) : (Flow.password pc).Unaware := ⟨rfl, rfl, rfl, rfl⟩

theorem done_unaware (answer : Answer) : (Flow.done answer).Unaware := ⟨rfl, rfl, rfl, rfl⟩

theorem ChallengeKept.of_entries (ho : s.Opened) (hnow : s.now ≤ s'.now)
    (hentries : ∀ id, s'.preAuth.entry id = s.preAuth.entry id ∨ s'.preAuth.entry id = none)
    (hopened : s'.openedWith = s.openedWith)
    (hdrawn : ∀ id j, s.drawn id = some j → s'.drawn id = some j)
    (hknows : ChallengeRely i s s' → p'.flow.Knows i s') : ChallengeKept i s s' p' := by
  have hrely : ChallengeRely i s s' :=
    ⟨hdrawn, fun _ _ h => hopened ▸ h, fun _ _ h => hopened ▸ h, fun id _ => hentries id⟩
  refine ⟨⟨fun id hnone => ?_, fun id state deadline hentry => ?_⟩, hknows hrely, hrely⟩
  · rw [hopened]
    refine ho.drawn id ?_
    by_contra hsome
    obtain ⟨j, hj⟩ := Option.ne_none_iff_exists'.mp hsome
    rw [hdrawn id j hj] at hnone
    cases hnone
  · rcases hentries id with heq | heq
    · rw [hopened]
      obtain ⟨hsome, t, ht, hle⟩ := ho.stored id state deadline (heq ▸ hentry)
      exact ⟨hsome, t, ht, by omega⟩
    · rw [heq] at hentry
      cases hentry

theorem ChallengeKept.of_same (ho : s.Opened) (hnow : s.now ≤ s'.now)
    (hpre : s'.preAuth = s.preAuth) (hopened : s'.openedWith = s.openedWith)
    (hdrawn : ∀ id j, s.drawn id = some j → s'.drawn id = some j)
    (hknows : ChallengeRely i s s' → p'.flow.Knows i s') : ChallengeKept i s s' p' :=
  .of_entries ho hnow (fun _ => .inl (by rw [hpre])) hopened hdrawn hknows

theorem del_entries (st : Redis.Store TokenHash PreAuthState) (id id' : TokenHash) :
    (st.del id).entry id' = st.entry id' ∨ (st.del id).entry id' = none := by
  by_cases hne : id' = id
  · exact .inr (hne ▸ Redis.Store.del_entry_self)
  · exact .inl (Redis.Store.del_entry_of_ne hne)

theorem stored_kept {challenge : Challenge} {rememberMe : Bool} (ho : s.Opened)
    (hk : (Flow.signIn (.store challenge rememberMe)).Knows i s) :
    ChallengeKept i s
      { s with
        preAuth := s.preAuth.setEx s.now challenge.id
          ⟨challenge.userId, rememberMe, some challenge.method⟩ (preAuthTtlSecs * nanosPerSec)
        openedWith := Function.update s.openedWith challenge.id (some challenge.version) }
      (p.goto (.signIn (.count challenge))) := by
  obtain ⟨hdrawn, hfresh⟩ := hk.storing challenge rfl
  refine ⟨⟨fun id hnone => ?_, fun id state deadline hentry => ?_⟩, ⟨nofun, ?_, nofun, nofun⟩,
    ⟨fun _ _ h => h, fun id v hv => ?_, fun id hother hnone => ?_, fun id hsome => ?_⟩⟩
  · have hne : id ≠ challenge.id := by
      rintro rfl
      rw [hdrawn] at hnone
      cases hnone
    exact (Function.update_of_ne hne ..).trans (ho.drawn id hnone)
  · by_cases hne : id = challenge.id
    · subst hne
      rw [Redis.Store.setEx_entry_self] at hentry
      cases hentry
      exact ⟨by simp, _, rfl, le_rfl⟩
    · rw [Redis.Store.setEx_entry_of_ne hne] at hentry
      simp only [Function.update_of_ne hne]
      exact ho.stored id state deadline hentry
  · rintro _ ⟨⟩
    exact Function.update_self ..
  · have hne : id ≠ challenge.id := by
      rintro rfl
      rw [hfresh] at hv
      cases hv
    exact (Function.update_of_ne hne ..).trans hv
  · have hne : id ≠ challenge.id := by
      rintro rfl
      exact hother hdrawn
    exact (Function.update_of_ne hne ..).trans hnone
  · have hne : id ≠ challenge.id := by
      rintro rfl
      rw [hfresh] at hsome
      cases hsome
    exact .inl (Redis.Store.setEx_entry_of_ne hne)

theorem SignInStepped.kept {pc : SignInPc} (h : SignInStepped i inp s p pc s' p')
    (ho : s.Opened) (hk : (Flow.signIn pc).Knows i s) : ChallengeKept i s s' p' := by
  have hsame : ∀ s' p', s'.now = s.now → s'.preAuth = s.preAuth → s'.openedWith = s.openedWith →
      s'.drawn = s.drawn → (∀ challenge ∈ p'.flow.opening, s.openedWith challenge.id =
        some challenge.version) → p'.flow.storing = none → p'.flow.answering = none →
      p'.flow.taken = none → ChallengeKept i s s' p' := by
    intro s' p' hnow hpre hopened hdrawn hopening hstoring hanswering htaken
    refine .of_same ho hnow.ge hpre hopened (fun _ _ h => hdrawn ▸ h) fun _ => ⟨?_, ?_, ?_, ?_⟩
    · simp [hstoring]
    · exact fun challenge hc => hopened ▸ hopening challenge hc
    · simp [hanswering]
    · simp [htaken]
  cases h with
  | checked | issuing hidle | listed hup | notListed hdown | renewed hup | notRenewed hdown
  | ended => exact hsame _ _ rfl rfl rfl rfl nofun rfl rfl rfl
  | drew hfresh =>
    refine .of_same ho le_rfl rfl rfl (drawn_grows hfresh) fun _ => ⟨?_, nofun, nofun, nofun⟩
    rintro _ ⟨⟩
    exact ⟨Function.update_self .., ho.drawn _ hfresh⟩
  | stored => exact stored_kept ho hk
  | counted | popped | stopped | notDropped =>
    exact hsame _ _ rfl rfl rfl rfl hk.opening rfl rfl rfl
  | dropped =>
    exact .of_entries ho le_rfl (del_entries s.preAuth _) rfl (fun _ _ h => h)
      fun _ => ⟨nofun, hk.opening, nofun, nofun⟩

theorem CompleteStepped.kept {pc : CompletePc} (h : CompleteStepped inp s p pc s' p')
    (ho : s.Opened) (hk : (Flow.complete pc).Knows i s) : ChallengeKept i s s' p' := by
  cases h with
  | loaded hget =>
    obtain ⟨deadline, hentry, -⟩ := Redis.Store.get_eq_some.mp hget
    refine .of_same ho le_rfl rfl rfl (fun _ _ h => h) fun _ => ⟨nofun, nofun, ?_, nofun⟩
    rintro _ _ ⟨⟩
    refine ⟨(ho.stored _ _ _ hentry).1, fun state' deadline' hentry' => ?_⟩
    rw [hentry] at hentry'
    cases hentry'
    rfl
  | verified =>
    exact .of_same ho le_rfl rfl rfl (fun _ _ h => h) fun _ => ⟨nofun, nofun, hk.answering, nofun⟩
  | taken =>
    refine .of_entries ho le_rfl (del_entries s.preAuth _) rfl (fun _ _ h => h)
      fun _ => ⟨nofun, nofun, nofun, ?_⟩
    rintro _ ⟨⟩
    exact ⟨(hk.answering _ _ rfl).1, Redis.Store.del_entry_self⟩
  | unlisted =>
    split <;> exact .of_same ho le_rfl rfl rfl (fun _ _ h => h) fun _ =>
      ⟨nofun, nofun, nofun, nofun⟩
  | ended =>
    exact .of_same ho le_rfl rfl rfl (fun _ _ h => h) fun _ => (done_unaware _).knows

theorem PasswordStepped.kept {pc : PasswordPc} (h : PasswordStepped inp s p pc s' p')
    (ho : s.Opened) : ChallengeKept i s s' p' := by
  cases h with
  | deleted =>
    split
    · exact .of_entries ho le_rfl (del_entries s.preAuth _) rfl (fun _ _ h => h)
        fun _ => (password_unaware _).knows
    · exact .of_same ho le_rfl rfl rfl (fun _ _ h => h) fun _ => (password_unaware _).knows
  | cleared =>
    split <;> exact .of_same ho le_rfl rfl rfl (fun _ _ h => h) fun _ => (done_unaware _).knows
  | changed | read =>
    exact .of_same ho le_rfl rfl rfl (fun _ _ h => h) fun _ => (password_unaware _).knows
  | refused | cutOff =>
    exact .of_same ho le_rfl rfl rfl (fun _ _ h => h) fun _ => (done_unaware _).knows

theorem Untouched.kept (h : Untouched s s') (ho : s.Opened) (hp' : p'.flow.Unaware) :
    ChallengeKept i s s' p' :=
  .of_same ho h.now.ge h.preAuth h.openedWith h.drawn fun _ => hp'.knows

theorem Entered.unaware {call : AccountCall} (h : Entered p call p') : p'.flow.Unaware := by
  cases h with
  | aloof h => exact Flow.unaware_of_aloof h
  | _ => exact ⟨rfl, rfl, rfl, rfl⟩

theorem AccountStepped.kept {a : AccountAct} (h : AccountStepped i s p a s' p') (ho : s.Opened)
    (hk : p.flow.Knows i s) (hnow : s.now ≤ s'.now) : ChallengeKept i s s' p' := by
  cases h with
  | session hact h =>
    obtain ⟨hflow, hpre, -, hopened, hdrawn⟩ := sessionStep_fields h
    refine .of_same ho hnow hpre hopened (fun _ _ h => hdrawn ▸ h) fun _ => ?_
    rw [hflow]
    refine ⟨?_, ?_, ?_, ?_⟩
    · rw [hdrawn, hopened]
      exact hk.storing
    · rw [hopened]
      exact hk.opening
    · rw [hpre, hopened]
      exact hk.answering
    · rw [hpre, hopened]
      exact hk.taken
  | start hidle h => exact Untouched.refl.kept ho h.unaware
  | signIn hp h | complete hp h => exact h.kept ho (hp ▸ hk)
  | password hp h => exact h.kept ho
  | aloof hp hp' h => exact h.kept ho (Flow.unaware_of_aloof hp')
  | fail hp' h => exact h.kept ho (hp' ▸ done_unaware _)

end Steps

/-! ## Runs -/

structure Challenged (c : AccountConf) : Prop where
  sessions : Coherent (sessionsOf c)
  opened : c.shared.Opened
  knows : ∀ i, (c.procs i).flow.Knows i c.shared

section Runs

variable {c : AccountConf} {i : Nat} {a : AccountAct} {s : AccountState} {p : Request}

section

variable (h : Challenged c) (hprog : accountProgram i a c.shared (c.procs i) = some (s, p))
include h hprog

theorem Challenged.now_le : c.shared.now ≤ s.now := by
  cases accountProgram_part hprog with
  | same hs => exact (congrArg (·.clock.nanos) hs).ge
  | stepped b hb => exact (h.sessions.kept (i := i) hb).rely.clock

theorem Challenged.kept : ChallengeKept i c.shared s p :=
  (accountStepped hprog).kept h.opened (h.knows i) (h.now_le hprog)

theorem Challenged.set : Challenged (c.set i s p) := by
  have hkept := h.kept hprog
  refine ⟨?_, hkept.opened, fun j => ?_⟩
  · rcases sessionsOf_step hprog with heq | ⟨b, hb⟩
    · exact heq ▸ h.sessions
    · rw [sessionsOf_set]
      exact h.sessions.set hb
  · refine Conf.set_cases j ?_ fun j hji => ?_
    · exact hkept.knows
    · exact (h.knows j).stable hkept.rely hji

end

theorem challenged_initial (cfg : JwtConfig) (deviceAuth : DeviceAuthConfig)
    (clock : OffsetDateTime) : Challenged (accountInitial cfg deviceAuth clock) :=
  ⟨coherent_initial cfg clock, ⟨fun _ _ => rfl, nofun⟩,
    fun _ => Flow.Unaware.knows ⟨rfl, rfl, rfl, rfl⟩⟩

end Runs

end AuthApi
