import AuthApi.ResetPhases

/-!
# The purge of challenges

Until the purge has read the index of the account, every challenge of the
account is in it, or the sign-in that stored it has still to list it, or
one that makes room has still to delete it (`Tracked`). In a sheltered run
none of the latter two is left when the purge reads the index, so what it
reads is all there is, and when it is over no challenge opened with the
old password can be answered (`Purged`).
-/

namespace AuthApi

open Conc

/-! ## Where a challenge is known from -/

/-- The challenge `id` of the account can be answered until `t`. -/
structure Alive (s : AccountState) (userId : Uuid) (id : TokenHash) (t : Int) : Prop where
  entry : ∃ state, s.preAuth.entry id = some (state, some t) ∧ state.userId = userId
  live : s.now ≤ t

theorem Alive.stored {s : AccountState} {userId : Uuid} {id : TokenHash} {t : Int}
    (h : Alive s userId id t) : s.preAuth.entry id ≠ none := by
  obtain ⟨⟨state, hentry, -⟩, -⟩ := h
  rw [hentry]
  nofun

/-- The index of the account lists the challenge `id` and outlives it, or
is about to be renewed. -/
structure Indexed (c : AccountConf) (userId : Uuid) (id : TokenHash) (t : Int)
    (ids : List TokenHash) (deadline : Option Int) : Prop where
  entry : c.shared.userPreAuth.entry userId = some (ids, deadline)
  mem : id ∈ ids
  lasts : ∀ d, deadline = some d →
    t ≤ d ∨ c.shared.now ≤ d ∧ ∃ j, (c.procs j).flow.renewing = some userId

/-- The purge will find the challenge `id`, unless a sign-in is in the
middle of listing it or of deleting it. -/
inductive Tracked (c : AccountConf) (userId : Uuid) (id : TokenHash) (t : Int) : Prop
  | listed {ids : List TokenHash} {deadline : Option Int}
      (h : Indexed c userId id t ids deadline)
  | opening {j : Nat} {challenge : Challenge} (h : (c.procs j).flow.opening = some challenge)
      (hid : challenge.id = id) (huser : challenge.userId = userId)
  | popped {j : Nat} (h : (c.procs j).flow.popped = some (userId, id))

/-- What the index of an account needs to keep up with its challenges:
requests that work on it get through, and it does not expire between
`SADD` and `EXPIRE`. -/
structure Attended (userId : Uuid) (c : AccountConf) (i : Nat) (a : AccountAct) : Prop where
  listing : (c.procs i).flow.listing = some userId → a.unhindered = true
  prompt : ∀ j, ∀ t ∈ a.time, (c.procs j).flow.renewing = some userId →
    ∀ entry ∈ c.shared.userPreAuth.entry userId, ∀ deadline ∈ entry.2, t.nanos ≤ deadline

section Tracked

variable {i r : Nat} {userId : Uuid} {c : AccountConf} {a : AccountAct} {s : AccountState}
  {p : Request} {id id' : TokenHash} {t : Int} {inp : Input} {deadline : Option Int}
  {ids : List TokenHash} {pc : SignInPc}

theorem Indexed.live (h : Indexed c userId id t ids deadline) (hlive : c.shared.now ≤ t) :
    Redis.live c.shared.now deadline = true := by
  cases deadline with
  | none => rfl
  | some d =>
    rw [Redis.live_some]
    rcases h.lasts d rfl with hle | ⟨hle, -⟩
    · omega
    · exact hle

theorem Indexed.mem_members (h : Indexed c userId id t ids deadline) (hlive : c.shared.now ≤ t) :
    id ∈ c.shared.members userId := by
  have hget : c.shared.userPreAuth.get c.shared.now userId = some ids :=
    Redis.Store.get_eq_some.mpr ⟨deadline, h.entry, h.live hlive⟩
  simp [AccountState.members, hget, h.mem]

theorem Tracked.split (h : Tracked c userId id t) (i : Nat) :
    (∃ ids deadline, Indexed c userId id t ids deadline) ∨
      (∃ challenge, (c.procs i).flow.opening = some challenge ∧ challenge.id = id ∧
        challenge.userId = userId) ∨
      (c.procs i).flow.popped = some (userId, id) ∨ ∀ s p, Tracked (c.set i s p) userId id t := by
  cases h with
  | listed h => exact .inl ⟨_, _, h⟩
  | @opening j challenge h hid huser =>
    by_cases hji : j = i
    · subst hji
      exact .inr (.inl ⟨challenge, h, hid, huser⟩)
    · refine .inr (.inr (.inr fun s p => .opening (j := j) ?_ hid huser))
      rw [Conf.set_procs_of_ne _ _ _ hji]
      exact h
  | @popped j h =>
    by_cases hji : j = i
    · subst hji
      exact .inr (.inr (.inl h))
    · refine .inr (.inr (.inr fun s p => .popped (j := j) ?_))
      rw [Conf.set_procs_of_ne _ _ _ hji]
      exact h

theorem Indexed.keep {ids' : List TokenHash} (h : Indexed c userId id t ids deadline)
    (hentry : s.userPreAuth.entry userId = some (ids', deadline)) (hmem : id ∈ ids')
    (hnow : ∀ d, deadline = some d → c.shared.now ≤ d →
      (∃ j, (c.procs j).flow.renewing = some userId) → s.now ≤ d)
    (hrenewing : (c.procs i).flow.renewing = some userId → p.flow.renewing = some userId) :
    Indexed (c.set i s p) userId id t ids' deadline := by
  refine ⟨hentry, hmem, fun d hd => ?_⟩
  rcases h.lasts d hd with hle | ⟨hle, j, hj⟩
  · exact .inl hle
  · refine .inr ⟨hnow d hd hle ⟨j, hj⟩, j, ?_⟩
    rcases c.procs_cases i s p j with ⟨rfl, hset⟩ | ⟨hji, hset⟩ <;> rw [hset]
    · exact hrenewing hj
    · exact hj

/-- A step that leaves the index of the account alone, by a request that
stays where it is with its challenge. -/
theorem Tracked.keep (h : Tracked c userId id t)
    (hindex : s.userPreAuth.entry userId = c.shared.userPreAuth.entry userId)
    (hnow : ∀ ids d, c.shared.userPreAuth.entry userId = some (ids, some d) →
      c.shared.now ≤ d → (∃ j, (c.procs j).flow.renewing = some userId) → s.now ≤ d)
    (hopening : ∀ challenge, (c.procs i).flow.opening = some challenge →
      challenge.userId = userId → p.flow.opening = some challenge)
    (hpopped : (c.procs i).flow.popped = some (userId, id) → p.flow.popped = some (userId, id))
    (hrenewing : (c.procs i).flow.renewing = some userId → p.flow.renewing = some userId) :
    Tracked (c.set i s p) userId id t := by
  rcases h.split i with ⟨ids, deadline, h⟩ | ⟨challenge, hopen, hid, huser⟩ | hpop | h
  · exact .listed (h.keep (hindex.trans h.entry) h.mem
      (fun d hd => hnow ids d (hd ▸ h.entry)) hrenewing)
  · refine .opening (j := i) ?_ hid huser
    rw [Conf.set_procs_self]
    exact hopening challenge hopen huser
  · refine .popped (j := i) ?_
    rw [Conf.set_procs_self]
    exact hpopped hpop
  · exact h s p

/-- `SADD`: the challenge is listed from now on. An index that is there
is about to be renewed by this request. -/
theorem Tracked.add {challenge : Challenge} (h : Tracked c challenge.userId id t)
    (hlive : c.shared.now ≤ t) (hp : (c.procs i).flow = .signIn (.evict challenge 0)) :
    Tracked (c.set i
      { c.shared with
        userPreAuth := c.shared.userPreAuth.alter c.shared.now challenge.userId
          (addMember challenge.id) }
      ((c.procs i).goto (.signIn (.expire challenge)))) challenge.userId id t := by
  have hcases : (id = challenge.id ∨ ∃ ids deadline, Indexed c challenge.userId id t ids deadline) ∨
      ∀ s p, Tracked (c.set i s p) challenge.userId id t := by
    rcases h.split i with hl | ⟨challenge', hopen, hid, huser⟩ | hpop | h
    · exact .inl (.inr hl)
    · rw [hp] at hopen
      cases hopen
      exact .inl (.inl hid.symm)
    · rw [hp] at hpop
      cases hpop
    · exact .inr h
  rcases hcases with hid | h
  · have hrenewing : ∀ s, ((c.set i s ((c.procs i).goto (.signIn (.expire challenge)))).procs
        i).flow.renewing = some challenge.userId := fun s => by
      rw [Conf.set_procs_self]
      rfl
    cases hget : c.shared.userPreAuth.get c.shared.now challenge.userId with
    | some =>
      obtain ⟨deadline, hentry, hdead⟩ := Redis.Store.get_eq_some.mp hget
      refine .listed ⟨Redis.Store.alter_entry_of_live hentry hdead, ?_, ?_⟩
      · rcases hid with rfl | ⟨ids', deadline', hl⟩
        · exact List.mem_insert_self
        · have heq := hentry.symm.trans hl.entry
          cases heq
          exact List.mem_insert_of_mem hl.mem
      · rintro d rfl
        exact .inr ⟨Redis.live_some.mp hdead, i, hrenewing _⟩
    | none =>
      refine .listed ⟨Redis.Store.alter_entry_of_absent hget, ?_, nofun⟩
      rcases hid with rfl | ⟨ids', deadline', hl⟩
      · exact List.mem_insert_self
      · have hsome := Redis.Store.get_eq_some.mpr ⟨deadline', hl.entry, hl.live hlive⟩
        rw [hget] at hsome
        cases hsome
  · exact h _ _

theorem mem_removeMember {id : TokenHash} (hmem : id ∈ ids) (hne : id ≠ id') :
    ∃ rest, removeMember id' (some ids) = some rest ∧ id ∈ rest := by
  have hrest : id ∈ ids.erase id' := (List.mem_erase_of_ne hne).mpr hmem
  refine ⟨ids.erase id', ?_, hrest⟩
  unfold removeMember
  split
  · rename_i hnil
    rw [show ids.erase id' = [] from hnil] at hrest
    cases hrest
  · rfl

theorem Indexed.remove (h : Indexed c userId id t ids deadline) (hlive : c.shared.now ≤ t)
    (hne : id ≠ id')
    (hrenewing : (c.procs i).flow.renewing = some userId → p.flow.renewing = some userId) :
    ∃ rest, Indexed (c.set i
      { c.shared with
        userPreAuth := c.shared.userPreAuth.alter c.shared.now userId (removeMember id') } p)
      userId id t rest deadline := by
  obtain ⟨rest, hrest, hmem⟩ := mem_removeMember h.mem hne
  refine ⟨rest, h.keep ?_ hmem (fun d _ hle _ => hle) hrenewing⟩
  exact (Redis.Store.alter_entry_of_live h.entry (h.live hlive)).trans (by rw [hrest]; rfl)

theorem Flow.opening_of_listing {flow : Flow} (h : flow.listing ≠ some userId) :
    (∀ challenge, flow.opening = some challenge → challenge.userId ≠ userId) ∧
      (∀ id, flow.popped ≠ some (userId, id)) ∧ flow.renewing ≠ some userId := by
  cases flow with
  | signIn pc => cases pc <;> simp_all [Flow.listing, Flow.opening, Flow.popped, Flow.renewing]
  | _ => exact ⟨nofun, nofun, nofun⟩

theorem Tracked.unrelated (h : Tracked c userId id t)
    (hlisting : (c.procs i).flow.listing ≠ some userId)
    (hindex : s.userPreAuth.entry userId = c.shared.userPreAuth.entry userId)
    (hnow : s.now = c.shared.now) : Tracked (c.set i s p) userId id t := by
  obtain ⟨hopening, hpopped, hrenewing⟩ := Flow.opening_of_listing hlisting
  exact h.keep hindex (fun _ _ _ hle _ => hnow ▸ hle)
    (fun challenge hc huser => absurd huser (hopening challenge hc))
    (fun hc => absurd hc (hpopped id)) (fun hc => absurd hc hrenewing)

/-- A sign-in of another account, or one that has no challenge listed or
to list. -/
theorem SignInStepped.index (h : SignInStepped i inp c.shared (c.procs i) pc s p)
    (hlisting : (Flow.signIn pc).listing ≠ some userId) :
    s.userPreAuth.entry userId = c.shared.userPreAuth.entry userId := by
  cases h with
  | listed | popped =>
    exact Redis.Store.alter_entry_of_ne fun heq => hlisting (by rw [heq]; rfl)
  | renewed => exact Redis.Store.expire_entry_of_ne fun heq => hlisting (by rw [heq]; rfl)
  | _ => rfl

theorem SignInStepped.now (h : SignInStepped i inp c.shared (c.procs i) pc s p) :
    s.now = c.shared.now := by
  cases h <;> rfl

theorem Tracked.signIn (h : Tracked c userId id t) (hp : (c.procs i).flow = .signIn pc)
    (hstep : SignInStepped i inp c.shared (c.procs i) pc s p)
    (hup : (Flow.signIn pc).listing = some userId → inp.redisUp = true) (hlive : c.shared.now ≤ t)
    (hbound : t ≤ c.shared.now + preAuthTtlSecs * nanosPerSec)
    (hentry : s.preAuth.entry id ≠ none) : Tracked (c.set i s p) userId id t := by
  by_cases hlisting : (Flow.signIn pc).listing = some userId
  · have hsame : ∀ p', (∀ challenge, (c.procs i).flow.opening = some challenge →
        p'.flow.opening = some challenge) → (c.procs i).flow.popped = none →
        (c.procs i).flow.renewing = none → Tracked (c.set i c.shared p') userId id t := by
      intro p' hopening hpopped hrenewing
      refine h.keep rfl (fun _ _ _ hle _ => hle) (fun challenge hc _ => hopening challenge hc) ?_ ?_
      · rw [hpopped]
        nofun
      · rw [hrenewing]
        nofun
    cases hstep with
    | counted | stopped =>
      exact hsame _ (by rw [hp]; exact fun _ h => h) (by rw [hp]; rfl) (by rw [hp]; rfl)
    | listed =>
      obtain rfl := Option.some.inj hlisting
      exact h.add hlive hp
    | @popped challenge rounds hmem =>
      obtain rfl := Option.some.inj hlisting
      rcases h.split i with ⟨ids, deadline, hl⟩ | ⟨challenge', hopen, hid, huser⟩ | hpop | h
      · by_cases hid : id = inp.member
        · refine .popped (j := i) ?_
          rw [Conf.set_procs_self, hid]
          rfl
        · obtain ⟨rest, hl'⟩ := hl.remove (i := i)
            (p := (c.procs i).goto (.signIn (.drop challenge rounds inp.member))) hlive hid
            (by rw [hp]; nofun)
          exact .listed hl'
      · refine .opening (j := i) ?_ hid huser
        rw [Conf.set_procs_self]
        rw [hp] at hopen
        exact hopen
      · rw [hp] at hpop
        cases hpop
      · exact h _ _
    | @dropped challenge rounds id' hup' =>
      rcases h.split i with ⟨ids, deadline, hl⟩ | ⟨challenge', hopen, hid, huser⟩ | hpop | h
      · exact .listed (hl.keep hl.entry hl.mem (fun _ _ hle _ => hle) (by rw [hp]; nofun))
      · refine .opening (j := i) ?_ hid huser
        rw [Conf.set_procs_self]
        rw [hp] at hopen
        exact hopen
      · rw [hp] at hpop
        cases hpop
        exact absurd Redis.Store.del_entry_self hentry
      · exact h _ _
    | @renewed challenge hup' =>
      obtain rfl := Option.some.inj hlisting
      rcases h.split i with ⟨ids, deadline, hl⟩ | ⟨challenge', hopen, hid, huser⟩ | hpop | h
      · have hget := Redis.Store.get_eq_some.mpr ⟨deadline, hl.entry, hl.live hlive⟩
        refine .listed ⟨Redis.Store.expire_entry_of_get hget, hl.mem, ?_⟩
        rintro d ⟨⟩
        exact .inl hbound
      · rw [hp] at hopen
        cases hopen
      · rw [hp] at hpop
        cases hpop
      · exact h _ _
    | notListed hdown | notDropped hdown | notRenewed hdown =>
      rw [hup hlisting] at hdown; cases hdown
    | ended hpc => rw [hpc] at hlisting; cases hlisting
    | _ => cases hlisting
  · exact h.unrelated (hp ▸ hlisting) (hstep.index hlisting) hstep.now

theorem Tracked.complete {pc : CompletePc} (h : Tracked c userId id t) (hc : Challenged c)
    (hp : (c.procs i).flow = .complete pc) (hstep : CompleteStepped inp c.shared (c.procs i) pc s p)
    (halive : Alive c.shared userId id t) : Tracked (c.set i s p) userId id t := by
  have hnone : (c.procs i).flow.listing ≠ some userId := by
    rw [hp]
    nofun
  cases hstep with
  | @unlisted request challenge hidle =>
    by_cases huser : challenge.userId = userId
    · -- The challenge taken out of the index is not stored any more.
      have htaken := ((hc.knows i).taken request.challengeId (by rw [hp]; rfl)).2
      have hne : id ≠ request.challengeId := by
        rintro rfl
        obtain ⟨state, hentry, -⟩ := halive.entry
        rw [htaken] at hentry
        cases hentry
      split
      · subst huser
        rcases h.split i with ⟨ids, deadline, hl⟩ | ⟨challenge', hopen, -, -⟩ | hpop | h
        · obtain ⟨rest, hl'⟩ := hl.remove (i := i)
            (p := ⟨.complete (.issue request.challengeId challenge.userId),
              .issue (.clock (request.issueArgs challenge))⟩) halive.live hne (by rw [hp]; nofun)
          exact .listed hl'
        · rw [hp] at hopen
          cases hopen
        · rw [hp] at hpop
          cases hpop
        · exact h _ _
      · exact h.unrelated hnone rfl rfl
    · split
      · exact h.unrelated hnone (Redis.Store.alter_entry_of_ne (Ne.symm huser)) rfl
      · exact h.unrelated hnone rfl rfl
  | _ => exact h.unrelated hnone rfl rfl

theorem PasswordStepped.index {pc : PasswordPc}
    (h : PasswordStepped inp c.shared (c.procs i) pc s p)
    (hnot : pc ≠ .drop userId []) :
    s.userPreAuth.entry userId = c.shared.userPreAuth.entry userId ∧ s.now = c.shared.now := by
  cases h with
  | @cleared user =>
    have hne : userId ≠ user := by
      rintro rfl
      exact hnot rfl
    split
    · exact ⟨Redis.Store.del_entry_of_ne hne, rfl⟩
    · exact ⟨rfl, rfl⟩
  | deleted => split <;> exact ⟨rfl, rfl⟩
  | _ => exact ⟨rfl, rfl⟩

theorem Tracked.step (h : Tracked c userId id t) (hc : Challenged c)
    (hok : Attended userId c i a) (hstep : AccountStepped i c.shared (c.procs i) a s p)
    (hnot : (c.procs i).flow ≠ .password (.drop userId []))
    (halive : Alive c.shared userId id t) (hentry : s.preAuth.entry id ≠ none) :
    Tracked (c.set i s p) userId id t := by
  obtain ⟨state, hstored, -⟩ := halive.entry
  obtain ⟨-, t', ht', hbound⟩ := hc.opened.stored id state (some t) hstored
  cases ht'
  cases hstep with
  | session hact hsession =>
    obtain ⟨hflow, hpre, hindex, -, -⟩ := sessionStep_fields hsession
    refine h.keep (by rw [hindex]) ?_ (fun challenge hch _ => hflow ▸ hch) (fun hch => hflow ▸ hch)
      (fun hch => hflow ▸ hch)
    rintro ids d hids hle ⟨j, hj⟩
    rcases sessionProgram_clock (sessionStep_part hsession) with heq | ⟨t₁, rfl, heq⟩
    · rw [AccountState.now, heq]
      exact hle
    · rw [AccountState.now, heq]
      refine hok.prompt j t₁ ?_ hj _ hids d rfl
      cases a <;> cases hact
      rfl
  | start hidle => exact h.unrelated (by simp [hidle, Flow.listing]) rfl rfl
  | signIn hp hsign =>
    refine h.signIn hp hsign (fun hlisting => ?_) halive.live hbound hentry
    have hup := hok.listing (hp ▸ hlisting)
    simp only [AccountAct.unhindered, Bool.and_eq_true] at hup
    exact hup.1
  | complete hp hcomplete => exact h.complete hc hp hcomplete halive
  | @password inp pc s p hp hpassword =>
    obtain ⟨hindex, hnow⟩ := hpassword.index fun heq => hnot (heq ▸ hp)
    refine h.keep hindex (fun _ _ _ hle _ => hnow ▸ hle) (fun _ hch => ?_) (fun hch => ?_)
      fun hch => ?_
    all_goals
      rw [hp] at hch
      cases hch
  | aloof hp hp' huntouched =>
    have hlisting : (c.procs i).flow.listing = none := by
      cases hflow : (c.procs i).flow <;> rw [hflow] at hp <;> first | rfl | cases hp
    exact h.unrelated (by simp [hlisting]) (by rw [huntouched.userPreAuth]) huntouched.now
  | fail hp' huntouched =>
    refine h.unrelated (fun hlisting => ?_) (by rw [huntouched.userPreAuth]) huntouched.now
    cases hok.listing hlisting

theorem Sheltered.attended (h : Sheltered r userId c i a) : Attended userId c i a :=
  ⟨h.listing, fun j => (h.clear j).prompt⟩

end Tracked

/-! ## The purge -/

/-- What the purge achieves. Version 0 is that of the old password. -/
structure Purged (r : Nat) (userId : Uuid) (c : AccountConf) : Prop where
  traced : ((c.procs r).phase userId).unread = true → ∀ id t, Alive c.shared userId id t →
    Tracked c userId id t
  unlisted : ((c.procs r).phase userId).left.isSome → ∀ j,
    (c.procs j).flow.unlisted ≠ some (userId, 0)
  old : ∀ ids, ((c.procs r).phase userId).left = some ids → ∀ id t, Alive c.shared userId id t →
    c.shared.openedWith id = some 0 → id ∈ ids

section Purged

variable {i r : Nat} {userId : Uuid} {c : AccountConf} {a : AccountAct} {s s' : AccountState}
  {p p' : Request} {id : TokenHash} {t : Int}

theorem AccountStepped.alive (h : AccountStepped i s p a s' p') (hnow : s.now ≤ s'.now)
    (halive : Alive s' userId id t) :
    Alive s userId id t ∨ ∃ challenge rememberMe, p.flow = .signIn (.store challenge rememberMe) ∧
      p'.flow = .signIn (.count challenge) ∧ challenge.id = id ∧ challenge.userId = userId ∧
      s'.openedWith id = some challenge.version := by
  obtain ⟨⟨state, hentry, huser⟩, hlive⟩ := halive
  have hsame : (s'.preAuth.entry id = s.preAuth.entry id ∨ s'.preAuth.entry id = none) →
      Alive s userId id t := by
    rintro (heq | heq)
    · exact ⟨⟨state, heq ▸ hentry, huser⟩, hnow.trans hlive⟩
    · rw [heq] at hentry
      cases hentry
  cases h with
  | session hact hstep => exact .inl (hsame (.inl (by rw [(sessionStep_fields hstep).2.1])))
  | start => exact .inl (hsame (.inl rfl))
  | signIn hp h =>
    cases h with
    | @stored challenge rememberMe =>
      by_cases hid : id = challenge.id
      · subst hid
        rw [Redis.Store.setEx_entry_self] at hentry
        cases hentry
        exact .inr ⟨challenge, rememberMe, hp, rfl, rfl, huser, Function.update_self ..⟩
      · exact .inl (hsame (.inl (Redis.Store.setEx_entry_of_ne hid)))
    | dropped => exact .inl (hsame (del_entries _ _ _))
    | _ => exact .inl (hsame (.inl rfl))
  | complete hp h =>
    cases h with
    | taken => exact .inl (hsame (del_entries _ _ _))
    | unlisted => exact .inl (hsame (.inl (by split <;> rfl)))
    | _ => exact .inl (hsame (.inl rfl))
  | password hp h =>
    cases h with
    | deleted =>
      refine .inl (hsame ?_)
      split
      · exact del_entries _ _ _
      · exact .inl rfl
    | cleared => exact .inl (hsame (.inl (by split <;> rfl)))
    | _ => exact .inl (hsame (.inl rfl))
  | aloof hp hp' h | fail hp' h => exact .inl (hsame (.inl (by rw [h.preAuth])))

theorem AccountStepped.unlisted {version : Nat} (h : AccountStepped i s p a s' p')
    (hun : p'.flow.unlisted = some (userId, version)) :
    p.flow.unlisted = some (userId, version) ∨ version = s.passwordVersion userId := by
  cases h with
  | session hact hstep => exact .inl ((sessionStep_fields hstep).1 ▸ hun)
  | start hidle h =>
    cases h with
    | aloof haloof =>
      cases hflow : p'.flow <;> rw [hflow] at haloof hun <;> first | cases hun | cases haloof
    | _ => cases hun
  | signIn hp h =>
    rw [hp]
    cases h with
    | checked =>
      cases hun
      exact .inr rfl
    | drew hfresh | stored | counted rounds | popped hmem | stopped | dropped hup
    | notDropped => exact .inl hun
    | _ => cases hun
  | complete hp h | password hp h => cases h <;> cases hun
  | aloof hp hp' =>
    cases hflow : p'.flow <;> rw [hflow] at hp' hun <;> first | cases hun | cases hp'
  | fail hp' =>
    rw [hp'] at hun
    cases hun

theorem Flow.unlisted_of_opening {flow : Flow} {challenge : Challenge}
    (h : flow.opening = some challenge) :
    flow.unlisted = some (challenge.userId, challenge.version) := by
  unfold Flow.opening at h
  split at h <;> cases h <;> rfl

theorem Request.unlisted_of_phase (h : p.phase userId ≠ .other) : p.flow.unlisted = none := by
  cases hflow : p.flow with
  | signIn => exact absurd (by simp [Request.phase, hflow]) h
  | _ => rfl

theorem Challenged.opened_before (hc : Challenged c)
    (hprog : accountProgram i a c.shared (c.procs i) = some (s, p))
    (halive : Alive c.shared userId id t) (hopened : s.openedWith id = some 0) :
    c.shared.openedWith id = some 0 := by
  obtain ⟨⟨state, hentry, -⟩, -⟩ := halive
  obtain ⟨v, hv⟩ := Option.isSome_iff_exists.mp (hc.opened.stored id state _ hentry).1
  rw [(hc.kept hprog).rely.opened id v hv] at hopened
  rw [hv, hopened]

section

variable (h : Purged r userId c) (hc : Challenged c)
include h hc

/-- The purge reads the index: every old challenge is in it. -/
theorem Purged.read (hr : Resetting r userId c) (hok : Sheltered r userId c r a)
    (ha : a.input.isSome) (hflow : (c.procs r).flow = .password (.members userId)) :
    (∀ j, (c.procs j).flow.unlisted ≠ some (userId, 0)) ∧
      ∀ id t, Alive c.shared userId id t → c.shared.openedWith id = some 0 →
        id ∈ c.shared.members userId := by
  have hphase := Request.phase_members hflow
  have hversion : c.shared.passwordVersion userId = 1 := hr.late (by rw [hphase]; rfl)
  have hreading : (c.procs r).flow.reading = some userId := by
    rw [hflow]
    rfl
  have hunlisted : ∀ j, (c.procs j).flow.unlisted ≠ some (userId, 0) := by
    intro j hj
    have hle := (hok.clear j).unlisted rfl ha hreading _ hj rfl
    rw [hversion] at hle
    cases hle
  refine ⟨hunlisted, fun id t halive hopened => ?_⟩
  cases h.traced (by rw [hphase]; rfl) id t halive with
  | listed hl => exact hl.mem_members halive.live
  | @opening j challenge hopen hid huser =>
    have hver := (hc.knows j).opening challenge hopen
    rw [hid, hopened] at hver
    refine absurd (Flow.unlisted_of_opening hopen) ?_
    rw [huser, ← Option.some.inj hver]
    exact hunlisted j
  | @popped j hpop =>
    have hle := (hok.clear j).popped rfl ha hreading _ hpop rfl
    rw [hversion, AccountState.versionOf, hopened] at hle
    cases hle

theorem Purged.of_same (hok : Sheltered r userId c r a)
    (hprog : accountProgram r a c.shared (c.procs r) = some (s, p))
    (hpre : s.preAuth = c.shared.preAuth) (hne : p.phase userId ≠ .other)
    (hunread : (p.phase userId).unread = true → ((c.procs r).phase userId).unread = true)
    (hleft : ∀ ids, (p.phase userId).left = some ids → ((c.procs r).phase userId).left = some ids) :
    Purged r userId (c.set r s p) := by
  have hbefore : ∀ id t, Alive s userId id t → Alive c.shared userId id t :=
    fun id t halive => ⟨hpre ▸ halive.entry, (hc.now_le hprog).trans halive.live⟩
  refine ⟨?_, ?_, ?_⟩ <;> rw [Conf.set_procs_self]
  · intro hphase id t halive
    refine (h.traced (hunread hphase) id t (hbefore id t halive)).step hc hok.attended
      (accountStepped hprog) (fun hflow => ?_) (hbefore id t halive) halive.stored
    have hno := hunread hphase
    rw [Request.phase_drop hflow] at hno
    cases hno
  · intro hsome j
    obtain ⟨ids, hids⟩ := Option.isSome_iff_exists.mp hsome
    rcases c.procs_cases r s p j with ⟨rfl, hset⟩ | ⟨hj, hset⟩ <;> rw [hset]
    · rw [Request.unlisted_of_phase hne]
      nofun
    · exact h.unlisted (by rw [hleft ids hids]; rfl) j
  · intro ids hids id t halive hopened
    exact h.old ids (hleft ids hids) id t (hbefore id t halive)
      (hc.opened_before hprog (hbefore id t halive) hopened)

theorem Purged.own_step (hr : Resetting r userId c) (hok : Sheltered r userId c r a)
    (hprog : accountProgram r a c.shared (c.procs r) = some (s, p)) :
    Purged r userId (c.set r s p) := by
  by_cases hother : p.phase userId = .other
  · refine ⟨?_, ?_, ?_⟩ <;> rw [Conf.set_procs_self, hother] <;> nofun
  -- The requests that the reset is not: none of them moves.
  have hunlisted : (∀ j, (c.procs j).flow.unlisted ≠ some (userId, 0)) →
      ∀ s j, ((c.set r s p).procs j).flow.unlisted ≠ some (userId, 0) := by
    intro hall s j
    rcases c.procs_cases r s p j with ⟨rfl, hset⟩ | ⟨hj, hset⟩ <;> rw [hset]
    · rw [Request.unlisted_of_phase hother]
      nofun
    · exact hall j
  cases hr.stepped hok (accountStepped hprog) hother with
  | stayed hphase hpre =>
    exact h.of_same hc hok hprog hpre hother (fun hu => hphase ▸ hu) (fun ids hl => hphase ▸ hl)
  | scanned hphase hphase' hpre hindex hversion
  | committed ha hphase hphase' hscan hpre =>
    refine h.of_same hc hok hprog hpre hother (fun _ => by rw [hphase]; rfl) ?_
    rw [hphase']
    nofun
  | read ha hflow hphase' =>
    obtain ⟨hall, hmem⟩ := h.read hc hr hok ha hflow
    refine ⟨?_, ?_, ?_⟩ <;> rw [Conf.set_procs_self, hphase']
    · nofun
    · exact fun _ => hunlisted hall _
    · rintro _ ⟨⟩
      exact hmem
  | @deleted id ids _ hflow hphase' =>
    have hphase := Request.phase_drop hflow
    refine ⟨?_, ?_, ?_⟩ <;> rw [Conf.set_procs_self, hphase']
    · nofun
    · exact fun _ => hunlisted (h.unlisted (by rw [hphase]; rfl)) _
    · rintro _ ⟨⟩ id' t ⟨⟨state, hentry, huser⟩, hlive⟩ hopened
      have hne : id' ≠ id := by
        rintro rfl
        rw [Conf.set_shared, Redis.Store.del_entry_self] at hentry
        cases hentry
      rw [Conf.set_shared, Redis.Store.del_entry_of_ne hne] at hentry
      have hmem := h.old (id :: ids) (by rw [hphase]; rfl) id' t ⟨⟨state, hentry, huser⟩, hlive⟩
        hopened
      exact (List.mem_cons.mp hmem).resolve_left hne
  | cleared hflow hphase' =>
    refine h.of_same hc hok hprog rfl hother ?_ ?_
    · rw [hphase']
      nofun
    · rw [hphase', Request.phase_drop hflow]
      exact fun _ hl => hl
  | left hphase' => exact absurd hphase' hother

theorem Purged.other_step (hr : Resetting r userId c) (hok : Sheltered r userId c i a) (hne : r ≠ i)
    (hprog : accountProgram i a c.shared (c.procs i) = some (s, p)) :
    Purged r userId (c.set i s p) := by
  have hstep := accountStepped hprog
  have hnow := hc.now_le hprog
  refine ⟨?_, ?_, ?_⟩ <;> rw [Conf.set_procs_of_ne _ _ _ hne]
  · intro hphase id t halive
    rcases hstep.alive hnow halive with hbefore | ⟨challenge, rememberMe, -, hflow', hid, huser, -⟩
    · exact (h.traced hphase id t hbefore).step hc hok.attended hstep
        (fun hflow => hr.only i hne.symm (by rw [hflow]; rfl)) hbefore halive.stored
    · refine .opening (j := i) ?_ hid huser
      rw [Conf.set_procs_self, hflow']
      rfl
  · intro hsome j
    rcases c.procs_cases i s p j with ⟨rfl, hset⟩ | ⟨hj, hset⟩ <;> rw [hset]
    · intro hun
      rcases hstep.unlisted hun with hbefore | hversion
      · exact h.unlisted hsome j hbefore
      · rw [hr.late] at hversion
        · cases hversion
        · cases hphase : (c.procs r).phase userId <;> rw [hphase] at hsome <;>
            first | rfl | cases hsome
    · exact h.unlisted hsome j
  · intro ids hids id t halive hopened
    rcases hstep.alive hnow halive with hbefore |
      ⟨challenge, rememberMe, hflow, -, hid, huser, hver⟩
    · exact h.old ids hids id t hbefore (hc.opened_before hprog hbefore hopened)
    · rw [Conf.set_shared, hver] at hopened
      refine absurd ?_ (h.unlisted (by rw [hids]; rfl) i)
      rw [hflow, ← huser, ← Option.some.inj hopened]
      rfl

end

end Purged

end AuthApi
