import AuthApi.SessionRefinement
import AuthApi.Lifetime

/-!
# The cached state of a session

`verify_token_state` keeps what it has read of a session in Redis for a
few seconds. A revocation overwrites the entry with an "ended" marker
once it has committed, and a check that read the session before does not
overwrite the marker (`SET NX`). The marker lives as long as any entry.

So a check that reads Redis after the marker was set can find an active
entry in one way only: another check had read the session before the
revocation committed, and stored its answer after the marker had
expired, while there was no entry (`active_after_marker`).
-/

namespace AuthApi

open Conc Pg

/-! ## Who writes an entry -/

/-- The session a request is about to mark as ended. -/
def Pc.marking : Pc → Option Uuid
  | .revoke (.forget _ (.markEnded id :: _)) => some id
  | _ => none

/-- The session whose cached state a check is about to read. -/
def Pc.reading : Pc → Option Uuid
  | .verify (.cache _ id) => some id
  | _ => none

/-- What a step may do to the cached state of the session `k`: nothing, or
mark it as ended, or store the answer of a check where there is none. -/
inductive CacheStep (k : Uuid) (a : Act) (s : Shared) (pc : Pc) (s' : Shared) : Prop
  | same (h : s'.redis.entry (.session k) = s.redis.entry (.session k))
  | marked (hpc : pc.marking = some k) (hclock : s'.clock = s.clock)
      (h : s'.redis.entry (.session k)
        = some (cachedEnded, some (s.clock.nanos + sessionCacheTtlSecs * nanosPerSec)))
  | stored (ch : Choice) (active firstParty : Bool) (ha : a = .go ch) (hup : ch.redisUp = true)
      (hpc : pc = .verify (.set k active firstParty)) (hclock : s'.clock = s.clock)
      (habsent : s.redis.get s.clock.nanos (.session k) = none)
      (h : s'.redis.entry (.session k)
        = some (cachedValue active firstParty,
            some (s.clock.nanos + sessionCacheTtlSecs * nanosPerSec)))

def Pc.isVerify : Pc → Bool
  | .verify _ => true
  | _ => false

variable {s s' : Shared} {a : Act} {c c₁ start : SessionConf} {i p : Nat} {k : Uuid} {pc : Pc}
  {ch : Choice}

theorem Command.run_cache (command : Command) (k : Uuid) :
    (command.run s).entry (.session k) = s.redis.entry (.session k) ∨
      command = .markEnded k ∧ (command.run s).entry (.session k)
        = some (cachedEnded, some (s.clock.nanos + sessionCacheTtlSecs * nanosPerSec)) := by
  cases command with
  | markEnded id =>
    by_cases hk : k = id
    · subst hk
      exact .inr ⟨rfl, Redis.Store.setEx_entry_self⟩
    · exact .inl (Redis.Store.setEx_entry_of_ne fun h => hk (RedisKey.session.inj h))
  | blocklistJti | blocklistRefreshToken =>
    left
    simp only [run]
    split
    · rfl
    · exact Redis.Store.setEx_entry_of_ne (by simp)

section Steps

variable {i : Nat} {a : Act} {ch : Choice} {s s' : Shared} {pc pc' : Pc} {k : Uuid}
  {row : SessionRow}

theorem RevokeStepped.cache {q : RevokePc} (h : RevokeStepped i s ch q s' pc') :
    CacheStep k (.go ch) s (.revoke q) s' := by
  cases h with
  | @forgets _ command =>
    split
    · rcases command.run_cache (s := s) k with hsame | ⟨rfl, hmark⟩
      · exact .same hsame
      · exact .marked rfl rfl hmark
    · exact .same rfl
  | _ => exact .same rfl

theorem VerifyStepped.cache {q : VerifyPc} (h : VerifyStepped s ch q s' pc') :
    CacheStep k (.go ch) s (.verify q) s' := by
  cases h with
  | @answered sessionId active firstParty =>
    cases hup : ch.redisUp with
    | false => exact .same rfl
    | true =>
      by_cases hk : k = sessionId
      · subst hk
        cases hget : s.redis.get s.clock.nanos (.session k) with
        | none =>
          refine .stored ch active firstParty rfl hup rfl rfl hget ?_
          simp only [if_true, Redis.Store.setNx_of_absent hget]
          exact Redis.Store.setEx_entry_self
        | some =>
          refine .same ?_
          simp only [if_true, Redis.Store.setNx_of_get hget]
      · exact .same (Redis.Store.setNx_entry_of_ne fun h => hk (RedisKey.session.inj h))
  | _ => exact .same rfl

theorem sessionProgram_cache (k : Uuid) (h : sessionProgram i a s pc = some (s', pc')) :
    CacheStep k a s pc s' := by
  cases stepped h with
  | tick | configure | start | fail => exact .same rfl
  | @go ch _ _ h =>
    cases pc with
    | idle | done => cases h
    | issue => cases issueStepped h <;> exact .same rfl
    | refresh => cases refreshStepped h <;> exact .same rfl
    | rotate => cases rotateStepped h <;> exact .same rfl
    | revoke => exact (revokeStepped h).cache
    | verify => exact (verifyStepped h).cache

theorem advance_isVerify (h : advance i ch s pc = some (s', pc')) (hpc' : pc'.isVerify = true) :
    ∃ q, pc = .verify q ∧ verifyStep ch s q = some (s', pc') := by
  cases pc with
  | idle | done => cases h
  | issue => cases issueStepped h <;> cases hpc'
  | refresh => cases refreshStepped h <;> cases hpc'
  | rotate => cases rotateStepped h <;> cases hpc'
  | revoke => cases revokeStepped h <;> cases hpc'
  | verify q => exact ⟨q, rfl, h⟩

/-! ## Checks that have read the session -/

/-- A token check that has read the session `k` unrevoked and has yet to
store its answer. -/
def Pc.holdsActive (k : Uuid) : Pc → Bool
  | .verify (.clock sessionId validation) =>
    decide (sessionId = k) && validation.revokedAt.isNone
  | .verify (.set sessionId active _) => decide (sessionId = k) && active
  | _ => false

theorem Pc.isVerify_of_holdsActive (h : pc.holdsActive k = true) : pc.isVerify = true := by
  cases pc with
  | verify => rfl
  | _ => cases h

theorem Pc.holdsActive_step (hrow : s.store k = some row) (hrev : row.val.revokedAt.isSome)
    (h : sessionProgram i a s pc = some (s', pc')) (hpc' : pc'.holdsActive k = true) :
    pc.holdsActive k = true := by
  cases stepped h with
  | tick | configure => exact hpc'
  | @start call hidle hadmitted => cases call <;> cases hpc'
  | fail => cases hpc'
  | @go ch _ _ hgo =>
    obtain ⟨q, rfl, hstep⟩ := advance_isVerify hgo (isVerify_of_holdsActive hpc')
    cases verifyStepped hstep with
    | @read sessionId session hfind =>
      simp only [holdsActive, Session.validation, Bool.and_eq_true, decide_eq_true_eq] at hpc'
      obtain ⟨rfl, hnone⟩ := hpc'
      have hfind' : s.findById sessionId = some row.val := congrArg _ hrow
      rw [← Option.some.inj (hfind'.symm.trans hfind), Option.isNone_iff_eq_none] at hnone
      rw [hnone] at hrev
      cases hrev
    | judged =>
      simp only [holdsActive, SessionValidation.isActive, Bool.and_eq_true,
        decide_eq_true_eq] at hpc' ⊢
      exact ⟨hpc'.1, hpc'.2.1⟩
    | _ => cases hpc'

/-- A token check that has read Redis, or a request that has ended. -/
def Pc.pastRead : Pc → Bool
  | .verify (.lookup _) => true
  | .verify (.clock _ _) => true
  | .verify (.set _ _ _) => true
  | .done _ => true
  | _ => false

theorem Pc.pastRead_of_holdsActive (h : pc.holdsActive k = true) : pc.pastRead = true := by
  cases pc with
  | verify q => cases q <;> first | rfl | cases h
  | _ => cases h

theorem Pc.pastRead_step (h : sessionProgram i a s pc = some (s', pc'))
    (hpc : pc.pastRead = true) : pc'.pastRead = true := by
  cases stepped h with
  | tick | configure => exact hpc
  | start hidle =>
    subst hidle
    cases hpc
  | fail => rfl
  | @go ch _ _ h =>
    cases pc with
    | verify =>
      cases verifyStepped h with
      | looked => cases hpc
      | _ => rfl
    | done => cases h
    | _ => cases hpc

/-- A check of the session `k` that has not found it active. -/
def Pc.unanswered (k : Uuid) : Pc → Bool
  | .verify (.cache _ sessionId) => decide (sessionId = k)
  | .verify (.lookup sessionId) => decide (sessionId = k)
  | .verify (.clock sessionId validation) =>
    decide (sessionId = k) && validation.revokedAt.isSome
  | .verify (.set sessionId active _) => decide (sessionId = k) && !active
  | .done (.firstParty _) => false
  | .done _ => true
  | _ => false

/-- There is no entry from which a check would answer that the session
`k` is active. -/
def Shared.NoActiveEntry (s : Shared) (k : Uuid) : Prop :=
  ∀ firstParty, s.redis.get s.clock.nanos (.session k) ≠ some (cachedValue true firstParty)

theorem Pc.unanswered_step (hrow : s.store k = some row) (hrev : row.val.revokedAt.isSome)
    (hcache : s.NoActiveEntry k) (h : sessionProgram i a s pc = some (s', pc'))
    (hpc : pc.unanswered k = true) : pc'.unanswered k = true := by
  cases stepped h with
  | tick | configure => exact hpc
  | start hidle =>
    subst hidle
    cases hpc
  | fail => rfl
  | @go ch _ _ h =>
    cases pc with
    | verify =>
      cases verifyStepped h with
      | refused => rfl
      | looked => cases hpc
      | @cached _ sessionId _ hstate =>
        obtain rfl : sessionId = k := of_decide_eq_true hpc
        exact absurd (tokenState_eq_active hstate) (hcache _)
      | uncached => exact hpc
      | @read sessionId _ hfind =>
        obtain rfl : sessionId = k := of_decide_eq_true hpc
        have hfind' : s.findById sessionId = some row.val := congrArg _ hrow
        rw [← Option.some.inj (hfind'.symm.trans hfind)]
        simp [unanswered, Session.validation, hrev]
      | judged =>
        simp only [unanswered, Bool.and_eq_true, decide_eq_true_eq] at hpc ⊢
        refine ⟨hpc.1, ?_⟩
        simp [SessionValidation.isActive, Option.isNone_eq_false_iff.mpr hpc.2]
      | @answered _ active =>
        cases active with
        | false => rfl
        | true => simp [unanswered] at hpc
    | done => cases h
    | _ => cases hpc

end Steps

/-! ## Runs -/

/-- What holds of the session `k` once its revocation has committed: the
checks that hold it active held it active before, in `c₁`. -/
structure Ended (c₁ : SessionConf) (k : Uuid) (c : SessionConf) : Prop where
  coherent : Coherent c
  revoked : ∃ row, c.shared.store k = some row ∧ row.val.revokedAt.isSome
  holders : ∀ w, (c.procs w).holdsActive k = true → (c₁.procs w).holdsActive k = true

theorem Ended.step (h : Ended c₁ k c)
    (hprog : sessionProgram i a c.shared (c.procs i) = some (s, pc)) :
    Ended c₁ k (c.set i s pc) := by
  obtain ⟨row, hrow, hrev⟩ := h.revoked
  obtain ⟨row', hrow', hev⟩ := (h.coherent.kept hprog).rely.evolves hrow
  refine ⟨h.coherent.set hprog, ⟨row', hrow', hev.revoked hrev⟩, fun w hw => h.holders w ?_⟩
  rcases c.procs_cases i s pc w with ⟨rfl, hset⟩ | ⟨hwi, hset⟩ <;> rw [hset] at hw
  · exact Pc.holdsActive_step hrow hrev hprog hw
  · exact hw

/-- The step that revokes the session. It is a commit, so the process that
takes it is no token check. -/
theorem ended_of_commit {row row' : SessionRow} (h₁ : Coherent c₁)
    (hrow : c₁.shared.store k = some row) (hlive : row.val.revokedAt = none)
    (hcommit : Step sessionProgram Free c₁ c) (hrow' : c.shared.store k = some row')
    (hrev : row'.val.revokedAt.isSome) : Ended c₁ k c := by
  obtain ⟨-, hprog⟩ := hcommit
  rename_i i a s pc
  refine ⟨h₁.set hprog, ⟨row', hrow', hrev⟩, fun w hw => ?_⟩
  by_cases hwi : w = i
  · exfalso
    subst hwi
    rw [Conf.set_procs_self] at hw
    rcases h₁.store_step hprog with heq | ⟨ch, op, rfl, hop, -⟩
    · have hsame : c₁.shared.store k = some row' := heq ▸ hrow'
      rw [← Option.some.inj (hrow.symm.trans hsame), hlive] at hrev
      cases hrev
    · obtain ⟨q, hq, -⟩ := advance_isVerify hprog (Pc.isVerify_of_holdsActive hw)
      rw [hq] at hop
      cases hop
  · rw [Conf.set_procs_of_ne _ _ _ hwi] at hw
    exact hw

/-- In the run from `start` to `c`, the check `w` has stored that the
session `k` is active, when there was no entry and those of `start` had
expired. -/
def StoredStale (start : SessionConf) (k : Uuid) (w : Nat) (c : SessionConf) : Prop :=
  ∃ c' ch firstParty s pc, Steps sessionProgram Free start c' ∧
    c'.procs w = .verify (.set k true firstParty) ∧ ch.redisUp = true ∧
    c'.shared.redis.get c'.shared.clock.nanos (.session k) = none ∧
    start.shared.clock.nanos + sessionCacheTtlSecs * nanosPerSec ≤ c'.shared.clock.nanos ∧
    sessionProgram w (.go ch) c'.shared (c'.procs w) = some (s, pc) ∧
    Steps sessionProgram Free (c'.set w s pc) c

theorem StoredStale.tail {c' : SessionConf} {w : Nat} (h : StoredStale start k w c)
    (hstep : Step sessionProgram Free c c') : StoredStale start k w c' := by
  obtain ⟨c'', ch, firstParty, s, pc, hrun, hpc, hup, habsent, hlate, hprog, hrest⟩ := h
  exact ⟨c'', ch, firstParty, s, pc, hrun, hpc, hup, habsent, hlate, hprog, hrest.tail hstep⟩

/-- What holds after the marker was set, in `start`. -/
structure Marked (c₁ start : SessionConf) (k : Uuid) (c : SessionConf) : Prop where
  ended : Ended c₁ k c
  run : Steps sessionProgram Free start c
  clock : start.shared.clock ≤ c.shared.clock
  /-- The marker, or an entry that was stored later. -/
  entry : ∃ v deadline, c.shared.redis.entry (.session k) = some (v, some deadline) ∧
    start.shared.clock.nanos + sessionCacheTtlSecs * nanosPerSec ≤ deadline
  cache : c.shared.NoActiveEntry k ∨
    ∃ w, (c₁.procs w).holdsActive k = true ∧ StoredStale start k w c

theorem Shared.NoActiveEntry.same (h : s.NoActiveEntry k)
    (hentry : s'.redis.entry (.session k) = s.redis.entry (.session k))
    (hclock : s.clock ≤ s'.clock) : s'.NoActiveEntry k :=
  fun firstParty hget =>
    h firstParty (Redis.Store.get_of_later hget hentry (OffsetDateTime.le_iff.mp hclock))

theorem Shared.NoActiveEntry.of_ended {deadline : Option Int}
    (h : s.redis.entry (.session k) = some (cachedEnded, deadline)) : s.NoActiveEntry k := by
  intro firstParty hget
  have heq := Redis.Store.get_of_entry h hget
  cases firstParty <;> cases heq

theorem Marked.step (h : Marked c₁ start k c)
    (hprog : sessionProgram i a c.shared (c.procs i) = some (s, pc)) :
    Marked c₁ start k (c.set i s pc) := by
  have hclock := (h.ended.coherent.kept hprog).rely.clock
  have hstep : Step sessionProgram Free c (c.set i s pc) := .mk trivial hprog
  have hstart := OffsetDateTime.le_iff.mp h.clock
  obtain ⟨v, deadline, hentry, hlate⟩ := h.entry
  refine ⟨h.ended.step hprog, h.run.tail hstep, h.clock.trans hclock, ?_, ?_⟩
  · rcases sessionProgram_cache k hprog with hsame | ⟨_, _, hnew⟩ |
      ⟨_, _, _, _, _, _, _, _, hnew⟩
    · exact ⟨v, deadline, hsame.trans hentry, hlate⟩
    · exact ⟨_, _, hnew, by omega⟩
    · exact ⟨_, _, hnew, by omega⟩
  · rcases h.cache with hnone | ⟨w, hw, hstale⟩
    · rcases sessionProgram_cache k hprog with hsame | ⟨_, _, hnew⟩ |
        ⟨ch, active, firstParty, rfl, hup, hpc, _, habsent, hnew⟩
      · exact .inl (hnone.same hsame hclock)
      · exact .inl (.of_ended hnew)
      · cases active with
        | false => exact .inl (.of_ended hnew)
        | true =>
          -- The only way: the check holds what it read before the commit.
          right
          refine ⟨i, h.ended.holders i ?_, c, ch, firstParty, s, pc, h.run, hpc, hup, habsent,
            ?_, hprog, .refl⟩
          · rw [hpc]
            simp [Pc.holdsActive]
          · have := Redis.Store.deadline_lt_of_get hentry habsent
            omega
    · exact .inr ⟨w, hw, hstale.tail hstep⟩

theorem Pc.marking_step {pc' : Pc} (hpc : pc.marking = some k) (hup : ch.redisUp = true)
    (h : sessionProgram p (.go ch) s pc = some (s', pc')) :
    s' = { s with redis := (Command.markEnded k).run s } := by
  cases pc with
  | revoke q =>
    cases q with
    | forget rev commands =>
      cases commands with
      | nil => cases hpc
      | cons command =>
        cases command with
        | markEnded id =>
          obtain rfl : id = k := Option.some.inj hpc
          simp only [sessionProgram, advance, revokeStep, hup, if_true,
            Option.some.injEq, Prod.mk.injEq] at h
          exact h.1.symm
        | _ => cases hpc
    | _ => cases hpc
  | _ => cases hpc

theorem Ended.marked (h : Ended c₁ k c) (hpc : (c.procs p).marking = some k)
    (hup : ch.redisUp = true)
    (hprog : sessionProgram p (.go ch) c.shared (c.procs p) = some (s, pc)) :
    s.clock = c.shared.clock ∧ Marked c₁ (c.set p s pc) k (c.set p s pc) := by
  have hs := Pc.marking_step hpc hup hprog
  have hentry : s.redis.entry (.session k)
      = some (cachedEnded,
        some (c.shared.clock.nanos + sessionCacheTtlSecs * nanosPerSec)) := by
    rw [hs]
    exact Redis.Store.setEx_entry_self
  have hclock : s.clock = c.shared.clock := by rw [hs]
  refine ⟨hclock, h.step hprog, .refl, le_rfl, ⟨_, _, hentry, ?_⟩, .inl (.of_ended hentry)⟩
  rw [Conf.set_shared, hclock]

/-- **A check that reads Redis after the marker answers active only
because of another check**, which had read the session before the
revocation committed and stored its answer once the marker had expired,
while there was no entry. -/
theorem active_after_marker {c₁ c₁' c₂ c₃ c₄ : SessionConf} {p v : Nat} {k : Uuid}
    {row row' : SessionRow} {ch : Choice} {s : Shared} {pc : Pc} {firstParty : Bool}
    -- the commit that revokes the session
    (h₁ : Reachable c₁) (hrow : c₁.shared.store k = some row) (hlive : row.val.revokedAt = none)
    (hcommit : Step sessionProgram Free c₁ c₁') (hrow' : c₁'.shared.store k = some row')
    (hrevoked : row'.val.revokedAt.isSome) (hrun₁ : Steps sessionProgram Free c₁' c₂)
    -- the marker
    (hpc : (c₂.procs p).marking = some k) (hup : ch.redisUp = true)
    (hmark : sessionProgram p (.go ch) c₂.shared (c₂.procs p) = some (s, pc))
    (hrun₂ : Steps sessionProgram Free (c₂.set p s pc) c₃)
    -- the check
    (hread : (c₃.procs v).reading = some k) (hrun₃ : Steps sessionProgram Free c₃ c₄)
    (hok : (c₄.procs v).outcome = some (.firstParty firstParty)) :
    s.clock = c₂.shared.clock ∧
      ∃ w, w ≠ v ∧ (c₁.procs w).holdsActive k = true ∧ StoredStale (c₂.set p s pc) k w c₄ := by
  have hended : Ended c₁ k c₂ :=
    hrun₁.invariant (fun _ _ a _ _ hc _ hprog => hc.step (a := a) hprog)
      (ended_of_commit h₁.coherent hrow hlive hcommit hrow' hrevoked)
  obtain ⟨hclock, hmarked⟩ := hended.marked hpc hup hmark
  have hmarked₃ : Marked c₁ (c₂.set p s pc) k c₃ :=
    hrun₂.invariant (fun _ _ a _ _ hc _ hprog => hc.step (a := a) hprog) hmarked
  -- `v` has yet to read Redis in `c₃`, so it had not read the session in `c₁`.
  have hv : (c₁.procs v).holdsActive k ≠ true := by
    intro hholds
    have hsteps : Steps sessionProgram Free c₁ c₃ :=
      Steps.trans (.single hcommit) (hrun₁.trans (Steps.trans (.single (.mk trivial hmark)) hrun₂))
    have hpast : (c₃.procs v).pastRead = true := by
      refine hsteps.invariant (I := fun c => (c.procs v).pastRead = true) ?_
        (Pc.pastRead_of_holdsActive hholds)
      intro c i a s pc hc _ hprog
      rcases c.procs_cases i s pc v with ⟨rfl, hset⟩ | ⟨hvi, hset⟩ <;> rw [hset]
      · exact Pc.pastRead_step hprog hc
      · exact hc
    revert hpast hread
    cases c₃.procs v with
    | verify q => cases q <;> simp [Pc.reading, Pc.pastRead]
    | _ => simp [Pc.reading]
  have hend : Marked c₁ (c₂.set p s pc) k c₄ ∧ ((c₄.procs v).unanswered k = true ∨
      ∃ w, (c₁.procs w).holdsActive k = true ∧ StoredStale (c₂.set p s pc) k w c₄) := by
    refine hrun₃.invariant (I := fun c => Marked c₁ (c₂.set p s pc) k c ∧
      ((c.procs v).unanswered k = true ∨ ∃ w, (c₁.procs w).holdsActive k = true ∧
        StoredStale (c₂.set p s pc) k w c)) ?_ ⟨hmarked₃, .inl ?_⟩
    · rintro c i a s' pc' ⟨hm, hor⟩ - hprog
      have hstep : Step sessionProgram Free c (c.set i s' pc') := .mk trivial hprog
      refine ⟨hm.step hprog, ?_⟩
      rcases hor with hun | ⟨w, hw, hstale⟩
      · rcases c.procs_cases i s' pc' v with ⟨rfl, hset⟩ | ⟨hvi, hset⟩ <;> rw [hset]
        · rcases hm.cache with hnone | ⟨w, hw, hstale⟩
          · obtain ⟨row, hrow, hrev⟩ := hm.ended.revoked
            exact .inl (Pc.unanswered_step hrow hrev hnone hprog hun)
          · exact .inr ⟨w, hw, hstale.tail hstep⟩
        · exact .inl hun
      · exact .inr ⟨w, hw, hstale.tail hstep⟩
    · revert hread
      cases c₃.procs v with
      | verify q => cases q <;> simp [Pc.reading, Pc.unanswered]
      | _ => simp [Pc.reading]
  rcases hend.2 with hun | ⟨w, hw, hstale⟩
  · exfalso
    revert hun hok
    cases c₄.procs v with
    | done outcome => cases outcome <;> simp [Pc.outcome, Pc.unanswered]
    | _ => simp [Pc.outcome]
  · exact ⟨hclock, w, fun heq => hv (heq ▸ hw), hw, hstale⟩

/-! ### A slow check -/

/-- The check 1 reads the session 2 from the database; then a logout
(request 2) comes to its `COMMIT`. -/
def slowCheck : List (Nat × Act) :=
  signInSchedule 0 webSignIn 1 1 2 ++
    [(1, .start (.verifyTokenState 5 2)), (1, .go {}), (1, .go {}), (1, .go {}),
      (2, .start (.logout 2 9 1000)), (2, .go {}), (2, .go {}), (2, .go {}),
      (2, .go { row := 2 })]

/-- Six seconds after the marker the check 1 stores its answer, and the
check 3 comes to read Redis. -/
def slowAnswer : List (Nat × Act) :=
  [(1, .tick (instant 106)), (1, .go {}), (1, .go {}),
    (3, .start (.verifyTokenState 6 2)), (3, .go {})]

theorem active_after_slow_check :
    ∃ c₁ s₁ pc₁ s₂ pc₂ c₃ c₄,
      runFrom shortSessions (instant 100) slowCheck = some c₁ ∧
      sessionProgram 2 (.go {}) c₁.shared (c₁.procs 2) = some (s₁, pc₁) ∧
      sessionProgram 2 (.go {}) s₁ pc₁ = some (s₂, pc₂) ∧
      exec sessionProgram Free ((c₁.set 2 s₁ pc₁).set 2 s₂ pc₂) slowAnswer = some c₃ ∧
      exec sessionProgram Free c₃ [(3, .go {})] = some c₄ ∧
      (c₄.procs 3).outcome = some (.firstParty true) ∧
      ∃ w, w ≠ 3 ∧ (c₁.procs w).holdsActive 2 = true := by
  obtain ⟨c₁, hc₁, ⟨row, hrow, hlive⟩, ⟨s₁, pc₁⟩, hp₁, ⟨row', hrow', hrevoked⟩, hmarking,
      ⟨s₂, pc₂⟩, hp₂, c₃, hc₃, hreading, c₄, hc₄, hok⟩ :
      ∃ c₁ ∈ runFrom shortSessions (instant 100) slowCheck,
      (∃ r ∈ c₁.shared.store 2, r.val.revokedAt = none) ∧
      ∃ p₁ ∈ sessionProgram 2 (.go {}) c₁.shared (c₁.procs 2),
      (∃ r ∈ p₁.1.store 2, r.val.revokedAt.isSome) ∧ p₁.2.marking = some 2 ∧
      ∃ p₂ ∈ sessionProgram 2 (.go {}) p₁.1 p₁.2,
      ∃ c₃ ∈ exec sessionProgram Free ((c₁.set 2 p₁.1 p₁.2).set 2 p₂.1 p₂.2) slowAnswer,
      (c₃.procs 3).reading = some 2 ∧ ∃ c₄ ∈ exec sessionProgram Free c₃ [(3, .go {})],
      (c₄.procs 3).outcome = some (.firstParty true) := by
    decide +kernel
  have hprocs : (c₁.set 2 s₁ pc₁).procs 2 = pc₁ := Conf.set_procs_self _ _ _ _
  obtain ⟨-, w, hne, hw, -⟩ := active_after_marker (reachable_of_runFrom hc₁) hrow hlive
    (.mk trivial hp₁) hrow' hrevoked .refl (hprocs.symm ▸ hmarking) rfl (hprocs.symm ▸ hp₂)
    (steps_of_exec hc₃) hreading (steps_of_exec hc₄) hok
  exact ⟨c₁, s₁, pc₁, s₂, pc₂, c₃, c₄, hc₁, hp₁, hp₂, hc₃, hc₄, hok, w, hne, hw⟩

end AuthApi
