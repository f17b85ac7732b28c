import AuthApi.RevocationStamp
import AuthApi.SessionCache

/-!
# Operations that list, revoke and mark

`reset_password`, `change_password` and `revoke_all` list the sessions
of the account, then revoke them in a transaction, then mark the
sessions of the list as ended in the cache. The list and the `UPDATE`
are two statements: a session that a sign-in or a refresh commits
between them is revoked and not marked, and a check may go on answering
that it is active (`refreshed_session_stays_active`).

If no such session is committed in between, every session the `UPDATE`
revoked is marked before the operation returns, and none has an entry
that says active then (`revoked_sessions_marked`). The latter also takes
that no check which read a session before stores its answer after the
marker has expired and before the operation returns.
-/

namespace AuthApi

open Conc Pg

/-- A revocation whose sessions are listed and whose `UPDATE` has still to
take its snapshot. -/
def Pc.listed : Pc → Option Revocation
  | .revoke (.start rev (.listed _)) => some rev
  | .revoke (.scan rev (.listed _) _) => some rev
  | _ => none

/-- A revocation of listed sessions that is about to commit. -/
def Pc.committing : Pc → Option Revocation
  | .revoke (.visit rev (.listed _) _ [] _) => some rev
  | _ => none

/-- A revocation that has committed and has sent its Redis commands. -/
def Pc.returning : Pc → Option Revocation
  | .revoke (.forget rev []) => some rev
  | _ => none

/-- The request has revoked sessions such as this one, and has nothing to
mark it with any more. -/
def Pc.hasMarked (session : Session) : Pc → Bool
  | .revoke (.forget rev commands) =>
    rev.covers session && decide (.markEnded session.id ∉ commands)
  | _ => false

/-- The session a check is about to store as active. -/
def Pc.storing : Pc → Option Uuid
  | .verify (.set id true _) => some id
  | _ => none

/-- The condition on a run. Redis is reachable. No session that the
revocation of request `r` covers is committed between its list and its
snapshot. And while `r` is sending its commands, no check stores as active
a session that is revoked and that `r` has marked, when the marker has
expired. -/
def KeepsMarkers (r : Nat) (c : SessionConf) (i : Nat) : Act → Prop
  | .go ch =>
    ch.redisUp = true ∧
      (∀ new ∈ (c.procs i).creating, ∀ rev ∈ (c.procs r).listed,
        rev.covers new.val = false) ∧
      ∀ id ∈ (c.procs i).storing, ∀ session ∈ c.shared.findById id,
        session.revokedAt.isSome = true → (c.procs r).hasMarked session = true →
          (c.shared.redis.get c.shared.clock.nanos (.session id)).isSome = true
  | _ => True

instance (r : Nat) (c : SessionConf) (i : Nat) (a : Act) : Decidable (KeepsMarkers r c i a) := by
  cases a <;> unfold KeepsMarkers <;> infer_instance

/-! ## The list -/

/-- The commands mark every unrevoked session the revocation covers. -/
structure Listed (s : Shared) (rev : Revocation) (commands : List Command) : Prop where
  plain : ∀ familyId, rev ≠ .family familyId
  marks : ∀ k row, s.store k = some row → rev.covers row.val = true →
    row.val.revokedAt = none → .markEnded k ∈ commands

/-- From the list to the commit: what the `UPDATE` takes was listed. -/
def Pc.Listing (r : Nat) (s : Shared) : Pc → Prop
  | .revoke (.start rev (.listed commands)) => Listed s rev commands
  | .revoke (.scan rev (.listed commands) _) => Listed s rev commands
  | .revoke (.visit _ (.listed commands) _ left _) =>
    ∀ k, k ∈ left ∨ s.db.holder k = some r → .markEnded k ∈ commands
  | _ => True

variable {pc pc' : Pc} {r i : Nat} {s s' : Shared} {rev : Revocation} {commands : List Command}
  {k : Uuid} {ch : Choice} {a : Act} {c : SessionConf}

theorem Pc.Listing.of_calm (h : pc.calm = true) : pc.Listing r s := by
  cases pc with
  | revoke q =>
    cases q with
    | familyStart => trivial
    | _ => cases h
  | _ => trivial

theorem Revocation.selects_plain {s : Session} (hplain : ∀ familyId, rev ≠ .family familyId)
    (h : rev.selects s = true) : s.revokedAt = none := by
  cases rev with
  | family familyId => exact absurd rfl (hplain familyId)
  | _ =>
    simp only [selects, Bool.and_eq_true, Option.isNone_iff_eq_none] at h
    exact h.2

/-- `find_active_by_user`, without the kept session, is what the revocation
covers. -/
theorem listed_of_list {userId : Uuid} {keep : Option Uuid}
    (hcommands : ∀ session ∈ (s.findActiveByUser userId).filter fun x => some x.id ≠ keep,
      .markEnded session.id ∈ commands) :
    Listed s (revocationKeeping userId keep) commands := by
  refine ⟨fun familyId => by cases keep <;> simp [revocationKeeping],
    fun k row hrow hcov hlive => ?_⟩
  have hid : row.val.id = k := s.db.keyed k row (.inl hrow)
  rw [← hid]
  refine hcommands row.val ?_
  have hmem : row.val ∈ s.db.rows.map Subtype.val :=
    List.mem_map.mpr ⟨row, Db.mem_rows.mpr (by rw [hid]; exact hrow), rfl⟩
  have huser : row.val.userId = userId ∧ some row.val.id ≠ keep := by
    cases keep with
    | none | some => simpa [revocationKeeping, Revocation.covers] using hcov
  refine List.mem_filter.mpr ⟨List.mem_filter.mpr ⟨hmem, ?_⟩, decide_eq_true huser.2⟩
  simp [huser.1, hlive]

theorem listed_of_one (h : .markEnded k ∈ commands) : Listed s (.one k) commands := by
  refine ⟨nofun, fun k' row hrow hcov _ => ?_⟩
  have hid : row.val.id = k' := s.db.keyed k' row (.inl hrow)
  rw [← hid, of_decide_eq_true hcov]
  exact h

theorem Pc.Listing.own_step {q : RevokePc} (hl : q.Local s r) (hq : (Pc.revoke q).Listing r s)
    (h : revokeStep r ch s q = some (s', pc')) : pc'.Listing r s' := by
  cases revokeStepped h with
  | listed hmarks => exact listed_of_list hmarks
  | loggedOut hmarks | oauth _ hmarks => exact listed_of_one hmarks
  | @started _ forget => cases forget <;> exact hq
  | @scanned _ forget =>
    cases forget with
    | listed =>
      rintro k (hk | hk)
      · obtain ⟨row, hview, hsel⟩ := Db.mem_scan.mp hk
        have hrow : s.store k = some row := (Db.view_of_heldOnly hl k).symm.trans hview
        exact hq.marks k row hrow (Revocation.covers_of_selects hsel)
          (Revocation.selects_plain hq.plain hsel)
      · cases hl k hk
    | _ => trivial
  | @skipped rev forget startedAt _ _ _ hmem hvisit
  | @updated rev forget startedAt _ _ _ _ hmem hvisit =>
    cases forget with
    | listed =>
      rintro k (hk | hk)
      · exact hq k (.inl (List.mem_of_mem_erase hk))
      · by_cases hrow : k = ch.row
        · exact hq k (.inl (hrow ▸ hmem))
        · have hsame := Db.Updating.visit_of_ne hl (rev.apply_updates startedAt) hvisit hrow
          refine hq k (.inr ?_)
          rw [Db.holder, ← hsame]
          exact hk
    | _ => trivial
  | _ => trivial

theorem Listed.step (h : Coherent c) (hr : Listed c.shared rev commands)
    (hlisted : (c.procs r).listed = some rev) (hok : KeepsMarkers r c i a)
    (hprog : sessionProgram i a c.shared (c.procs i) = some (s, pc)) : Listed s rev commands := by
  refine ⟨hr.plain, fun k row hrow hcov hlive => ?_⟩
  rcases h.creating_or_evolves hprog hrow with ⟨row₀, hrow₀, hev⟩ | ⟨hgo, hnew⟩
  · exact hr.marks k row₀ hrow₀ (Revocation.covers_evolves hev ▸ hcov) (hev.unrevoked hlive)
  · cases a with
    | go =>
      rw [hok.2.1 row hnew rev hlisted] at hcov
      cases hcov
    | _ => cases hgo

section

variable (h : Coherent c) (hr : (c.procs r).Listing r c.shared) (hok : KeepsMarkers r c i a)
  (hprog : sessionProgram i a c.shared (c.procs i) = some (s, pc))
include h hr hok hprog

theorem Pc.Listing.other_step
    (hheld : ∀ k, s.db.holder k = some r → c.shared.db.holder k = some r) :
    (c.procs r).Listing r s := by
  have hlisted : ∀ rev commands, (c.procs r).listed = some rev →
      Listed c.shared rev commands → Listed s rev commands :=
    fun rev commands hpc hl => hl.step h hpc hok hprog
  revert hr hlisted
  cases c.procs r with
  | revoke q =>
    cases q with
    | start rev forget | scan rev forget =>
      cases forget with
      | listed commands => exact fun hr hl => hl rev commands rfl hr
      | _ => exact fun _ _ => trivial
    | visit rev forget =>
      cases forget with
      | listed => exact fun hr _ k hk => hr k (hk.imp_right (hheld k))
      | _ => exact fun _ _ => trivial
    | _ => exact fun _ _ => trivial
  | _ => exact fun _ _ => trivial

theorem Pc.Listing.step : ((c.set i s pc).procs r).Listing r s := by
  rcases c.procs_cases i s pc r with ⟨rfl, hset⟩ | ⟨hir, hset⟩ <;> rw [hset]
  · cases stepped hprog with
    | go hgo =>
      by_cases hrevoke : ∃ q, c.procs r = .revoke q
      · obtain ⟨q, hq⟩ := hrevoke
        have hl := h.procs r
        rw [hq] at hr hgo hl
        exact own_step hl hr hgo
      · exact .of_calm (advance_calm (fun q hq => hrevoke ⟨q, hq⟩) hgo)
    | @start call hidle hadmitted => cases call <;> trivial
    | fail => trivial
    | tick | configure => exact hr.other_step h hok hprog fun k hk => hk
  · exact hr.other_step h hok hprog fun k hk => (h.kept hprog).rely.db.grants k r hir hk

end

/-! ## The markers -/

/-- In the run from `start` to `c`, the request `r` has marked the session
`k` as ended. -/
def MarkedBy (start : SessionConf) (r : Nat) (k : Uuid) (c : SessionConf) : Prop :=
  ∃ c' ch s pc, Steps sessionProgram Free start c' ∧ (c'.procs r).marking = some k ∧
    ch.redisUp = true ∧ sessionProgram r (.go ch) c'.shared (c'.procs r) = some (s, pc) ∧
    Steps sessionProgram Free (c'.set r s pc) c

theorem MarkedBy.tail {start c' : SessionConf} (h : MarkedBy start r k c)
    (hstep : Step sessionProgram Free c c') : MarkedBy start r k c' := by
  obtain ⟨c'', ch, s, pc, hrun, hpc, hup, hprog, hrest⟩ := h
  exact ⟨c'', ch, s, pc, hrun, hpc, hup, hprog, hrest.tail hstep⟩

/-- After the commit of request `r`, for a session `k` it revoked: the
marker is still to be sent, or it was sent and no entry says active. -/
structure Forgetting (start : SessionConf) (r : Nat) (rev : Revocation) (k : Uuid)
    (c : SessionConf) : Prop where
  coherent : Coherent c
  run : Steps sessionProgram Free start c
  revoked : ∃ row, c.shared.store k = some row ∧ rev.covers row.val = true ∧
    row.val.revokedAt.isSome
  stage : (c.procs r).outcome.isSome ∨ ∃ commands, c.procs r = .revoke (.forget rev commands) ∧
    (.markEnded k ∈ commands ∨
      .markEnded k ∉ commands ∧ MarkedBy start r k c ∧ c.shared.NoActiveEntry k)

section Forgetting

variable {start c : SessionConf} {r i : Nat} {rev : Revocation} {k : Uuid} {a : Act} {s : Shared}
  {pc : Pc} {commands : List Command}

section

variable (h : Forgetting start r rev k c) (hpc : c.procs r = .revoke (.forget rev commands))
include h hpc

theorem Forgetting.noActiveEntry (hsent : .markEnded k ∉ commands)
    (hnone : c.shared.NoActiveEntry k) (hok : KeepsMarkers r c i a)
    (hprog : sessionProgram i a c.shared (c.procs i) = some (s, pc)) : s.NoActiveEntry k := by
  rcases sessionProgram_cache k hprog with hsame | ⟨_, _, hnew⟩ |
    ⟨ch, active, firstParty, rfl, _, hset, _, habsent, hnew⟩
  · exact hnone.same hsame (h.coherent.kept hprog).rely.clock
  · exact .of_ended hnew
  · cases active with
    | false => exact .of_ended hnew
    | true =>
      obtain ⟨row, hrow, hcov, hrev⟩ := h.revoked
      have hid : row.val.id = k := c.shared.db.keyed k row (.inl hrow)
      have hmarked : (c.procs r).hasMarked row.val = true := by
        rw [hpc]
        simp [Pc.hasMarked, hcov, hid, hsent]
      have hthere := hok.2.2 k (by rw [hset]; rfl) row.val (congrArg _ hrow) hrev hmarked
      rw [habsent] at hthere
      cases hthere

theorem Forgetting.own_step {ch : Choice}
    (hstage : .markEnded k ∈ commands ∨ .markEnded k ∉ commands ∧ MarkedBy start r k c ∧
      c.shared.NoActiveEntry k)
    (hok : KeepsMarkers r c r (.go ch))
    (hprog : sessionProgram r (.go ch) c.shared (c.procs r) = some (s, pc)) :
    pc.outcome.isSome ∨ ∃ rest, pc = .revoke (.forget rev rest) ∧
      (.markEnded k ∈ rest ∨
        .markEnded k ∉ rest ∧ MarkedBy start r k (c.set r s pc) ∧ s.NoActiveEntry k) := by
  have hstep : Step sessionProgram Free c (c.set r s pc) := .mk trivial hprog
  cases commands with
  | nil =>
    rw [hpc] at hprog
    cases hprog
    exact .inl rfl
  | cons command rest =>
    have hpc' : pc = .revoke (.forget rev rest) := by
      rw [hpc] at hprog
      cases hprog
      rfl
    refine .inr ⟨rest, hpc', ?_⟩
    by_cases hrest : .markEnded k ∈ rest
    · exact .inl hrest
    · right
      rcases hstage with hmem | ⟨hsent, hmarked, hnone⟩
      · -- This is the marker of `k`.
        have hcommand : command = .markEnded k := by
          rcases List.mem_cons.mp hmem with heq | hmem'
          · exact heq.symm
          · exact absurd hmem' hrest
        have hmarking : (c.procs r).marking = some k := by
          rw [hpc, hcommand]
          rfl
        have hs := Pc.marking_step hmarking hok.1 hprog
        refine ⟨hrest, ⟨c, ch, s, pc, h.run, hmarking, hok.1, hprog, .refl⟩, ?_⟩
        have hentry : s.redis.entry (.session k) = some (cachedEnded, some
            (c.shared.clock.nanos + sessionCacheTtlSecs * nanosPerSec)) := by
          rw [hs]
          exact Redis.Store.setEx_entry_self
        exact .of_ended hentry
      · exact ⟨hrest, hmarked.tail hstep, h.noActiveEntry hpc hsent hnone hok hprog⟩

end

theorem Forgetting.step (h : Forgetting start r rev k c) (hok : KeepsMarkers r c i a)
    (hprog : sessionProgram i a c.shared (c.procs i) = some (s, pc)) :
    Forgetting start r rev k (c.set i s pc) := by
  have hstep : Step sessionProgram Free c (c.set i s pc) := .mk trivial hprog
  refine ⟨h.coherent.set hprog, h.run.tail hstep, ?_, ?_⟩
  · obtain ⟨row, hrow, hcov, hrev⟩ := h.revoked
    obtain ⟨row', hrow', hev⟩ := (h.coherent.kept hprog).rely.evolves hrow
    exact ⟨row', hrow', Revocation.covers_evolves hev ▸ hcov, hev.revoked hrev⟩
  -- Where the request stays where it is, only the entry may change.
  have hstays : ∀ commands, c.procs r = .revoke (.forget rev commands) →
      (c.set i s pc).procs r = c.procs r →
      (.markEnded k ∈ commands ∨
        .markEnded k ∉ commands ∧ MarkedBy start r k c ∧ c.shared.NoActiveEntry k) →
      ∃ commands, (c.set i s pc).procs r = .revoke (.forget rev commands) ∧
        (.markEnded k ∈ commands ∨ .markEnded k ∉ commands ∧
          MarkedBy start r k (c.set i s pc) ∧ s.NoActiveEntry k) := by
    intro commands hpc hsame hstage
    refine ⟨commands, hsame.trans hpc, hstage.imp_right ?_⟩
    rintro ⟨hsent, hmarked, hnone⟩
    exact ⟨hsent, hmarked.tail hstep, h.noActiveEntry hpc hsent hnone hok hprog⟩
  by_cases hir : r = i
  · subst hir
    rcases h.stage with hout | ⟨commands, hpc, hstage⟩
    · left
      rw [Conf.set_procs_self, Pc.outcome_step hprog hout]
      exact hout
    · cases stepped hprog with
      | go =>
        rw [Conf.set_procs_self]
        exact h.own_step hpc hstage hok hprog
      | tick | configure => exact .inr (hstays commands hpc (Conf.set_procs_self ..) hstage)
      | start hidle =>
        rw [hpc] at hidle
        cases hidle
      | fail =>
        left
        rw [Conf.set_procs_self]
        rfl
  · have hsame := Conf.set_procs_of_ne c s pc hir
    rcases h.stage with hout | ⟨commands, hpc, hstage⟩
    · left
      rw [hsame]
      exact hout
    · exact .inr (hstays commands hpc hsame hstage)

end Forgetting

/-! ## Runs -/

theorem Pc.committing_step (hpc : pc.committing = some rev)
    (h : sessionProgram r (.go ch) s pc = some (s', pc')) :
    ∃ commands startedAt returned,
      pc = .revoke (.visit rev (.listed commands) startedAt [] returned) ∧
        pc' = .revoke (.forget rev commands) := by
  cases pc with
  | revoke q =>
    cases q with
    | visit rev' forget startedAt left returned =>
      cases forget with
      | listed commands =>
        cases left with
        | nil =>
          cases hpc
          cases h
          exact ⟨commands, startedAt, returned, rfl, rfl⟩
        | cons => cases hpc
      | _ => cases left <;> cases hpc
    | _ => cases hpc
  | _ => cases hpc

/-- **Every session the `UPDATE` revoked is marked before the operation
returns**, in every run that meets the condition, and then no entry says
that it is active, at any later time. -/
theorem revoked_sessions_marked {cfg : JwtConfig} {clock : OffsetDateTime} {c₁ c : SessionConf}
    {r : Nat} {rev : Revocation} {ch : Choice} {s : Shared} {pc : Pc} {k : Uuid}
    {row row' : SessionRow}
    (hrun₁ : Steps sessionProgram (KeepsMarkers r) (initial cfg clock) c₁)
    -- the commit that revokes the session
    (hpc : (c₁.procs r).committing = some rev)
    (hcommit : sessionProgram r (.go ch) c₁.shared (c₁.procs r) = some (s, pc))
    (hrow : c₁.shared.store k = some row) (hlive : row.val.revokedAt = none)
    (hrow' : s.store k = some row') (hrevoked : row'.val.revokedAt.isSome)
    -- the return of the operation
    (hrun₂ : Steps sessionProgram (KeepsMarkers r) (c₁.set r s pc) c)
    (hend : (c.procs r).returning = some rev) :
    MarkedBy (c₁.set r s pc) r k c ∧
      ∀ (t : OffsetDateTime) blocked firstParty, c.shared.clock ≤ t →
        tokenState blocked (c.shared.redis.get t.nanos (.session k)) ≠ .active firstParty := by
  have hinv : Coherent c₁ ∧ (c₁.procs r).Listing r c₁.shared :=
    hrun₁.invariant (I := fun c => Coherent c ∧ (c.procs r).Listing r c.shared)
      (fun _ _ a _ _ hc hok hprog => ⟨hc.1.set hprog, hc.2.step (a := a) hc.1 hok hprog⟩)
      ⟨coherent_initial cfg clock, trivial⟩
  obtain ⟨hc₁, hlisting⟩ := hinv
  obtain ⟨commands, startedAt, returned, hpc₁, rfl⟩ := Pc.committing_step hpc hcommit
  -- A row that changed was locked by the operation, hence listed.
  have hchanged : s.store k ≠ c₁.shared.store k := by
    intro hsame
    rw [hsame, hrow] at hrow'
    rw [← Option.some.inj hrow', hlive] at hrevoked
    cases hrevoked
  have hheld : c₁.shared.db.holder k = some r := by
    by_contra hne
    exact hchanged ((hc₁.kept hcommit).rely.db.frame k hne)
  have hmark : .markEnded k ∈ commands := by
    rw [hpc₁] at hlisting
    exact hlisting k (.inr hheld)
  have hcov : rev.covers row'.val = true := by
    rcases hc₁.store_step hcommit with heq | ⟨_, op, -, hop, hstep⟩
    · exact absurd (congrFun heq k) hchanged
    · rw [hpc₁] at hop
      cases hop
      cases hstep with
      | revoke _ _ hrows =>
        rcases hrows k with heq | ⟨r₀, r₁, -, hsel, happly, hr₁⟩
        · exact absurd heq hchanged
        · obtain rfl := Option.some.inj (hrow'.symm.trans hr₁)
          rw [Revocation.apply_eq_some happly,
            Revocation.covers_evolves (rev.set_evolves startedAt r₀.val)]
          exact Revocation.covers_of_selects hsel
  have hforgetting : Forgetting (c₁.set r s (.revoke (.forget rev commands))) r rev k c := by
    refine hrun₂.invariant (fun _ _ a _ _ hc hok hprog => hc.step (a := a) hok hprog) ?_
    refine ⟨hc₁.set hcommit, .refl, ⟨row', hrow', hcov, hrevoked⟩, .inr ⟨commands, ?_, .inl hmark⟩⟩
    exact Conf.set_procs_self _ _ _ _
  rcases hforgetting.stage with hout | ⟨commands', hpc', hstage⟩
  · exfalso
    revert hout hend
    cases c.procs r with
    | revoke => simp [Pc.outcome]
    | _ => simp [Pc.returning]
  · rw [hpc'] at hend
    cases commands' with
    | cons => cases hend
    | nil =>
      rcases hstage with hmem | ⟨-, hmarked, hnone⟩
      · cases hmem
      · refine ⟨hmarked, fun t blocked firstParty hle hactive => ?_⟩
        exact hnone firstParty (Redis.Store.get_of_later (tokenState_eq_active hactive) rfl
          (OffsetDateTime.le_iff.mp hle))

/-! ### A reset and a refresh -/

/-- The reset of the account 1 lists the session 2 and begins. -/
def resetListed : List (Nat × Act) :=
  [(1, .start (resetPassword 1)), (1, .go {}), (1, .go {})]

/-- A check of the session 3 asks the database and stores its answer. -/
def checkSchedule (i : Nat) : List (Nat × Act) :=
  [(i, .start (.verifyTokenState 5 3)), (i, .go {}), (i, .go {}), (i, .go {}), (i, .go {}),
    (i, .go {})]

/-- After the list a refresh replaces the session 2 by the session 3, and a
check stores that it is active; then the `UPDATE` revokes it. -/
def refreshAfterList : List (Nat × Act) :=
  signInSchedule 0 webSignIn 1 1 2 ++ resetListed ++ refreshSchedule 2 ⟨1, none, none, none⟩ 2 ++
    rotateSchedule 2 3 ++ [(2, .go {})] ++ checkSchedule 3 ++ [(1, .go {}), (1, .go { row := 3 })]

/-- The reset has revoked the session 3 and has returned, and a check made
after that answers from the cache that the session is active. -/
theorem refreshed_session_stays_active :
    ∃ c₁ c₂ c₃ c₄, runFrom shortSessions (instant 100) refreshAfterList = some c₁ ∧
      (c₁.procs 1).committing = some (.allByUser 1) ∧
      (∃ row, c₁.shared.store 3 = some row ∧ row.val.revokedAt = none) ∧
      exec sessionProgram Free c₁ [(1, .go {})] = some c₂ ∧
      (∃ row, c₂.shared.store 3 = some row ∧ row.val.revokedAt.isSome) ∧
      exec sessionProgram Free c₂ [(1, .go {}), (1, .go {})] = some c₃ ∧
      (c₃.procs 1).outcome = some (.revoked (.allByUser 1)) ∧
      exec sessionProgram Free c₃ ((checkSchedule 4).take 3) = some c₄ ∧
      (c₄.procs 4).outcome = some (.firstParty true) := by
  simp only [exists_and_left]
  decide +kernel

/-- The refresh and the check come before the list. -/
def refreshBeforeList : List (Nat × Act) :=
  signInSchedule 0 webSignIn 1 1 2 ++ refreshSchedule 2 ⟨1, none, none, none⟩ 2 ++
    rotateSchedule 2 3 ++ [(2, .go {})] ++ checkSchedule 3 ++ resetListed ++
    [(1, .go {}), (1, .go { row := 3 })]

theorem refreshed_session_marked :
    ∃ c₁ s pc c, exec sessionProgram (KeepsMarkers 1) (initial shortSessions (instant 100))
        refreshBeforeList = some c₁ ∧
      sessionProgram 1 (.go {}) c₁.shared (c₁.procs 1) = some (s, pc) ∧
      exec sessionProgram (KeepsMarkers 1) (c₁.set 1 s pc) [(1, .go {})] = some c ∧
      MarkedBy (c₁.set 1 s pc) 1 3 c := by
  obtain ⟨c₁, hc₁, ⟨s, pc⟩, hp, c, hc, hcommitting, hreturning, ⟨row, hrow, hlive⟩, row', hrow',
      hrevoked⟩ : ∃ c₁ ∈ exec sessionProgram (KeepsMarkers 1) (initial shortSessions (instant 100))
      refreshBeforeList, ∃ p ∈ sessionProgram 1 (.go {}) c₁.shared (c₁.procs 1),
      ∃ c ∈ exec sessionProgram (KeepsMarkers 1) (c₁.set 1 p.1 p.2) [(1, .go {})],
      (c₁.procs 1).committing = some (.allByUser 1) ∧ (c.procs 1).returning = some (.allByUser 1) ∧
      (∃ r ∈ c₁.shared.store 3, r.val.revokedAt = none) ∧ ∃ r ∈ p.1.store 3,
      r.val.revokedAt.isSome := by
    decide +kernel
  exact ⟨c₁, s, pc, c, hc₁, hp, hc, (revoked_sessions_marked (steps_of_exec hc₁) hcommitting hp
    hrow hlive hrow' hrevoked (steps_of_exec hc) hreturning).1⟩

end AuthApi
