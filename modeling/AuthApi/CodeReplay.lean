import AuthApi.CodeRedemption
import AuthApi.RotationRace
import AuthApi.Trace

/-!
# A code presented again

A client that presents a code a second time shows that the code has
leaked, and `redeem` revokes the family of the session it was redeemed
for. The second call waits for the row if the first one has it, and finds
the session attached to it then.

It does not wait once the code has expired: the `UPDATE` of `consume`
passes over the row the first call has not committed yet, and `find`
reads it as unconsumed (`session_survives_replay`). In every run in
which nobody looks for the code past its expiry while a request that
began before can still redeem it, the family is revoked when the second
call has returned (`replay_revokes_family`), and a call by anybody else
than the code's own client changes no session.
-/

namespace AuthApi

open Conc Pg

/-! ## A family that is being revoked -/

/-- The request revokes the family of a session, or has done so. -/
def Pc.pursues (sessionId family : Uuid) : Pc → Prop
  | .revoke (.familyStart id) => id = sessionId
  | .revoke (.familySelect id _) => id = sessionId
  | .revoke (.scan rev _ _) => rev = .family family
  | .revoke (.visit rev _ _ _ _) => rev = .family family
  | .revoke (.familyIds rev _) => rev = .family family
  | .revoke (.forget rev _) => rev = .family family
  | .done (.revoked rev) => rev = .family family
  | _ => False

def Pc.failed : Pc → Bool
  | .done (.error .violation) => true
  | .done (.error .internal) => true
  | _ => false

/-- Request `r` revokes the family of a session: each session of the family
that is unrevoked is left to it. -/
structure Pursued (r : Nat) (sessionId family : Uuid) (c : SessionConf) : Prop where
  present : ∃ row, c.shared.store sessionId = some row ∧ row.val.sessionFamilyId = family
  pursues : (c.procs r).pursues sessionId family
  left : ∀ k row, c.shared.store k = some row → row.val.sessionFamilyId = family →
    row.val.revokedAt = none → LeftTo c.shared.db r (.family family) k (c.procs r)

section Family

variable {c : SessionConf} {r i : Nat} {sessionId family k : Uuid} {a : Act} {s : Shared} {pc : Pc}
  {row : SessionRow}

theorem Pc.pursues_step {s' : Shared} {pc' : Pc} (hpc : pc.pursues sessionId family)
    (hrow : ∃ row, s.store sessionId = some row ∧ row.val.sessionFamilyId = family)
    (hfailed : pc'.failed = false)
    (h : sessionProgram i a s pc = some (s', pc')) : pc'.pursues sessionId family := by
  cases stepped h with
  | tick | configure => exact hpc
  | start hidle =>
    subst hidle
    cases hpc
  | fail => cases hfailed
  | @go ch _ _ h =>
    cases pc with
    | revoke =>
      cases revokeStepped h with
      | @selected id _ _ hfind =>
        obtain rfl : id = sessionId := hpc
        obtain ⟨row, hrow, hfamily⟩ := hrow
        have hfind' : s.findById id = some row.val := congrArg _ hrow
        rw [← Option.some.inj (hfind'.symm.trans hfind)]
        exact congrArg _ hfamily
      | unknown | violated => cases hfailed
      | listed | loggedOut | oauth | nothing | started => cases hpc
      | _ => exact hpc
    | done => cases h
    | _ => cases hpc

/-- An unrevoked session of the family was there before the step, or it
replaces one that was. -/
theorem Pursued.origin (h : Pursued r sessionId family c) (hc : Coherent c)
    (hprog : sessionProgram i a c.shared (c.procs i) = some (s, pc)) (hrow : s.store k = some row)
    (hfam : row.val.sessionFamilyId = family) (hlive : row.val.revokedAt = none) :
    (∃ row₀, c.shared.store k = some row₀ ∧ row₀.val.sessionFamilyId = family ∧
      row₀.val.revokedAt = none) ∨
      ∃ old rotated new, a.proceeds = true ∧ c.procs i = .rotate (.commit old rotated new) ∧
        c.shared.store old.val.id = some old ∧ old.val.sessionFamilyId = family ∧
        old.val.revokedAt = none := by
  rcases hc.store_step hprog with heq | ⟨ch, op, rfl, hop, hstep⟩
  · exact .inl ⟨row, heq ▸ hrow, hfam, hlive⟩
  rcases hstep.origin hrow with ⟨row₀, hrow₀, hev⟩ | ⟨-, hfresh⟩ |
      ⟨old, rotated, rfl, hold, hlive', hkin⟩
  · exact .inl ⟨row₀, hrow₀, hev.kin.sessionFamilyId.trans hfam, hev.unrevoked hlive⟩
  · obtain ⟨row₁, hrow₁, hfam₁⟩ := h.present
    exact absurd (hfam₁.trans hfam.symm) (hfresh sessionId row₁ hrow₁)
  · exact .inr ⟨old, rotated, row, rfl, Pc.commits_rotate hop, hold,
      hkin.sessionFamilyId.trans hfam, hlive'⟩

theorem Pursued.step (h : Pursued r sessionId family c) (hc : Coherent c)
    (hok : NoRotationInScan r c i a) (hfailed : r = i → pc.failed = false)
    (hprog : sessionProgram i a c.shared (c.procs i) = some (s, pc)) :
    Pursued r sessionId family (c.set i s pc) := by
  have hkept := hc.kept hprog
  refine ⟨?_, ?_, fun k row hrow hfam hlive => ?_⟩
  · obtain ⟨row, hrow, hfam⟩ := h.present
    obtain ⟨row', hrow', hev⟩ := hkept.rely.evolves hrow
    exact ⟨row', hrow', hev.kin.sessionFamilyId.symm.trans hfam⟩
  · rcases c.procs_cases i s pc r with ⟨rfl, hset⟩ | ⟨hir, hset⟩ <;> rw [hset]
    · exact Pc.pursues_step h.pursues h.present (hfailed rfl) hprog
    · exact h.pursues
  · rcases h.origin hc hprog hrow hfam hlive with ⟨row₀, hrow₀, hfam₀, hlive₀⟩ |
      ⟨old, rotated, new, hgo, hpc, hold, hfam₀, hlive₀⟩
    · have hleft := h.left k row₀ hrow₀ hfam₀ hlive₀
      by_cases hir : r = i
      · subst hir
        rw [Conf.set_procs_self]
        exact hleft.own_step (hc.procs r) hprog hrow₀ (decide_eq_true hfam₀) hrow hlive
      · exact hleft.other_step hkept.rely hir
    · have hir : r ≠ i := by
        rintro rfl
        have hpursues := h.pursues
        rw [hpc] at hpursues
        exact hpursues
      have hscan : old.val.id ∉ (c.procs r).scanning := by
        have hnot := hok hgo old.val.id
        rw [hpc] at hnot
        exact hnot rfl
      exact ((h.left _ old hold hfam₀ hlive₀).not_rotated hc hir hpc hscan).other_step
        hkept.rely hir

theorem Pursued.revoked (h : Pursued r sessionId family c) (hdone : (c.procs r).outcome.isSome)
    (hrow : c.shared.store k = some row) (hfam : row.val.sessionFamilyId = family) :
    row.val.revokedAt.isSome := by
  by_contra hnone
  have hleft := h.left k row hrow hfam (Option.not_isSome_iff_eq_none.mp hnone)
  have hpursues := h.pursues
  cases hpc : c.procs r with
  | done outcome =>
    rw [hpc] at hleft hpursues
    cases outcome with
    | revoked rev =>
      have hleft' : decide (rev = .family family) = false := hleft
      have hrev : rev = .family family := hpursues
      exact of_decide_eq_false hleft' hrev
    | _ => exact hpursues
  | _ =>
    rw [hpc] at hdone
    cases hdone

end Family

/-! ## What a step does to codes -/

inductive CodeMoved (i : Nat) (s : AccountState) (p : Request) :
    AccountAct → AccountState → Request → Prop
  | session {a s' p'} (b : Act) (hb : ∀ call, b ≠ .start call) (hcall : ∀ call, a ≠ .start call)
      (hcodes : s'.codes = s.codes) (hflow : p'.flow = p.flow)
      (hstep : sessionProgram i b s.sessions p.session = some (s'.sessions, p'.session)) :
      CodeMoved i s p a s' p'
  | asked {request} (hidle : p.flow = .idle) :
      CodeMoved i s p (.start (.redeem request)) s (p.goto (.redeem (.start request)))
  | redeems {inp pc s' p'} (hp : p.flow = .redeem pc) (h : RedeemStepped i inp s p pc s' p') :
      CodeMoved i s p (.go inp) s' p'
  | elsewhere {a : AccountAct} {s' : AccountState} {p' : Request}
      (hcall : ∀ request, a ≠ .start (.redeem request))
      (hp : ∀ pc, p.flow ≠ .redeem pc) (hp' : p'.flow.elsewhere = true)
      (hdone : p.flow.answer = none)
      (hcodes : s'.codes.committed = s.codes.committed ∨
        ∃ code, p.flow = .approve (.commit code) ∧ s'.codes = s.codes.commit i) :
      CodeMoved i s p a s' p'
  | fails {s' p'} : CodeMoved i s p .fail s' p'

section Moves

variable {i : Nat} {inp : Input} {s s' : AccountState} {p p' : Request} {a : AccountAct}

theorem ApproveStepped.codes {pc : ApprovePc} (h : ApproveStepped i inp s p pc s' p') :
    s'.codes.committed = s.codes.committed ∨
      ∃ code, pc = .commit code ∧ s'.codes = s.codes.commit i := by
  cases h with
  | refused | checked => exact .inl rfl
  | clashed => exact .inl (funext Db.quiet_rollback.committed_eq)
  | inserted _ hins => exact .inl (funext (Db.quiet_insert hins).committed_eq)
  | committed => exact .inr ⟨_, rfl, rfl⟩

theorem enter_moved {call : AccountCall} (hidle : p.flow = .idle)
    (h : call.enter i s p = some (s', p')) : CodeMoved i s p (.start call) s' p' := by
  have hdone : p.flow.answer = none := by rw [hidle]; rfl
  have hredeem : ∀ pc, p.flow ≠ .redeem pc := by
    intro pc hp
    rw [hidle] at hp
    cases hp
  cases call with
  | redeem =>
    cases h
    exact .asked hidle
  | session call | resetPassword userId
  | changePassword =>
    obtain ⟨-, -, rfl, rfl⟩ := AccountState.call_eq_some h
    exact .elsewhere (by rintro _ ⟨⟩) hredeem rfl hdone (.inl rfl)
  | _ =>
    cases h
    exact .elsewhere (by rintro _ ⟨⟩) hredeem rfl hdone (.inl rfl)

theorem sessionStep_moved {b : Act} (hact : a.base = some b)
    (h : sessionStep i b s p = some (s', p')) : CodeMoved i s p a s' p' := by
  have hpart := sessionStep_part h
  have hcall : ∀ call, a ≠ .start call := by
    rintro _ rfl
    cases hact
  obtain ⟨sessions, pc, -, rfl, rfl⟩ := sessionStepped h
  exact .session b (AccountAct.base_ne_start hact) hcall
    (record_fields (s := { s with sessions := sessions }) (p := p) pc).1 rfl hpart

theorem codeMoved (h : accountProgram i a s p = some (s', p')) : CodeMoved i s p a s' p' := by
  cases accountMoved h with
  | session hact h => exact sessionStep_moved hact h
  | start hidle h => exact enter_moved hidle h
  | approve hp h =>
    refine .elsewhere (by rintro _ ⟨⟩) (by rw [hp]; rintro _ ⟨⟩) h.elsewhere (by rw [hp]; rfl) ?_
    refine h.codes.imp_right ?_
    rintro ⟨code, rfl, hcodes⟩
    exact ⟨code, hp, hcodes⟩
  | redeem hp h => exact .redeems hp h
  | device hp h =>
    exact .elsewhere (by rintro _ ⟨⟩) (by rw [hp]; rintro _ ⟨⟩) h.elsewhere.1 (by rw [hp]; rfl)
      (.inl (by rw [h.elsewhere.2]))
  | signIn hp h | complete hp h | password hp h =>
    exact .elsewhere (by rintro _ ⟨⟩) (by rw [hp]; rintro _ ⟨⟩) h.elsewhere (by rw [hp]; rfl)
      (.inl (by rw [h.aside.1.codes]))
  | failed | gaveUp => exact .fails

end Moves

/-! ## The row of a code -/

inductive RowMoved (k : TokenHash) (s : AccountState) (p : Request) (s' : AccountState)
    (p' : Request) : Prop
  | same (h : s'.codes.committed k = s.codes.committed k)
  | minted {code : AuthorizationCode} (hp : p.flow = .approve (.commit code))
      (hnone : s.codes.committed k = none) (h : s'.codes.committed k = some code)
  | burned {old : AuthorizationCode} {startedAt : OffsetDateTime} {error : AppError}
      (hp : p.flow = .redeem (.burn (old.consume startedAt) error))
      (hold : s.codes.committed k = some old) (hlive : old.consumedAt = none)
      (h : s'.codes.committed k = some (old.consume startedAt))
      (hp' : p'.flow = .done (.error error))
  | redeemed {old : AuthorizationCode} {startedAt : OffsetDateTime} {sessionId : Uuid}
      (hp : p.flow = .redeem (.commit (old.consume startedAt) sessionId))
      (hold : s.codes.committed k = some old) (hlive : old.consumedAt = none)
      (h : s'.codes.committed k = some ((old.consume startedAt).attachSession sessionId))
      (hp' : p'.flow = .done (.redeemed sessionId old.nonce))

structure Request.Knows (k : TokenHash) (s : AccountState) (p : Request) : Prop where
  begun : ∀ t, p.flow.consuming = some (k, t) → t ≤ s.sessions.now
  minted : ∀ code, p.flow = .approve (.commit code) →
    code.consumedAt = none ∧ code.sessionId = none
  taken : ∀ entry ∈ p.flow.redeemed, entry.codeHash = k →
    ∃ old startedAt, s.codes.committed k = some old ∧ old.consumedAt = none ∧
      entry = old.consume startedAt
  visiting : ∀ request startedAt, p.flow = .redeem (.visit request startedAt) →
    request.codeHash = k → ∃ row, s.codes.committed k = some row ∧ startedAt < row.expiresAt
  issuing : ∀ entry, p.flow = .redeem (.issue entry) →
    (∃ pc, p.session = .issue pc) ∨ ∃ id, p.session = .done (.tokens id)

/-- What holds of the code `k` in every state of a run without failures. -/
structure CodeFacts (k : TokenHash) (c : AccountConf) : Prop where
  account : Accountable c
  orderly : ∀ i, (c.procs i).Orderly
  knows : ∀ i, (c.procs i).Knows k c.shared
  pristine : ∀ row, c.shared.codes.committed k = some row → row.consumedAt = none →
    row.sessionId = none

section Rows

variable {k : TokenHash} {c : AccountConf} {i : Nat} {a : AccountAct} {s : AccountState}
  {p : Request} {entry : AuthorizationCode}

theorem CodeFacts.row (h : CodeFacts k c) (ha : a ≠ .fail)
    (hprog : accountProgram i a c.shared (c.procs i) = some (s, p)) :
    RowMoved k c.shared (c.procs i) s p := by
  have hknows := h.knows i
  have hlocal := h.account.locally i
  cases codeMoved hprog with
  | session b hb hcall hcodes => exact .same (by rw [hcodes])
  | asked => exact .same rfl
  | fails => exact absurd rfl ha
  | elsewhere hcall hp hp' hdone hcodes =>
    rcases hcodes with hsame | ⟨code, hflow, hcommit⟩
    · exact .same (congrFun hsame k)
    · have hw := hlocal.writing code (by rw [hflow]; rfl)
      rcases hw.committed_cases k with hsame | ⟨rfl, hrow⟩
      · exact .same (hcommit ▸ hsame)
      · obtain ⟨-, old, hslot, hold⟩ := hw
        refine .minted hflow ?_ (hcommit ▸ hrow)
        rw [Db.committed, hslot]
        cases old with
        | none => rfl
        | some => exact absurd (hold rfl) (by simp [(hknows.minted code hflow).1])
  | redeems hp hredeem =>
    cases hredeem with
    | missed | failed => exact .same (Db.quiet_rollback.committed_eq k)
    | took hvisit => exact .same ((Db.quiet_visit hvisit).committed_eq k)
    | lost hvisit =>
      exact .same (((Db.quiet_visit hvisit).trans Db.quiet_rollback).committed_eq k)
    | attached => exact .same (Db.quiet_write.committed_eq k)
    | @burned entry error =>
      have hw := hlocal.writing entry (by rw [hp]; rfl)
      rcases hw.committed_cases k with hsame | ⟨hk, hrow⟩
      · exact .same hsame
      · obtain ⟨old, startedAt, hold, hlive, rfl⟩ := hknows.taken entry (by rw [hp]; rfl) hk.symm
        exact .burned hp hold hlive hrow rfl
    | @committed entry sessionId =>
      have hw := hlocal.writing (entry.attachSession sessionId) (by rw [hp]; rfl)
      rcases hw.committed_cases k with hsame | ⟨hk, hrow⟩
      · exact .same hsame
      · obtain ⟨old, startedAt, hold, hlive, rfl⟩ := hknows.taken entry (by rw [hp]; rfl) hk.symm
        exact .redeemed hp hold hlive hrow rfl
    | _ => exact .same rfl

/-- The row of a code is for the same client and challenge and expires at
the same time ever after, and once consumed it stays as it is. -/
structure Settles (row row' : AuthorizationCode) : Prop where
  clientId : row'.clientId = row.clientId
  codeChallenge : row'.codeChallenge = row.codeChallenge
  expiresAt : row'.expiresAt = row.expiresAt
  consumed : row.consumedAt.isSome → row' = row

theorem RowMoved.settles {s' : AccountState} {p' : Request} {row : AuthorizationCode}
    (h : RowMoved k s p s' p') (hrow : s.codes.committed k = some row) :
    ∃ row', s'.codes.committed k = some row' ∧ Settles row row' := by
  cases h with
  | same hsame => exact ⟨row, hsame.trans hrow, rfl, rfl, rfl, fun _ => rfl⟩
  | minted hp hnone =>
    rw [hnone] at hrow
    cases hrow
  | burned hp hold hlive h | redeemed hp hold hlive h =>
    rw [hold] at hrow
    cases hrow
    exact ⟨_, h, rfl, rfl, rfl, fun hsome => by simp [hlive] at hsome⟩

theorem writing_of_redeemed {flow : Flow} (h : flow.redeemed = some entry) :
    ∃ code, flow.writing = some code ∧
      code.codeHash = entry.codeHash := by
  cases flow with
  | redeem pc => cases pc <;> cases h <;> exact ⟨_, rfl, rfl⟩
  | _ => cases h

theorem CodeFacts.knows_other (h : CodeFacts k c) (ha : a ≠ .fail)
    (hprog : accountProgram i a c.shared (c.procs i) = some (s, p)) {j : Nat} (hji : j ≠ i) :
    (c.procs j).Knows k s := by
  have hj := h.knows j
  have hrow := h.row ha hprog
  refine ⟨fun t ht => ?_, hj.minted, fun entry hentry hk => ?_, fun request t hflow hk => ?_,
    hj.issuing⟩
  · exact (hj.begun t ht).trans (OffsetDateTime.toMicros_mono (h.account.clock_le hprog))
  · obtain ⟨old, startedAt, hold, hlive, rfl⟩ := hj.taken entry hentry hk
    have hapart : ∀ entry', (c.procs i).flow.redeemed = some entry' →
        entry'.codeHash = k → False := by
      intro entry' hentry' hk'
      obtain ⟨code, hcode, hhash⟩ := writing_of_redeemed hentry
      obtain ⟨code', hcode', hhash'⟩ := writing_of_redeemed hentry'
      exact hji (h.account.writing_unique hcode hcode'
        (hhash.trans (hk.trans (hk'.symm.trans hhash'.symm))))
    have hkey : old.codeHash = k := hk
    cases hrow with
    | same hsame => exact ⟨old, startedAt, hsame.trans hold, hlive, rfl⟩
    | minted hp hnone =>
      rw [hnone] at hold
      cases hold
    | burned hp hold' _ _ _ | redeemed hp hold' _ _ _ =>
      rw [hold] at hold'
      cases hold'
      exact (hapart _ (congrArg Flow.redeemed hp) hkey).elim
  · obtain ⟨row, hcommitted, hlt⟩ := hj.visiting request t hflow hk
    obtain ⟨row', hcommitted', hsettles⟩ := hrow.settles hcommitted
    exact ⟨row', hcommitted', hsettles.expiresAt ▸ hlt⟩

theorem issue_step {b : Act} {sessions sessions' : Shared} {pc : IssuePc} {pc' : Pc}
    (h : sessionProgram i b sessions (.issue pc) = some (sessions', pc')) :
    (∃ q, pc' = .issue q) ∨ (∃ id, pc' = .done (.tokens id)) ∨ pc'.failed = true := by
  cases stepped h with
  | tick | configure => exact .inl ⟨pc, rfl⟩
  | start hidle => cases hidle
  | fail => exact .inr (.inr rfl)
  | @go ch _ _ h =>
    cases issueStepped h with
    | committed => exact .inr (.inl ⟨_, rfl⟩)
    | refused => exact .inr (.inr rfl)
    | _ => exact .inl ⟨_, rfl⟩

theorem not_redeem_of_elsewhere (h : p.flow.elsewhere = true) (pc : RedeemPc) :
    p.flow ≠ .redeem pc := by
  intro hp
  rw [hp] at h
  cases h

theorem Request.knows_of_other (hp : ∀ pc, p.flow ≠ .redeem pc)
    (hminted : ∀ code, p.flow = .approve (.commit code) →
      code.consumedAt = none ∧ code.sessionId = none) : p.Knows k s where
  begun t ht := by
    cases hflow : p.flow with
    | redeem pc => exact absurd hflow (hp pc)
    | _ =>
      rw [hflow] at ht
      cases ht
  minted := hminted
  taken entry hentry _ := by
    cases hflow : p.flow with
    | redeem pc => exact absurd hflow (hp pc)
    | _ =>
      rw [hflow] at hentry
      cases hentry
  visiting _ _ hflow := absurd hflow (hp _)
  issuing _ hflow := absurd hflow (hp _)

theorem CodeFacts.took (h : CodeFacts k c) {request : Redemption} {startedAt : OffsetDateTime}
    {codes : CodeDb} (hp : (c.procs i).flow = .redeem (.visit request startedAt))
    (hvisit : c.shared.codes.visit i request.codeHash (·.redeemable startedAt)
      (fun code => some (code.consume startedAt)) = some (.updated entry, codes)) :
    entry.codeHash = request.codeHash ∧
      ∃ old, c.shared.codes.committed request.codeHash = some old ∧ old.consumedAt = none ∧
        startedAt < old.expiresAt ∧ entry = old.consume startedAt := by
  have hheld := (h.account.locally i).free (by rw [hp]; rfl)
  rcases Db.visit_spec (fun r r' hr => by cases hr; rfl) hvisit with
    ⟨old, new, hv, hview, hmatch, hnew, -⟩ | ⟨hv, -⟩ | ⟨r, hv, -⟩
  · cases hv
    cases hnew
    rw [Db.view_of_heldOnly hheld] at hview
    simp only [AuthorizationCode.redeemable, Bool.and_eq_true, Option.isNone_iff_eq_none,
      decide_eq_true_eq] at hmatch
    exact ⟨c.shared.codes.keyed _ old (.inl hview), old, hview, hmatch.1, hmatch.2, rfl⟩
  · cases hv
  · cases hv

section

variable (h : CodeFacts k c) (ha : a ≠ .fail) (hfailed : p.session.failed = false)
  (hprog : accountProgram i a c.shared (c.procs i) = some (s, p))
include h ha hfailed hprog

theorem CodeFacts.knows_own : p.Knows k s := by
  have hi := h.knows i
  cases codeMoved hprog with
  | session b hb hcall hcodes hflow hstep =>
    refine ⟨fun t ht => ?_, ?_, ?_, ?_, fun entry hentry => ?_⟩
    · exact (hi.begun t (hflow ▸ ht)).trans
        (OffsetDateTime.toMicros_mono (h.account.clock_le hprog))
    · rw [hflow]
      exact hi.minted
    · rw [hflow, hcodes]
      exact hi.taken
    · rw [hflow, hcodes]
      exact hi.visiting
    · rcases hi.issuing entry (hflow ▸ hentry) with ⟨pc, hpc⟩ | ⟨id, hid⟩
      · rw [hpc] at hstep
        rcases issue_step hstep with hissue | htokens | hfail
        · exact .inl hissue
        · exact .inr htokens
        · rw [hfailed] at hfail
          cases hfail
      · exact .inr ⟨id, (Pc.outcome_step hstep (by rw [hid]; rfl)).trans hid⟩
  | asked =>
    exact ⟨by rintro _ ⟨⟩, by rintro _ ⟨⟩, by rintro _ ⟨⟩, by rintro _ _ ⟨⟩, by rintro _ ⟨⟩⟩
  | fails => exact absurd rfl ha
  | elsewhere hcall hp hp' =>
    refine Request.knows_of_other (not_redeem_of_elsewhere hp') fun code hcode => ?_
    rw [hcode] at hp'
    simpa [Flow.elsewhere] using hp'
  | redeems hp hredeem =>
    cases hredeem with
    | began =>
      refine ⟨?_, by rintro _ ⟨⟩, by rintro _ ⟨⟩, by rintro _ _ ⟨⟩, by rintro _ ⟨⟩⟩
      rintro _ ⟨⟩
      exact le_rfl
    | @found request startedAt hrow =>
      refine ⟨?_, by rintro _ ⟨⟩, by rintro _ ⟨⟩, ?_, by rintro _ ⟨⟩⟩
      · intro t ht
        exact hi.begun t (by rw [hp]; exact ht)
      · rintro _ _ ⟨⟩ hk
        have hheld := (h.account.locally i).free (by rw [hp]; rfl)
        rw [Db.view_of_heldOnly hheld, Option.any_eq_true] at hrow
        obtain ⟨row, hcommitted, hredeemable⟩ := hrow
        simp only [AuthorizationCode.redeemable, Bool.and_eq_true, decide_eq_true_eq]
          at hredeemable
        exact ⟨row, hk ▸ hcommitted, hredeemable.2⟩
    | @took request startedAt entry codes hvisit =>
      have htaken : ∀ entry' ∈ some entry, entry'.codeHash = k →
          ∃ old startedAt, codes.committed k = some old ∧ old.consumedAt = none ∧
            entry' = old.consume startedAt := by
        rintro _ ⟨⟩ hk
        obtain ⟨hhash, old, hold, hlive, -, heq⟩ := h.took hp hvisit
        rw [← hhash, hk] at hold
        exact ⟨old, startedAt, ((Db.quiet_visit hvisit).committed_eq k).trans hold, hlive, heq⟩
      split
      · exact ⟨by rintro _ ⟨⟩, by rintro _ ⟨⟩, htaken, by rintro _ _ ⟨⟩, by rintro _ ⟨⟩⟩
      · exact ⟨by rintro _ ⟨⟩, by rintro _ ⟨⟩, htaken, by rintro _ _ ⟨⟩, by rintro _ ⟨⟩⟩
    | refused =>
      have htaken := hi.taken
      rw [hp] at htaken
      exact ⟨by rintro _ ⟨⟩, by rintro _ ⟨⟩, htaken, by rintro _ _ ⟨⟩, by rintro _ ⟨⟩⟩
    | issues =>
      have htaken := hi.taken
      rw [hp] at htaken
      exact ⟨by rintro _ ⟨⟩, by rintro _ ⟨⟩, htaken, by rintro _ _ ⟨⟩,
        fun _ _ => .inl ⟨_, rfl⟩⟩
    | attached =>
      have htaken := hi.taken
      rw [hp] at htaken
      refine ⟨by rintro _ ⟨⟩, by rintro _ ⟨⟩, fun entry hentry hk => ?_, by rintro _ _ ⟨⟩,
        by rintro _ ⟨⟩⟩
      obtain ⟨old, t, hold, hlive, heq⟩ := htaken entry hentry hk
      exact ⟨old, t, (Db.quiet_write.committed_eq k).trans hold, hlive, heq⟩
    | _ => exact ⟨by rintro _ ⟨⟩, by rintro _ ⟨⟩, by rintro _ ⟨⟩, by rintro _ _ ⟨⟩, by rintro _ ⟨⟩⟩

theorem CodeFacts.set : CodeFacts k (c.set i s p) := by
  refine ⟨h.account.set hprog, fun j => ?_, fun j => ?_, fun row hrow hlive => ?_⟩
  · refine Conf.set_cases j ?_ fun j _ => ?_
    · exact accountProgram_orderly (h.orderly i) hprog
    · exact h.orderly j
  · refine Conf.set_cases j ?_ fun j hji => ?_
    · exact h.knows_own ha hfailed hprog
    · exact h.knows_other ha hprog hji
  · have hrow' : s.codes.committed k = some row := hrow
    cases h.row ha hprog with
    | same hsame => exact h.pristine row (hsame.symm.trans hrow') hlive
    | @minted code hp hnone hcode =>
      rw [hcode] at hrow'
      cases hrow'
      exact ((h.knows i).minted _ hp).2
    | burned hp hold hlive' hnew | redeemed hp hold hlive' hnew =>
      rw [hnew] at hrow'
      cases hrow'
      cases hlive

end

end Rows

/-! ## The conditions on a run -/

/-- The request is revoking the session of a code it was presented. -/
def Flow.revoking : Flow → Bool
  | .redeem .revoke => true
  | _ => false

/-- The request began before the code `k` expired and can still redeem
it. -/
def Flow.mayRedeem (k : TokenHash) (expiresAt : OffsetDateTime) (flow : Flow) : Bool :=
  flow.consuming.any (fun code => decide (code.1 = k) && decide (code.2 < expiresAt)) ||
    flow.redeemed.any fun entry => entry.codeHash = k

/-- No request fails and no statement of the session code does. -/
def Succeeds (c : AccountConf) (i : Nat) (a : AccountAct) : Prop :=
  (∀ r ∈ accountProgram i a c.shared (c.procs i), r.2.session.failed = false) ∧
    match a with
    | .fail => False
    | _ => True

/-- `confidential` says which clients are. -/
def Registered (confidential : String → Bool) (c : AccountConf) (i : Nat) (a : AccountAct) :
    Prop :=
  match a, (c.procs i).flow with
  | .go inp, .redeem (.replay request) => inp.confidential = confidential request.clientId
  | _, _ => True

/-- No rotation commits while request `j`, which is revoking the session of
a code, has still to visit the session it replaces. -/
def RotatesApart (c : AccountConf) (i : Nat) (a : AccountAct) (j : Nat) : Prop :=
  match a with
  | .tick _ => True
  | .configure _ => True
  | _ => (c.procs j).flow.revoking = true → ∀ id ∈ (c.procs i).session.replacing,
      id ∉ (c.procs j).session.scanning

/-- Nobody looks for the code `k` past its expiry while request `j`, which
began before it, can still redeem the code. -/
def LooksInTime (k : TokenHash) (c : AccountConf) (i : Nat) (a : AccountAct) (j : Nat) : Prop :=
  match a, (c.procs i).flow with
  | .go _, .redeem (.consume request startedAt) => request.codeHash = k → j ≠ i →
      ∀ row ∈ c.shared.codes.committed k, row.expiresAt ≤ startedAt →
        (c.procs j).flow.mayRedeem k row.expiresAt = false
  | _, _ => True

/-- No step fails, the clients stay what they are, no refresh crosses a
revocation, and the code is not looked for across its expiry. -/
def Undisturbed (confidential : String → Bool) (k : TokenHash) (c : AccountConf) (i : Nat)
    (a : AccountAct) : Prop :=
  (Succeeds c i a ∧ Registered confidential c i a) ∧
    ∀ j, RotatesApart c i a j ∧ LooksInTime k c i a j

variable {a : AccountAct} {i : Nat} {request : Redemption}

theorem Succeeds.ne_fail {c : AccountConf} (h : Succeeds c i a) : a ≠ .fail := by
  rintro rfl
  exact h.2

/-! ## Where a replay is -/

/-- The code has expired, and nobody can redeem it any more. -/
def Lapsed (k : TokenHash) (c : AccountConf) : Prop :=
  ∃ row, c.shared.codes.committed k = some row ∧ row.consumedAt = none ∧
    row.expiresAt ≤ c.shared.sessions.now ∧
    ∀ j, (c.procs j).flow.mayRedeem k row.expiresAt = false

/-- The code was consumed and no session is attached to it. -/
def Unattached (k : TokenHash) (c : AccountConf) : Prop :=
  ∃ row, c.shared.codes.committed k = some row ∧ row.consumedAt.isSome ∧ row.sessionId = none

/-- Request `i` revokes the family of the session attached to the code, or
has done so. -/
def Chases (k : TokenHash) (c : AccountConf) (i : Nat) : Prop :=
  ∃ row id family, c.shared.codes.committed k = some row ∧ row.consumedAt.isSome ∧
    row.sessionId = some id ∧ Pursued i id family (sessionsOf c)

/-- Where a request is that was presented the code by its own client. -/
def ReplayStage (k : TokenHash) (c : AccountConf) (i : Nat) : Prop :=
  match (c.procs i).flow with
  | .redeem (.replay _) => c.shared.Consumed k ∨ Lapsed k c
  | .redeem .revoke => Chases k c i
  | .done (.redeemed _ _) => True
  | .done _ => Lapsed k c ∨ Unattached k c ∨ Chases k c i ∧ (c.procs i).session.outcome.isSome
  | _ => True

def Flow.Serves (request : Redemption) : Flow → Prop
  | .redeem (.start asked) => asked = request
  | .redeem (.consume asked _) => asked = request
  | .redeem (.visit asked _) => asked = request
  | .redeem (.replay asked) => asked = request
  | .redeem .revoke => True
  | .redeem (.burn entry _) => entry.codeHash = request.codeHash
  | .redeem (.checks asked entry) => asked = request ∧ entry.codeHash = request.codeHash ∧
      entry.answeredBy request = true
  | .redeem (.issue entry) => entry.codeHash = request.codeHash
  | .redeem (.commit entry _) => entry.codeHash = request.codeHash
  | .done _ => True
  | _ => False

section Stages

variable {k : TokenHash} {c : AccountConf} {i j : Nat} {a : AccountAct} {s : AccountState}
  {p : Request} {confidential : String → Bool} {flow : Flow} {startedAt : OffsetDateTime}
  {row : AuthorizationCode} {inp : Input} {request : Redemption}

theorem mayRedeem_of_redeemed {entry : AuthorizationCode} (t : OffsetDateTime)
    (h : flow.redeemed = some entry) (hk : entry.codeHash = k) : flow.mayRedeem k t = true := by
  simp [Flow.mayRedeem, h, hk]

theorem mayRedeem_of_consuming {t : OffsetDateTime} (h : flow.consuming = some (k, startedAt))
    (ht : startedAt < t) : flow.mayRedeem k t = true := by
  simp [Flow.mayRedeem, h, ht]

section

variable (h : CodeFacts k c) (ha : a ≠ .fail)
  (hprog : accountProgram i a c.shared (c.procs i) = some (s, p))
include h ha hprog

theorem CodeFacts.consumed_row (hrow : c.shared.codes.committed k = some row)
    (hconsumed : row.consumedAt.isSome) : s.codes.committed k = some row := by
  obtain ⟨row', hrow', hsettles⟩ := (h.row ha hprog).settles hrow
  rw [hrow', hsettles.consumed hconsumed]

theorem CodeFacts.mayRedeem_step (hrow : c.shared.codes.committed k = some row)
    (hexpired : row.expiresAt ≤ c.shared.sessions.now)
    (hmay : p.flow.mayRedeem k row.expiresAt = true) :
    (c.procs i).flow.mayRedeem k row.expiresAt = true := by
  simp only [Flow.mayRedeem, Bool.or_eq_true, Option.any_eq_true, Bool.and_eq_true,
    decide_eq_true_eq] at hmay
  rcases hmay with ⟨⟨hash, startedAt⟩, hconsuming, rfl, hlt⟩ | ⟨entry, hentry, hk⟩
  · rcases (h.account.approvals hprog).consuming _ _ hconsuming with hsame | rfl
    · exact mayRedeem_of_consuming hsame hlt
    · exact absurd hexpired (not_le.mpr hlt)
  · cases codeMoved hprog with
    | session b hb hcall hcodes hflow =>
      exact mayRedeem_of_redeemed _ (hflow ▸ hentry) hk
    | asked => cases hentry
    | fails => exact absurd rfl ha
    | elsewhere hcall hp hp' =>
      cases hflow : p.flow with
      | redeem pc => exact absurd hflow (not_redeem_of_elsewhere hp' pc)
      | _ =>
        rw [hflow] at hentry
        cases hentry
    | redeems hp hredeem =>
      cases hredeem with
      | @took request startedAt entry' codes hvisit =>
        obtain rfl : entry' = entry := by
          dsimp only [Request.goto] at hentry
          split at hentry <;> cases hentry <;> rfl
        obtain ⟨hhash, old, hold, -, hlt, -⟩ := h.took hp hvisit
        rw [hk] at hhash
        rw [← hhash, hrow] at hold
        cases hold
        have hconsuming : (c.procs i).flow.consuming = some (k, startedAt) := by
          rw [hp, hhash]
          rfl
        exact mayRedeem_of_consuming hconsuming hlt
      | refused | issues | attached =>
        exact mayRedeem_of_redeemed _ (by rw [hp]; exact hentry) hk
      | _ => cases hentry

theorem Lapsed.set (hl : Lapsed k c) : Lapsed k (c.set i s p) := by
  obtain ⟨row, hrow, hlive, hexpired, hnobody⟩ := hl
  have hsame : s.codes.committed k = some row := by
    cases h.row ha hprog with
    | same hsame => exact hsame.trans hrow
    | minted hp hnone =>
      rw [hnone] at hrow
      cases hrow
    | burned hp hold _ _ _ | redeemed hp hold _ _ _ =>
      rw [hold] at hrow
      cases hrow
      have hkey := c.shared.codes.keyed k _ (.inl hold)
      have hmay := mayRedeem_of_redeemed row.expiresAt (congrArg Flow.redeemed hp) hkey
      rw [hnobody i] at hmay
      cases hmay
  refine ⟨row, hsame, hlive,
    hexpired.trans (OffsetDateTime.toMicros_mono (h.account.clock_le hprog)), fun j => ?_⟩
  refine Conf.set_cases j ?_ fun j _ => ?_
  · by_contra hmay
    have := h.mayRedeem_step ha hprog hrow hexpired (Bool.not_eq_false _ ▸ hmay)
    rw [hnobody i] at this
    cases this
  · exact hnobody j

theorem Unattached.set (hu : Unattached k c) : Unattached k (c.set i s p) := by
  obtain ⟨row, hrow, hconsumed, hnone⟩ := hu
  exact ⟨row, h.consumed_row ha hprog hrow hconsumed, hconsumed, hnone⟩

theorem Consumed.set (hc : c.shared.Consumed k) : s.Consumed k := by
  obtain ⟨row, hrow, hconsumed⟩ := hc
  exact ⟨row, h.consumed_row ha hprog hrow hconsumed, hconsumed⟩

end

section

variable (h : CodeFacts k c) (hok : Succeeds c i a) (hapart : RotatesApart c i a j)
  (hj : (c.procs j).flow.revoking = true ∨ (c.procs j).session.outcome.isSome)
  (hprog : accountProgram i a c.shared (c.procs i) = some (s, p))
include h hok hapart hj hprog

theorem pursued_set {id family : Uuid} (hpursued : Pursued j id family (sessionsOf c)) :
    Pursued j id family (sessionsOf (c.set i s p)) := by
  have hfailed : p.session.failed = false := hok.1 _ hprog
  have hscan : (∀ t, a ≠ .tick t) → (∀ cfg, a ≠ .configure cfg) →
      ∀ b, NoRotationInScan j (sessionsOf c) i b := by
    intro htick hconf b _ id hid
    rcases hj with hrevoking | hdone
    · cases a with
      | tick t => exact absurd rfl (htick t)
      | configure cfg => exact absurd rfl (hconf cfg)
      | _ => exact hapart hrevoking id hid
    · show id ∉ (c.procs j).session.scanning
      cases hs : (c.procs j).session with
      | done => exact List.not_mem_nil
      | _ =>
        rw [hs] at hdone
        cases hdone
  rw [sessionsOf_set]
  have hstep : ∀ b, NoRotationInScan j (sessionsOf c) i b →
      sessionProgram i b c.shared.sessions (c.procs i).session = some (s.sessions, p.session) →
      Pursued j id family ((sessionsOf c).set i s.sessions p.session) :=
    fun b hb hprog' => hpursued.step h.account.sessions hb (fun _ => hfailed) hprog'
  by_cases hpassive : (∃ t, a = .tick t) ∨ ∃ cfg, a = .configure cfg
  · rcases hpassive with ⟨t, rfl⟩ | ⟨cfg, rfl⟩
    · exact hstep (.tick t) (by rintro ⟨⟩) (sessionStep_part hprog)
    · exact hstep (.configure cfg) (by rintro ⟨⟩) (sessionStep_part hprog)
  · push Not at hpassive
    rcases sessionsOf_step hprog with heq | ⟨b, hb⟩
    · rw [← sessionsOf_set, heq]
      exact hpursued
    · exact hstep b (hscan hpassive.1 hpassive.2 b) hb

theorem Chases.set (hc : Chases k c j) : Chases k (c.set i s p) j := by
  obtain ⟨row, id, family, hrow, hconsumed, hid, hpursued⟩ := hc
  exact ⟨row, id, family, h.consumed_row hok.ne_fail hprog hrow hconsumed, hconsumed, hid,
    pursued_set h hok hapart hj hprog hpursued⟩

end

theorem outcome_set (hprog : accountProgram i a c.shared (c.procs i) = some (s, p))
    (h : (c.procs j).session.outcome.isSome) :
    ((c.set i s p).procs j).session.outcome.isSome := by
  by_cases hji : j = i
  · subst hji
    rw [Conf.set_procs_self]
    cases accountProgram_part hprog with
    | same hs hp => rwa [hp]
    | stepped b hstep => rwa [Pc.outcome_step hstep h]
  · rwa [Conf.set_procs_of_ne _ _ _ hji]

theorem ReplayStage.keep (hstage : ReplayStage k c j) (h : CodeFacts k c)
    (hok : Undisturbed confidential k c i a)
    (hprog : accountProgram i a c.shared (c.procs i) = some (s, p))
    (hflow : ((c.set i s p).procs j).flow = (c.procs j).flow) : ReplayStage k (c.set i s p) j := by
  have ha := hok.1.1.ne_fail
  unfold ReplayStage at hstage ⊢
  rw [hflow]
  split at hstage
  · rename_i hj
    exact hstage.imp (Consumed.set h ha hprog) fun hl => hl.set h ha hprog
  · rename_i hj
    exact hstage.set h hok.1.1 (hok.2 j).1 (.inl (by rw [hj]; rfl)) hprog
  · trivial
  · rename_i hj hnot
    rcases hstage with hl | hu | ⟨hc, hdone⟩
    · exact .inl (hl.set h ha hprog)
    · exact .inr (.inl (hu.set h ha hprog))
    · exact .inr (.inr ⟨hc.set h hok.1.1 (hok.2 j).1 (.inr hdone) hprog, outcome_set hprog hdone⟩)
  · trivial

/-- The client that presents the code is its own, and authenticates or has
the verifier. -/
def Redemption.Own (confidential : String → Bool) (request : Redemption)
    (row : AuthorizationCode) : Prop :=
  request.clientId = row.clientId ∧
    (confidential request.clientId = true ∨ request.codeChallenge = row.codeChallenge)

theorem Settles.own_iff {row' : AuthorizationCode} (h : Settles row row') (request : Redemption) :
    request.Own confidential row' ↔ request.Own confidential row := by
  rw [Redemption.Own, Redemption.Own, h.clientId, h.codeChallenge]

theorem CodeFacts.lost (h : CodeFacts k c) {v : Db.Visit AuthorizationCode} {codes : CodeDb}
    (hp : (c.procs i).flow = .redeem (.visit request startedAt)) (hk : request.codeHash = k)
    (hvisit : c.shared.codes.visit i request.codeHash (·.redeemable startedAt)
      (fun code => some (code.consume startedAt)) = some (v, codes))
    (hv : ∀ entry, v ≠ .updated entry) : c.shared.Consumed k := by
  obtain ⟨row, hrow, hlt⟩ := (h.knows i).visiting request startedAt hp hk
  have hheld := (h.account.locally i).free (by rw [hp]; rfl)
  have hview : c.shared.codes.view i request.codeHash = some row := by
    rw [Db.view_of_heldOnly hheld, hk, hrow]
  rcases Db.visit_spec (fun r r' hr => by cases hr; rfl) hvisit with
    ⟨old, new, rfl, -⟩ | ⟨-, hskipped, -⟩ | ⟨r, -, -, -, hnone, -⟩
  · exact absurd rfl (hv new)
  · have hredeemable := hskipped row hview
    simp only [AuthorizationCode.redeemable, hlt, decide_true, Bool.and_true,
      Option.isNone_eq_false_iff] at hredeemable
    exact ⟨row, hrow, hredeemable⟩
  · cases hnone

variable (h : CodeFacts k c) (hok : Undisturbed confidential k c i a) (ha : a = .go inp)
  (hk : request.codeHash = k) (hsome : (c.shared.codes.committed k).isSome)
  (hprog : accountProgram i a c.shared (c.procs i) = some (s, p))
include h hok ha hk hsome hprog

theorem CodeFacts.missed (hp : (c.procs i).flow = .redeem (.consume request startedAt))
    (hmiss : (c.shared.codes.view i request.codeHash).any (·.redeemable startedAt) = false)
    (hp' : ∀ t, p.flow.mayRedeem k t = false) : s.Consumed k ∨ Lapsed k (c.set i s p) := by
  have hne := hok.1.1.ne_fail
  obtain ⟨row, hrow⟩ := Option.isSome_iff_exists.mp hsome
  have hheld := (h.account.locally i).free (by rw [hp]; rfl)
  rw [Db.view_of_heldOnly hheld, hk, hrow, Option.any_some] at hmiss
  cases hconsumed : row.consumedAt with
  | some =>
    left
    exact Consumed.set h hne hprog ⟨row, hrow, by rw [hconsumed]; rfl⟩
  | none =>
    right
    simp only [AuthorizationCode.redeemable, hconsumed, Option.isNone_none, Bool.true_and,
      decide_eq_false_iff_not, not_lt] at hmiss
    have hbegun := (h.knows i).begun startedAt (by rw [hp, ← hk]; rfl)
    have hnobody : ∀ j, j ≠ i → (c.procs j).flow.mayRedeem k row.expiresAt = false := by
      intro j hji
      have htime := (hok.2 j).2
      subst ha
      unfold LooksInTime at htime
      rw [hp] at htime
      exact htime hk hji row hrow hmiss
    obtain ⟨row', hrow', hsettles⟩ := (h.row hne hprog).settles hrow
    have hsame : row' = row := by
      cases h.row hne hprog with
      | same hsame => exact Option.some.inj (hrow'.symm.trans (hsame.trans hrow))
      | minted hflow | burned hflow | redeemed hflow =>
        rw [hp] at hflow
        cases hflow
    refine ⟨row, hsame ▸ hrow', hconsumed, ?_, fun j => ?_⟩
    · exact hmiss.trans (hbegun.trans (OffsetDateTime.toMicros_mono (h.account.clock_le hprog)))
    · refine Conf.set_cases j ?_ fun j hji => ?_
      · exact hp' _
      · exact hnobody j hji

theorem CodeFacts.stage_redeems {pc : RedeemPc} (hp : (c.procs i).flow = .redeem pc)
    (hserves : (c.procs i).flow.Serves request)
    (hown : ∀ row, c.shared.codes.committed k = some row → request.Own confidential row)
    (hstage : ReplayStage k c i) (hredeem : RedeemStepped i inp c.shared (c.procs i) pc s p) :
    ReplayStage k (c.set i s p) i := by
  have hne := hok.1.1.ne_fail
  unfold ReplayStage at hstage ⊢
  rw [hp] at hserves hstage
  rw [Conf.set_procs_self]
  cases hredeem with
  | missed hrow =>
    obtain rfl : _ = request := hserves
    exact h.missed hok ha hk hsome hprog hp hrow fun _ => rfl
  | @took request' _ entry _ hvisit =>
    cases entry.answeredBy request' <;> trivial
  | lost hvisit hv =>
    obtain rfl : _ = request := hserves
    exact .inl (Consumed.set h hne hprog (h.lost hp hk hvisit hv))
  | @revokes request' seen id hseen hconsumed hclient hproof hid hidle hpresent =>
    obtain rfl : _ = request := hserves
    obtain ⟨session, hfind⟩ := Option.isSome_iff_exists.mp hpresent
    obtain ⟨row, hrow, rfl⟩ := Option.map_eq_some_iff.mp hfind
    refine ⟨seen, id, row.val.sessionFamilyId, hk ▸ hseen, hconsumed, hid, ?_⟩
    rw [sessionsOf_set]
    refine ⟨⟨row, hrow, rfl⟩, ?_, fun k' row' _ _ _ => ?_⟩
    · rw [Conf.set_procs_self]
      rfl
    · rw [Conf.set_procs_self]
      rfl
  | spares hwhy =>
    obtain rfl : _ = request := hserves
    rcases hstage with ⟨row, hrow, hconsumed⟩ | hl
    · obtain ⟨hclient, hproof⟩ := hown row hrow
      have hregistered := hok.1.2
      subst ha
      unfold Registered at hregistered
      rw [hp] at hregistered
      refine .inr (.inl ⟨row, hrow, hconsumed, ?_⟩)
      refine hwhy row (hk ▸ hrow) hconsumed hclient.symm (hproof.imp ?_ Eq.symm)
      exact fun hc => hregistered.trans hc
    · exact .inl (hl.set h hne hprog)
  | revoked hdone =>
    refine .inr (.inr ⟨?_, ?_⟩)
    · exact hstage.set h hok.1.1 (hok.2 i).1 (.inl (by rw [hp]; rfl)) hprog
    · show (c.procs i).session.outcome.isSome
      rw [hdone]
      rfl
  | @burned entry error =>
    have hkey : entry.codeHash = k := hserves.trans hk
    have hw := (h.account.locally i).writing entry (by rw [hp]; rfl)
    obtain ⟨old, startedAt, hold, hlive, rfl⟩ := (h.knows i).taken entry (by rw [hp]; rfl) hkey
    have hcommitted : (c.shared.codes.commit i).committed k = some (old.consume startedAt) := by
      rw [hw.commit, ← hkey]
      exact Function.update_self ..
    exact .inr (.inl ⟨_, hcommitted, rfl, h.pristine old hold hlive⟩)
  | failed hdone =>
    rcases (h.knows i).issuing _ hp with ⟨q, hissue⟩ | ⟨id, htokens⟩
    · rw [hissue] at hdone
      cases hdone
    · rw [htokens] at hdone
      cases hdone
  | _ => trivial

end Stages

/-! ## Calls -/

abbrev AccountEvent := Event AccountState Request AccountAct

/-- The code that is presented with the step. -/
def AccountAct.asks : AccountAct → Option Redemption
  | .start (.redeem request) => some request
  | _ => none

theorem AccountAct.asks_eq_some (h : a.asks = some request) : a = .start (.redeem request) := by
  cases a with
  | start call =>
    cases call with
    | redeem =>
      cases h
      rfl
    | _ => cases h
  | _ => cases h

/-- Request `i` was asked to redeem a code. -/
def AskedFor (events : List AccountEvent) (i : Nat) (request : Redemption) : Prop :=
  ∃ e ∈ events, e.proc = i ∧ e.act.asks = some request

/-- Request `i` was presented a code that was there. -/
def Presented (events : List AccountEvent) (i : Nat) (request : Redemption) : Prop :=
  ∃ e ∈ events, e.proc = i ∧ e.act.asks = some request ∧
    (e.shared.codes.committed request.codeHash).isSome

theorem Presented.asked {events : List AccountEvent} (h : Presented events i request) :
    AskedFor events i request := by
  obtain ⟨e, he, hi, ha, -⟩ := h
  exact ⟨e, he, hi, ha⟩

/-- What holds of the calls that present the code `k`. -/
structure Replays (confidential : String → Bool) (k : TokenHash) (events : List AccountEvent)
    (c : AccountConf) : Prop where
  facts : CodeFacts k c
  serves : ∀ i request, AskedFor events i request → (c.procs i).flow.Serves request
  known : ∀ i request, Presented events i request → request.codeHash = k →
    (c.shared.codes.committed k).isSome
  redeemed : ∀ i request id nonce, AskedFor events i request → request.codeHash = k →
    (c.procs i).flow = .done (.redeemed id nonce) →
    ∃ row, c.shared.codes.committed k = some row ∧ row.consumedAt.isSome ∧ row.sessionId = some id
  unique : ∀ i j request request' id id' nonce nonce', AskedFor events i request →
    request.codeHash = k → (c.procs i).flow = .done (.redeemed id nonce) →
    AskedFor events j request' → request'.codeHash = k →
    (c.procs j).flow = .done (.redeemed id' nonce') → i = j
  stage : ∀ i request, Presented events i request → request.codeHash = k →
    (∀ row, c.shared.codes.committed k = some row → request.Own confidential row) →
    ReplayStage k c i
  engaged : ∀ i request, AskedFor events i request → request.codeHash = k →
    ((c.procs i).session ≠ .idle ∨ ∃ e ∈ events, e.proc = i ∧ e.self.session ≠ .idle) →
    ∃ row, c.shared.codes.committed k = some row ∧ request.Own confidential row
  unasked : ∀ i, (c.procs i).flow = .idle → ∀ e ∈ events, e.proc = i → e.self.session = .idle
  untouched : ∀ e ∈ events, e.self.session = .idle →
    e.shared'.sessions.store = e.shared.sessions.store

section Calls

variable {confidential : String → Bool} {k : TokenHash} {events : List AccountEvent}
  {c : AccountConf} {i j : Nat} {a : AccountAct} {s : AccountState} {p : Request}
  {request : Redemption} {e : AccountEvent}

theorem asked_cons (h : AskedFor (e :: events) i request) :
    e.proc = i ∧ e.act = .start (.redeem request) ∨ AskedFor events i request := by
  obtain ⟨e', he', hi, ha⟩ := h
  rcases List.mem_cons.mp he' with rfl | he'
  · exact .inl ⟨hi, AccountAct.asks_eq_some ha⟩
  · exact .inr ⟨e', he', hi, ha⟩

theorem presented_cons (h : Presented (e :: events) i request) :
    e.proc = i ∧ e.act = .start (.redeem request) ∧
      (e.shared.codes.committed request.codeHash).isSome ∨ Presented events i request := by
  obtain ⟨e', he', hi, ha, hsome⟩ := h
  rcases List.mem_cons.mp he' with rfl | he'
  · exact .inl ⟨hi, AccountAct.asks_eq_some ha, hsome⟩
  · exact .inr ⟨e', he', hi, ha, hsome⟩

theorem enters {i : Nat} {s s' : AccountState} {p p' : Request}
    (h : accountProgram i (.start (.redeem request)) s p = some (s', p')) :
    p.flow = .idle ∧ s' = s ∧ p' = p.goto (.redeem (.start request)) := by
  cases codeMoved h with
  | session b hb hcall | elsewhere hcall =>
    exact absurd rfl (hcall _)
  | asked hidle => exact ⟨hidle, rfl, rfl⟩

theorem Flow.Serves.not_other {flow : Flow} (h : flow.Serves request)
    (hredeem : ∀ pc, flow ≠ .redeem pc) (hdone : flow.answer = none) : False := by
  cases flow with
  | redeem pc => exact hredeem pc rfl
  | done => cases hdone
  | _ => exact h

section

variable (hprog : accountProgram i a c.shared (c.procs i) = some (s, p))
include hprog

theorem store_of_idle (hidle : (c.procs i).session = .idle) :
    s.sessions.store = c.shared.sessions.store := by
  cases accountProgram_part hprog with
  | same hs => rw [hs]
  | stepped b hstep =>
    rw [hidle] at hstep
    by_cases hb : ∃ call, b = .start call
    · obtain ⟨call, rfl⟩ := hb
      simp only [sessionProgram] at hstep
      split_ifs at hstep
      simp only [Option.some.injEq, Prod.mk.injEq] at hstep
      rw [hstep.1]
    · have hdb := (idle_step (fun call hcall => hb ⟨call, hcall⟩) hstep).2
      rw [Shared.store, Shared.store, hdb]

theorem idle_of_idle (ha : a ≠ .fail) (hp' : p.flow = .idle) : (c.procs i).flow = .idle := by
  cases codeMoved hprog with
  | session b hb hcall hcodes hflow => exact hflow.symm.trans hp'
  | asked => cases hp'
  | fails => exact absurd rfl ha
  | elsewhere hcall hp helse =>
    rw [hp'] at helse
    cases helse
  | redeems hp hredeem =>
    cases hredeem with
    | took =>
      dsimp only [Request.goto] at hp'
      cases hp'
    | _ => cases hp'

variable (h : CodeFacts k c) (hserves : (c.procs i).flow.Serves request)
include h hserves

theorem serves_step (ha : a ≠ .fail) : p.flow.Serves request := by
  cases codeMoved hprog with
  | session b hb hcall hcodes hflow => rwa [hflow]
  | asked hidle =>
    rw [hidle] at hserves
    cases hserves
  | fails => exact absurd rfl ha
  | elsewhere hcall hp hp' hdone =>
    exact (hserves.not_other hp hdone).elim
  | redeems hp hredeem =>
    rw [hp] at hserves
    cases hredeem with
    | @took asked startedAt entry codes hvisit =>
      obtain rfl : asked = request := hserves
      have hhash := (h.took hp hvisit).1
      show Flow.Serves asked (.redeem _)
      split
      · rename_i hanswered
        exact ⟨rfl, hhash, hanswered⟩
      · exact hhash
    | refused | issues => exact hserves.2.1
    | began | found | missed | lost | attached => exact hserves
    | _ => trivial

theorem redeemed_step (ha : a ≠ .fail) (hk : request.codeHash = k) {id : Uuid}
    {nonce : Option String} (hp' : p.flow = .done (.redeemed id nonce)) :
    (c.procs i).flow = .done (.redeemed id nonce) ∨
      (∃ old, c.shared.codes.committed k = some old ∧ old.consumedAt = none) ∧
        ∃ row, s.codes.committed k = some row ∧ row.consumedAt.isSome ∧
          row.sessionId = some id := by
  cases codeMoved hprog with
  | session b hb hcall hcodes hflow => exact .inl (hflow.symm.trans hp')
  | asked => cases hp'
  | fails => exact absurd rfl ha
  | elsewhere hcall hp _ hdone =>
    exact (hserves.not_other hp hdone).elim
  | redeems hp hredeem =>
    rw [hp] at hserves
    cases hredeem with
    | @committed entry sessionId =>
      cases hp'
      have hkey : entry.codeHash = k := hserves.trans hk
      have hw := (h.account.locally i).writing (entry.attachSession id) (by rw [hp]; rfl)
      obtain ⟨old, startedAt, hold, hlive, rfl⟩ :=
        (h.knows i).taken entry (by rw [hp]; rfl) hkey
      refine .inr ⟨⟨old, hold, hlive⟩, (old.consume startedAt).attachSession id, ?_, rfl, rfl⟩
      show (c.shared.codes.commit i).committed k = _
      rw [hw.commit, ← hkey]
      exact Function.update_self ..
    | @took asked startedAt entry codes hvisit =>
      dsimp only [Request.goto] at hp'
      cases hp'
    | _ => cases hp'

/-- A step from where the session code was not called calls it only for
the code's own client. -/
theorem engaged_step (hok : Undisturbed confidential k c i a) (hk : request.codeHash = k)
    (hidle : (c.procs i).session = .idle) (hcalled : p.session ≠ .idle) :
    ∃ row, c.shared.codes.committed k = some row ∧ request.Own confidential row := by
  cases codeMoved hprog with
  | session b hb hcall hcodes hflow hstep =>
    rw [hidle] at hstep
    exact absurd (idle_step hb hstep).1 hcalled
  | asked => exact absurd hidle hcalled
  | fails => exact absurd rfl hok.1.1.ne_fail
  | elsewhere hcall hp _ hdone =>
    exact (hserves.not_other hp hdone).elim
  | redeems hp hredeem =>
    rw [hp] at hserves
    cases hredeem with
    | @revokes asked seen id hseen hconsumed hclient hproof hid _ hpresent =>
      obtain rfl : asked = request := hserves
      have hregistered := hok.1.2
      unfold Registered at hregistered
      rw [hp] at hregistered
      exact ⟨seen, hk ▸ hseen, hclient.symm,
        hproof.imp (fun hc => hregistered.symm.trans hc) Eq.symm⟩
    | @issues asked entry _ =>
      obtain ⟨rfl, hhash, hanswered⟩ := hserves
      obtain ⟨old, startedAt, hold, hlive, rfl⟩ :=
        (h.knows i).taken entry (by rw [hp]; rfl) (hhash.trans hk)
      simp only [AuthorizationCode.answeredBy, Bool.and_eq_true, decide_eq_true_eq]
        at hanswered
      exact ⟨old, hold, hanswered.1.1.symm, .inr hanswered.2.symm⟩
    | _ => exact absurd hidle hcalled

end

section Step

variable (h : Replays confidential k events c) (hok : Undisturbed confidential k c i a)
  (hprog : accountProgram i a c.shared (c.procs i) = some (s, p))

include h hok hprog

theorem Replays.known_set
    (hpresented : Presented (⟨i, a, c.shared, c.procs i, s, p⟩ :: events) j request)
    (hk : request.codeHash = k) : (s.codes.committed k).isSome := by
  have hsome : (c.shared.codes.committed k).isSome := by
    rcases presented_cons hpresented with ⟨-, -, hsome⟩ | hold
    · exact hk ▸ hsome
    · exact h.known j request hold hk
  obtain ⟨row, hrow⟩ := Option.isSome_iff_exists.mp hsome
  obtain ⟨row', hrow', -⟩ := (h.facts.row hok.1.1.ne_fail hprog).settles hrow
  rw [hrow']
  rfl

theorem Replays.stage_set
    (hpresented : Presented (⟨i, a, c.shared, c.procs i, s, p⟩ :: events) j request)
    (hk : request.codeHash = k)
    (hown : ∀ row, s.codes.committed k = some row → request.Own confidential row) :
    ReplayStage k (c.set i s p) j := by
  have hne := hok.1.1.ne_fail
  rcases presented_cons hpresented with ⟨rfl, rfl, -⟩ | hold
  · obtain ⟨-, -, rfl⟩ := enters hprog
    unfold ReplayStage
    rw [Conf.set_procs_self]
    trivial
  have hown' : ∀ row, c.shared.codes.committed k = some row → request.Own confidential row := by
    intro row hrow
    obtain ⟨row', hrow', hsettles⟩ := (h.facts.row hne hprog).settles hrow
    exact (hsettles.own_iff request).mp (hown row' hrow')
  have hstage := h.stage j request hold hk hown'
  by_cases hji : j = i
  · subst hji
    have hserves := h.serves j request hold.asked
    cases codeMoved hprog with
    | session b hb hcall hcodes hflow =>
      exact hstage.keep h.facts hok hprog (by rw [Conf.set_procs_self]; exact hflow)
    | asked hidle =>
      rw [hidle] at hserves
      cases hserves
    | fails => exact absurd rfl hne
    | elsewhere hcall hp hp' hdone => exact (hserves.not_other hp hdone).elim
    | redeems hp hredeem =>
      exact h.facts.stage_redeems hok rfl hk (h.known j request hold hk) hprog hp hserves hown'
        hstage hredeem
  · exact hstage.keep h.facts hok hprog (by rw [Conf.set_procs_of_ne _ _ _ hji])

section

variable (hasked : AskedFor (⟨i, a, c.shared, c.procs i, s, p⟩ :: events) j request)
include hasked

theorem Replays.serves_set : ((c.set i s p).procs j).flow.Serves request := by
  rcases asked_cons hasked with ⟨rfl, rfl⟩ | hold
  · obtain ⟨-, -, rfl⟩ := enters hprog
    rw [Conf.set_procs_self]
    rfl
  · revert hold
    refine Conf.set_cases j (fun hold => ?_) fun j _ hold => ?_
    · exact serves_step hprog h.facts (h.serves i request hold) hok.1.1.ne_fail
    · exact h.serves j request hold

/-- Who has redeemed the code after the step had redeemed it before, or
takes the step and finds the row unconsumed. -/
theorem Replays.redeemed_cases (hk : request.codeHash = k) {id : Uuid} {nonce : Option String}
    (hflow : ((c.set i s p).procs j).flow = .done (.redeemed id nonce)) :
    (AskedFor events j request ∧ (c.procs j).flow = .done (.redeemed id nonce)) ∨
      j = i ∧ (∃ old, c.shared.codes.committed k = some old ∧ old.consumedAt = none) ∧
        ∃ row, s.codes.committed k = some row ∧ row.consumedAt.isSome ∧
          row.sessionId = some id := by
  rcases asked_cons hasked with ⟨rfl, rfl⟩ | hold
  · obtain ⟨-, -, rfl⟩ := enters hprog
    rw [Conf.set_procs_self] at hflow
    cases hflow
  · rcases c.procs_cases i s p j with ⟨rfl, hset⟩ | ⟨hji, hset⟩ <;> rw [hset] at hflow
    · rcases redeemed_step hprog h.facts (h.serves j request hold) hok.1.1.ne_fail hk hflow with
        hbefore | hnow
      · exact .inl ⟨hold, hbefore⟩
      · exact .inr ⟨rfl, hnow⟩
    · exact .inl ⟨hold, hflow⟩

theorem Replays.engaged_set (hk : request.codeHash = k)
    (hcalled : ((c.set i s p).procs j).session ≠ .idle ∨
      ∃ e ∈ (⟨i, a, c.shared, c.procs i, s, p⟩ : AccountEvent) :: events,
        e.proc = j ∧ e.self.session ≠ .idle) :
    ∃ row, s.codes.committed k = some row ∧ request.Own confidential row := by
  have hne := hok.1.1.ne_fail
  -- It is enough to find such a row before the step.
  suffices ∃ row, c.shared.codes.committed k = some row ∧ request.Own confidential row by
    obtain ⟨row, hrow, hown⟩ := this
    obtain ⟨row', hrow', hsettles⟩ := (h.facts.row hne hprog).settles hrow
    exact ⟨row', hrow', (hsettles.own_iff request).mpr hown⟩
  rcases asked_cons hasked with ⟨rfl, rfl⟩ | hold
  · obtain ⟨hflow, -, rfl⟩ := enters hprog
    have hidle := (h.facts.orderly i).uncalled (by rw [hflow]; rfl)
    exfalso
    rcases hcalled with hcalled | ⟨e, he, hproc, hcalled⟩
    · rw [Conf.set_procs_self] at hcalled
      exact hcalled hidle
    · rcases List.mem_cons.mp he with rfl | he
      · exact hcalled hidle
      · exact hcalled (h.unasked i hflow e he hproc)
  · by_cases hbefore : (c.procs j).session ≠ .idle ∨
        ∃ e ∈ events, e.proc = j ∧ e.self.session ≠ .idle
    · exact h.engaged j request hold hk hbefore
    · push Not at hbefore
      obtain ⟨hidle, hpast⟩ := hbefore
      rcases hcalled with hcalled | ⟨e, he, hproc, hcalled⟩
      · rcases c.procs_cases i s p j with ⟨rfl, hset⟩ | ⟨hji, hset⟩ <;> rw [hset] at hcalled
        · exact engaged_step hprog h.facts (h.serves j request hold) hok hk hidle hcalled
        · exact absurd hidle hcalled
      · rcases List.mem_cons.mp he with rfl | he
        · cases hproc
          exact absurd hidle hcalled
        · exact absurd (hpast e he hproc) hcalled

end

theorem Replays.set :
    Replays confidential k (⟨i, a, c.shared, c.procs i, s, p⟩ :: events) (c.set i s p) where
  facts := h.facts.set hok.1.1.ne_fail (hok.1.1.1 _ hprog) hprog
  serves _ _ hasked := h.serves_set hok hprog hasked
  known _ _ hpresented hk := h.known_set hok hprog hpresented hk
  redeemed j request id nonce hasked hk hflow := by
    rcases h.redeemed_cases hok hprog hasked hk hflow with ⟨hold, hbefore⟩ | ⟨-, -, hnow⟩
    · obtain ⟨row, hrow, hconsumed, hid⟩ := h.redeemed j request id nonce hold hk hbefore
      exact ⟨row, h.facts.consumed_row hok.1.1.ne_fail hprog hrow hconsumed, hconsumed, hid⟩
    · exact hnow
  unique j j' request request' id id' nonce nonce' hasked hk hflow hasked' hk' hflow' := by
    -- A row that is unconsumed before the step was redeemed by nobody.
    have hclash : ∀ {j request id nonce}, AskedFor events j request → request.codeHash = k →
        (c.procs j).flow = .done (.redeemed id nonce) →
        (∃ old, c.shared.codes.committed k = some old ∧ old.consumedAt = none) → False := by
      rintro j request id nonce hold hk hbefore ⟨old, hrow, hlive⟩
      obtain ⟨row, hrow', hconsumed, -⟩ := h.redeemed j request id nonce hold hk hbefore
      rw [hrow] at hrow'
      cases hrow'
      rw [hlive] at hconsumed
      cases hconsumed
    rcases h.redeemed_cases hok hprog hasked hk hflow with ⟨hold, hbefore⟩ | ⟨rfl, hfresh, -⟩
    · rcases h.redeemed_cases hok hprog hasked' hk' hflow' with ⟨hold', hbefore'⟩ | ⟨-, hfresh, -⟩
      · exact h.unique _ _ _ _ _ _ _ _ hold hk hbefore hold' hk' hbefore'
      · exact (hclash hold hk hbefore hfresh).elim
    · rcases h.redeemed_cases hok hprog hasked' hk' hflow' with ⟨hold', hbefore'⟩ | ⟨rfl, -⟩
      · exact (hclash hold' hk' hbefore' hfresh).elim
      · rfl
  stage _ _ hpresented hk hown := h.stage_set hok hprog hpresented hk hown
  engaged _ _ hasked hk hcalled := h.engaged_set hok hprog hasked hk hcalled
  unasked j hflow e he hproc := by
    have hflow' : (c.procs j).flow = .idle := by
      by_cases hji : j = i
      · subst hji
        rw [Conf.set_procs_self] at hflow
        exact idle_of_idle hprog hok.1.1.ne_fail hflow
      · rwa [Conf.set_procs_of_ne _ _ _ hji] at hflow
    rcases List.mem_cons.mp he with rfl | he
    · cases hproc
      exact (h.facts.orderly i).uncalled (by rw [hflow']; rfl)
    · exact h.unasked j hflow' e he hproc
  untouched e he hidle := by
    rcases List.mem_cons.mp he with rfl | he
    · exact store_of_idle hprog hidle
    · exact h.untouched e he hidle

end Step

theorem Replays.initial (cfg : JwtConfig) (deviceAuth : DeviceAuthConfig)
    (clock : OffsetDateTime) :
    Replays confidential k [] (accountInitial cfg deviceAuth clock) := by
  have hnone : ∀ {i request}, ¬ AskedFor [] i request := by
    rintro i request ⟨e, he, -⟩
    cases he
  exact {
    facts := ⟨AccountReachable.accountable ⟨cfg, deviceAuth, clock, .refl⟩,
      fun _ => ⟨fun _ => rfl, by rintro _ ⟨⟩⟩,
      fun _ => Request.knows_of_other (by rintro _ ⟨⟩) (by rintro _ ⟨⟩),
        fun _ hrow => by cases hrow⟩
    serves := fun _ _ h => (hnone h).elim
    known := fun _ _ h => (hnone h.asked).elim
    redeemed := fun _ _ _ _ h => (hnone h).elim
    unique := fun _ _ _ _ _ _ _ _ h => (hnone h).elim
    stage := fun _ _ h => (hnone h.asked).elim
    engaged := fun _ _ h => (hnone h).elim
    unasked := fun _ _ _ he => by cases he
    untouched := fun _ he => by cases he }

/-- **A code presented again ends the session it was redeemed for**, in
every run in which no step fails, no refresh crosses the revocation and
nobody looks for the code past its expiry while a request that began
before can still redeem it: once a second call by the code's own client
has returned, every session of the family is revoked. A call by another
client, or without the verifier by a public client, changes no session. -/
theorem replay_revokes_family {cfg : JwtConfig} {deviceAuth : DeviceAuthConfig}
    {clock : OffsetDateTime}
    (hrun : Traced accountProgram (Undisturbed confidential k)
      (accountInitial cfg deviceAuth clock) events c)
    {row : AuthorizationCode} (hrow : c.shared.codes.committed k = some row) :
    (∀ i j request request' id nonce, AskedFor events i request → request.codeHash = k →
      (c.procs i).flow = .done (.redeemed id nonce) → Presented events j request' →
      request'.codeHash = k → j ≠ i → request'.Own confidential row →
      (c.procs j).flow.answer.isSome →
      row.sessionId = some id ∧ ∃ root, c.shared.sessions.store id = some root ∧
        ∀ member session, c.shared.sessions.store member = some session →
          session.val.sessionFamilyId = root.val.sessionFamilyId →
          session.val.revokedAt.isSome) ∧
    ∀ j request, AskedFor events j request → request.codeHash = k →
      ¬ request.Own confidential row →
      ∀ e ∈ events, e.proc = j → e.shared'.sessions.store = e.shared.sessions.store := by
  have h : Replays confidential k events c :=
    hrun.invariant (fun _ _ _ a _ _ h hok hprog => h.set (a := a) hok hprog)
      (Replays.initial cfg deviceAuth clock)
  constructor
  · intro i j request request' id nonce hasked hk hredeemed hpresented hk' hji hown hdone
    obtain ⟨row', hrow', hconsumed, hid⟩ := h.redeemed i request id nonce hasked hk hredeemed
    obtain rfl := Option.some.inj (hrow.symm.trans hrow')
    refine ⟨hid, ?_⟩
    have hstage := h.stage j request' hpresented hk' fun row' hrow' => by
      obtain rfl := Option.some.inj (hrow.symm.trans hrow')
      exact hown
    unfold ReplayStage at hstage
    split at hstage
    · rename_i hflow
      rw [hflow] at hdone
      cases hdone
    · rename_i hflow
      rw [hflow] at hdone
      cases hdone
    · rename_i id' nonce' hflow
      exact absurd (h.unique j i request' request id' id nonce' nonce hpresented.asked hk' hflow
        hasked hk hredeemed) hji
    · rcases hstage with ⟨row', hrow', hlive, -⟩ | ⟨row', hrow', -, hnone⟩ |
        ⟨⟨row', id', family, hrow', -, hid', hpursued⟩, hended⟩
      · obtain rfl := Option.some.inj (hrow.symm.trans hrow')
        rw [hlive] at hconsumed
        cases hconsumed
      · obtain rfl := Option.some.inj (hrow.symm.trans hrow')
        rw [hnone] at hid
        cases hid
      · obtain rfl := Option.some.inj (hrow.symm.trans hrow')
        obtain rfl := Option.some.inj (hid.symm.trans hid')
        obtain ⟨root, hroot, rfl⟩ := hpursued.present
        exact ⟨root, hroot, fun member session hmember hfam =>
          hpursued.revoked hended hmember hfam⟩
    · rename_i hother
      cases hflow : (c.procs j).flow with
      | done answer => exact absurd hflow (hother answer)
      | _ =>
        rw [hflow] at hdone
        cases hdone
  · intro j request hasked hk hforeign e he hproc
    refine h.untouched e he ?_
    by_contra hcalled
    obtain ⟨row', hrow', hown⟩ := h.engaged j request hasked hk (.inr ⟨e, he, hproc, hcalled⟩)
    obtain rfl := Option.some.inj (hrow.symm.trans hrow')
    exact hforeign hown

end Calls

/-! ## Replays of one code -/

section Decidable

variable {confidential : String → Bool} {k : TokenHash} {c : AccountConf} {i : Nat}
  {a : AccountAct}

instance : Decidable (Succeeds c i a) := by
  unfold Succeeds
  refine @instDecidableAnd _ _ inferInstance ?_
  split <;> infer_instance

instance : Decidable (Registered confidential c i a) := by
  unfold Registered
  split <;> infer_instance

instance (j : Nat) : Decidable (RotatesApart c i a j) := by
  unfold RotatesApart
  split <;> infer_instance

instance (j : Nat) : Decidable (LooksInTime k c i a j) := by
  unfold LooksInTime
  split <;> infer_instance

end Decidable

theorem undisturbed_of_idle {k : TokenHash} (c : AccountConf) (i : Nat) (a : AccountAct) (j : Nat)
    (h : (c.procs j).flow = .idle) : RotatesApart c i a j ∧ LooksInTime k c i a j := by
  constructor
  · unfold RotatesApart
    split
    · trivial
    · trivial
    · intro hrevoking
      rw [h] at hrevoking
      cases hrevoking
  · unfold LooksInTime
    split
    · intro _ _ row _ _
      rw [h]
      rfl
    · trivial

theorem Flow.answer_eq_some {flow : Flow} {answer : Answer} (h : flow.answer = some answer) :
    flow = .done answer := by
  cases flow with
  | done =>
    cases h
    rfl
  | _ => cases h

/-- No client has a secret. -/
def allPublic : String → Bool := fun _ => false

def ownRedemption : Redemption := ⟨7, "challenge", "app", "callback", none, none, none⟩

/-- The code is redeemed, then its client presents it again, and another
one does. -/
def ownReplay : List (Nat × AccountAct) :=
  approveSchedule ++ redeemSchedule 3 ++ issueSchedule 3 9 4 5 ++ [(3, .go {}), (3, .go {})] ++
    [(5, .start (.redeem ownRedemption)), (5, .go {}), (5, .go {}), (5, .go {}), (5, .session {}),
      (5, .session {}), (5, .session {}), (5, .session { row := 5 }), (5, .session {}),
      (5, .session {}), (5, .session {}), (5, .session {}), (5, .go {})] ++ replaySchedule

theorem session_of_replayed_code_revoked :
    ∃ events c, Traced accountProgram (Undisturbed allPublic 7)
        (accountInitial shortSessions ⟨300, 5⟩ (instant 100)) events c ∧
      (c.procs 3).flow.answer = some (.redeemed 5 none) ∧
      (c.procs 5).flow.answer = some (.error .invalidAuthorizationCode) ∧
      ∃ session, c.shared.sessions.store 5 = some session ∧ session.val.revokedAt.isSome := by
  obtain ⟨⟨events, c⟩, hrecord, hredeemed, hrefused, ⟨e, he, hproc, hasks⟩,
      ⟨e', he', hproc', hasks', hsome⟩, row, hrow, hclient, hchallenge⟩ :
      ∃ r ∈ record accountProgram (Below 6
      (fun c i a => Succeeds c i a ∧ Registered allPublic c i a)
      (fun c i a j => RotatesApart c i a j ∧ LooksInTime 7 c i a j)) []
      (accountInitial shortSessions ⟨300, 5⟩ (instant 100)) ownReplay,
      (r.2.procs 3).flow.answer = some (.redeemed 5 none) ∧
      (r.2.procs 5).flow.answer = some (.error .invalidAuthorizationCode) ∧
      (∃ e ∈ r.1, e.proc = 3 ∧ e.act.asks = some ownRedemption) ∧
      (∃ e ∈ r.1, e.proc = 5 ∧ e.act.asks = some ownRedemption ∧
      (e.shared.codes.committed 7).isSome) ∧ ∃ row ∈ r.2.shared.codes.committed 7,
      row.clientId = "app" ∧ row.codeChallenge = "challenge" := by
    decide +kernel
  have htraced : Traced accountProgram (Undisturbed allPublic 7)
      (accountInitial shortSessions ⟨300, 5⟩ (instant 100)) events c :=
    (Traced.refl.record hrecord).of_below (Q := fun p => p.flow = .idle) undisturbed_of_idle
      fun _ _ => rfl
  obtain ⟨-, root, hroot, hfamily⟩ := (replay_revokes_family htraced hrow).1 3 5 ownRedemption
    ownRedemption 5 none ⟨e, he, hproc, hasks⟩ rfl (Flow.answer_eq_some hredeemed)
    ⟨e', he', hproc', hasks', hsome⟩ rfl (by decide) ⟨hclient.symm, .inr hchallenge.symm⟩
    (by rw [hrefused]; rfl)
  exact ⟨events, c, htraced, hredeemed, hrefused, root, hroot, hfamily 5 root hroot rfl⟩

/-- The second call begins when the code has expired, and finds it
unconsumed because the first has not committed. -/
def replayAtExpiry : List (Nat × AccountAct) :=
  approveSchedule ++ redeemSchedule 3 ++
    [(4, .tick (instant 161)), (4, .start (.redeem ownRedemption)), (4, .go {}), (4, .go {}),
      (4, .go {})] ++ issueSchedule 3 9 4 5 ++ [(3, .go {}), (3, .go {})]

/-- No step fails and nothing is refreshed. The code's client presents it
twice, with its verifier, and the session stays active. -/
theorem session_survives_replay :
    ∃ events c row session, Traced accountProgram (fun c i a =>
        (Succeeds c i a ∧ Registered allPublic c i a) ∧ ∀ j, RotatesApart c i a j)
        (accountInitial shortSessions ⟨300, 5⟩ (instant 100)) events c ∧
      Presented events 3 ownRedemption ∧ Presented events 4 ownRedemption ∧
      c.shared.codes.committed 7 = some row ∧ ownRedemption.Own allPublic row ∧
      (c.procs 3).flow.answer = some (.redeemed 5 none) ∧
      (c.procs 4).flow.answer = some (.error .invalidAuthorizationCode) ∧
      row.sessionId = some 5 ∧ c.shared.sessions.store 5 = some session ∧
      session.val.isActive c.shared.sessions.clock = true := by
  obtain ⟨⟨events, c⟩, hrecord, ⟨e, he, hproc, hasks, hsome⟩, ⟨e', he', hproc', hasks', hsome'⟩,
      hredeemed, hrefused, ⟨row, hrow, hclient, hchallenge, hid⟩, session, hsession, hactive⟩ :
      ∃ r ∈ record accountProgram (Below 6
      (fun c i a => Succeeds c i a ∧ Registered allPublic c i a) RotatesApart) []
      (accountInitial shortSessions ⟨300, 5⟩ (instant 100)) replayAtExpiry,
      (∃ e ∈ r.1, e.proc = 3 ∧ e.act.asks = some ownRedemption ∧
      (e.shared.codes.committed 7).isSome) ∧
      (∃ e ∈ r.1, e.proc = 4 ∧ e.act.asks = some ownRedemption ∧
      (e.shared.codes.committed 7).isSome) ∧ (r.2.procs 3).flow.answer = some (.redeemed 5 none) ∧
      (r.2.procs 4).flow.answer = some (.error .invalidAuthorizationCode) ∧
      (∃ row ∈ r.2.shared.codes.committed 7, row.clientId = "app" ∧
      row.codeChallenge = "challenge" ∧ row.sessionId = some 5) ∧
      ∃ session ∈ r.2.shared.sessions.store 5, session.val.isActive r.2.shared.sessions.clock := by
    decide +kernel
  have htraced := (Traced.refl.record hrecord).of_below
    (Q := fun p => p.flow = .idle) (fun c i a j h => (undisturbed_of_idle (k := 7) c i a j h).1)
    fun _ _ => rfl
  exact ⟨events, c, row, session, htraced, ⟨e, he, hproc, hasks, hsome⟩,
    ⟨e', he', hproc', hasks', hsome'⟩, hrow, ⟨hclient.symm, .inr hchallenge.symm⟩, hredeemed,
    hrefused, hid, hsession, hactive⟩

end AuthApi
