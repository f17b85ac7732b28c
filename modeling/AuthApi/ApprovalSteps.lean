import AuthApi.AccountSessions
import AuthApi.SessionRefinement

/-!
# What a step does to approvals

An approval lives in a row of `authorization_codes` or in a device entry,
until a request claims it: by consuming the row in its transaction, or by
deleting the entry. This file says once what any step of the account
system can do to approvals (`ApprovalStep`), and proves it request by
request.

The step also keeps what every request knows (`Flow.Local`): which code
it has written and not committed, which device code it has drawn. That
gives the invariant of every reachable state, `Accountable`.
-/

namespace AuthApi

open Conc Pg

/-! ## Where an approval is -/

/-- The version of a code that the request has written and not committed. -/
def Flow.writing : Flow → Option AuthorizationCode
  | .approve (.commit code) => some code
  | .redeem (.burn entry _) => some entry
  | .redeem (.checks _ entry) => some entry
  | .redeem (.issue entry) => some entry
  | .redeem (.commit entry sessionId) => some (entry.attachSession sessionId)
  | _ => none

/-- The code a request is about to consume, and when its transaction
started. -/
def Flow.consuming : Flow → Option (TokenHash × OffsetDateTime)
  | .redeem (.consume request startedAt) => some (request.codeHash, startedAt)
  | .redeem (.visit request startedAt) => some (request.codeHash, startedAt)
  | _ => none

/-- The device code a request has drawn and not stored yet. -/
def Flow.reserving : Flow → Option TokenHash
  | .device (.reserve _ hash _) => some hash
  | .device (.store _ hash _) => some hash
  | _ => none

/-- The request has nothing to do with approvals now. -/
structure Flow.Outside (flow : Flow) : Prop where
  writing : flow.writing = none
  consuming : flow.consuming = none
  reserving : flow.reserving = none
  grant : flow.grant = none

/-- Request `i` has written the code `code`, and no other row. A version
of a row that was there is a consumed one. -/
structure Writing (codes : CodeDb) (i : Nat) (code : AuthorizationCode) : Prop where
  held : codes.HeldOnly i [code.codeHash]
  slot : ∃ old, codes.slot code.codeHash = ⟨old, some (i, some code)⟩ ∧
    (old.isSome → code.consumedAt.isSome)

/-- The device code was drawn by request `i` and no entry was stored for
it. -/
structure AccountState.Reserved (s : AccountState) (i : Nat) (hash : TokenHash) : Prop where
  drawn : s.drawn hash = some i
  absent : s.devices.entry hash = none
  fresh : ∀ userId, (.device hash, userId) ∉ s.given

structure Flow.Local (i : Nat) (s : AccountState) (flow : Flow) : Prop where
  writing : ∀ code ∈ flow.writing, Writing s.codes i code
  free : flow.writing = none → s.codes.HeldOnly i []
  reserved : ∀ hash ∈ flow.reserving, s.Reserved i hash

/-- The codes that were approved are in the table, and nothing is stored
for a device code that was not drawn. -/
structure AccountState.Recorded (s : AccountState) : Prop where
  codes : ∀ hash userId, (.code hash, userId) ∈ s.given → (s.codes.committed hash).isSome
  devices : ∀ hash, s.drawn hash = none →
    s.devices.entry hash = none ∧ ∀ userId, (.device hash, userId) ∉ s.given

/-! ## What a step may do -/

/-- What a step of request `i` guarantees to the others. -/
structure ApprovalRely (i : Nat) (s s' : AccountState) : Prop where
  codes : Db.Guar i s.codes s'.codes
  drawn : ∀ hash j, s.drawn hash = some j → s'.drawn hash = some j
  devices : ∀ hash, s.drawn hash ≠ some i → s.devices.entry hash = none →
    s'.devices.entry hash = none
  given : ∀ hash userId, (.device hash, userId) ∈ s'.given →
    (.device hash, userId) ∈ s.given ∨ (s.devices.entry hash).isSome

/-- The approval can be claimed by a request at `flow`. -/
def AccountState.Claimable (s : AccountState) (flow : Flow) : Approval → Prop
  | .code hash => ∃ startedAt row, flow.consuming = some (hash, startedAt) ∧
      s.codes.committed hash = some row ∧ row.redeemable startedAt = true
  | .device hash => (s.devices.get s.now hash).isSome

/-- The step issues at most one session, for the approval the request has
claimed. -/
def Issues (s : AccountState) (p : Request) (s' : AccountState) : Prop :=
  s'.issued = s.issued ∨ ∃ approval userId sessionId,
    s'.issued = ⟨approval, userId, sessionId⟩ :: s.issued ∧
      p.flow.grant = some (approval, userId) ∧ p.session.outcome = none

/-- The approval the request holds after the step was claimed in it, or
before. -/
def GrantClaimed (s : AccountState) (p p' : Request) : Prop :=
  ∀ approval userId, p'.flow.grant = some (approval, userId) → p'.session.outcome = none →
    (p.flow.grant = some (approval, userId) ∧ p.session.outcome = none) ∨
      s.Claimable p.flow approval

structure ApprovalStep (i : Nat) (s : AccountState) (p : Request) (s' : AccountState)
    (p' : Request) : Prop where
  rely : ApprovalRely i s s'
  locally : p'.flow.Local i s'
  recorded : s.Recorded → s'.Recorded
  given : s.given ⊆ s'.given
  rows : ∀ hash row, s.codes.committed hash = some row →
    ∃ row', s'.codes.committed hash = some row' ∧ (row' = row ∨ row'.consumedAt.isSome)
  devices : ∀ hash, s'.devices.entry hash = s.devices.entry hash ∨
    s'.devices.entry hash = none ∨ (s.devices.get s.now hash).isSome ∨
    p.flow.reserving = some hash
  consuming : ∀ hash t, p'.flow.consuming = some (hash, t) →
    p.flow.consuming = some (hash, t) ∨ t = s.sessions.now
  grant : GrantClaimed s p p'
  issues : Issues s p s'

section Steps

variable {i j : Nat} {inp : Input} {s s' : AccountState} {p p' : Request} {flow : Flow}
  {codes codes' : CodeDb} {code : AuthorizationCode} {hash : TokenHash}

theorem Flow.Outside.local_iff (h : flow.Outside) :
    flow.Local i s ↔ s.codes.HeldOnly i [] := by
  constructor
  · exact fun hl => hl.free h.writing
  · refine fun hheld => ⟨fun code hc => ?_, fun _ => hheld, fun hash hh => ?_⟩
    · rw [h.writing] at hc
      cases hc
    · rw [h.reserving] at hh
      cases hh

theorem Flow.Local.stable (h : flow.Local j s) (hr : ApprovalRely i s s') (hne : j ≠ i) :
    flow.Local j s' where
  writing code hcode := by
    obtain ⟨hheld, old, hslot, hold⟩ := h.writing code hcode
    exact ⟨hheld.guar hr.codes hne, old, Db.guar_others hr.codes hne hslot rfl, hold⟩
  free hnone := (h.free hnone).guar hr.codes hne
  reserved hash hhash := by
    have hres := h.reserved hash hhash
    have hother : s.drawn hash ≠ some i := by
      rw [hres.drawn]
      exact fun he => hne (Option.some.inj he)
    refine ⟨hr.drawn _ _ hres.drawn, hr.devices _ hother hres.absent, fun userId hmem => ?_⟩
    rcases hr.given hash userId hmem with hgiven | hsome
    · exact hres.fresh userId hgiven
    · rw [hres.absent] at hsome
      cases hsome

/-- A step that touches no device entry and no record: what it does to
the codes is left to the caller. -/
theorem ApprovalStep.of_codes (hguar : Db.Guar i s.codes s'.codes)
    (hrows : ∀ hash row, s.codes.committed hash = some row →
      ∃ row', s'.codes.committed hash = some row' ∧ (row' = row ∨ row'.consumedAt.isSome))
    (hlocal : p'.flow.Local i s') (hdevices : s'.devices = s.devices)
    (hgiven : s'.given = s.given) (hissues : Issues s p s')
    (hdrawn : ∀ hash j, s.drawn hash = some j → s'.drawn hash = some j)
    (hconsuming : ∀ hash t, p'.flow.consuming = some (hash, t) →
      p.flow.consuming = some (hash, t) ∨ t = s.sessions.now)
    (hgrant : GrantClaimed s p p') :
    ApprovalStep i s p s' p' where
  rely := ⟨hguar, hdrawn, fun _ _ h => hdevices ▸ h,
    fun _ _ h => .inl (hgiven ▸ h)⟩
  locally := hlocal
  recorded h := by
    refine ⟨fun hash userId hmem => ?_, fun hash hnone => ?_⟩
    · obtain ⟨row, hrow⟩ := Option.isSome_iff_exists.mp (h.codes hash userId (hgiven ▸ hmem))
      obtain ⟨row', hrow', -⟩ := hrows hash row hrow
      simp [hrow']
    · rw [hdevices, hgiven]
      refine h.devices hash ?_
      by_contra hsome
      obtain ⟨j, hj⟩ := Option.ne_none_iff_exists'.mp hsome
      rw [hdrawn hash j hj] at hnone
      cases hnone
  given := hgiven ▸ List.Subset.refl _
  rows := hrows
  devices hash := .inl (by rw [hdevices])
  consuming := hconsuming
  grant := hgrant
  issues := hissues

theorem ApprovalStep.of_same (hheld : s.codes.HeldOnly i []) (hcodes : s'.codes = s.codes)
    (hdevices : s'.devices = s.devices) (hgiven : s'.given = s.given)
    (hissued : s'.issued = s.issued) (hdrawn : s'.drawn = s.drawn)
    (hwriting : p'.flow.writing = none) (hconsuming : p'.flow.consuming = none)
    (hreserved : ∀ hash ∈ p'.flow.reserving, s.Reserved i hash) (hgrant : GrantClaimed s p p') :
    ApprovalStep i s p s' p' := by
  refine .of_codes (hcodes ▸ Db.Quiet.refl.guar)
    (fun hash row hrow => ⟨row, hcodes ▸ hrow, .inl rfl⟩) ?_ hdevices hgiven (.inl hissued)
    (fun _ _ h => hdrawn ▸ h) (fun _ _ h => by rw [hconsuming] at h; cases h) hgrant
  refine ⟨fun code hcode => ?_, fun _ => hcodes ▸ hheld, fun hash hhash => ?_⟩
  · rw [hwriting] at hcode
    cases hcode
  · have hres := hreserved hash hhash
    exact ⟨hdrawn ▸ hres.drawn, hdevices ▸ hres.absent, hgiven ▸ hres.fresh⟩

/-- The step leaves codes, device entries and records alone. -/
structure Aside (s s' : AccountState) : Prop where
  codes : s'.codes = s.codes
  devices : s'.devices = s.devices
  given : s'.given = s.given
  issued : s'.issued = s.issued
  drawn : ∀ hash j, s.drawn hash = some j → s'.drawn hash = some j

theorem Aside.refl : Aside s s := ⟨rfl, rfl, rfl, rfl, fun _ _ h => h⟩

theorem ApprovalStep.of_outside (hl : p.flow.Local i s) (hp : p.flow.Outside)
    (hp' : p'.flow.Outside) (h : Aside s s') : ApprovalStep i s p s' p' :=
  .of_codes (h.codes ▸ Db.Quiet.refl.guar)
    (fun hash row hrow => ⟨row, h.codes ▸ hrow, .inl rfl⟩)
    (hp'.local_iff.mpr (h.codes ▸ hp.local_iff.mp hl)) h.devices h.given (.inl h.issued) h.drawn
    (fun hash t h => by rw [hp'.consuming] at h; cases h)
    (fun approval userId h => by rw [hp'.grant] at h; cases h)

theorem rows_of_quiet (hq : Db.Quiet i codes codes') (hash : TokenHash) (row : AuthorizationCode)
    (h : codes.committed hash = some row) :
    ∃ row', codes'.committed hash = some row' ∧ (row' = row ∨ row'.consumedAt.isSome) :=
  ⟨row, (hq.committed_eq hash).trans h, .inl rfl⟩

theorem Writing.commit (h : Writing codes i code) :
    (codes.commit i).committed
      = Function.update codes.committed code.codeHash (some code) := by
  obtain ⟨hheld, old, hslot, -⟩ := h
  exact hheld.commit_one hslot

theorem Writing.committed_cases (h : Writing codes i code) (k : TokenHash) :
    (codes.commit i).committed k = codes.committed k ∨
      k = code.codeHash ∧ (codes.commit i).committed k = some code := by
  rw [h.commit]
  by_cases hk : k = code.codeHash
  · exact .inr ⟨hk, hk ▸ Function.update_self ..⟩
  · exact .inl (Function.update_of_ne hk ..)

theorem Writing.commit_rows (h : Writing codes i code) (hash : TokenHash) (row : AuthorizationCode)
    (hrow : codes.committed hash = some row) :
    ∃ row', (codes.commit i).committed hash = some row' ∧
      (row' = row ∨ row'.consumedAt.isSome) := by
  rcases h.committed_cases hash with hsame | ⟨rfl, hcode⟩
  · exact ⟨row, hsame.trans hrow, .inl rfl⟩
  · obtain ⟨-, old, hslot, hold⟩ := h
    refine ⟨code, hcode, .inr (hold ?_)⟩
    rw [Db.committed, hslot] at hrow
    simp [show old = some row from hrow]

theorem Flow.Outside.local_of (h : flow.Outside) (hheld : s.codes.HeldOnly i []) :
    flow.Local i s :=
  h.local_iff.mpr hheld

theorem done_outside (answer : Answer) : (Flow.done answer).Outside := ⟨rfl, rfl, rfl, rfl⟩

theorem Flow.local_of_writing (hcode : flow.writing = some code) (hres : flow.reserving = none)
    (hw : Writing s.codes i code) : flow.Local i s where
  writing code' h := by
    rw [hcode] at h
    cases h
    exact hw
  free h := by
    rw [hcode] at h
    cases h
  reserved hash h := by
    rw [hres] at h
    cases h

theorem ApprovalStep.of_quiet (hq : Db.Quiet i s.codes codes)
    (hlocal : p'.flow.Local i { s with codes := codes })
    (hconsuming : ∀ hash t, p'.flow.consuming = some (hash, t) → p.flow.consuming = some (hash, t) ∨
      t = s.sessions.now)
    (hgrant : GrantClaimed s p p') :
    ApprovalStep i s p { s with codes := codes } p' :=
  .of_codes hq.guar (rows_of_quiet hq) hlocal rfl rfl (.inl rfl) (fun _ _ h => h) hconsuming hgrant

theorem ApprovalStep.of_rollback (hq : Db.Quiet i s.codes codes) (hp' : p'.flow.Outside) :
    ApprovalStep i s p { s with codes := codes.rollback i } p' :=
  .of_quiet (hq.trans Db.quiet_rollback) (hp'.local_of Db.heldOnly_rollback)
    (fun hash t h => by rw [hp'.consuming] at h; cases h)
    (fun approval userId h => by rw [hp'.grant] at h; cases h)

theorem ApprovalStep.of_commit {answer : Answer} (hw : Writing s.codes i code) :
    ApprovalStep i s p { s with codes := s.codes.commit i } (p.answer answer) :=
  .of_codes Db.guar_commit hw.commit_rows ((done_outside _).local_of Db.heldOnly_commit)
    rfl rfl (.inl rfl) (fun _ _ h => h) (fun _ _ h => by cases h) (fun _ _ h => by cases h)

/-! ## Authorization codes -/

theorem ApproveStepped.approvals {pc : ApprovePc} (hp : p.flow = .approve pc)
    (hl : p.flow.Local i s) (h : ApproveStepped i inp s p pc s' p') : ApprovalStep i s p s' p' := by
  cases h with
  | refused => exact .of_outside hl (hp ▸ ⟨rfl, rfl, rfl, rfl⟩) (done_outside _) .refl
  | checked => exact .of_outside hl (hp ▸ ⟨rfl, rfl, rfl, rfl⟩) ⟨rfl, rfl, rfl, rfl⟩ .refl
  | clashed hfresh =>
    have hquiet : Db.Quiet i s.codes (s.codes.rollback i) := Db.quiet_rollback
    exact .of_codes hquiet.guar (rows_of_quiet hquiet)
      ((done_outside _).local_of Db.heldOnly_rollback) rfl rfl (.inl rfl) (drawn_grows hfresh)
      (fun _ _ h => by cases h) (fun _ _ h => by cases h)
  | inserted hfresh hins =>
    have hheld : s.codes.HeldOnly i [] := hl.free (by rw [hp]; rfl)
    have hquiet := Db.quiet_insert hins
    obtain ⟨-, hslot, -⟩ := Db.insert_eq_some hins
    refine .of_codes hquiet.guar (rows_of_quiet hquiet) ⟨?_, (by rintro ⟨⟩), (by rintro _ ⟨⟩)⟩
      rfl rfl (.inl rfl) (drawn_grows hfresh) (fun _ _ h => by cases h) (fun _ _ h => by cases h)
    rintro _ ⟨⟩
    exact ⟨hheld.insert hins, none, hslot, fun h => by cases h⟩
  | @committed code =>
    have hw : Writing s.codes i code := hl.writing code (by rw [hp]; rfl)
    exact {
      rely := ⟨Db.guar_commit, fun _ _ h => h, fun _ _ h => h, fun hash userId hmem => by
        rcases List.mem_cons.mp hmem with heq | hmem
        · cases heq
        · exact .inl hmem⟩
      locally := (done_outside _).local_of Db.heldOnly_commit
      recorded := fun hrec => by
        refine ⟨fun hash userId hmem => ?_, fun hash hnone => ?_⟩
        · show ((s.codes.commit i).committed hash).isSome
          rw [hw.commit]
          by_cases hne : hash = code.codeHash
          · simp [hne]
          · rcases List.mem_cons.mp hmem with heq | hmem
            · cases heq
              exact absurd rfl hne
            · rw [Function.update_of_ne hne]
              exact hrec.codes hash userId hmem
        · obtain ⟨habsent, hfresh⟩ := hrec.devices hash hnone
          exact ⟨habsent, fun userId hmem => hfresh userId (by simpa using hmem)⟩
      given := List.subset_cons_self ..
      rows := hw.commit_rows
      devices := fun _ => .inl rfl
      consuming := fun _ _ h => by cases h
      grant := fun _ _ h => by cases h
      issues := .inl rfl }

/-- The `UPDATE` of `consume`: it returns a row only if that row was there
to be redeemed, and has then written it. -/
theorem Writing.of_consume {startedAt : OffsetDateTime} {entry : AuthorizationCode}
    (hheld : codes.HeldOnly i [])
    (h : codes.visit i hash (·.redeemable startedAt) (fun code => some (code.consume startedAt)) =
      some (.updated entry, codes')) :
    entry.codeHash = hash ∧ Writing codes' i entry ∧
      ∃ row, codes.committed hash = some row ∧ row.redeemable startedAt = true := by
  have hf : ∀ r r' : AuthorizationCode, some (r.consume startedAt) = some r' →
      r'.codeHash = r.codeHash ∧ r'.redeemable startedAt = false := by
    rintro r _ ⟨⟩
    exact ⟨rfl, r.consume_redeemable startedAt⟩
  rcases hheld.updating.visit_cases hf h with ⟨hv, -, -⟩ | ⟨row, hrow, hother, hcases⟩
  · cases hv
  · rcases hcases with ⟨-, hv, -⟩ | ⟨-, -, hv, -⟩ | ⟨row', hred, hrow', hv, hslot⟩
    · cases hv
    · cases hv
    · rcases hv with hv | hv <;> cases hv
      have hkey : entry.codeHash = hash := by
        rw [← Option.some.inj hrow']
        exact (Db.key_of_committed hrow : row.codeHash = hash)
      refine ⟨hkey, ⟨fun k hk => ?_, some row, hkey ▸ hslot, fun _ => ?_⟩, row, hrow, hred⟩
      · by_cases hne : k = hash
        · simp [hne, hkey]
        · rw [Db.holder, hother k hne] at hk
          cases hheld k hk
      · rw [← Option.some.inj hrow']
        rfl

theorem RedeemStepped.approvals {pc : RedeemPc} (hp : p.flow = .redeem pc)
    (hl : p.flow.Local i s) (h : RedeemStepped i inp s p pc s' p') : ApprovalStep i s p s' p' := by
  cases h with
  | began =>
    refine .of_quiet .refl ⟨(by rintro _ ⟨⟩), fun _ => hl.free (by rw [hp]; rfl),
      (by rintro _ ⟨⟩)⟩ ?_ (fun _ _ h => by cases h)
    rintro _ _ ⟨⟩
    exact .inr rfl
  | found =>
    refine .of_quiet .refl ⟨(by rintro _ ⟨⟩), fun _ => hl.free (by rw [hp]; rfl),
      (by rintro _ ⟨⟩)⟩ ?_ (fun _ _ h => by cases h)
    rintro _ _ ⟨⟩
    exact .inl (by rw [hp]; rfl)
  | missed => exact .of_rollback .refl ⟨rfl, rfl, rfl, rfl⟩
  | took hvisit =>
    have hheld : s.codes.HeldOnly i [] := hl.free (by rw [hp]; rfl)
    obtain ⟨hkey, hw, row, hrow, hred⟩ := Writing.of_consume hheld hvisit
    split
    · refine .of_quiet (Db.quiet_visit hvisit) (Flow.local_of_writing rfl rfl hw)
        (fun _ _ h => by cases h) ?_
      rintro _ _ ⟨⟩ -
      exact .inr ⟨_, row, by rw [hp, hkey]; rfl, hkey ▸ hrow, hred⟩
    · exact .of_quiet (Db.quiet_visit hvisit) (Flow.local_of_writing rfl rfl hw)
        (fun _ _ h => by cases h) (fun _ _ h => by cases h)
  | lost hvisit => exact .of_rollback (Db.quiet_visit hvisit) ⟨rfl, rfl, rfl, rfl⟩
  | revokes => exact .of_outside hl (hp ▸ ⟨rfl, rfl, rfl, rfl⟩) ⟨rfl, rfl, rfl, rfl⟩ .refl
  | spares | revoked => exact .of_outside hl (hp ▸ ⟨rfl, rfl, rfl, rfl⟩) (done_outside _) .refl
  | @burned entry => exact .of_commit (hl.writing entry (by rw [hp]; rfl))
  | @refused _ entry =>
    exact .of_quiet .refl (Flow.local_of_writing rfl rfl (hl.writing entry (by rw [hp]; rfl)))
      (fun _ _ h => by cases h) (fun _ _ h => by cases h)
  | @issues _ entry hidle =>
    refine .of_quiet .refl (Flow.local_of_writing rfl rfl (hl.writing entry (by rw [hp]; rfl)))
      (fun _ _ h => by cases h) ?_
    rintro _ _ ⟨⟩ -
    exact .inl ⟨by rw [hp]; rfl, by rw [hidle]; rfl⟩
  | @attached entry sessionId =>
    obtain ⟨hheld, old, hslot, hold⟩ := hl.writing entry (by rw [hp]; rfl)
    have hholder : s.codes.holder (entry.attachSession sessionId).codeHash = some i := by
      show s.codes.holder entry.codeHash = some i
      rw [Db.holder, hslot]
      rfl
    refine .of_quiet Db.quiet_write (Flow.local_of_writing rfl rfl
      ⟨hheld.write, old, (Db.write_eq hholder).trans ?_, hold⟩) (fun _ _ h => by cases h)
      (fun _ _ h => by cases h)
    show (s.codes.slot entry.codeHash).write i _ = _
    rw [hslot]
    rfl
  | failed => exact .of_rollback .refl (done_outside _)
  | @committed entry sessionId =>
    exact .of_commit (hl.writing (entry.attachSession sessionId) (by rw [hp]; rfl))

/-! ## Device requests -/

theorem ApprovalStep.of_del (hheld : s.codes.HeldOnly i []) (hwriting : p'.flow.writing = none)
    (hconsuming : p'.flow.consuming = none) (hreserving : p'.flow.reserving = none)
    (hgrant : ∀ approval userId, p'.flow.grant = some (approval, userId) →
      s.Claimable p.flow approval) :
    ApprovalStep i s p { s with devices := s.devices.del hash } p' := by
  have hdel : ∀ hash', (s.devices.del hash).entry hash' = s.devices.entry hash' ∨
      (s.devices.del hash).entry hash' = none := by
    intro hash'
    by_cases hne : hash' = hash
    · exact .inr (hne ▸ Redis.Store.del_entry_self)
    · exact .inl (Redis.Store.del_entry_of_ne hne)
  have habsent : ∀ hash', s.devices.entry hash' = none →
      (s.devices.del hash).entry hash' = none := by
    intro hash' hnone
    rcases hdel hash' with heq | heq
    · exact heq.trans hnone
    · exact heq
  exact {
    rely := ⟨Db.Quiet.refl.guar, fun _ _ h => h, fun hash' _ => habsent hash',
      fun _ _ h => .inl h⟩
    locally := by
      refine ⟨fun code h => ?_, fun _ => hheld, fun hash' h => ?_⟩
      · rw [hwriting] at h
        cases h
      · rw [hreserving] at h
        cases h
    recorded := fun h =>
      ⟨h.codes, fun hash' hnone => (h.devices hash' hnone).imp_left (habsent hash')⟩
    given := List.Subset.refl _
    rows := rows_of_quiet (i := i) .refl
    devices := fun hash' => (hdel hash').imp_right .inl
    consuming := fun _ _ h => by
      rw [hconsuming] at h
      cases h
    grant := fun approval userId h _ => .inr (hgrant approval userId h)
    issues := .inl rfl }

theorem store_approvals {entry : DeviceAuthState} {ttl : Nat} {answer : Answer}
    (hl : p.flow.Local i s) (hheld : s.codes.HeldOnly i [])
    (hreserving : p.flow.reserving = some hash) :
    ApprovalStep i s p { s with devices := s.devices.setEx s.now hash entry ttl }
      (p.answer answer) := by
  have hne : ∀ hash', s.drawn hash' ≠ some i → hash' ≠ hash := by
    rintro hash' hother rfl
    exact hother (hl.reserved hash' hreserving).drawn
  exact {
    rely := ⟨Db.Quiet.refl.guar, fun _ _ h => h, fun hash' hother hnone =>
      (Redis.Store.setEx_entry_of_ne (hne hash' hother)).trans hnone, fun _ _ h => .inl h⟩
    locally := (done_outside _).local_of hheld
    recorded := fun h => ⟨h.codes, fun hash' hnone => (h.devices hash' hnone).imp_left
      (Redis.Store.setEx_entry_of_ne (hne hash' (by rw [hnone]; exact nofun))).trans⟩
    given := List.Subset.refl _
    rows := rows_of_quiet (i := i) .refl
    devices := fun hash' => by
      by_cases heq : hash' = hash
      · exact .inr (.inr (.inr (heq ▸ hreserving)))
      · exact .inl (Redis.Store.setEx_entry_of_ne heq)
    consuming := fun _ _ h => by cases h
    grant := fun _ _ h => by cases h
    issues := .inl rfl }

theorem swap_approvals {decision : DeviceDecision} {raw updated : DeviceAuthState}
    (hheld : s.codes.HeldOnly i []) (hget : s.devices.get s.now hash = some raw) :
    ApprovalStep i s p
      { s with
        devices := s.devices.alter s.now hash fun _ => some updated
        given := if decision.status = .authorized then
          (.device hash, decision.userId) :: s.given else s.given }
      (p.answer .decided) := by
  have hentry : (s.devices.entry hash).isSome := by
    obtain ⟨deadline, heq, -⟩ := Redis.Store.get_eq_some.mp hget
    simp [heq]
  have hne : ∀ hash', s.devices.entry hash' = none → hash' ≠ hash := by
    rintro _ hnone rfl
    rw [hnone] at hentry
    cases hentry
  have halter : ∀ hash', hash' ≠ hash →
      (s.devices.alter s.now hash fun _ => some updated).entry hash' = s.devices.entry hash' :=
    fun _ => Redis.Store.alter_entry_of_ne
  have hgiven : ∀ pair, pair ∈ (if decision.status = .authorized then
      (.device hash, decision.userId) :: s.given else s.given) →
      pair ∈ s.given ∨ pair = (.device hash, decision.userId) := by
    intro pair hmem
    split at hmem
    · exact (List.mem_cons.mp hmem).symm
    · exact .inl hmem
  exact {
    rely := ⟨Db.Quiet.refl.guar, fun _ _ h => h, fun hash' _ hnone =>
      (halter hash' (hne hash' hnone)).trans hnone, fun hash' userId hmem => by
        rcases hgiven _ hmem with hold | heq
        · exact .inl hold
        · cases heq
          exact .inr hentry⟩
    locally := (done_outside _).local_of hheld
    recorded := fun h => by
      refine ⟨fun hash' userId hmem => ?_, fun hash' hnone => ?_⟩
      · rcases hgiven _ hmem with hold | heq
        · exact h.codes hash' userId hold
        · cases heq
      · obtain ⟨habsent, hfresh⟩ := h.devices hash' hnone
        refine ⟨(halter hash' (hne hash' habsent)).trans habsent, fun userId hmem => ?_⟩
        rcases hgiven _ hmem with hold | heq
        · exact hfresh userId hold
        · cases heq
          exact hne hash habsent rfl
    given := by
      show s.given ⊆ if _ then _ else _
      split
      · exact List.subset_cons_self ..
      · exact List.Subset.refl _
    rows := rows_of_quiet (i := i) .refl
    devices := fun hash' => by
      by_cases heq : hash' = hash
      · exact .inr (.inr (.inl (by rw [heq, hget]; rfl)))
      · exact .inl (halter hash' heq)
    consuming := fun _ _ h => by cases h
    grant := fun _ _ h => by cases h
    issues := .inl rfl }

theorem DeviceStepped.approvals {pc : DevicePc} (hrec : s.Recorded) (hp : p.flow = .device pc)
    (hl : p.flow.Local i s) (h : DeviceStepped i inp s p pc s' p') : ApprovalStep i s p s' p' := by
  have hheld : s.codes.HeldOnly i [] := hl.free (by rw [hp]; cases pc <;> rfl)
  cases h with
  | drawn hdraw =>
    obtain ⟨hfresh, rfl⟩ := s.draw_eq_some hdraw
    obtain ⟨habsent, hgiven⟩ := hrec.devices _ hfresh
    refine .of_codes Db.Quiet.refl.guar (rows_of_quiet (i := i) .refl)
      ⟨(by rintro _ ⟨⟩), fun _ => hheld, ?_⟩ rfl rfl (.inl rfl) (drawn_grows hfresh)
      (fun _ _ h => by cases h) (fun _ _ h => by cases h)
    rintro _ ⟨⟩
    exact ⟨Function.update_self .., habsent, hgiven⟩
  | taken | reserved =>
    have hres := hl.reserved _ (by rw [hp]; rfl)
    exact .of_same hheld rfl rfl rfl rfl rfl rfl rfl (by rintro _ ⟨⟩; exact hres)
      (fun _ _ h => by cases h)
  | stored => exact store_approvals hl hheld (by rw [hp]; rfl)
  | decided hget => exact swap_approvals hheld hget
  | forgot => exact .of_del hheld rfl rfl rfl (fun _ _ h => by cases h)
  | claimed hlive =>
    refine .of_del hheld rfl rfl rfl ?_
    rintro _ _ ⟨⟩
    exact hlive
  | @issuing request _ userId _ _ hidle hs =>
    have hgrant : ∀ approval user,
        (Flow.device (.issue request.deviceHash userId)).grant = some (approval, user) →
        p.flow.grant = some (approval, user) ∧ p.session.outcome = none := by
      rintro _ _ ⟨⟩
      exact ⟨by rw [hp]; rfl, by rw [hidle]; rfl⟩
    rcases hs with rfl | rfl <;>
      exact .of_same hheld rfl rfl rfl rfl rfl rfl rfl (by rintro _ ⟨⟩)
        fun approval user h _ => .inl (hgrant approval user h)
  | _ =>
    exact .of_same hheld rfl rfl rfl rfl rfl rfl rfl (by rintro _ ⟨⟩) (fun _ _ h => by cases h)

/-! ## Every step -/

theorem signIn_outside (pc : SignInPc) : (Flow.signIn pc).Outside := by
  cases pc <;> exact ⟨rfl, rfl, rfl, rfl⟩

theorem complete_outside (pc : CompletePc) : (Flow.complete pc).Outside := by
  cases pc <;> exact ⟨rfl, rfl, rfl, rfl⟩

theorem password_outside (pc : PasswordPc) : (Flow.password pc).Outside := by
  cases pc <;> exact ⟨rfl, rfl, rfl, rfl⟩

theorem SignInStepped.aside {pc : SignInPc} (h : SignInStepped i inp s p pc s' p') :
    Aside s s' ∧ p'.flow.Outside := by
  cases h with
  | drew hfresh => exact ⟨⟨rfl, rfl, rfl, rfl, drawn_grows hfresh⟩, signIn_outside _⟩
  | ended => exact ⟨.refl, done_outside _⟩
  | _ => exact ⟨⟨rfl, rfl, rfl, rfl, fun _ _ h => h⟩, signIn_outside _⟩

theorem CompleteStepped.aside {pc : CompletePc} (h : CompleteStepped inp s p pc s' p') :
    Aside s s' ∧ p'.flow.Outside := by
  cases h with
  | unlisted =>
    exact ⟨by split <;> exact ⟨rfl, rfl, rfl, rfl, fun _ _ h => h⟩, complete_outside _⟩
  | ended => exact ⟨.refl, done_outside _⟩
  | _ => exact ⟨⟨rfl, rfl, rfl, rfl, fun _ _ h => h⟩, complete_outside _⟩

theorem PasswordStepped.aside {pc : PasswordPc} (h : PasswordStepped inp s p pc s' p') :
    Aside s s' ∧ p'.flow.Outside := by
  cases h with
  | changed | read => exact ⟨.refl, password_outside _⟩
  | deleted =>
    exact ⟨by split <;> exact ⟨rfl, rfl, rfl, rfl, fun _ _ h => h⟩, password_outside _⟩
  | cleared => exact ⟨by split <;> exact ⟨rfl, rfl, rfl, rfl, fun _ _ h => h⟩, done_outside _⟩
  | _ => exact ⟨.refl, done_outside _⟩

theorem enter_aside {call : AccountCall} (h : call.enter i s p = some (s', p')) :
    Aside s s' ∧ p'.flow.Outside := by
  refine ⟨(entered h).1 ▸ .refl, ?_⟩
  cases call with
  | session =>
    obtain ⟨-, -, rfl, rfl⟩ := AccountState.call_eq_some h
    exact ⟨rfl, rfl, rfl, rfl⟩
  | resetPassword | changePassword =>
    obtain ⟨-, -, rfl, rfl⟩ := AccountState.call_eq_some h
    exact password_outside _
  | _ =>
    cases h
    exact ⟨rfl, rfl, rfl, rfl⟩

theorem record_fields (pc : Pc) :
    let s' := (s.recordChange p pc).recordIssue p pc
    s'.codes = s.codes ∧ s'.devices = s.devices ∧ s'.given = s.given ∧ s'.drawn = s.drawn := by
  simp only [AccountState.recordIssue, AccountState.recordChange]
  (repeat' split) <;> exact ⟨rfl, rfl, rfl, rfl⟩

theorem recordChange_issued (pc : Pc) : (s.recordChange p pc).issued = s.issued := by
  unfold AccountState.recordChange
  (repeat' split) <;> rfl

theorem record_issues (pc : Pc) : Issues s p ((s.recordChange p pc).recordIssue p pc) := by
  have hchange := recordChange_issued (s := s) (p := p) pc
  unfold AccountState.recordIssue
  split
  · rename_i sessionId hsession
    cases hgrant : p.flow.grant with
    | none => exact .inl hchange
    | some pair => exact .inr ⟨pair.1, pair.2, sessionId, by simp [hchange], hgrant,
        by rw [hsession]; rfl⟩
  · exact .inl hchange

/-- A step of the session code leaves the request where it is in its own.
It issues the session of an approval only when it ends. -/
theorem sessionStep_approvals {a : Act} (hl : p.flow.Local i s)
    (h : sessionStep i a s p = some (s', p')) : ApprovalStep i s p s' p' := by
  obtain ⟨sessions, pc, hstep, rfl, rfl⟩ := sessionStepped h
  have hissues := record_issues (s := { s with sessions := sessions }) (p := p) pc
  obtain ⟨hcodes, hdevices, hgiven, hdrawn⟩ :=
    record_fields (s := { s with sessions := sessions }) (p := p) pc
  generalize (({ s with sessions := sessions } : AccountState).recordChange p pc).recordIssue
    p pc = s₁ at hissues hcodes hdevices hgiven hdrawn
  have hlocal : p.flow.Local i s₁ := by
    refine ⟨fun code hcode => ?_, fun hnone => ?_, fun hash hhash => ?_⟩
    · exact hcodes ▸ hl.writing code hcode
    · exact hcodes ▸ hl.free hnone
    · have hres := hl.reserved hash hhash
      exact ⟨hdrawn ▸ hres.drawn, hdevices ▸ hres.absent, hgiven ▸ hres.fresh⟩
  refine .of_codes (hcodes ▸ Db.Quiet.refl.guar)
    (fun hash row hrow => ⟨row, hcodes ▸ hrow, .inl rfl⟩) hlocal hdevices hgiven hissues
    (fun _ _ h => hdrawn ▸ h) (fun _ _ h => .inl h) ?_
  intro approval userId hgrant hnone
  refine .inl ⟨hgrant, ?_⟩
  by_contra hsome
  obtain ⟨outcome, hout⟩ := Option.ne_none_iff_exists'.mp hsome
  have heq : pc = p.session := Pc.outcome_step hstep (by simp [hout])
  exact hsome (heq ▸ hnone)

theorem accountProgram_approvals {a : AccountAct} (hrec : s.Recorded) (hl : p.flow.Local i s)
    (h : accountProgram i a s p = some (s', p')) : ApprovalStep i s p s' p' := by
  cases accountMoved h with
  | session _ h => exact sessionStep_approvals hl h
  | start hidle h =>
    obtain ⟨haside, hout⟩ := enter_aside h
    exact .of_outside hl (hidle ▸ ⟨rfl, rfl, rfl, rfl⟩) hout haside
  | approve hp h => exact h.approvals hp hl
  | redeem hp h => exact h.approvals hp hl
  | device hp h => exact h.approvals hrec hp hl
  | signIn hp h => exact .of_outside hl (hp ▸ signIn_outside _) h.aside.2 h.aside.1
  | complete hp h => exact .of_outside hl (hp ▸ complete_outside _) h.aside.2 h.aside.1
  | password hp h => exact .of_outside hl (hp ▸ password_outside _) h.aside.2 h.aside.1
  | failed | gaveUp =>
    have hquiet : Db.Quiet i s.codes (s.codes.rollback i) := Db.quiet_rollback
    exact .of_codes hquiet.guar (rows_of_quiet hquiet)
      ((done_outside _).local_of Db.heldOnly_rollback) rfl rfl (.inl rfl) (fun _ _ h => h)
      (fun _ _ h => by cases h) (fun _ _ h => by cases h)

end Steps

/-! ## Runs -/

/-- What holds in every state: the records are right, and every request
knows what its program point says. -/
structure Accountable (c : AccountConf) : Prop where
  sessions : Coherent (sessionsOf c)
  recorded : c.shared.Recorded
  locally : ∀ i, (c.procs i).flow.Local i c.shared

section Runs

variable {c : AccountConf} {i : Nat} {a : AccountAct} {s : AccountState} {p : Request}

section

variable (h : Accountable c) (hprog : accountProgram i a c.shared (c.procs i) = some (s, p))
include h hprog

theorem Accountable.approvals : ApprovalStep i c.shared (c.procs i) s p :=
  accountProgram_approvals h.recorded (h.locally i) hprog

theorem Accountable.set : Accountable (c.set i s p) := by
  have hstep := h.approvals hprog
  refine ⟨?_, hstep.recorded h.recorded, fun j => ?_⟩
  · rcases sessionsOf_step hprog with heq | ⟨b, hb⟩
    · exact heq ▸ h.sessions
    · rw [sessionsOf_set]
      exact h.sessions.set hb
  · refine Conf.set_cases j ?_ fun j hji => ?_
    · exact hstep.locally
    · exact (h.locally j).stable hstep.rely hji

theorem Accountable.clock_le : c.shared.sessions.clock ≤ s.sessions.clock := by
  cases accountProgram_part hprog with
  | same hs => exact hs ▸ le_rfl
  | stepped b hb => exact (h.sessions.kept (i := i) hb).rely.clock

end

theorem AccountReachable.accountable (h : AccountReachable c) : Accountable c := by
  obtain ⟨cfg, deviceAuth, clock, hrun⟩ := h
  refine hrun.invariant (I := Accountable) (fun c i a s p hc _ hprog => hc.set hprog) ?_
  refine ⟨coherent_initial cfg clock, ⟨fun _ _ h => (by cases h), fun _ _ => ⟨rfl, nofun⟩⟩,
    fun i => ?_⟩
  exact Flow.Outside.local_of ⟨rfl, rfl, rfl, rfl⟩ fun k hk => (by cases hk)

end Runs

end AuthApi
