import AuthApi.SessionRefinement

/-!
# Refresh tokens are told apart

A refresh token is drawn at random when a session is issued or rotated and
stands for that session from then on. Since values do not repeat, no two
sessions have the same one, not even a session in the table and one that a
request is about to commit (`HashesApart`): what is looked up twice under a
token is one session.
-/

namespace AuthApi

open Conc Pg

/-- The token drawn for a session that is not in the table yet. -/
def Pc.carries : Pc → Option TokenHash
  | .issue (.start _ _ _ tokenHash) => some tokenHash
  | .issue (.insert _ _ _ tokenHash _) => some tokenHash
  | .issue (.commit new) => some new.val.tokenHash
  | .rotate (.start _ _ input) => some input.tokenHash
  | .rotate (.lock _ _ input _) => some input.tokenHash
  | .rotate (.insert input _ _) => some input.tokenHash
  | .rotate (.update _ _ new) => some new.val.tokenHash
  | .rotate (.commit _ _ new) => some new.val.tokenHash
  | _ => none

/-- The tokens in the table and those carried were drawn, and each belongs
to one session. -/
structure HashesApart (c : SessionConf) : Prop where
  stored : ∀ k r, c.shared.store k = some r → r.val.tokenHash ∈ c.shared.tokens
  unique : ∀ k k' r r', c.shared.store k = some r → c.shared.store k' = some r' →
    r.val.tokenHash = r'.val.tokenHash → k = k'
  carried : ∀ i tokenHash, (c.procs i).carries = some tokenHash →
    tokenHash ∈ c.shared.tokens ∧ ∀ k r, c.shared.store k = some r → r.val.tokenHash ≠ tokenHash
  apart : ∀ i j tokenHash, (c.procs i).carries = some tokenHash →
    (c.procs j).carries = some tokenHash → i = j

section Steps

variable {i : Nat} {ch : Choice} {s s' : Shared} {pc' : Pc} {held : Option TokenHash}

/-- What a step does to the token its request carries. -/
def Carried (s : Shared) (held : Option TokenHash) (s' : Shared) (held' : Option TokenHash) :
    Prop :=
  (s'.tokens = s.tokens ∧ (held' = held ∨ held' = none)) ∨
    ∃ tokenHash, tokenHash ∉ s.tokens ∧ s'.tokens = tokenHash :: s.tokens ∧
      held' = some tokenHash

theorem Carried.keeps (h : s'.tokens = s.tokens) :
    Carried s held s' held := .inl ⟨h, .inl rfl⟩

theorem Carried.drops (h : s'.tokens = s.tokens) :
    Carried s held s' none := .inl ⟨h, .inr rfl⟩

theorem IssueStepped.carried {pc : IssuePc} (h : IssueStepped i s ch pc s' pc') :
    Carried s (Pc.issue pc).carries s' pc'.carries := by
  cases h with
  | drew hfresh => exact .inr ⟨_, hfresh, rfl, rfl⟩
  | began => exact .keeps rfl
  | refused | committed => exact .drops rfl
  | inserted _ hval =>
    refine .inl ⟨rfl, .inl (congrArg some ?_)⟩
    rw [hval]
    rfl

theorem RotateStepped.carried {pc : RotatePc} (h : RotateStepped i s ch pc s' pc') :
    Carried s (Pc.rotate pc).carries s' pc'.carries := by
  cases h with
  | began | locked | updated => exact .keeps rfl
  | refused | lost | committed => exact .drops rfl
  | inserted hval =>
    refine .inl ⟨rfl, .inl (congrArg some ?_)⟩
    rw [hval]
    rfl

theorem carried_step {a : Act} {pc : Pc} (h : sessionProgram i a s pc = some (s', pc')) :
    Carried s pc.carries s' pc'.carries := by
  cases stepped h with
  | tick | configure => exact .keeps rfl
  | @start call hidle hadmitted =>
    subst hidle
    cases call <;> exact .drops rfl
  | fail => exact .drops rfl
  | @go ch _ _ hgo =>
    cases pc with
    | idle | done => cases hgo
    | issue => exact (issueStepped hgo).carried
    | rotate => exact (rotateStepped hgo).carried
    | refresh =>
      cases refreshStepped hgo with
      | drew hfresh => exact .inr ⟨_, hfresh, rfl, rfl⟩
      | _ => exact .drops rfl
    | revoke =>
      cases revokeStepped hgo with
      | forgets => exact .drops (by split <;> rfl)
      | _ => exact .drops rfl
    | verify =>
      cases verifyStepped hgo with
      | answered => exact .drops (by split <;> rfl)
      | _ => exact .drops rfl

end Steps

section Runs

variable {c : SessionConf} {i : Nat} {a : Act} {s s' : Shared} {pc : Pc} {tokenHash : TokenHash}
  {held held' : Option TokenHash} {new r : SessionRow} {op : StoreOp} {k : Uuid}

theorem Carried.tokens {s : Shared} (h : Carried s held s' held') : s.tokens ⊆ s'.tokens := by
  rcases h with ⟨heq, -⟩ | ⟨tokenHash, -, heq, -⟩
  · rw [heq]
    exact List.Subset.refl _
  · rw [heq]
    exact List.subset_cons_self _ _

theorem Carried.origin {s : Shared} (h : Carried s held s' held') (hheld : held' = some tokenHash) :
    held = some tokenHash ∨ (tokenHash ∉ s.tokens ∧ tokenHash ∈ s'.tokens) := by
  rcases h with ⟨-, heq | heq⟩ | ⟨fresh, hfresh, heq, hnew⟩
  · exact .inl (heq ▸ hheld)
  · rw [heq] at hheld
    cases hheld
  · rw [hheld] at hnew
    obtain rfl := Option.some.inj hnew
    exact .inr ⟨hfresh, heq ▸ List.mem_cons_self⟩

/-- The session an operation brings in. -/
def StoreOp.added : StoreOp → Option SessionRow
  | .issue new => some new
  | .rotate _ _ new => some new
  | .revoke _ _ => none

theorem Pc.carries_of_commits (h : pc.commits = some op) (hadded : op.added = some new) :
    pc.carries = some new.val.tokenHash := by
  cases op with
  | issue =>
    cases hadded
    rw [Pc.commits_issue h]
    rfl
  | rotate =>
    cases hadded
    rw [Pc.commits_rotate h]
    rfl
  | revoke => cases hadded

theorem done_of_commits {pc' : Pc} {ch : Choice}
    (h : sessionProgram i (.go ch) s pc = some (s', pc')) (hop : pc.commits = some op)
    (hadded : op.added = some new) : pc' = .done (.tokens new.val.id) := by
  cases op with
  | issue =>
    cases hadded
    obtain rfl := Pc.commits_issue hop
    cases h
    rfl
  | rotate =>
    cases hadded
    obtain rfl := Pc.commits_rotate hop
    cases h
    rfl
  | revoke => cases hadded

section

variable (h : Coherent c) (hprog : sessionProgram i a c.shared (c.procs i) = some (s, pc))
  (hr : s.store k = some r)
include h hprog hr

/-- Where a row comes from: it was there, or this step brings it in and
ends the request. -/
theorem Coherent.row_origin :
    (∃ r₀, c.shared.store k = some r₀ ∧ Evolves r₀.val r.val) ∨
      ∃ op, (c.procs i).commits = some op ∧ op.added = some r ∧ r.val.id = k ∧
        pc = .done (.tokens r.val.id) := by
  have hid : r.val.id = k := s.db.keyed k r (.inl hr)
  rcases h.store_step hprog with heq | ⟨ch, op, rfl, hop, hstep⟩
  · exact .inl ⟨r, heq ▸ hr, .refl _⟩
  · rcases hstep.origin hr with hold | ⟨rfl, -⟩ | ⟨old, rotated, rfl, -⟩
    · exact .inl hold
    · exact .inr ⟨_, hop, rfl, hid, done_of_commits hprog hop rfl⟩
    · exact .inr ⟨_, hop, rfl, hid, done_of_commits hprog hop rfl⟩

theorem Coherent.row_of_not_carried (hnot : (c.procs i).carries ≠ some r.val.tokenHash) :
    ∃ r₀, c.shared.store k = some r₀ ∧ Evolves r₀.val r.val := by
  rcases h.row_origin hprog hr with hold | ⟨op, hop, hadded, -⟩
  · exact hold
  · exact absurd (Pc.carries_of_commits hop hadded) hnot

end

theorem HashesApart.set (h : HashesApart c) (hcoherent : Coherent c)
    (hprog : sessionProgram i a c.shared (c.procs i) = some (s, pc)) :
    HashesApart (c.set i s pc) := by
  have hcarried := carried_step hprog
  have hgrow := hcarried.tokens
  -- What a process carries after the step, in terms of what was carried before.
  have hfrom : ∀ j tokenHash, ((c.set i s pc).procs j).carries = some tokenHash →
      (c.procs j).carries = some tokenHash ∨
        (j = i ∧ tokenHash ∉ c.shared.tokens ∧ tokenHash ∈ s.tokens) := by
    intro j tokenHash hj
    rcases c.procs_cases i s pc j with ⟨rfl, hset⟩ | ⟨hji, hset⟩ <;> rw [hset] at hj
    · exact (hcarried.origin hj).imp id fun hnew => ⟨rfl, hnew⟩
    · exact .inl hj
  constructor
  case stored =>
    intro k r hr
    rcases hcoherent.row_origin hprog hr with ⟨r₀, hr₀, hev⟩ | ⟨op, hop, hadded, -⟩
    · exact hgrow (hev.tokenHash ▸ h.stored k r₀ hr₀)
    · exact hgrow (h.carried i _ (Pc.carries_of_commits hop hadded)).1
  case unique =>
    intro k k' r r' hr hr' heq
    rcases hcoherent.row_origin hprog hr with ⟨r₀, hr₀, hev⟩ | ⟨op, hop, hadded, hid, -⟩ <;>
      rcases hcoherent.row_origin hprog hr' with
        ⟨r₀', hr₀', hev'⟩ | ⟨op', hop', hadded', hid', -⟩
    · exact h.unique k k' r₀ r₀' hr₀ hr₀'
        (hev.tokenHash.symm.trans (heq.trans hev'.tokenHash))
    · exact absurd (hev.tokenHash.symm.trans heq)
        ((h.carried i _ (Pc.carries_of_commits hop' hadded')).2 k r₀ hr₀)
    · exact absurd (hev'.tokenHash.symm.trans heq.symm)
        ((h.carried i _ (Pc.carries_of_commits hop hadded)).2 k' r₀' hr₀')
    · obtain rfl := Option.some.inj (hop.symm.trans hop')
      obtain rfl := Option.some.inj (hadded.symm.trans hadded')
      exact hid.symm.trans hid'
  case carried =>
    intro j tokenHash hj
    rcases hfrom j tokenHash hj with hold | ⟨rfl, hfresh, hnew⟩
    · obtain ⟨hmem, hnone⟩ := h.carried j tokenHash hold
      refine ⟨hgrow hmem, fun k r hr heq => ?_⟩
      rcases hcoherent.row_origin hprog hr with ⟨r₀, hr₀, hev⟩ | ⟨op, hop, hadded, -, hdone⟩
      · exact hnone k r₀ hr₀ (hev.tokenHash.symm.trans heq)
      · have hi := Pc.carries_of_commits hop hadded
        rw [heq] at hi
        obtain rfl := h.apart i j tokenHash hi hold
        rw [Conf.set_procs_self, hdone] at hj
        cases hj
    · refine ⟨hnew, fun k r hr heq => ?_⟩
      rcases hcoherent.row_origin hprog hr with ⟨r₀, hr₀, hev⟩ | ⟨op, hop, hadded, -⟩
      · exact hfresh (heq ▸ hev.tokenHash ▸ h.stored k r₀ hr₀)
      · exact hfresh (heq ▸ (h.carried _ _ (Pc.carries_of_commits hop hadded)).1)
  case apart =>
    intro j j' tokenHash hj hj'
    rcases hfrom j tokenHash hj with hold | ⟨rfl, hfresh, -⟩ <;>
      rcases hfrom j' tokenHash hj' with hold' | ⟨rfl, hfresh', -⟩
    · exact h.apart j j' tokenHash hold hold'
    · exact absurd (h.carried j tokenHash hold).1 hfresh'
    · exact absurd (h.carried j' tokenHash hold').1 hfresh
    · rfl

/-- A token that someone has shown: it is not one a request is about to
give to a session. -/
structure Shown (c : SessionConf) (tokenHash : TokenHash) : Prop where
  seen : tokenHash ∈ c.shared.tokens
  free : ∀ i, (c.procs i).carries ≠ some tokenHash

theorem HashesApart.shown (h : HashesApart c) (hr : c.shared.store k = some r) :
    Shown c r.val.tokenHash :=
  ⟨h.stored k r hr, fun i hi => (h.carried i _ hi).2 k r hr rfl⟩

theorem Shown.set (h : Shown c tokenHash)
    (hprog : sessionProgram i a c.shared (c.procs i) = some (s, pc)) :
    Shown (c.set i s pc) tokenHash := by
  have hcarried := carried_step hprog
  refine ⟨hcarried.tokens h.seen, fun j hj => ?_⟩
  rcases c.procs_cases i s pc j with ⟨rfl, hset⟩ | ⟨hji, hset⟩ <;> rw [hset] at hj
  · rcases hcarried.origin hj with hold | ⟨hfresh, -⟩
    · exact h.free j hold
    · exact hfresh h.seen
  · exact h.free j hj

/-- Of what is known of the sessions with a token, all stays true of them
once the token was shown. -/
theorem Shown.rows (h : Shown c tokenHash) (hcoherent : Coherent c)
    (hprog : sessionProgram i a c.shared (c.procs i) = some (s, pc)) {P : Session → Prop}
    (hP : ∀ r t, Kin r t → P r → P t)
    (hrows : ∀ k r, c.shared.store k = some r → r.val.tokenHash = tokenHash → P r.val)
    (hr : s.store k = some r) (heq : r.val.tokenHash = tokenHash) : P r.val := by
  obtain ⟨r₀, hr₀, hev⟩ := hcoherent.row_of_not_carried hprog hr (heq.symm ▸ h.free i)
  exact hP _ _ hev.kin (hrows k r₀ hr₀ (hev.tokenHash.symm.trans heq))

end Runs

/-! ## What a refresh renews -/

/-- The session with this id is the one whose token the request shows. -/
def Shared.Under (s : Shared) (req : RefreshRequest) (id : Uuid) : Prop :=
  ∃ row, s.store id = some row ∧ row.val.tokenHash = req.tokenHash ∧
    row.val.clientId = req.clientId

/-- The session code serves this refresh: the session it is about to
rotate is that of the token shown, and of the client that shows it. -/
def Pc.Renews (s : Shared) (req : RefreshRequest) : Pc → Prop
  | .refresh (.blocklist req') => req' = req
  | .refresh (.lookup req') => req' = req
  | .refresh (.judge _ session) => s.Under req session.id
  | .refresh (.user _ session) => s.Under req session.id
  | .refresh (.expiry _ session) => s.Under req session.id
  | .refresh _ => True
  | .rotate (.start _ sessionId _) => s.Under req sessionId
  | .rotate (.lock _ sessionId _ _) => s.Under req sessionId
  | .rotate (.insert _ _ old) => s.Under req old.val.id
  | .rotate (.update _ old _) => s.Under req old.val.id
  | .rotate (.commit old _ _) => s.Under req old.val.id
  | .revoke _ => True
  | .done _ => True
  | _ => False

section Renewal

variable {i : Nat} {a : Act} {s s' : Shared} {pc pc' : Pc} {req : RefreshRequest} {ch : Choice}
  {new : SessionRow}

/-- The sessions of `s` are still there in `s'`. -/
def Shared.Ages (s s' : Shared) : Prop :=
  ∀ k r, s.store k = some r → ∃ r', s'.store k = some r' ∧ Evolves r.val r'.val

theorem Shared.Copy.ages {session : Session} (h : s.Copy session) (hages : s.Ages s') :
    s'.Copy session := by
  obtain ⟨row, hrow, hkin⟩ := h
  obtain ⟨row', hrow', hev⟩ := hages _ row hrow
  exact ⟨row', hrow', hev.kin.symm.trans hkin⟩

theorem Shared.Under.ages {id : Uuid} (h : s.Under req id) (hages : s.Ages s') :
    s'.Under req id := by
  obtain ⟨row, hrow, hhash, hclient⟩ := h
  obtain ⟨row', hrow', hev⟩ := hages id row hrow
  exact ⟨row', hrow', hev.tokenHash.trans hhash, hev.kin.clientId.symm.trans hclient⟩

theorem Pc.Renews.ages (h : pc.Renews s req) (hages : s.Ages s') : pc.Renews s' req := by
  cases pc with
  | refresh pc => cases pc <;> first | exact h | exact Shared.Under.ages h hages
  | rotate pc => cases pc <;> exact Shared.Under.ages h hages
  | _ => exact h

theorem RefreshStepped.renews {pc : RefreshPc} (hpc : (Pc.refresh pc).Renews s req)
    (h : RefreshStepped s ch pc s' pc') : pc'.Renews s req := by
  cases h with
  | allowed | rotates | active | drew => exact hpc
  | @found req' session hfind hclient =>
    obtain rfl : req' = req := hpc
    obtain ⟨row, hrow, hval⟩ := Shared.copy_of_findByTokenHash hfind
    have hhash : session.tokenHash = req'.tokenHash := by
      simpa using List.find?_some hfind
    exact ⟨row, hrow, hval ▸ hhash, hval ▸ hclient⟩
  | _ => trivial

theorem RotateStepped.renews {pc : RotatePc} (hpc : (Pc.rotate pc).Renews s req)
    (hlocal : (Pc.rotate pc).Local i s) (h : RotateStepped i s ch pc s' pc') :
    pc'.Renews s req := by
  cases h with
  | @locked _ sessionId _ _ old _ hselect =>
    obtain ⟨hold, -⟩ := hlocal.1.selectForUpdate hselect
    have hid : old.val.id = sessionId := s.db.keyed sessionId old (.inl hold.symm)
    show s.Under req old.val.id
    rw [hid]
    exact hpc
  | refused | lost | committed => trivial
  | _ => exact hpc

theorem Pc.Renews.step (hpc : pc.Renews s req) (hdrawn : s.Drawn) (hlocal : pc.Local i s)
    (h : sessionProgram i a s pc = some (s', pc')) : pc'.Renews s' req := by
  have hrely := (sessionProgram_kept hdrawn hlocal h).rely
  refine Pc.Renews.ages ?_ fun k r hr => hrely.evolves hr
  cases stepped h with
  | tick | configure => exact hpc
  | start hidle =>
    subst hidle
    cases hpc
  | fail => trivial
  | @go ch _ _ hgo =>
    cases pc with
    | refresh => exact (refreshStepped hgo).renews hpc
    | rotate => exact (rotateStepped hgo).renews hpc hlocal
    | revoke => cases revokeStepped hgo <;> trivial
    | done => cases hgo
    | _ => cases hpc

theorem Pc.Renews.commit {old rotated : SessionRow}
    (h : (Pc.rotate (.commit old rotated new)).Renews s req)
    (hlocal : (Pc.rotate (.commit old rotated new)).Local i s) :
    s.store old.val.id = some old ∧ old.val.tokenHash = req.tokenHash ∧
      old.val.clientId = req.clientId ∧ Kin old.val new.val := by
  obtain ⟨hrot, hslot, -⟩ := hlocal
  have hold : s.store old.val.id = some old := by
    rw [Shared.store, Db.committed, hslot]
  obtain ⟨row, hrow, hhash, hclient⟩ := h
  obtain rfl := Option.some.inj (hrow.symm.trans hold)
  exact ⟨hold, hhash, hclient, hrot.kin⟩

theorem Pc.Local.added {op : StoreOp} (hlocal : pc.Local i s) (hop : pc.commits = some op)
    (hadded : op.added = some new) (h : sessionProgram i (.go ch) s pc = some (s', pc')) :
    s'.store new.val.id = some new := by
  have hcommit : ∀ db : SessionDb, db.slot new.val.id = ⟨none, some (i, some new)⟩ →
      (db.commit i).committed new.val.id = some new := by
    intro db hslot
    rw [Db.committed, Db.commit_slot, hslot]
    simp [Slot.commit, Slot.holder, Slot.view, Slot.pending]
  cases op with
  | issue =>
    cases hadded
    obtain rfl := Pc.commits_issue hop
    cases h
    exact hcommit s.db hlocal.2.1
  | rotate =>
    cases hadded
    obtain rfl := Pc.commits_rotate hop
    cases h
    exact hcommit s.db hlocal.1.inserted
  | revoke => cases hadded

end Renewal

end AuthApi
