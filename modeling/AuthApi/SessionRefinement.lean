import AuthApi.SessionStore

/-!
# Every interleaving is a run of the store

The statements of concurrent requests never disturb one another's
transactions: a row changes only under the lock of the transaction that
changes it, and what a request has read of a session (its family, its
account, its client) stays true whatever the others do. `Pc.Local` states
this for each program point, `Rely` is what a step of one process may do
to the state the others look at, and the rely–guarantee rule of `Conc`
puts them together (`Coherent`).

The consequence is `Coherent.store_step`: each step of the service leaves
the committed table alone or is the operation of the store that its
program point stands before (`Pc.commits`).
-/

namespace AuthApi

open Conc Pg

def Shared.store (s : Shared) : Store := s.db.committed

/-- The operation a program point is about to commit. -/
def Pc.commits : Pc → Option StoreOp
  | .issue (.commit new) => some (.issue new)
  | .rotate (.commit old rotated new) => some (.rotate old rotated new)
  | .revoke (.visit rev _ startedAt [] _) => some (.revoke rev startedAt)
  | _ => none

variable {new : SessionRow} {pc pc' : Pc} {input : NewSession} {i : Nat} {s s' : Shared} {a : Act}

theorem Pc.commits_rotate {old rotated : SessionRow}
    (h : pc.commits = some (.rotate old rotated new)) : pc = .rotate (.commit old rotated new) := by
  cases pc with
  | issue q => cases q <;> cases h
  | rotate q =>
    cases q with
    | commit =>
      cases h
      rfl
    | _ => cases h
  | revoke q =>
    cases q with
    | visit _ _ _ left => cases left <;> cases h
    | _ => cases h
  | _ => cases h

theorem Pc.commits_issue (h : pc.commits = some (.issue new)) : pc = .issue (.commit new) := by
  cases pc with
  | issue q =>
    cases q with
    | commit =>
      cases h
      rfl
    | _ => cases h
  | rotate q => cases q <;> cases h
  | revoke q =>
    cases q with
    | visit _ _ _ left => cases left <;> cases h
    | _ => cases h
  | _ => cases h

/-! ## What a request knows where it stands -/

/-- What was read of a session still holds of its row. -/
def Shared.Copy (s : Shared) (session : Session) : Prop :=
  ∃ row, s.store session.id = some row ∧ Kin row.val session

def Shared.Present (s : Shared) (id : Uuid) : Prop := ∃ row, s.store id = some row

/-- The input of a rotation is that of the row it will lock. -/
structure NewSession.Continues (input : NewSession) (old : Session) : Prop where
  userId : input.userId = old.userId
  sessionFamilyId : input.sessionFamilyId = old.sessionFamilyId
  familyCreatedAt : input.familyCreatedAt = some old.familyCreatedAt
  scopes : input.scopes = none
  sessionType : input.sessionType = old.sessionType
  clientId : input.clientId = old.clientId

theorem NewSession.Continues.of_kin {s t : Session} (h : input.Continues s) (hk : Kin s t) :
    input.Continues t :=
  ⟨h.1.trans hk.userId, h.2.trans hk.sessionFamilyId, h.3.trans (congrArg some hk.familyCreatedAt),
    h.4, h.5.trans hk.sessionType, h.6.trans hk.clientId⟩

theorem Session.rotation_continues (session : Session) (cfg : JwtConfig) (now : OffsetDateTime)
    (ip : Option IpAddr) (userAgent : Option String) (tokenHash : TokenHash) :
    (session.rotation cfg now ip userAgent tokenHash).Continues session :=
  ⟨rfl, rfl, rfl, rfl, rfl, rfl⟩

theorem NewSession.Continues.kin_replace {old : Session} (h : input.Continues old)
    (now : OffsetDateTime) (id : Uuid) :
    Kin old (input.replace now id old) where
  userId := h.userId.symm
  sessionFamilyId := h.sessionFamilyId.symm
  familyCreatedAt := by simp [NewSession.replace, h.familyCreatedAt]
  scopes := by simp [NewSession.replace, h.scopes]
  sessionType := h.sessionType.symm
  clientId := h.clientId.symm
  mfa := rfl

/-- The rows of a rotation between its `INSERT` and its `COMMIT`. -/
structure Rotating (db : SessionDb) (i : Nat) (old new : SessionRow) : Prop where
  held : db.HeldOnly i [new.val.id, old.val.id]
  inserted : db.slot new.val.id = ⟨none, some (i, some new)⟩
  live : old.val.revokedAt = none
  new_live : new.val.revokedAt = none
  kin : Kin old.val new.val

def IssuePc.Local (s : Shared) (i : Nat) : IssuePc → Prop
  | .commit new =>
    s.db.HeldOnly i [new.val.id] ∧ s.db.slot new.val.id = ⟨none, some (i, some new)⟩ ∧
      new.val.revokedAt = none ∧ new.val.familyCreatedAt = new.val.createdAt ∧
      s.families new.val.sessionFamilyId = some i ∧
      ∀ k r, s.store k = some r → r.val.sessionFamilyId ≠ new.val.sessionFamilyId
  | _ => s.db.HeldOnly i []

def RefreshPc.Local (s : Shared) (i : Nat) : RefreshPc → Prop
  | .judge _ session => s.db.HeldOnly i [] ∧ s.Copy session
  | .user _ session => s.db.HeldOnly i [] ∧ s.Copy session
  | .expiry _ session => s.db.HeldOnly i [] ∧ s.Copy session
  | .compare _ sessionId _ => s.db.HeldOnly i [] ∧ s.Present sessionId
  | .lost _ sessionId => s.db.HeldOnly i [] ∧ s.Present sessionId
  | .lostJudge _ current => s.db.HeldOnly i [] ∧ s.Copy current
  | _ => s.db.HeldOnly i []

def RotatePc.Local (s : Shared) (i : Nat) : RotatePc → Prop
  | .start _ sessionId input =>
    s.db.HeldOnly i [] ∧ ∃ row, s.store sessionId = some row ∧ input.Continues row.val
  | .lock _ sessionId input _ =>
    s.db.HeldOnly i [] ∧ ∃ row, s.store sessionId = some row ∧ input.Continues row.val
  | .insert input _ old =>
    s.db.HeldOnly i [old.val.id] ∧ s.db.slot old.val.id = ⟨some old, some (i, none)⟩ ∧
      old.val.revokedAt = none ∧ input.Continues old.val
  | .update startedAt old new =>
    Rotating s.db i old new ∧ s.db.slot old.val.id = ⟨some old, some (i, none)⟩ ∧
      new.val.createdAt = startedAt
  | .commit old rotated new =>
    Rotating s.db i old new ∧ s.db.slot old.val.id = ⟨some old, some (i, some rotated)⟩ ∧
      rotated.val = old.val.rotatedInto new.val.createdAt new.val.id

def RevokePc.Local (s : Shared) (i : Nat) : RevokePc → Prop
  | .familyStart sessionId => s.db.HeldOnly i [] ∧ s.Present sessionId
  | .familySelect sessionId _ => s.db.HeldOnly i [] ∧ s.Present sessionId
  | .visit rev _ startedAt _ _ =>
    s.db.Updating i (fun r => rev.selects r.val) (rev.apply startedAt)
  | _ => s.db.HeldOnly i []

def Pc.Local (i : Nat) (s : Shared) : Pc → Prop
  | .issue pc => pc.Local s i
  | .refresh pc => pc.Local s i
  | .rotate pc => pc.Local s i
  | .revoke pc => pc.Local s i
  | _ => s.db.HeldOnly i []

/-! ## What the others may do -/

/-- Every family in the table was drawn. -/
def Shared.Drawn (s : Shared) : Prop :=
  ∀ k r, s.store k = some r → s.families r.val.sessionFamilyId ≠ none

structure Rely (i : Nat) (s s' : Shared) : Prop where
  db : Db.Guar i s.db s'.db
  store : s'.store = s.store ∨ ∃ op, StoreStep op s.store s'.store
  families : ∀ f j, s.families f = some j → s'.families f = some j
  /-- A family that is new in the table was drawn by this process. -/
  fresh : ∀ k r, s'.store k = some r →
    (∃ k₀ r₀, s.store k₀ = some r₀ ∧ r₀.val.sessionFamilyId = r.val.sessionFamilyId) ∨
      s'.families r.val.sessionFamilyId = some i
  clock : s.clock ≤ s'.clock

theorem Rely.evolves (h : Rely i s s') {k : Uuid} {r : SessionRow} (hr : s.store k = some r) :
    ∃ r', s'.store k = some r' ∧ Evolves r.val r'.val := by
  rcases h.store with heq | ⟨op, hstep⟩
  · exact ⟨r, heq ▸ hr, .refl _⟩
  · exact hstep.evolves hr

theorem Rely.of_quiet (hq : Db.Quiet i s.db s'.db)
    (hf : ∀ f j, s.families f = some j → s'.families f = some j) (hc : s.clock ≤ s'.clock) :
    Rely i s s' where
  db := hq.guar
  store := .inl (funext hq.committed_eq)
  families := hf
  fresh k r hr := .inl ⟨k, r, (hq.committed_eq k).symm.trans hr, rfl⟩
  clock := hc

theorem Rely.drawn (h : Rely i s s') (hd : s.Drawn) : s'.Drawn := by
  intro k r hr
  rcases h.fresh k r hr with ⟨k₀, r₀, hr₀, hfam⟩ | hi
  · obtain ⟨j, hj⟩ := Option.ne_none_iff_exists'.mp (hd k₀ r₀ hr₀)
    rw [← hfam, h.families _ j hj]
    simp
  · simp [hi]

section Stable

variable {i j : Nat} {s s' : Shared} {session : Session}

theorem Shared.Copy.stable (h : s.Copy session) (hr : Rely i s s') : s'.Copy session := by
  obtain ⟨row, hrow, hkin⟩ := h
  obtain ⟨row', hrow', hev⟩ := hr.evolves hrow
  exact ⟨row', hrow', hev.kin.symm.trans hkin⟩

theorem Shared.Copy.present (h : s.Copy session) : s.Present session.id := by
  obtain ⟨row, hrow, -⟩ := h
  exact ⟨row, hrow⟩

theorem Shared.Present.stable {id : Uuid} (h : s.Present id) (hr : Rely i s s') :
    s'.Present id := by
  obtain ⟨row, hrow⟩ := h
  obtain ⟨row', hrow', -⟩ := hr.evolves hrow
  exact ⟨row', hrow'⟩

theorem Rotating.stable {old new : SessionRow} (h : Rotating s.db j old new)
    (hr : Rely i s s') (hne : j ≠ i) : Rotating s'.db j old new :=
  ⟨h.held.guar hr.db hne, Db.guar_others hr.db hne h.inserted rfl, h.live, h.new_live, h.kin⟩

theorem Pc.Local.stable {pc : Pc} (h : pc.Local j s) (hr : Rely i s s') (hne : j ≠ i) :
    pc.Local j s' := by
  have hheld : ∀ {ks}, s.db.HeldOnly j ks → s'.db.HeldOnly j ks := fun h => h.guar hr.db hne
  have hinput : ∀ {sessionId : Uuid} {input : NewSession},
      (∃ row, s.store sessionId = some row ∧ input.Continues row.val) →
      ∃ row, s'.store sessionId = some row ∧ input.Continues row.val := by
    rintro sessionId input ⟨row, hrow, hcont⟩
    obtain ⟨row', hrow', hev⟩ := hr.evolves hrow
    exact ⟨row', hrow', hcont.of_kin hev.kin⟩
  cases pc with
  | idle | verify | done => exact hheld h
  | issue pc =>
    cases pc with
    | commit =>
      obtain ⟨hh, hslot, hlive, hfirst, hfam, hfresh⟩ := h
      refine ⟨hheld hh, Db.guar_others hr.db hne hslot rfl, hlive, hfirst,
        hr.families _ _ hfam, fun k r hk => ?_⟩
      rcases hr.fresh k r hk with ⟨k₀, r₀, hr₀, heq⟩ | hi
      · exact heq ▸ hfresh k₀ r₀ hr₀
      · intro heq
        rw [heq, hr.families _ _ hfam] at hi
        exact hne (Option.some.inj hi)
    | _ => exact hheld h
  | refresh pc =>
    cases pc with
    | judge _ session | user _ session | expiry _ session | compare _ sessionId _
    | lost | lostJudge => exact ⟨hheld h.1, h.2.stable hr⟩
    | _ => exact hheld h
  | rotate pc =>
    cases pc with
    | start | lock => exact ⟨hheld h.1, hinput h.2⟩
    | insert =>
      exact ⟨hheld h.1, Db.guar_others hr.db hne h.2.1 rfl, h.2.2⟩
    | update | commit =>
      exact ⟨h.1.stable hr hne, Db.guar_others hr.db hne h.2.1 rfl, h.2.2⟩
  | revoke pc =>
    cases pc with
    | familyStart | familySelect => exact ⟨hheld h.1, h.2.stable hr⟩
    | visit => exact Db.Updating.guar h hr.db hne
    | _ => exact hheld h

end Stable

/-! ## Each request keeps what it knows -/

/-- What a step of process `i` from the program point `pc` leads to. -/
structure Kept (i : Nat) (s : Shared) (pc : Pc) (s' : Shared) (pc' : Pc) : Prop where
  locally : pc'.Local i s'
  rely : Rely i s s'
  commits : s'.store = s.store ∨ ∃ op, pc.commits = some op ∧ StoreStep op s.store s'.store

section Requests

variable {i : Nat} {ch : Choice} {s s' : Shared} {pc₀ pc' : Pc} {tokenHash : TokenHash}
  {family : Uuid} {startedAt : OffsetDateTime} {new old : SessionRow} {session : Session}
  {req : RefreshRequest} {input : NewSession} {forget : Forget} {returned : List Session}
  {rev : Revocation}

theorem Kept.of_quiet (hq : Db.Quiet i s.db s'.db)
    (hf : ∀ f j, s.families f = some j → s'.families f = some j) (hc : s.clock ≤ s'.clock)
    (hl : pc'.Local i s') : Kept i s pc₀ s' pc' :=
  ⟨hl, .of_quiet hq hf hc, .inl (funext hq.committed_eq)⟩

theorem Kept.of_same (hdb : s'.db = s.db) (hf : s'.families = s.families)
    (hc : s.clock ≤ s'.clock) (hl : pc'.Local i s') : Kept i s pc₀ s' pc' :=
  .of_quiet (hdb ▸ .refl) (fun _ _ h => hf ▸ h) hc hl

theorem Kept.of_rollback {db : SessionDb} {outcome : Outcome} (hq : Db.Quiet i s.db db)
    (hdb : s'.db = db.rollback i)
    (hf : ∀ f j, s.families f = some j → s'.families f = some j) (hc : s.clock ≤ s'.clock) :
    Kept i s pc₀ s' (.done outcome) :=
  .of_quiet (hdb ▸ hq.trans Db.quiet_rollback) hf hc
    (show s'.db.HeldOnly i [] from hdb ▸ Db.heldOnly_rollback)

/-- A step that commits the operation its program point stands before. -/
theorem Kept.of_commit {op : StoreOp} (hop : pc₀.commits = some op)
    (hstep : StoreStep op s.store s'.store) (hdb : s'.db = s.db.commit i)
    (hf : s'.families = s.families) (hc : s'.clock = s.clock)
    (hfresh : ∀ k r, s'.store k = some r →
      (∃ k₀ r₀, s.store k₀ = some r₀ ∧ r₀.val.sessionFamilyId = r.val.sessionFamilyId) ∨
        s.families r.val.sessionFamilyId = some i)
    (hl : s'.db.HeldOnly i [] → pc'.Local i s') : Kept i s pc₀ s' pc' where
  locally := hl (hdb ▸ Db.heldOnly_commit)
  rely :=
    { db := hdb ▸ Db.guar_commit
      store := .inr ⟨op, hstep⟩
      families := fun _ _ h => hf ▸ h
      fresh := fun k r hr => hf ▸ hfresh k r hr
      clock := hc ▸ le_rfl }
  commits := .inr ⟨op, hop, hstep⟩

theorem families_grow (hnone : s.families family = none) (f : Uuid) (j : Nat)
    (hf : s.families f = some j) : Function.update s.families family (some i) f = some j := by
  have hne : f ≠ family := by
    rintro rfl
    simp [hnone] at hf
  rw [Function.update_of_ne hne, hf]

/-- The `INSERT` of a sign-in: the family is one nobody else can bring
into the table before it commits. -/
theorem issueInsert_kept {args : IssueArgs} {cfg : JwtConfig} {now : OffsetDateTime} {uuid : Uuid}
    {db : SessionDb} (hd : s.Drawn) (hl : s.db.HeldOnly i []) (hnone : s.families family = none)
    (hval : new.val = (args.newSession cfg now tokenHash family).create startedAt uuid)
    (hins : s.db.insert i new = some db) :
    Kept i s pc₀ { s with families := Function.update s.families family (some i), db := db }
      (.issue (.commit new)) := by
  have hq := Db.quiet_insert hins
  refine .of_quiet hq (families_grow hnone) le_rfl ⟨hl.insert hins,
    (Db.insert_eq_some hins).2.1, by rw [hval]; rfl, by rw [hval]; rfl, ?_,
    fun k r hr heq => ?_⟩
  · rw [hval]
    exact Function.update_self _ _ _
  · rw [hval] at heq
    refine hd k r ((hq.committed_eq k).symm.trans hr) ?_
    rw [heq]
    exact hnone

theorem issueCommit_kept (hl : (IssuePc.commit new).Local s i) :
    Kept i s (.issue (.commit new)) { s with db := s.db.commit i }
      (.done (.tokens new.val.id)) := by
  obtain ⟨hheld, hslot, hlive, hfirst, hfam, hfresh⟩ := hl
  have hstore : (s.db.commit i).committed = Function.update s.store new.val.id (some new) :=
    hheld.commit_one hslot
  have hfree : s.store new.val.id = none := congrArg Slot.committed hslot
  have hstep : StoreStep (.issue new) s.store (s.db.commit i).committed := by
    rw [hstore]
    exact .issue new hfree hfresh hlive hfirst
  refine .of_commit rfl hstep rfl rfl rfl (fun k r hr => ?_) fun hh => hh
  change (s.db.commit i).committed k = some r at hr
  rw [hstore] at hr
  by_cases hk : k = new.val.id
  · subst hk
    rw [Function.update_self] at hr
    exact .inr (Option.some.inj hr ▸ hfam)
  · rw [Function.update_of_ne hk] at hr
    exact .inl ⟨k, r, hr, rfl⟩

theorem IssueStepped.kept {pc : IssuePc} (hd : s.Drawn) (hl : pc.Local s i)
    (h : IssueStepped i s ch pc s' pc') : Kept i s (.issue pc) s' pc' := by
  cases h with
  | drew | began => exact .of_same rfl rfl le_rfl hl
  | refused hnone => exact .of_rollback .refl rfl (families_grow hnone) le_rfl
  | inserted hnone hval hins => exact issueInsert_kept hd hl hnone hval hins
  | committed => exact issueCommit_kept hl

theorem Shared.copy_of_findById {id : Uuid} (h : s.findById id = some session) :
    session.id = id ∧ s.Copy session := by
  obtain ⟨row, hrow, rfl⟩ := Option.map_eq_some_iff.mp h
  have hid : row.val.id = id := s.db.keyed id row (.inl hrow)
  exact ⟨hid, row, hid ▸ hrow, .refl _⟩

theorem Shared.copy_of_findByTokenHash (h : s.findByTokenHash tokenHash = some session) :
    ∃ row, s.store session.id = some row ∧ row.val = session := by
  obtain ⟨row, hmem, rfl⟩ := List.mem_map.mp (List.mem_of_find?_eq_some h)
  exact ⟨row, Db.mem_rows.mp hmem, rfl⟩

theorem RefreshPc.Local.held {pc : RefreshPc} (h : pc.Local s i) : s.db.HeldOnly i [] := by
  cases pc with
  | blocklist | lookup => exact h
  | _ => exact h.1

theorem RefreshStepped.kept {pc : RefreshPc} (hl : pc.Local s i)
    (h : RefreshStepped s ch pc s' pc') : Kept i s pc₀ s' pc' := by
  cases h with
  | refused => exact .of_same rfl rfl le_rfl hl.held
  | allowed | rotates | differs | active | unread => exact .of_same rfl rfl le_rfl hl
  | found hfind =>
    obtain ⟨row, hrow, hval⟩ := Shared.copy_of_findByTokenHash hfind
    exact .of_same rfl rfl le_rfl ⟨hl, row, hrow, hval ▸ .refl _⟩
  | compares | replayed | comparesLost | replayedLost =>
    exact .of_same rfl rfl le_rfl ⟨hl.1, hl.2.present⟩
  | @drew _ session =>
    obtain ⟨hheld, row, hrow, hkin⟩ := hl
    exact .of_same rfl rfl le_rfl
      ⟨hheld, row, hrow, (session.rotation_continues _ _ _ _ _).of_kin hkin.symm⟩
  | reread hfind => exact .of_same rfl rfl le_rfl ⟨hl.1, (Shared.copy_of_findById hfind).2⟩

section Rotation

variable {sessionId : Uuid} {db : SessionDb}

/-- The lock of a rotation: the row is the one the input was made for, and
it is not revoked as long as the lock is held. -/
theorem rotateLocked_kept (hl : (RotatePc.lock req sessionId input startedAt).Local s i)
    (hselect : s.db.selectForUpdate i sessionId = some (some old, db))
    (hlive : old.val.revokedAt = none) :
    Kept i s pc₀ { s with db := db } (.rotate (.insert input startedAt old)) := by
  obtain ⟨hheld, row, hrow, hcont⟩ := hl
  obtain ⟨hold, honly, hslot⟩ := hheld.selectForUpdate hselect
  have hid : old.val.id = sessionId := s.db.keyed sessionId old (.inl hold.symm)
  have heq : row = old := Option.some.inj (hrow.symm.trans hold.symm)
  subst hid heq
  exact .of_quiet (Db.quiet_selectForUpdate hselect) (fun _ _ hf => hf) le_rfl
    ⟨honly, hslot row rfl, hlive, hcont⟩

theorem rotateLost_kept {row : Option SessionRow}
    (hl : (RotatePc.lock req sessionId input startedAt).Local s i)
    (hselect : s.db.selectForUpdate i sessionId = some (row, db)) :
    Kept i s pc₀ { s with db := db.rollback i } (.refresh (.lost req sessionId)) := by
  obtain ⟨-, r, hr, -⟩ := hl
  have hq := (Db.quiet_selectForUpdate hselect).trans Db.quiet_rollback
  exact .of_quiet hq (fun _ _ hf => hf) le_rfl
    ⟨Db.heldOnly_rollback, r, (hq.committed_eq sessionId).trans hr⟩

theorem rotateInserted_kept {uuid : Uuid} (hl : (RotatePc.insert input startedAt old).Local s i)
    (hval : new.val = input.replace startedAt uuid old.val)
    (hinsert : s.db.insert i new = some db) :
    Kept i s pc₀ { s with db := db } (.rotate (.update startedAt old new)) := by
  obtain ⟨hheld, hslot, hlive, hcont⟩ := hl
  obtain ⟨hempty, hself, hother⟩ := Db.insert_eq_some hinsert
  have hne : old.val.id ≠ new.val.id := by
    intro heq
    rw [heq, hempty] at hslot
    cases hslot
  refine .of_quiet (Db.quiet_insert hinsert) (fun _ _ hf => hf) le_rfl
    ⟨⟨hheld.insert hinsert, hself, hlive, by rw [hval]; rfl, ?_⟩, ?_, by rw [hval]; rfl⟩
  · rw [hval]
    exact hcont.kin_replace startedAt uuid
  · exact (hother _ hne).trans hslot

theorem rotateUpdated_kept {rotated : SessionRow}
    (hl : (RotatePc.update startedAt old new).Local s i)
    (hval : rotated.val = old.val.rotatedInto startedAt new.val.id) :
    Kept i s pc₀ { s with db := s.db.write i rotated } (.rotate (.commit old rotated new)) := by
  obtain ⟨hrot, hslot, hcreated⟩ := hl
  have hid : rotated.val.id = old.val.id := by rw [hval]; rfl
  have hne : new.val.id ≠ rotated.val.id := by
    intro heq
    rw [← hid, ← heq, hrot.inserted] at hslot
    cases hslot
  have hholder : s.db.holder rotated.val.id = some i := by
    rw [hid, Db.holder, hslot]
    rfl
  refine .of_quiet Db.quiet_write (fun _ _ hf => hf) le_rfl
    ⟨⟨hrot.held.write, ?_, hrot.live, hrot.new_live, hrot.kin⟩, ?_, ?_⟩
  · have hother : (s.db.write i rotated).slot new.val.id = s.db.slot new.val.id :=
      Db.write_of_ne hne
    exact hother.trans hrot.inserted
  · have hwrite := Db.write_eq hholder
    rw [hid, hslot] at hwrite
    exact hwrite
  · rw [hval, hcreated]

theorem rotateCommit_kept {rotated : SessionRow}
    (hl : (RotatePc.commit old rotated new).Local s i) :
    Kept i s (.rotate (.commit old rotated new)) { s with db := s.db.commit i }
      (.done (.tokens new.val.id)) := by
  obtain ⟨hrot, hslot, hval⟩ := hl
  have hne : new.val.id ≠ old.val.id := by
    intro heq
    rw [← heq, hrot.inserted] at hslot
    cases hslot
  have hstore : (s.db.commit i).committed = Function.update
      (Function.update s.store old.val.id (some rotated)) new.val.id (some new) :=
    hrot.held.commit_two hne hrot.inserted hslot
  have hold : s.store old.val.id = some old := congrArg Slot.committed hslot
  have hfree : s.store new.val.id = none := congrArg Slot.committed hrot.inserted
  have hstep : StoreStep (.rotate old rotated new) s.store (s.db.commit i).committed := by
    rw [hstore]
    exact .rotate old rotated new hold hrot.live hfree hval hrot.new_live hrot.kin
  refine .of_commit rfl hstep rfl rfl rfl (fun k r hr => .inl ?_) fun hh => hh
  change (s.db.commit i).committed k = some r at hr
  rw [hstore] at hr
  by_cases hk : k = new.val.id
  · subst hk
    rw [Function.update_self] at hr
    exact ⟨_, old, hold, by rw [← Option.some.inj hr, hrot.kin.sessionFamilyId]⟩
  · rw [Function.update_of_ne hk] at hr
    by_cases hko : k = old.val.id
    · subst hko
      rw [Function.update_self] at hr
      exact ⟨_, old, hold, by rw [← Option.some.inj hr, hval]; rfl⟩
    · rw [Function.update_of_ne hko] at hr
      exact ⟨k, r, hr, rfl⟩

theorem RotateStepped.kept {pc : RotatePc} (hl : pc.Local s i)
    (h : RotateStepped i s ch pc s' pc') : Kept i s (.rotate pc) s' pc' := by
  cases h with
  | refused => exact .of_rollback .refl rfl (fun _ _ hf => hf) le_rfl
  | began => exact .of_same rfl rfl le_rfl hl
  | lost hselect => exact rotateLost_kept hl hselect
  | locked hselect hlive => exact rotateLocked_kept hl hselect hlive
  | inserted hval hinsert => exact rotateInserted_kept hl hval hinsert
  | updated hval => exact rotateUpdated_kept hl hval
  | committed => exact rotateCommit_kept hl

end Rotation

theorem revokeCommit_kept (hl : s.db.Updating i (fun r => rev.selects r.val) (rev.apply startedAt))
    (hs : s' = { s with db := s.db.commit i }) (hheld : s'.db.HeldOnly i [] → pc'.Local i s') :
    Kept i s (.revoke (.visit rev forget startedAt [] returned)) s' pc' := by
  subst hs
  refine .of_commit rfl (.revoke rev startedAt hl.commit) rfl rfl rfl (fun k r hr => .inl ?_) hheld
  rcases hl.commit k with heq | ⟨r₀, r', hr₀, -, happly, hr'⟩
  · exact ⟨k, r, heq.symm.trans hr, rfl⟩
  · refine ⟨k, r₀, hr₀, ?_⟩
    rw [Option.some.inj (hr.symm.trans hr'), Revocation.apply_eq_some happly]
    exact (rev.set_evolves startedAt r₀.val).kin.sessionFamilyId

theorem RevokeStepped.kept {pc : RevokePc} (hl : pc.Local s i)
    (h : RevokeStepped i s ch pc s' pc') : Kept i s (.revoke pc) s' pc' := by
  cases h with
  | listed | loggedOut | oauth | nothing | familyStarted | started | familyIds | forgot =>
    exact .of_same rfl rfl le_rfl hl
  | selected => exact .of_same rfl rfl le_rfl hl.1
  | unknown => exact .of_rollback .refl rfl (fun _ _ hf => hf) le_rfl
  | scanned => exact .of_same rfl rfl le_rfl (Db.HeldOnly.updating hl)
  | @skipped rev _ startedAt _ _ _ _ hvisit | @updated rev _ startedAt _ _ _ _ _ hvisit =>
    exact .of_quiet (Db.quiet_visit hvisit) (fun _ _ hf => hf) le_rfl
      (Db.Updating.visit hl (rev.apply_updates startedAt) hvisit)
  | violated _ hvisit => exact .of_rollback (Db.quiet_visit hvisit) rfl (fun _ _ hf => hf) le_rfl
  | committed | committedFamily => exact revokeCommit_kept hl rfl fun hh => hh
  | forgets => split <;> exact .of_same rfl rfl le_rfl hl

theorem VerifyStepped.kept {pc : VerifyPc} (hl : s.db.HeldOnly i [])
    (h : VerifyStepped s ch pc s' pc') : Kept i s pc₀ s' pc' := by
  cases h with
  | answered => split <;> exact .of_same rfl rfl le_rfl hl
  | _ => exact .of_same rfl rfl le_rfl hl

end Requests

/-! ## Runs -/

/-- A step of the service keeps what its process knows and meets the
guarantee. -/
theorem sessionProgram_kept (hd : s.Drawn) (hl : pc.Local i s)
    (h : sessionProgram i a s pc = some (s', pc')) : Kept i s pc s' pc' := by
  cases stepped h with
  | tick hle => exact .of_same rfl rfl hle (by cases pc <;> exact hl)
  | configure => exact .of_same rfl rfl le_rfl (by cases pc <;> exact hl)
  | @start call hidle hadmitted =>
    subst hidle
    refine .of_same rfl rfl le_rfl ?_
    cases call with
    | revokeFamily =>
      obtain ⟨row, hrow⟩ := Option.isSome_iff_exists.mp (Option.isSome_map.symm.trans hadmitted)
      exact ⟨hl, row, hrow⟩
    | _ => exact hl
  | go h =>
    cases pc with
    | idle | done => cases h
    | issue => exact (issueStepped h).kept hd hl
    | refresh => exact (refreshStepped h).kept hl
    | rotate => exact (rotateStepped h).kept hl
    | revoke => exact (revokeStepped h).kept hl
    | verify => exact (verifyStepped h).kept hl
  | fail => exact .of_rollback .refl rfl (fun _ _ hf => hf) le_rfl

theorem advance_clock {ch : Choice} (h : advance i ch s pc = some (s', pc')) :
    s'.clock = s.clock := by
  cases pc with
  | idle | done => cases h
  | issue => cases issueStepped h <;> rfl
  | refresh => cases refreshStepped h <;> rfl
  | rotate => cases rotateStepped h <;> rfl
  | revoke =>
    cases revokeStepped h with
    | forgets => split <;> rfl
    | _ => rfl
  | verify =>
    cases verifyStepped h with
    | answered => split <;> rfl
    | _ => rfl

theorem sessionProgram_clock (h : sessionProgram i a s pc = some (s', pc')) :
    s'.clock = s.clock ∨ ∃ t, a = .tick t ∧ s'.clock = t := by
  cases stepped h with
  | tick => exact .inr ⟨_, rfl, rfl⟩
  | go hgo => exact .inl (advance_clock hgo)
  | _ => exact .inl rfl

/-- Every process knows what its program point says, and the families in
the table were drawn. -/
abbrev Coherent (c : SessionConf) : Prop := Holds Shared.Drawn Pc.Local c

section Coherent

variable {c c' : SessionConf} {ok : SessionConf → Nat → Act → Prop} {i : Nat} {a : Act}
  {s : Shared} {pc : Pc}

section

variable (h : Coherent c) (hprog : sessionProgram i a c.shared (c.procs i) = some (s, pc))
include h hprog

theorem Coherent.kept : Kept i c.shared (c.procs i) s pc :=
  sessionProgram_kept h.shared (h.procs i) hprog

theorem Coherent.set : Coherent (c.set i s pc) := by
  have hlocal : ∀ (i : Nat) (a : Act) s p s' p', s.Drawn → p.Local i s →
      sessionProgram i a s p = some (s', p') → s'.Drawn ∧ p'.Local i s' ∧ Rely i s s' := by
    intro i a s p s' p' hd hl hp
    have hkept := sessionProgram_kept hd hl hp
    exact ⟨hkept.rely.drawn hd, hkept.locally, hkept.rely⟩
  exact Holds.step hlocal (fun _ _ _ _ _ hne _ hl hr => hl.stable hr hne) h hprog

omit hprog in
theorem Coherent.steps (hrun : Steps sessionProgram ok c c') : Coherent c' :=
  hrun.invariant (fun _ _ _ _ _ hc _ hprog => hc.set hprog) h

/-- **Each step of the service is at most one operation of the store.** -/
theorem Coherent.store_step :
    s.store = c.shared.store ∨ ∃ ch op, a = .go ch ∧ (c.procs i).commits = some op ∧
      StoreStep op c.shared.store s.store := by
  cases stepped hprog with
  | @go ch =>
    rcases (h.kept hprog).commits with heq | ⟨op, hop, hstep⟩
    · exact .inl heq
    · exact .inr ⟨ch, op, rfl, hop, hstep⟩
  | tick | configure | start => exact .inl rfl
  | fail hrunning => exact .inl (funext Db.quiet_rollback.committed_eq)

end

theorem coherent_initial (cfg : JwtConfig) (clock : OffsetDateTime) :
    Coherent (initial cfg clock) :=
  ⟨fun k r h => (by cases h), fun i k h => (by cases h)⟩

theorem Reachable.coherent (h : Reachable c) : Coherent c := by
  obtain ⟨cfg, clock, hrun⟩ := h
  exact (coherent_initial cfg clock).steps hrun

theorem Reachable.store (h : Reachable c) : StoreReachable c.shared.store := by
  obtain ⟨cfg, clock, hrun⟩ := h
  have hboth : Coherent c ∧ StoreReachable c.shared.store := by
    refine hrun.invariant (I := fun c => Coherent c ∧ StoreReachable c.shared.store) ?_
      ⟨coherent_initial cfg clock, .empty⟩
    rintro c i a s pc ⟨hc, hs⟩ - hprog
    refine ⟨hc.set hprog, ?_⟩
    rcases hc.store_step hprog with heq | ⟨_, op, _, _, hstep⟩
    · exact heq ▸ hs
    · exact hs.step hstep
  exact hboth.2

theorem Coherent.steps_evolves (h : Coherent c) (hrun : Steps sessionProgram ok c c') {k : Uuid}
    {r : SessionRow} (hr : c.shared.store k = some r) :
    ∃ r', c'.shared.store k = some r' ∧ Evolves r.val r'.val := by
  have hboth : Coherent c' ∧ ∃ r', c'.shared.store k = some r' ∧ Evolves r.val r'.val := by
    refine hrun.invariant
      (I := fun c => Coherent c ∧ ∃ r', c.shared.store k = some r' ∧ Evolves r.val r'.val) ?_
      ⟨h, r, hr, .refl _⟩
    rintro c i a s pc ⟨hc, r', hr', hev⟩ - hprog
    obtain ⟨r'', hr'', hev'⟩ := (hc.kept hprog).rely.evolves hr'
    exact ⟨hc.set hprog, r'', hr'', hev.trans hev'⟩
  exact hboth.2

end Coherent

end AuthApi
