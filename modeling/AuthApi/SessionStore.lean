import AuthApi.SessionSystem

/-!
# The sessions table as a store of atomic operations

What the requests of `SessionSystem` do to the table, seen from the
outside: a sign-in adds a session that starts a family, a rotation adds a
session and retires the one it replaces, a revocation ends some of the
sessions it selects. `StoreStep` is this abstract machine, without locks,
snapshots or uncommitted versions; `SessionRefinement` shows that every
interleaving of the statements is a run of it.

The facts proved here are about any such run: rows only age (`Evolves`),
and a replacement is always there and of the same family (`Store.Linked`).
-/

namespace AuthApi

/-! ## Columns that are inherited, columns that stay -/

/-- The columns all sessions of a family agree on. -/
structure Kin (s t : Session) : Prop where
  userId : s.userId = t.userId
  sessionFamilyId : s.sessionFamilyId = t.sessionFamilyId
  familyCreatedAt : s.familyCreatedAt = t.familyCreatedAt
  scopes : s.scopes = t.scopes
  sessionType : s.sessionType = t.sessionType
  clientId : s.clientId = t.clientId
  mfa : s.mfa = t.mfa

theorem Kin.refl (s : Session) : Kin s s := ⟨rfl, rfl, rfl, rfl, rfl, rfl, rfl⟩

variable {s u : Session} {op : StoreOp} {t t' : Store} {k a b : Uuid} {r : SessionRow}

theorem Kin.symm {t : Session} (h : Kin s t) : Kin t s :=
  ⟨h.1.symm, h.2.symm, h.3.symm, h.4.symm, h.5.symm, h.6.symm, h.7.symm⟩

theorem Kin.trans {t : Session} (h : Kin s t) (h' : Kin t u) : Kin s u :=
  ⟨h.1.trans h'.1, h.2.trans h'.2, h.3.trans h'.3, h.4.trans h'.4, h.5.trans h'.5,
    h.6.trans h'.6, h.7.trans h'.7⟩

/-- How a row may change while it stays in the table. -/
structure Evolves (s t : Session) : Prop where
  id : t.id = s.id
  createdAt : t.createdAt = s.createdAt
  expiresAt : t.expiresAt = s.expiresAt
  tokenHash : t.tokenHash = s.tokenHash
  kin : Kin s t
  revoked : s.revokedAt.isSome → t.revokedAt.isSome
  replaced : s.replacedBySessionId.isSome → t.replacedBySessionId = s.replacedBySessionId

theorem Evolves.refl (s : Session) : Evolves s s :=
  ⟨rfl, rfl, rfl, rfl, .refl s, fun h => h, fun _ => rfl⟩

theorem Evolves.trans {t : Session} (h : Evolves s t) (h' : Evolves t u) : Evolves s u where
  id := h'.id.trans h.id
  createdAt := h'.createdAt.trans h.createdAt
  expiresAt := h'.expiresAt.trans h.expiresAt
  tokenHash := h'.tokenHash.trans h.tokenHash
  kin := h.kin.trans h'.kin
  revoked hs := h'.revoked (h.revoked hs)
  replaced hs := by
    have heq := h.replaced hs
    rw [h'.replaced (heq ▸ hs), heq]

theorem Session.rotatedInto_evolves (s : Session) (now : OffsetDateTime) (newId : Uuid)
    (h : s.replacedBySessionId = none) : Evolves s (s.rotatedInto now newId) :=
  ⟨rfl, rfl, rfl, rfl, ⟨rfl, rfl, rfl, rfl, rfl, rfl, rfl⟩, fun _ => rfl, by simp [h]⟩

/-! ## Revocations of one row -/

namespace Revocation

section

variable (rev : Revocation) (now : OffsetDateTime) (s : Session)

theorem set_evolves : Evolves s (rev.set now s) := by
  cases rev with
  | family =>
    refine ⟨rfl, rfl, rfl, rfl, ⟨rfl, rfl, rfl, rfl, rfl, rfl, rfl⟩, fun h => ?_, fun _ => rfl⟩
    simp [set]
  | _ => exact ⟨rfl, rfl, rfl, rfl, ⟨rfl, rfl, rfl, rfl, rfl, rfl, rfl⟩, fun _ => rfl, fun _ => rfl⟩

theorem set_revoked : (rev.set now s).revokedAt.isSome := by
  cases rev <;> simp [set]

theorem set_replaced : (rev.set now s).replacedBySessionId = s.replacedBySessionId := by
  cases rev <;> rfl

theorem selects_set : rev.selects (rev.set now s) = false := by
  cases rev <;> simp [set, selects]

end

variable {rev : Revocation} {s : Session}

theorem selects_of_covers (hcov : rev.covers s = true) (hrev : s.revokedAt = none) :
    rev.selects s = true := by
  cases rev <;> simp [selects, hcov, hrev]

theorem covers_of_selects (h : rev.selects s = true) : rev.covers s = true := by
  cases rev <;> simp_all [selects]

theorem apply_eq_some {now : OffsetDateTime} {r r' : SessionRow} (h : rev.apply now r = some r') :
    r'.val = rev.set now r.val :=
  Session.checked_eq_some.mp h

/-- What `Pg` asks of an `UPDATE`: it keeps the key, and what it has
written no longer matches. -/
theorem apply_updates (rev : Revocation) (now : OffsetDateTime) (r r' : SessionRow)
    (h : rev.apply now r = some r') : r'.val.id = r.val.id ∧ rev.selects r'.val = false := by
  rw [apply_eq_some h]
  exact ⟨(rev.set_evolves now r.val).id, rev.selects_set now r.val⟩

end Revocation

/-! ## The store -/

abbrev Store := Uuid → Option SessionRow

inductive StoreOp where
  | issue (new : SessionRow)
  | rotate (old rotated new : SessionRow)
  | revoke (rev : Revocation) (now : OffsetDateTime)

/-- A sign-in starts a family no session has; a rotation replaces a
session that is not revoked by one of its kin; a revocation updates some
of the sessions it selects. -/
inductive StoreStep : StoreOp → Store → Store → Prop
  | issue {t : Store} (new : SessionRow) (hfree : t new.val.id = none)
      (hfamily : ∀ k r, t k = some r → r.val.sessionFamilyId ≠ new.val.sessionFamilyId)
      (hnew : new.val.revokedAt = none) (hfirst : new.val.familyCreatedAt = new.val.createdAt) :
      StoreStep (.issue new) t (Function.update t new.val.id (some new))
  | rotate {t : Store} (old rotated new : SessionRow) (hold : t old.val.id = some old)
      (hlive : old.val.revokedAt = none) (hfree : t new.val.id = none)
      (hrotated : rotated.val = old.val.rotatedInto new.val.createdAt new.val.id)
      (hnew : new.val.revokedAt = none) (hkin : Kin old.val new.val) :
      StoreStep (.rotate old rotated new) t
        (Function.update (Function.update t old.val.id (some rotated)) new.val.id (some new))
  | revoke {t t' : Store} (rev : Revocation) (now : OffsetDateTime)
      (h : ∀ k, t' k = t k ∨ ∃ r r', t k = some r ∧ rev.selects r.val = true ∧
        rev.apply now r = some r' ∧ t' k = some r') :
      StoreStep (.revoke rev now) t t'

theorem StoreStep.evolves (h : StoreStep op t t') (hr : t k = some r) :
    ∃ r', t' k = some r' ∧ Evolves r.val r'.val := by
  cases h with
  | issue new hfree =>
    have hkn : k ≠ new.val.id := by
      rintro rfl
      simp [hr] at hfree
    exact ⟨r, by rw [Function.update_of_ne hkn, hr], .refl _⟩
  | rotate old rotated new hold hlive hfree hrotated =>
    have hkn : k ≠ new.val.id := by
      rintro rfl
      simp [hr] at hfree
    rw [Function.update_of_ne hkn]
    by_cases hko : k = old.val.id
    · subst hko
      refine ⟨rotated, by rw [Function.update_self], ?_⟩
      rw [hrotated, Option.some.inj (hr.symm.trans hold)]
      exact old.val.rotatedInto_evolves _ _ (old.property.replacedBy_none hlive)
    · exact ⟨r, by rw [Function.update_of_ne hko, hr], .refl _⟩
  | revoke rev now h =>
    rcases h k with heq | ⟨r₀, r', hr₀, -, happly, hr'⟩
    · exact ⟨r, heq.trans hr, .refl _⟩
    · rw [hr] at hr₀
      cases hr₀
      refine ⟨r', hr', ?_⟩
      rw [Revocation.apply_eq_some happly]
      exact rev.set_evolves now r.val

/-- Where a row comes from: it was there before, or a sign-in or a rotation
has just brought it in. -/
theorem StoreStep.origin (h : StoreStep op t t') (hr : t' k = some r) :
    (∃ r₀, t k = some r₀ ∧ Evolves r₀.val r.val) ∨
      (op = .issue r ∧ ∀ k' r', t k' = some r' →
        r'.val.sessionFamilyId ≠ r.val.sessionFamilyId) ∨
      ∃ old rotated, op = .rotate old rotated r ∧ t old.val.id = some old ∧
        old.val.revokedAt = none ∧ Kin old.val r.val := by
  cases hk : t k with
  | some r₀ =>
    obtain ⟨r', hr', hev⟩ := h.evolves hk
    obtain rfl := Option.some.inj (hr.symm.trans hr')
    exact .inl ⟨r₀, rfl, hev⟩
  | none =>
    right
    cases h with
    | issue new hfree hfamily =>
      by_cases hkn : k = new.val.id
      · rw [hkn, Function.update_self] at hr
        obtain rfl := Option.some.inj hr
        exact .inl ⟨rfl, hfamily⟩
      · rw [Function.update_of_ne hkn, hk] at hr
        cases hr
    | rotate old rotated new hold hlive hfree hrotated hnew hkin =>
      by_cases hkn : k = new.val.id
      · rw [hkn, Function.update_self] at hr
        obtain rfl := Option.some.inj hr
        exact .inr ⟨old, rotated, rfl, hold, hlive, hkin⟩
      · have hko : k ≠ old.val.id := by
          rintro rfl
          simp [hold] at hk
        rw [Function.update_of_ne hkn, Function.update_of_ne hko, hk] at hr
        cases hr
    | revoke rev now h =>
      rcases h k with heq | ⟨r₀, r', hr₀, -⟩
      · rw [heq, hk] at hr
        cases hr
      · rw [hk] at hr₀
        cases hr₀

theorem Evolves.unrevoked {t : Session} (h : Evolves s t) (ht : t.revokedAt = none) :
    s.revokedAt = none := by
  by_contra hs
  have hsome := h.revoked (Option.ne_none_iff_isSome.mp hs)
  rw [ht] at hsome
  cases hsome

/-! ## Links -/

/-- `b` replaces `a`. -/
def Store.Link (t : Store) (a b : Uuid) : Prop :=
  ∃ r, t a = some r ∧ r.val.replacedBySessionId = some b

/-- Reached by following `replaced_by_session_id`. -/
def Store.Reaches (t : Store) : Uuid → Uuid → Prop := Relation.ReflTransGen t.Link

/-- The foreign key of `replaced_by_session_id`, and that a replacement is
of the family it continues. -/
def Store.Linked (t : Store) : Prop :=
  ∀ k r next, t k = some r → r.val.replacedBySessionId = some next →
    ∃ r', t next = some r' ∧ Kin r.val r'.val

theorem Store.Link.of_new {new : SessionRow} (hnew : new.val.revokedAt = none)
    (hl : Store.Link (Function.update t new.val.id (some new)) a b) : t.Link a b := by
  obtain ⟨r, hr, hb⟩ := hl
  by_cases ha : a = new.val.id
  · subst ha
    rw [Function.update_self] at hr
    rw [← Option.some.inj hr, new.property.replacedBy_none hnew] at hb
    cases hb
  · exact ⟨r, by rwa [Function.update_of_ne ha] at hr, hb⟩

section

variable (h : StoreStep op t t')
include h

/-- A row that points somewhere either pointed there before, or is the one
just rotated. -/
theorem StoreStep.link_cases (hl : t'.Link a b) :
    t.Link a b ∨
      ∃ old rotated new : SessionRow, op = .rotate old rotated new ∧ a = old.val.id ∧
        b = new.val.id ∧ t a = some old ∧ old.val.revokedAt = none ∧ t b = none ∧
        t' b = some new ∧ Kin old.val new.val := by
  cases h with
  | issue new hfree hfamily hnew => exact .inl (hl.of_new hnew)
  | rotate old rotated new hold hlive hfree hrotated hnew hkin =>
    obtain ⟨r, hr, hb⟩ := hl.of_new hnew
    by_cases hao : a = old.val.id
    · subst hao
      rw [Function.update_self] at hr
      rw [← Option.some.inj hr, hrotated] at hb
      cases hb
      exact .inr ⟨old, rotated, new, rfl, rfl, rfl, hold, hlive, hfree,
        Function.update_self _ _ _, hkin⟩
    · rw [Function.update_of_ne hao] at hr
      exact .inl ⟨r, hr, hb⟩
  | revoke rev now h =>
    obtain ⟨r, hr, hb⟩ := hl
    rcases h a with heq | ⟨r₀, r', hr₀, -, happly, hr'⟩
    · exact .inl ⟨r, heq ▸ hr, hb⟩
    · rw [hr] at hr'
      cases hr'
      rw [Revocation.apply_eq_some happly, Revocation.set_replaced] at hb
      exact .inl ⟨r₀, hr₀, hb⟩

theorem StoreStep.linked (hl : t.Linked) : t'.Linked := by
  intro k r next hr hnext
  rcases h.link_cases ⟨r, hr, hnext⟩ with ⟨r₀, hr₀, hnext₀⟩ | ⟨old, rotated, new, -, -, -,
      hold, -, -, hnew, hkin⟩
  · obtain ⟨r₁, hr₁, hkin⟩ := hl k r₀ next hr₀ hnext₀
    obtain ⟨r', hr', hev'⟩ := h.evolves hr₁
    obtain ⟨r₂, hr₂, hev⟩ := h.evolves hr₀
    rw [hr] at hr₂
    cases hr₂
    exact ⟨r', hr', hev.kin.symm.trans (hkin.trans hev'.kin)⟩
  · obtain ⟨r₂, hr₂, hev⟩ := h.evolves hold
    rw [hr] at hr₂
    cases hr₂
    exact ⟨new, hnew, hev.kin.symm.trans hkin⟩

theorem StoreStep.link (hl : t.Link a b) : t'.Link a b := by
  obtain ⟨r, hr, hb⟩ := hl
  obtain ⟨r', hr', hev⟩ := h.evolves hr
  exact ⟨r', hr', by rw [hev.replaced (by simp [hb]), hb]⟩

theorem StoreStep.reaches (hr : t.Reaches a b) : t'.Reaches a b :=
  Relation.ReflTransGen.mono (fun _ _ => h.link) _ _ hr

/-- What is reached after a step was reached before, or is the session a
rotation has just put behind one that was. -/
theorem StoreStep.reaches_cases (hr : t'.Reaches a b) :
    t.Reaches a b ∨
      ∃ old rotated new : SessionRow, op = .rotate old rotated new ∧ b = new.val.id ∧
        t.Reaches a old.val.id ∧ t old.val.id = some old ∧ old.val.revokedAt = none ∧
        t b = none ∧ t'.Link old.val.id b := by
  induction hr with
  | refl => exact .inl .refl
  | tail _ hl ih =>
    rcases ih with hm | ⟨_, _, _, _, _, _, _, _, hnone, _⟩
    · rcases h.link_cases hl with hlink | ⟨old, rotated, new, hop, rfl, hb, hold, hlive, hnone,
        -, -⟩
      · exact .inl (hm.tail hlink)
      · exact .inr ⟨old, rotated, new, hop, hb, hm, hold, hlive, hnone, hl⟩
    · -- A session that was just added points nowhere.
      rcases h.link_cases hl with ⟨r, hr, -⟩ | ⟨old, _, _, _, _, _, hold, _⟩
      · rw [hnone] at hr
        cases hr
      · rw [hnone] at hold
        cases hold

end

theorem Store.Linked.kin_of_reaches (hl : t.Linked) {ra : SessionRow} (hra : t a = some ra)
    (hr : t.Reaches a b) : ∃ rb, t b = some rb ∧ Kin ra.val rb.val := by
  induction hr with
  | refl => exact ⟨ra, hra, .refl _⟩
  | tail _ hlink ih =>
    obtain ⟨rm, hrm, hkin⟩ := ih
    obtain ⟨r, hr, hnext⟩ := hlink
    rw [hr] at hrm
    obtain rfl := Option.some.inj hrm
    obtain ⟨rb, hrb, hkin'⟩ := hl _ r _ hr hnext
    exact ⟨rb, hrb, hkin.trans hkin'⟩

/-- Stores reached from the empty one. -/
inductive StoreReachable : Store → Prop
  | empty : StoreReachable fun _ => none
  | step {op : StoreOp} {t t' : Store} (h : StoreReachable t) (hstep : StoreStep op t t') :
      StoreReachable t'

theorem StoreReachable.linked (h : StoreReachable t) : t.Linked := by
  induction h with
  | empty => intro k r next hr; cases hr
  | step _ hstep ih => exact hstep.linked ih

end AuthApi
