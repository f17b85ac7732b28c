import AuthApi.Lifetime
import AuthApi.SessionRefinement

/-!
# A family is one path

Refreshing a sign-in again and again leaves a row behind each time. In
every committed state these rows form a single path: each points to the
one that replaced it, the last points nowhere, and only the last can
still be unrevoked (`family_is_path`). The argument is about the store:
a rotation locks a row that is not revoked, which the constraints allow
only for the end of the path, and puts the new row behind it.
`SessionRefinement` carries it to every interleaving of the requests.
-/

namespace AuthApi

/-- `path` follows the links of the table and ends at a row without
one. -/
def IsPath (t : Store) : List Uuid → Prop
  | [] => True
  | [k] => ∃ r, t k = some r ∧ r.val.replacedBySessionId = none
  | a :: b :: rest => t.Link a b ∧ IsPath t (b :: rest)

/-- The sessions of a family, in the order of their rotations. -/
structure FamilyPath (t : Store) (family : Uuid) (path : List Uuid) : Prop where
  mem : ∀ k, k ∈ path ↔ ∃ r, t k = some r ∧ r.val.sessionFamilyId = family
  nodup : path.Nodup
  links : IsPath t path
  /-- The path starts at the session of the sign-in. -/
  first : ∀ k ∈ path.head?, ∀ r, t k = some r → r.val.familyCreatedAt = r.val.createdAt

/-! ## Paths -/

variable {t t' : Store} {old r₁ r₂ new : SessionRow} {k₁ k₂ family : Uuid} {path : List Uuid}

theorem IsPath.congr :
    ∀ {path : List Uuid}, IsPath t path →
      (∀ k ∈ path, ∀ r, t k = some r →
        ∃ r', t' k = some r' ∧ r'.val.replacedBySessionId = r.val.replacedBySessionId) →
      IsPath t' path
  | [], _, _ => trivial
  | [k], ⟨r, hr, hnone⟩, hsame => by
      obtain ⟨r', hr', heq⟩ := hsame k List.mem_cons_self r hr
      exact ⟨r', hr', heq.trans hnone⟩
  | a :: b :: rest, ⟨⟨r, hr, hb⟩, hrest⟩, hsame => by
      obtain ⟨r', hr', heq⟩ := hsame a List.mem_cons_self r hr
      exact ⟨⟨r', hr', heq.trans hb⟩,
        hrest.congr fun k hk => hsame k (List.mem_cons_of_mem _ hk)⟩

/-- Replacing the row of a path that points nowhere makes the path longer
by one. -/
theorem IsPath.extend {oldId newId : Uuid} (hold : t oldId = some old)
    (hend : old.val.replacedBySessionId = none) (hlink : t'.Link oldId newId)
    (hnew : ∃ r, t' newId = some r ∧ r.val.replacedBySessionId = none) :
    ∀ {path : List Uuid}, IsPath t path → oldId ∈ path →
      (∀ k ∈ path, k ≠ oldId → t' k = t k) → IsPath t' (path ++ [newId])
  | [], _, hmem, _ => by cases hmem
  | [k], _, hmem, _ => by
      obtain rfl := List.mem_singleton.mp hmem
      exact ⟨hlink, hnew⟩
  | a :: b :: rest, ⟨⟨r, hr, hb⟩, hrest⟩, hmem, hsame => by
      -- The head points to `b`, so it is not the row that was replaced.
      have hne : a ≠ oldId := by
        rintro rfl
        rw [hold] at hr
        rw [← Option.some.inj hr, hend] at hb
        cases hb
      have hmem' : oldId ∈ b :: rest := by
        rcases List.mem_cons.mp hmem with heq | hmem'
        · exact absurd heq.symm hne
        · exact hmem'
      exact ⟨⟨r, (hsame a List.mem_cons_self hne).trans hr, hb⟩,
        IsPath.extend hold hend hlink hnew hrest hmem'
          fun k hk => hsame k (List.mem_cons_of_mem _ hk)⟩

/-- At most one row of a path is unrevoked: the constraints tie a link to
a revocation, and all rows but the last have a link. -/
theorem IsPath.unrevoked_unique (hr₁ : t k₁ = some r₁) (hr₂ : t k₂ = some r₂)
    (h₁ : r₁.val.revokedAt = none) (h₂ : r₂.val.revokedAt = none) :
    ∀ {path : List Uuid}, IsPath t path → k₁ ∈ path → k₂ ∈ path → k₁ = k₂
  | [], _, hmem, _ => by cases hmem
  | [k], _, hmem₁, hmem₂ => by
      rw [List.mem_singleton.mp hmem₁, List.mem_singleton.mp hmem₂]
  | a :: b :: rest, ⟨⟨r, hr, hb⟩, hrest⟩, hmem₁, hmem₂ => by
      have hnot : ∀ {k : Uuid} {r' : SessionRow}, t k = some r' → r'.val.revokedAt = none →
          k ∈ a :: b :: rest → k ∈ b :: rest := by
        intro k r' hr' hlive hmem
        rcases List.mem_cons.mp hmem with rfl | hmem'
        · rw [hr] at hr'
          rw [Option.some.inj hr', r'.property.replacedBy_none hlive] at hb
          cases hb
        · exact hmem'
      exact hrest.unrevoked_unique hr₁ hr₂ h₁ h₂ (hnot hr₁ h₁ hmem₁) (hnot hr₂ h₂ hmem₂)

theorem IsPath.kin (hl : t.Linked) :
    ∀ {path : List Uuid}, IsPath t path → ∀ k₀ ∈ path.head?, ∀ r₀, t k₀ = some r₀ →
      ∀ k ∈ path, ∀ r, t k = some r → Kin r₀.val r.val
  | [], _, _, h₀, _, _ => by cases h₀
  | [k], _, k₀, h₀, r₀, hr₀ => by
      cases h₀
      intro k' hk' r hr
      rw [List.mem_singleton.mp hk', hr₀] at hr
      exact Option.some.inj hr ▸ .refl _
  | a :: b :: rest, ⟨⟨ra, hra, hb⟩, hrest⟩, k₀, h₀, r₀, hr₀ => by
      cases h₀
      rw [hra] at hr₀
      obtain rfl := Option.some.inj hr₀
      intro k hk r hr
      rcases List.mem_cons.mp hk with rfl | hk'
      · rw [hra] at hr
        exact Option.some.inj hr ▸ .refl _
      · obtain ⟨rb, hrb, hkin⟩ := hl _ ra b hra hb
        exact hkin.trans (hrest.kin hl b rfl rb hrb k hk' r hr)

/-! ## Operations of the store -/

theorem FamilyPath.issue (h : FamilyPath t family path) (hfree : t new.val.id = none)
    (hfamily : ∀ k r, t k = some r → r.val.sessionFamilyId ≠ new.val.sessionFamilyId)
    (hnew : new.val.revokedAt = none) (hfirst : new.val.familyCreatedAt = new.val.createdAt) :
    ∃ path', FamilyPath (Function.update t new.val.id (some new)) family path' := by
  by_cases heq : new.val.sessionFamilyId = family
  · -- The sign-in opens this family: it had no session before.
    refine ⟨[new.val.id], fun k => ?_, List.nodup_singleton _,
      ⟨new, Function.update_self _ _ _, new.property.replacedBy_none hnew⟩, ?_⟩
    · rw [List.mem_singleton]
      constructor
      · rintro rfl
        exact ⟨new, Function.update_self _ _ _, heq⟩
      · rintro ⟨r, hr, hfam⟩
        by_contra hne
        rw [Function.update_of_ne hne] at hr
        exact hfamily k r hr (hfam.trans heq.symm)
    · intro k hk r hr
      cases hk
      rw [Function.update_self] at hr
      exact Option.some.inj hr ▸ hfirst
  · have hne : ∀ k ∈ path, k ≠ new.val.id := by
      rintro k hk rfl
      obtain ⟨r, hr, -⟩ := (h.mem _).mp hk
      simp [hfree] at hr
    refine ⟨path, fun k => ?_, h.nodup, h.links.congr fun k hk r hr => ⟨r, ?_, rfl⟩, ?_⟩
    · rw [h.mem]
      by_cases hk : k = new.val.id
      · subst hk
        simp [hfree, heq]
      · rw [Function.update_of_ne hk]
    · rw [Function.update_of_ne (hne k hk), hr]
    · intro k hk r hr
      rw [Function.update_of_ne (hne k (List.mem_of_mem_head? hk))] at hr
      exact h.first k hk r hr

theorem FamilyPath.rotate {rotated : SessionRow} (h : FamilyPath t family path)
    (hold : t old.val.id = some old) (hlive : old.val.revokedAt = none)
    (hfree : t new.val.id = none)
    (hrotated : rotated.val = old.val.rotatedInto new.val.createdAt new.val.id)
    (hnew : new.val.revokedAt = none) (hkin : Kin old.val new.val) :
    ∃ path', FamilyPath
      (Function.update (Function.update t old.val.id (some rotated)) new.val.id (some new))
      family path' := by
  have hne : old.val.id ≠ new.val.id := by
    intro heq
    rw [heq, hfree] at hold
    cases hold
  have hnotin : new.val.id ∉ path := by
    intro hmem
    obtain ⟨r, hr, -⟩ := (h.mem _).mp hmem
    simp [hfree] at hr
  have hother : ∀ k, k ≠ new.val.id → k ≠ old.val.id → Function.update
      (Function.update t old.val.id (some rotated)) new.val.id (some new) k = t k := by
    intro k h₁ h₂
    rw [Function.update_of_ne h₁, Function.update_of_ne h₂]
  have hself : Function.update (Function.update t old.val.id (some rotated)) new.val.id
      (some new) old.val.id = some rotated := by
    rw [Function.update_of_ne hne, Function.update_self]
  by_cases heq : old.val.sessionFamilyId = family
  · -- The rotated row is the end of this path.
    have hmem : old.val.id ∈ path := (h.mem _).mpr ⟨old, hold, heq⟩
    refine ⟨path ++ [new.val.id], fun k => ?_, ?_, ?_, ?_⟩
    · rw [List.mem_append, List.mem_singleton]
      by_cases h₁ : k = new.val.id
      · subst h₁
        simp [← hkin.sessionFamilyId, heq]
      · by_cases h₂ : k = old.val.id
        · subst h₂
          simp only [hmem, true_or, true_iff]
          exact ⟨rotated, hself, by rw [hrotated]; exact heq⟩
        · rw [hother k h₁ h₂, h.mem]
          simp [h₁]
    · exact List.nodup_append.mpr ⟨h.nodup, List.nodup_singleton _, by
        rintro a ha b hb rfl
        exact hnotin (List.mem_singleton.mp hb ▸ ha)⟩
    · exact IsPath.extend hold (old.property.replacedBy_none hlive)
        ⟨rotated, hself, by rw [hrotated]; rfl⟩
        ⟨new, Function.update_self _ _ _, new.property.replacedBy_none hnew⟩ h.links hmem
        fun k hk hko => hother k (fun hkn => hnotin (hkn ▸ hk)) hko
    · intro k hk r hr
      have hk' : k ∈ path.head? := by
        cases path with
        | nil => cases hmem
        | cons => exact hk
      have hkn : k ≠ new.val.id := fun hkn => hnotin (hkn ▸ List.mem_of_mem_head? hk')
      by_cases hko : k = old.val.id
      · subst hko
        rw [hself] at hr
        rw [← Option.some.inj hr, hrotated]
        exact h.first _ hk' old hold
      · rw [hother k hkn hko] at hr
        exact h.first k hk' r hr
  · have hout : ∀ k ∈ path, k ≠ new.val.id ∧ k ≠ old.val.id := by
      intro k hk
      refine ⟨fun hkn => hnotin (hkn ▸ hk), fun hko => ?_⟩
      subst hko
      obtain ⟨r, hr, hfam⟩ := (h.mem _).mp hk
      rw [hold] at hr
      exact heq (Option.some.inj hr ▸ hfam)
    refine ⟨path, fun k => ?_, h.nodup, h.links.congr fun k hk r hr => ⟨r, ?_, rfl⟩, ?_⟩
    · rw [h.mem]
      by_cases h₁ : k = new.val.id
      · subst h₁
        simp [hfree, ← hkin.sessionFamilyId, heq]
      · by_cases h₂ : k = old.val.id
        · subst h₂
          rw [hself, hold]
          simp [heq, hrotated, Session.rotatedInto]
        · rw [hother k h₁ h₂]
    · rw [hother k (hout k hk).1 (hout k hk).2, hr]
    · intro k hk r hr
      have hk' := hout k (List.mem_of_mem_head? hk)
      rw [hother k hk'.1 hk'.2] at hr
      exact h.first k hk r hr

theorem FamilyPath.revoke {rev : Revocation} {now : OffsetDateTime} (h : FamilyPath t family path)
    (hrev : ∀ k, t' k = t k ∨ ∃ r r', t k = some r ∧ rev.selects r.val = true ∧
      rev.apply now r = some r' ∧ t' k = some r') :
    FamilyPath t' family path := by
  -- Row by row, nothing the path is made of changes.
  have hsame : ∀ k r', t' k = some r' → ∃ r, t k = some r ∧ Evolves r.val r'.val ∧
      r'.val.replacedBySessionId = r.val.replacedBySessionId := by
    intro k r' hr'
    rcases hrev k with heq | ⟨r₀, r₁, hr₀, -, happly, hr₁⟩
    · exact ⟨r', heq ▸ hr', .refl _, rfl⟩
    · rw [hr'] at hr₁
      obtain rfl := Option.some.inj hr₁
      rw [Revocation.apply_eq_some happly]
      exact ⟨r₀, hr₀, rev.set_evolves now r₀.val, rev.set_replaced now r₀.val⟩
  have hstays : ∀ k r, t k = some r → ∃ r', t' k = some r' := by
    intro k r hr
    rcases hrev k with heq | ⟨r₀, r₁, -, -, -, hr₁⟩
    · exact ⟨r, heq.trans hr⟩
    · exact ⟨r₁, hr₁⟩
  refine ⟨fun k => ?_, h.nodup, h.links.congr fun k _ r hr => ?_, fun k hk r' hr' => ?_⟩
  · rw [h.mem]
    constructor
    · rintro ⟨r, hr, hfam⟩
      obtain ⟨r', hr'⟩ := hstays k r hr
      obtain ⟨r₀, hr₀, hev, -⟩ := hsame k r' hr'
      rw [hr] at hr₀
      obtain rfl := Option.some.inj hr₀
      exact ⟨r', hr', hev.kin.sessionFamilyId.symm.trans hfam⟩
    · rintro ⟨r', hr', hfam⟩
      obtain ⟨r, hr, hev, -⟩ := hsame k r' hr'
      exact ⟨r, hr, hev.kin.sessionFamilyId.trans hfam⟩
  · obtain ⟨r', hr'⟩ := hstays k r hr
    obtain ⟨r₀, hr₀, -, hnext⟩ := hsame k r' hr'
    rw [hr] at hr₀
    obtain rfl := Option.some.inj hr₀
    exact ⟨r', hr', hnext⟩
  · obtain ⟨r, hr, hev, -⟩ := hsame k r' hr'
    rw [← hev.kin.familyCreatedAt, hev.createdAt]
    exact h.first k hk r hr

theorem StoreReachable.familyPath (h : StoreReachable t) (family : Uuid) :
    ∃ path, FamilyPath t family path := by
  induction h with
  | empty =>
    exact ⟨[], fun k => by simp, List.nodup_nil, trivial, fun k hk => by cases hk⟩
  | step _ hstep ih =>
    obtain ⟨path, hpath⟩ := ih
    cases hstep with
    | issue new hfree hfamily hnew hfirst => exact hpath.issue hfree hfamily hnew hfirst
    | rotate old rotated new hold hlive hfree hrotated hnew hkin =>
      exact hpath.rotate hold hlive hfree hrotated hnew hkin
    | revoke rev now hrev => exact ⟨path, hpath.revoke hrev⟩

/-! ## Families -/

theorem StoreReachable.unrevoked_unique (h : StoreReachable t) (hr₁ : t k₁ = some r₁)
    (hr₂ : t k₂ = some r₂) (hfam : r₁.val.sessionFamilyId = r₂.val.sessionFamilyId)
    (h₁ : r₁.val.revokedAt = none) (h₂ : r₂.val.revokedAt = none) : k₁ = k₂ := by
  obtain ⟨path, hpath⟩ := h.familyPath r₁.val.sessionFamilyId
  exact hpath.links.unrevoked_unique hr₁ hr₂ h₁ h₂ ((hpath.mem _).mpr ⟨r₁, hr₁, rfl⟩)
    ((hpath.mem _).mpr ⟨r₂, hr₂, hfam.symm⟩)

theorem FamilyPath.kin (h : FamilyPath t family path) (hl : t.Linked) (hr₁ : t k₁ = some r₁)
    (hr₂ : t k₂ = some r₂) (h₁ : r₁.val.sessionFamilyId = family)
    (h₂ : r₂.val.sessionFamilyId = family) : Kin r₁.val r₂.val := by
  have hmem₁ : k₁ ∈ path := (h.mem _).mpr ⟨r₁, hr₁, h₁⟩
  have hmem₂ : k₂ ∈ path := (h.mem _).mpr ⟨r₂, hr₂, h₂⟩
  cases path with
  | nil => cases hmem₁
  | cons k₀ =>
    obtain ⟨r₀, hr₀, -⟩ := (h.mem k₀).mp List.mem_cons_self
    have hkin := h.links.kin hl k₀ rfl r₀ hr₀
    exact (hkin k₁ hmem₁ r₁ hr₁).symm.trans (hkin k₂ hmem₂ r₂ hr₂)

/-- **In every committed state, the sessions of a family are one path.**
It starts at the session of the sign-in and goes through all of them, at
most one is unrevoked, and they agree on every inherited column. -/
theorem family_is_path {c : SessionConf} (h : Reachable c) (family : Uuid) :
    (∃ path, FamilyPath c.shared.store family path) ∧
      ∀ k₁ k₂ r₁ r₂, c.shared.store k₁ = some r₁ → c.shared.store k₂ = some r₂ →
        r₁.val.sessionFamilyId = family → r₂.val.sessionFamilyId = family →
        (r₁.val.revokedAt = none → r₂.val.revokedAt = none → k₁ = k₂) ∧
          Kin r₁.val r₂.val := by
  have hstore := h.store
  obtain ⟨path, hpath⟩ := hstore.familyPath family
  refine ⟨⟨path, hpath⟩, fun k₁ k₂ r₁ r₂ hr₁ hr₂ h₁ h₂ => ⟨fun hlive₁ hlive₂ => ?_, ?_⟩⟩
  · exact hstore.unrevoked_unique hr₁ hr₂ (h₁.trans h₂.symm) hlive₁ hlive₂
  · exact hpath.kin hstore.linked hr₁ hr₂ h₁ h₂

/-- One sign-in and one refresh: the family 1 is the path from the
session 2 to the session 3. -/
def refreshedOnce : List (Nat × Act) :=
  signInSchedule 0 webSignIn 1 1 2 ++ refreshSchedule 1 ⟨1, none, none, none⟩ 2 ++
    rotateSchedule 1 3 ++ [(1, .go {})]

theorem family_is_path_refreshed_once :
    ∃ c, runFrom shortSessions (instant 100) refreshedOnce = some c ∧
      (c.shared.db.rows.map fun r => (r.val.id, r.val.sessionFamilyId, r.val.revokedAt.isSome))
        = [(3, 1, false), (2, 1, true)] ∧
      ∃ path, FamilyPath c.shared.store 1 path := by
  have hrun : (runFrom shortSessions (instant 100) refreshedOnce).map (fun c =>
      c.shared.db.rows.map fun r => (r.val.id, r.val.sessionFamilyId, r.val.revokedAt.isSome))
        = some [(3, 1, false), (2, 1, true)] := by
    decide +kernel
  obtain ⟨c, hc, hrows⟩ := Option.map_eq_some_iff.mp hrun
  exact ⟨c, hc, hrows, (family_is_path (reachable_of_runFrom hc) 1).1⟩

end AuthApi
