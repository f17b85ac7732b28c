import AuthApi.PgIndex

/-!
# Foreign keys

A row of one table names a row of another (`ref r` is the key it names).
`References` says that the named row is there: committed for a committed
row, and visible to the writer for a row not yet committed. It is kept by
every statement on either table that deletes nothing, and by the end of a
transaction on both.
-/

namespace Pg

namespace Db

variable {κ ρ κ' ρ' : Type} {key : ρ → κ} {key' : ρ' → κ'}

structure References (ref : ρ → κ') (db : Db key) (parents : Db key') : Prop where
  committed : ∀ k r, db.committed k = some r → (parents.committed (ref r)).isSome
  pending : ∀ i k r, db.pending i k = some r → (parents.view i (ref r)).isSome

/-- No row has gone, for anyone. -/
structure Grows (db db' : Db key) : Prop where
  committed : ∀ k, (db.committed k).isSome → (db'.committed k).isSome
  view : ∀ i k, (db.view i k).isSome → (db'.view i k).isSome

section Parents

variable {db db' : Db key} {i : Nat} {k : κ}

theorem Changed.grows {w : Option ρ} (hc : Changed i k w db db') : Grows db db' where
  committed k' h := by rwa [hc.committed]
  view j k' h := by
    rw [view_eq, hc.committed]
    by_cases hji : j = i
    · subst hji
      by_cases hk : k' = k
      · subst hk
        rw [hc.self]
        rw [view_eq] at h
        cases w <;> simp_all
      · rwa [hc.rest k' hk, ← view_eq]
    · rwa [hc.others j k' hji, ← view_eq]

theorem grows_commit : Grows db (db.commit i) where
  committed k h := by
    rw [commit_view]
    exact view_isSome_of_committed i h
  view j k h := by
    rw [view_eq, commit_pending, commit_view]
    split
    · rename_i hji
      exact hji ▸ h
    · rw [view_eq] at h
      cases hp : db.pending j k with
      | some => simp
      | none =>
        rw [hp] at h
        exact view_isSome_of_committed i h

end Parents

section References

variable {ref : ρ → κ'} {db db' : Db key} {parents parents' : Db key'} {i : Nat} {k : κ} {r : ρ}

section

variable (h : References ref db parents)
include h

theorem References.view (hr : db.view i k = some r) : (parents.view i (ref r)).isSome := by
  rw [view_eq, Option.orElse_eq_orElse, Option.orElse_eq_or, Option.or_eq_some_iff] at hr
  rcases hr with hr | ⟨-, hr⟩
  · exact h.pending i k r hr
  · exact view_isSome_of_committed i (h.committed k r hr)

theorem References.grows (hg : Grows parents parents') :
    References ref db parents' where
  committed k r hr := hg.committed _ (h.committed k r hr)
  pending i k r hr := hg.view i _ (h.pending i k r hr)

theorem References.changed {w : Option ρ} (hc : Changed i k w db db')
    (hw : ∀ r ∈ w, (parents.view i (ref r)).isSome) :
    References ref db' parents where
  committed k' r hr := h.committed k' r (hc.committed k' ▸ hr)
  pending j k' r hr := by
    by_cases hji : j = i
    · subst hji
      by_cases hk : k' = k
      · subst hk
        rw [hc.self, Option.orElse_eq_orElse, Option.orElse_eq_or, Option.or_eq_some_iff] at hr
        rcases hr with hr | ⟨-, hr⟩
        · exact hw r hr
        · exact h.pending j k' r hr
      · exact h.pending j k' r (hc.rest k' hk ▸ hr)
    · exact h.pending j k' r (hc.others j k' hji ▸ hr)

theorem References.replaced {old : Option ρ} [DecidableEq κ] (hr : Replaced r old db db')
    (hw : (parents.committed (ref r)).isSome) :
    References ref db' parents where
  committed k r' hk := by
    by_cases hne : k = key r
    · subst hne
      rw [hr.self] at hk
      exact Option.some.inj hk ▸ hw
    · exact h.committed k r' (hr.committed k hne ▸ hk)
  pending j k r' hk := h.pending j k r' (hr.pending j k ▸ hk)

/-- An `UPDATE` that leaves the reference alone. -/
theorem References.visit [DecidableEq κ] {p : ρ → Bool} {f : ρ → Option ρ} {v : Visit ρ}
    (hkey : ∀ r r', f r = some r' → key r' = key r) (href : ∀ r r', f r = some r' → ref r' = ref r)
    (hv : db.visit i k p f = some (v, db')) : References ref db' parents := by
  rcases visit_spec hkey hv with ⟨r, r', -, hview, -, hf, hc⟩ | ⟨-, -, hc⟩ | ⟨r, -, -, -, -, hc⟩
  · refine h.changed hc fun r₁ hr₁ => ?_
    obtain rfl := Option.some.inj hr₁
    rw [href r _ hf]
    exact h.view hview
  · exact h.changed hc fun _ hr => nomatch hr
  · exact h.changed hc fun _ hr => nomatch hr

theorem References.commit (i : Nat) :
    References ref (db.commit i) (parents.commit i) where
  committed k r hr := by
    rw [commit_view] at hr ⊢
    exact h.view hr
  pending j k r hr := by
    rw [commit_pending] at hr
    split at hr
    · cases hr
    · exact grows_commit.view j _ (h.pending j k r hr)

theorem References.rollback (i : Nat) :
    References ref (db.rollback i) (parents.rollback i) where
  committed k r hr := by
    rw [(quiet_rollback (i := i)).committed_eq] at hr ⊢
    exact h.committed k r hr
  pending j k r hr := by
    rw [rollback_pending] at hr
    rw [rollback_view]
    split at hr
    · cases hr
    · rename_i hji
      rw [if_neg hji]
      exact h.pending j k r hr

end

end References

end Db

end Pg
