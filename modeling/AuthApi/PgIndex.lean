import AuthApi.Pg

/-!
# Single statements and unique indexes

Two things a table needs beyond `Pg`.

A statement sent outside a transaction is a transaction of its own: it
waits for the lock of the row it has found, and its effect is committed
with it (`update`, `insertNow`).

A unique index (`ix r` is the indexed value of a row, if the index covers
it) makes the writer of a value wait for a transaction that is about to
add or to remove that value, and fail where the value is there to stay
(`conflict`). `Unique` is what that buys: no transaction sees two rows
with one value, and no two transactions are about to write the same one.

Proofs about a table go through what is committed (`committed`) and what
each transaction has written (`pending`); every statement is described by
what it does to the two (`Changed`).
-/

namespace Pg

/-- A version of the row has the indexed value `x`. -/
def Slot.mentions {ρ ι : Type} [DecidableEq ι] (ix : ρ → Option ι) (x : ι) (s : Slot ρ) : Bool :=
  s.committed.any (ix · = some x) || s.lock.any fun (_, v) => v.any (ix · = some x)

namespace Db

variable {κ ρ ι : Type} {key : ρ → κ} {db : Db key} {k : κ} {i : Nat} {r : ρ}

/-- What transaction `i` has written of the row `k`. -/
def pending (db : Db key) (i : Nat) (k : κ) : Option ρ := (db.slot k).pending i

theorem view_eq (db : Db key) (i : Nat) (k : κ) :
    db.view i k = (db.pending i k <|> db.committed k) := rfl

theorem view_isSome_of_committed (i : Nat) (h : (db.committed k).isSome) :
    (db.view i k).isSome := by
  rw [view_eq]
  cases db.pending i k <;> simp [h]

theorem view_of_unwritten (h : db.pending i k = none) : db.view i k = db.committed k := by
  rw [view_eq, h]
  rfl

theorem view_of_written (h : db.pending i k = some r) : db.view i k = some r := by
  rw [view_eq, h]
  rfl

theorem view_cases (h : db.view i k = some r) :
    db.pending i k = some r ∨ db.pending i k = none ∧ db.committed k = some r := by
  cases hpending : db.pending i k with
  | some => exact .inl ((view_of_written hpending).symm.trans h)
  | none => exact .inr ⟨rfl, (view_of_unwritten hpending).symm.trans h⟩

theorem committed_cases (i : Nat) (h : db.committed k = some r) :
    (∃ r', db.pending i k = some r') ∨ db.view i k = some r := by
  cases hpending : db.pending i k with
  | some r' => exact .inl ⟨r', rfl⟩
  | none => exact .inr ((view_of_unwritten hpending).trans h)

theorem pending_unique {j : Nat} {r' : ρ} (hi : db.pending i k = some r)
    (hj : db.pending j k = some r') : i = j := by
  have hi' := Slot.pending_eq_some.mp hi
  have hj' := Slot.pending_eq_some.mp hj
  rw [hi'] at hj'
  simp only [Option.some.injEq, Prod.mk.injEq] at hj'
  exact hj'.1

theorem holder_of_pending (h : db.pending i k = some r) : db.holder k = some i := by
  simp [holder, Slot.holder, Slot.pending_eq_some.mp h]

theorem pending_of_holder (h : db.holder k ≠ some i) : db.pending i k = none :=
  Slot.pending_eq_none h

theorem key_of_view (h : db.view i k = some r) : key r = k :=
  db.keyed k r (Slot.has_of_view h)

/-- The rows a statement of transaction `i` reads. -/
def viewed (db : Db key) (i : Nat) : List ρ := db.keys.filterMap (db.view i)

theorem mem_viewed : r ∈ db.viewed i ↔ db.view i (key r) = some r := by
  simp only [viewed, List.mem_filterMap]
  constructor
  · rintro ⟨k, -, h⟩
    rw [key_of_view h]
    exact h
  · exact fun h => ⟨key r, mem_keys (Slot.has_of_view h), h⟩

variable [DecidableEq κ]

/-! ## Statements outside a transaction -/

/-- The row `r` is committed in place of its old version. -/
def replace (db : Db key) (r : ρ) : Db key :=
  if h : key r ∈ db.keys then
    db.put (key r) ⟨some r, (db.slot (key r)).lock⟩ h (by
      rintro r' (h' | ⟨j, h'⟩)
      · cases h'
        rfl
      · exact db.keyed _ _ (.inr ⟨j, h'⟩))
  else db

/-- `UPDATE … SET f WHERE p` on the row `k`. `none` while another
transaction holds its lock. -/
def update (db : Db key) (k : κ) (p : ρ → Bool) (f : ρ → Option ρ) :
    Option (Visit ρ × Db key) :=
  match db.committed k with
  | none => some (.skipped, db)
  | some r =>
    if p r then
      if (db.holder k).isSome then none
      else
        match f r with
        | some r' => some (.updated r', db.replace r')
        | none => some (.violation, db)
    else some (.skipped, db)

/-- `INSERT`; `none` is a violation of the primary key. -/
def insertNow (db : Db key) (r : ρ) : Option (Db key) :=
  if (db.slot (key r)).committed.isNone && (db.slot (key r)).lock.isNone then
    some
      { keys := key r :: db.keys
        slot := Function.update db.slot (key r) ⟨some r, none⟩
        known := by
          intro k hk
          rw [List.mem_cons, not_or] at hk
          rw [Function.update_of_ne hk.1]
          exact db.known k hk.2
        keyed := by
          intro k r' h
          by_cases hne : k = key r
          · subst hne
            rw [Function.update_self] at h
            rcases h with h | ⟨j, h⟩ <;> cases h
            rfl
          · rw [Function.update_of_ne hne] at h
            exact db.keyed k r' h }
  else none

/-! ## What a statement changes -/

/-- Transaction `i` has written `r` of the row `k`, or nothing; the rest
is as it was. -/
structure Changed (i : Nat) (k : κ) (w : Option ρ) (db db' : Db key) : Prop where
  committed : ∀ k', db'.committed k' = db.committed k'
  others : ∀ j k', j ≠ i → db'.pending j k' = db.pending j k'
  rest : ∀ k', k' ≠ k → db'.pending i k' = db.pending i k'
  self : db'.pending i k = (w <|> db.pending i k)
  alone : ∀ r ∈ w, ∀ j, j ≠ i → db.pending j k = none

/-- The row `r` was committed by a statement of its own, in place of
`old`. -/
structure Replaced (r : ρ) (old : Option ρ) (db db' : Db key) : Prop where
  committed : ∀ k, k ≠ key r → db'.committed k = db.committed k
  self : db'.committed (key r) = some r
  old : db.committed (key r) = old
  pending : ∀ j k, db'.pending j k = db.pending j k
  alone : ∀ j, db.pending j (key r) = none

section Effects

variable {db db' : Db key} {i j : Nat} {k k' : κ} {r : ρ} {f : ρ → Option ρ} {p : ρ → Bool}
  {v : Visit ρ} {row : Option ρ}

theorem acquire_pending (hfree : (db.slot k).free i = true) (j : Nat) (k' : κ) :
    (db.acquire i k).pending j k' = db.pending j k' := by
  by_cases hne : k' = k
  · subst hne
    cases hview : db.view i k' with
    | none => rw [acquire, dif_neg (by simp [hview])]
    | some =>
      show ((db.acquire i k').slot k').pending j = (db.slot k').pending j
      rw [acquire_eq hview]
      by_cases hji : j = i
      · subst hji
        simp [Slot.acquire, Slot.pending]
      · rw [Slot.pending_eq_none (i := j)]
        · rcases Slot.free_iff.mp hfree with h | h <;>
            exact (Slot.pending_eq_none (by rw [h]; simp [Ne.symm hji])).symm
        · simp [Ne.symm hji]
  · show ((db.acquire i k).slot k').pending j = _
    rw [acquire_of_ne hne]
    rfl

theorem changed_acquire (hfree : (db.slot k).free i = true) :
    Changed i k none db (db.acquire i k) where
  committed k' := (quiet_acquire hfree).committed_eq k'
  others j k' _ := acquire_pending hfree j k'
  rest k' _ := acquire_pending hfree i k'
  self := acquire_pending hfree i k
  alone := nofun

theorem changed_write (hheld : db.holder (key r) = some i) :
    Changed i (key r) (some r) db (db.write i r) where
  committed k' := quiet_write.committed_eq k'
  others j k' hji := by
    by_cases hne : k' = key r
    · subst hne
      show ((db.write i r).slot (key r)).pending j = (db.slot (key r)).pending j
      rw [write_eq hheld, Slot.pending_eq_none, Slot.pending_eq_none]
      · exact fun h => hji (Option.some.inj (h.symm.trans hheld))
      · simp [Ne.symm hji]
    · show ((db.write i r).slot k').pending j = _
      rw [write_of_ne hne]
      rfl
  rest k' hne := by
    show ((db.write i r).slot k').pending i = _
    rw [write_of_ne hne]
    rfl
  self := by
    show ((db.write i r).slot (key r)).pending i = _
    rw [write_eq hheld]
    simp [Slot.write, Slot.pending]
  alone r' _ j hji := pending_of_holder fun h => hji (Option.some.inj (h.symm.trans hheld))

omit [DecidableEq κ] in
theorem Changed.refl : Changed i k none db db :=
  ⟨fun _ => rfl, fun _ _ _ => rfl, fun _ _ => rfl, rfl, nofun⟩

omit [DecidableEq κ] in
theorem Changed.trans {db'' : Db key} {w : Option ρ} (h : Changed i k none db db')
    (h' : Changed i k w db' db'') : Changed i k w db db'' where
  committed k' := (h'.committed k').trans (h.committed k')
  others j k' hji := (h'.others j k' hji).trans (h.others j k' hji)
  rest k' hne := (h'.rest k' hne).trans (h.rest k' hne)
  self := by
    rw [h'.self, h.self]
    rfl
  alone r hr j hji := (h.others j k hji).symm.trans (h'.alone r hr j hji)

section

variable (hkey : ∀ r r', f r = some r' → key r' = key r) (h : db.visit i k p f = some (v, db'))
include hkey h

/-- The row an `UPDATE` came to: it is written if it matches and passes
the constraints. -/
theorem visit_spec :
    (∃ r r', v = .updated r' ∧ db.view i k = some r ∧ p r = true ∧ f r = some r' ∧
        Changed i k (some r') db db') ∨
      (v = .skipped ∧ (∀ r, db.view i k = some r → p r = false) ∧ Changed i k none db db') ∨
      ∃ r, v = .violation ∧ db.view i k = some r ∧ p r = true ∧ f r = none ∧
        Changed i k none db db' := by
  unfold visit at h
  split at h
  · rename_i hfree
    split at h
    · rename_i hview
      cases h
      exact .inr (.inl ⟨rfl, by simp [hview], .refl⟩)
    · rename_i r hview
      split at h
      · rename_i hp
        split at h <;> cases h
        · rename_i r' hf
          have hk : key r' = k := (hkey r r' hf).trans (key_of_view hview)
          subst hk
          have hheld : (db.acquire i (key r')).holder (key r') = some i := by
            simp [holder, acquire_eq hview]
          exact .inl ⟨r, r', rfl, hview, hp, hf,
            (changed_acquire hfree).trans (changed_write hheld)⟩
        · rename_i hf
          exact .inr (.inr ⟨r, rfl, hview, hp, hf, changed_acquire hfree⟩)
      · rename_i hp
        cases h
        refine .inr (.inl ⟨rfl, ?_, changed_acquire hfree⟩)
        intro r' hr'
        rw [hview] at hr'
        cases hr'
        simpa using hp
  · cases h

theorem visit_changed :
    ∃ w, Changed i k w db db' ∧
      (∀ r' ∈ w, ∃ r, db.view i k = some r ∧ p r = true ∧ f r = some r') ∧
      ∀ r', v = .updated r' → w = some r' := by
  rcases visit_spec hkey h with ⟨r, r', rfl, hview, hp, hf, hc⟩ | ⟨rfl, -, hc⟩ |
    ⟨r, rfl, -, -, -, hc⟩
  · refine ⟨some r', hc, ?_, ?_⟩
    · rintro _ ⟨⟩
      exact ⟨r, hview, hp, hf⟩
    · rintro _ ⟨⟩
      rfl
  · exact ⟨none, hc, (fun _ hw => nomatch hw), fun _ hv => nomatch hv⟩
  · exact ⟨none, hc, (fun _ hw => nomatch hw), fun _ hv => nomatch hv⟩

end

theorem changed_insert (h : db.insert i r = some db') : Changed i (key r) (some r) db db' := by
  obtain ⟨hempty, hself, hother⟩ := insert_eq_some h
  have hpending : ∀ j, db.pending j (key r) = none := by
    intro j
    simp [pending, hempty, Slot.empty, Slot.pending]
  refine ⟨fun k' => (quiet_insert h).committed_eq k', fun j k' hji => ?_, fun k' hne => ?_, ?_,
    fun _ _ j _ => hpending j⟩
  · by_cases hne : k' = key r
    · subst hne
      rw [hpending]
      simp [pending, hself, Slot.pending, Ne.symm hji]
    · simp [pending, hother k' hne]
  · simp [pending, hother k' hne]
  · simp [pending, hself, Slot.pending]

theorem replaced_replace {old : ρ} (hold : db.committed (key r) = some old)
    (hholder : db.holder (key r) = none) : Replaced r (some old) db (db.replace r) := by
  have hmem : key r ∈ db.keys := mem_keys (.inl hold)
  have hslot : ∀ k, k ≠ key r → (db.replace r).slot k = db.slot k := by
    intro k hne
    rw [replace, dif_pos hmem, put_slot_of_ne hne]
  have hself : (db.replace r).slot (key r) = ⟨some r, (db.slot (key r)).lock⟩ := by
    rw [replace, dif_pos hmem, put_slot_self]
  refine ⟨fun k hne => ?_, ?_, hold, fun j k => ?_, fun j => ?_⟩
  · rw [committed, hslot k hne]
    rfl
  · rw [committed, hself]
  · by_cases hne : k = key r
    · subst hne
      show ((db.replace r).slot (key r)).pending j = _
      rw [hself]
      rfl
    · show ((db.replace r).slot k).pending j = _
      rw [hslot k hne]
      rfl
  · exact pending_of_holder (by simp [hholder])

theorem update_spec (hkey : ∀ r r', f r = some r' → key r' = key r)
    (h : db.update k p f = some (v, db')) :
    (∃ r r', v = .updated r' ∧ db.committed k = some r ∧ p r = true ∧ f r = some r' ∧
        key r' = k ∧ Replaced r' (some r) db db') ∨
      db' = db ∧ ((v = .skipped ∧ ∀ r, db.committed k = some r → p r = false) ∨
        ∃ r, v = .violation ∧ db.committed k = some r ∧ p r = true ∧ f r = none) := by
  unfold update at h
  split at h
  · rename_i hnone
    cases h
    exact .inr ⟨rfl, .inl ⟨rfl, by simp [hnone]⟩⟩
  · rename_i r hr
    split at h
    · rename_i hp
      split at h
      · cases h
      · rename_i hholder
        split at h <;> cases h
        · rename_i r' hf
          have hk : key r' = k := (hkey r r' hf).trans (key_of_committed hr)
          subst hk
          refine .inl ⟨r, r', rfl, hr, hp, hf, rfl, replaced_replace hr ?_⟩
          exact Option.not_isSome_iff_eq_none.mp hholder
        · rename_i hf
          exact .inr ⟨rfl, .inr ⟨r, rfl, hr, hp, hf⟩⟩
    · rename_i hp
      cases h
      refine .inr ⟨rfl, .inl ⟨rfl, ?_⟩⟩
      intro r' hr'
      rw [hr] at hr'
      cases hr'
      simpa using hp

theorem insertNow_spec (h : db.insertNow r = some db') : Replaced r none db db' := by
  unfold insertNow at h
  split at h <;> cases h
  rename_i hfree
  rw [Bool.and_eq_true, Option.isNone_iff_eq_none, Option.isNone_iff_eq_none] at hfree
  refine ⟨fun k hne => ?_, ?_, hfree.1, fun j k => ?_, fun j => ?_⟩
  · simp [committed, hne]
  · simp [committed]
  · by_cases hne : k = key r
    · subst hne
      simp [pending, Slot.pending, hfree.2]
    · simp [pending, hne]
  · simp [pending, Slot.pending, hfree.2]

omit [DecidableEq κ] in
theorem commit_view (i : Nat) (k : κ) : (db.commit i).committed k = db.view i k := by
  rw [commit_committed]
  split
  · rfl
  · rename_i hne
    exact (Slot.view_of_not_held hne).symm

omit [DecidableEq κ] in
theorem pending_ended (i j : Nat) (k : κ) (r : Option ρ) :
    (if db.holder k = some i then (⟨r, none⟩ : Slot ρ) else db.slot k).pending j =
      if j = i then none else db.pending j k := by
  split
  · rename_i hheld
    split
    · rfl
    · rename_i hji
      have hnone : db.pending j k = none :=
        pending_of_holder fun h => hji (Option.some.inj (h.symm.trans hheld))
      exact hnone.symm
  · rename_i hheld
    split
    · rename_i hji
      exact hji ▸ Slot.pending_eq_none hheld
    · rfl

omit [DecidableEq κ] in
theorem commit_pending (i j : Nat) (k : κ) :
    (db.commit i).pending j k = if j = i then none else db.pending j k :=
  pending_ended i j k _

omit [DecidableEq κ] in
theorem rollback_pending (i j : Nat) (k : κ) :
    (db.rollback i).pending j k = if j = i then none else db.pending j k :=
  pending_ended i j k _

/-! ### Statements of a transaction, and its locks -/

omit [DecidableEq κ] in
theorem Guar.holder_eq (h : Guar i db db') (hne : j ≠ i) (hk : db.holder k = some j) :
    db'.holder k = some j := by
  rw [holder, h.others k j hne hk]
  exact hk

omit [DecidableEq κ] in
theorem Guar.pending_eq (h : Guar i db db') (hne : j ≠ i) (k : κ) :
    db'.pending j k = db.pending j k := by
  by_cases hk : db.holder k = some j
  · rw [pending, h.others k j hne hk]
    rfl
  · rw [pending_of_holder hk, pending_of_holder fun hk' => hk (h.grants k j hne hk')]

/-- A statement of transaction `i` short of `COMMIT`: as `Quiet`, and the
locks of the transaction stay. -/
structure Statement (i : Nat) (db db' : Db key) : Prop where
  quiet : Quiet i db db'
  locked : ∀ k, db.holder k = some i → db'.holder k = some i

theorem acquire_holder (h : db.holder k' = some i) : (db.acquire i k).holder k' = some i := by
  by_cases hne : k' = k
  · subst hne
    cases hview : db.view i k' with
    | none => rwa [acquire, dif_neg (by simp [hview])]
    | some => simp [holder, acquire_eq hview]
  · rw [holder, acquire_of_ne hne]
    exact h

theorem write_holder (h : db.holder k = some i) : (db.write i r).holder k = some i := by
  by_cases hheld : db.holder (key r) = some i
  · by_cases hne : k = key r
    · subst hne
      simp [holder, write_eq hheld]
    · rw [holder, write_of_ne hne]
      exact h
  · rwa [write, dif_neg hheld]

theorem statement_selectForUpdate (h : db.selectForUpdate i k = some (row, db')) :
    Statement i db db' := by
  refine ⟨quiet_selectForUpdate h, fun k' hk => ?_⟩
  unfold selectForUpdate at h
  split at h <;> cases h
  exact acquire_holder hk

theorem statement_visit (h : db.visit i k p f = some (v, db')) : Statement i db db' := by
  refine ⟨quiet_visit h, fun k' hk => ?_⟩
  unfold visit at h
  split at h
  · split at h
    · cases h
      exact hk
    · split at h
      · split at h <;> cases h
        · exact write_holder (acquire_holder hk)
        · exact acquire_holder hk
      · cases h
        exact acquire_holder hk
  · cases h

theorem statement_insert (h : db.insert i r = some db') : Statement i db db' := by
  refine ⟨quiet_insert h, fun k hk => ?_⟩
  obtain ⟨hempty, -, hother⟩ := insert_eq_some h
  by_cases hne : k = key r
  · subst hne
    rw [holder, hempty] at hk
    cases hk
  · rw [holder, hother k hne]
    exact hk

theorem visit_of_ne (hkey : ∀ r r', f r = some r' → key r' = key r)
    (h : db.visit i k p f = some (v, db')) (hne : k' ≠ k) : db'.slot k' = db.slot k' := by
  unfold visit at h
  split at h
  · split at h
    · cases h
      rfl
    · rename_i r hview
      split at h
      · split at h <;> cases h
        · rename_i r' hf
          have hk : key r' = k := (hkey r r' hf).trans (key_of_view hview)
          rw [write_of_ne (hk ▸ hne), acquire_of_ne hne]
        · exact acquire_of_ne hne
      · cases h
        exact acquire_of_ne hne
  · cases h

theorem selectForUpdate_of_ne (h : db.selectForUpdate i k = some (row, db')) (hne : k' ≠ k) :
    db'.slot k' = db.slot k' := by
  unfold selectForUpdate at h
  split at h <;> cases h
  exact acquire_of_ne hne

theorem selectForUpdate_spec (h : db.selectForUpdate i k = some (row, db')) :
    Changed i k none db db' ∧ ((db.view i k).isSome → db'.holder k = some i) := by
  unfold selectForUpdate at h
  split at h <;> cases h
  rename_i hfree
  refine ⟨changed_acquire hfree, fun hrow => ?_⟩
  obtain ⟨r, hr⟩ := Option.isSome_iff_exists.mp hrow
  simp [holder, acquire_eq hr]

/-! ### A table at rest -/

/-- A table that holds the rows, none of them locked. -/
def load (rows : List ρ) : Db key := rows.foldl (fun db r => (db.insertNow r).getD db) .empty

theorem insertNow_holder (h : db.insertNow r = some db') (hfree : ∀ k, db.holder k = none) (k : κ) :
    db'.holder k = none := by
  unfold insertNow at h
  split at h <;> cases h
  by_cases hne : k = key r
  · subst hne
    simp [holder, Slot.holder]
  · simpa [holder, hne] using hfree k

theorem load_holder (rows : List ρ) (k : κ) : (load rows : Db key).holder k = none := by
  suffices h : ∀ db : Db key, (∀ k, db.holder k = none) →
      ∀ k, (rows.foldl (fun db r => (db.insertNow r).getD db) db).holder k = none from
    h .empty (fun _ => rfl) k
  induction rows with
  | nil => exact fun db hfree => hfree
  | cons r rows ih =>
    intro db hfree
    refine ih _ fun k => ?_
    show ((db.insertNow r).getD db).holder k = none
    cases hins : db.insertNow r with
    | none => exact hfree k
    | some => exact insertNow_holder hins hfree k

end Effects

/-! ## Unique indexes -/

/-- What a unique index says to a row that is about to be written. -/
inductive Conflict where
  | clear
  | wait
  | violation
deriving DecidableEq

def conflict [DecidableEq ι] (db : Db key) (ix : ρ → Option ι) (i : Nat) (r : ρ) : Conflict :=
  match ix r with
  | none => .clear
  | some x =>
    if db.keys.any fun k => k ≠ key r && !(db.slot k).free i && (db.slot k).mentions ix x then
      .wait
    else if db.keys.any fun k => k ≠ key r && (db.view i k).any (ix · = some x) then .violation
    else .clear

omit [DecidableEq κ] in
/-- No transaction sees two rows with one indexed value, and no two
transactions are about to write the same one. -/
structure Unique (ix : ρ → Option ι) (db : Db key) : Prop where
  committed : ∀ k k' r r' x, db.committed k = some r → db.committed k' = some r' →
    ix r = some x → ix r' = some x → k = k'
  view : ∀ i k k' r r' x, db.view i k = some r → db.view i k' = some r' →
    ix r = some x → ix r' = some x → k = k'
  apart : ∀ i j k k' r r' x, db.pending i k = some r → db.pending j k' = some r' →
    ix r = some x → ix r' = some x → i = j

section Unique

variable {ix : ρ → Option ι} {db db' : Db key} {i j : Nat} {k k' : κ} {r : ρ} {w : Option ρ}

omit [DecidableEq κ] in
theorem unique_empty : Unique ix (Db.empty : Db key) :=
  ⟨nofun, nofun, nofun⟩

omit [DecidableEq κ] in
theorem Changed.view_of_ne (hc : Changed i k w db db') (hne : j ≠ i ∨ k' ≠ k) :
    db'.view j k' = db.view j k' := by
  rw [view_eq, view_eq, hc.committed]
  by_cases hji : j = i
  · subst hji
    rw [hc.rest k' (hne.resolve_left fun h => h rfl)]
  · rw [hc.others j k' hji]

omit [DecidableEq κ] in
theorem Changed.view_self (hc : Changed i k (some r) db db') : db'.view i k = some r := by
  rw [view_eq, hc.self]
  rfl

omit [DecidableEq κ] in
theorem Changed.view_none (hc : Changed i k none db db') : db'.view j k' = db.view j k' := by
  by_cases hne : j ≠ i ∨ k' ≠ k
  · exact hc.view_of_ne hne
  · simp only [not_or, not_not] at hne
    obtain ⟨rfl, rfl⟩ := hne
    rw [view_eq, view_eq, hc.self, hc.committed]
    rfl

omit [DecidableEq κ] in
theorem Changed.pending_cases {r' : ρ} (hc : Changed i k w db db')
    (h : db'.pending i k' = some r') : k' = k ∧ w = some r' ∨ db.pending i k' = some r' := by
  by_cases hk : k' = k
  · subst hk
    rw [hc.self] at h
    cases w with
    | none => exact .inr h
    | some => exact .inl ⟨rfl, h⟩
  · exact .inr ((hc.rest k' hk).symm.trans h)

omit [DecidableEq κ] in
theorem Changed.pending_none (hc : Changed i k none db db') (j : Nat) (k' : κ) :
    db'.pending j k' = db.pending j k' := by
  by_cases hji : j = i
  · subst hji
    by_cases hne : k' = k
    · subst hne
      exact hc.self
    · exact hc.rest k' hne
  · exact hc.others j k' hji

omit [DecidableEq κ] in
theorem Unique.locked (h : Unique ix db) (hc : Changed i k none db db') : Unique ix db' where
  committed k₁ k₂ r₁ r₂ x h₁ h₂ :=
    h.committed k₁ k₂ r₁ r₂ x (hc.committed k₁ ▸ h₁) (hc.committed k₂ ▸ h₂)
  view j k₁ k₂ r₁ r₂ x h₁ h₂ :=
    h.view j k₁ k₂ r₁ r₂ x (hc.view_none ▸ h₁) (hc.view_none ▸ h₂)
  apart j₁ j₂ k₁ k₂ r₁ r₂ x h₁ h₂ := by
    rw [hc.pending_none] at h₁ h₂
    exact h.apart j₁ j₂ k₁ k₂ r₁ r₂ x h₁ h₂

/-- The indexed value of the row `k` is free, for all transaction `i` can
see and for all that others are about to write. -/
def Available (ix : ρ → Option ι) (db : Db key) (i : Nat) (k : κ) (x : ι) : Prop :=
  ∀ k', k' ≠ k → (∀ r, db.view i k' = some r → ix r ≠ some x) ∧
    ∀ j r, j ≠ i → db.pending j k' = some r → ix r ≠ some x

theorem available_of_clear [DecidableEq ι] {x : ι} (hx : ix r = some x)
    (hclear : db.conflict ix i r = .clear) : Available ix db i (key r) x := by
  simp only [conflict, hx] at hclear
  split at hclear
  · cases hclear
  · rename_i hwait
    split at hclear
    · cases hclear
    · rename_i hviolation
      intro k' hne
      refine ⟨fun r' hr' hix => hviolation ?_, fun j r' hji hr' hix => hwait ?_⟩
      · rw [List.any_eq_true]
        exact ⟨k', mem_keys (Slot.has_of_view hr'), by simp [hne, hr', hix]⟩
      · have hlock := Slot.pending_eq_some.mp hr'
        rw [List.any_eq_true]
        refine ⟨k', mem_keys (.inr ⟨j, hlock⟩), ?_⟩
        simp [hne, Slot.free, hlock, hji, Slot.mentions, hix]

omit [DecidableEq κ] in
/-- A version that keeps the indexed value of the one it replaces, or gets
one that is available, or none. -/
theorem Unique.written (h : Unique ix db) (hc : Changed i k (some r) db db')
    (hx : ∀ x, ix r = some x → (∃ r₀, db.view i k = some r₀ ∧ ix r₀ = some x) ∨
      Available ix db i k x) : Unique ix db' where
  committed k₁ k₂ r₁ r₂ x h₁ h₂ :=
    h.committed k₁ k₂ r₁ r₂ x (hc.committed k₁ ▸ h₁) (hc.committed k₂ ▸ h₂)
  view j k₁ k₂ r₁ r₂ x h₁ h₂ hx₁ hx₂ := by
    -- The new version against any other row.
    have hself : ∀ k' r', k' ≠ k → db.view i k' = some r' → ix r = some x →
        ix r' = some x → False := by
      intro k' r' hne hr' hxr hxr'
      rcases hx x hxr with ⟨r₀, hr₀, hxr₀⟩ | havailable
      · exact hne (h.view i k' k r' r₀ x hr' hr₀ hxr' hxr₀)
      · exact (havailable k' hne).1 r' hr' hxr'
    by_cases h₁' : j ≠ i ∨ k₁ ≠ k
    · rw [hc.view_of_ne h₁'] at h₁
      by_cases h₂' : j ≠ i ∨ k₂ ≠ k
      · rw [hc.view_of_ne h₂'] at h₂
        exact h.view j k₁ k₂ r₁ r₂ x h₁ h₂ hx₁ hx₂
      · simp only [not_or, not_not] at h₂'
        obtain ⟨rfl, rfl⟩ := h₂'
        rw [hc.view_self] at h₂
        cases h₂
        exact absurd (hself k₁ r₁ (h₁'.resolve_left fun hne => hne rfl) h₁ hx₂ hx₁) id
    · simp only [not_or, not_not] at h₁'
      obtain ⟨rfl, rfl⟩ := h₁'
      rw [hc.view_self] at h₁
      cases h₁
      by_contra hne
      rw [hc.view_of_ne (.inr (Ne.symm hne))] at h₂
      exact hself k₂ r₂ (Ne.symm hne) h₂ hx₁ hx₂
  apart j₁ j₂ k₁ k₂ r₁ r₂ x h₁ h₂ hx₁ hx₂ := by
    have hself : ∀ j k' r', j ≠ i → db.pending j k' = some r' → ix r = some x →
        ix r' = some x → False := by
      intro j k' r' hji hr' hxr hxr'
      have hne : k' ≠ k := by
        rintro rfl
        rw [hc.alone r rfl j hji] at hr'
        cases hr'
      rcases hx x hxr with ⟨r₀, hr₀, hxr₀⟩ | havailable
      · cases hpend : db.pending i k with
        | some =>
          rw [view_eq, hpend] at hr₀
          cases hr₀
          exact hji (h.apart j i k' k r' r₀ x hr' hpend hxr' hxr₀)
        | none =>
          -- Nothing of the row is pending, so the other sees it as well.
          have hj : db.view j k = some r₀ := by
            rw [view_eq, hpend] at hr₀
            rw [view_eq, hc.alone r rfl j hji]
            exact hr₀
          have hj' : db.view j k' = some r' := by
            rw [view_eq, hr']
            rfl
          exact hne (h.view j k' k r' r₀ x hj' hj hxr' hxr₀)
      · exact (havailable k' hne).2 j r' hji hr' hxr'
    have hold : ∀ j k' r', db'.pending j k' = some r' →
        db.pending j k' = some r' ∨ j = i ∧ r' = r := by
      intro j k' r' hr'
      by_cases hji : j = i
      · subst hji
        by_cases hne : k' = k
        · subst hne
          rw [hc.self] at hr'
          cases hr'
          exact .inr ⟨rfl, rfl⟩
        · exact .inl (hc.rest k' hne ▸ hr')
      · exact .inl (hc.others j k' hji ▸ hr')
    rcases hold j₁ k₁ r₁ h₁ with h₁ | ⟨rfl, rfl⟩
    · rcases hold j₂ k₂ r₂ h₂ with h₂ | ⟨rfl, rfl⟩
      · exact h.apart j₁ j₂ k₁ k₂ r₁ r₂ x h₁ h₂ hx₁ hx₂
      · by_contra hne
        exact hself j₁ k₁ r₁ hne h₁ hx₂ hx₁
    · rcases hold j₂ k₂ r₂ h₂ with h₂ | ⟨rfl, rfl⟩
      · by_contra hne
        exact hself j₂ k₂ r₂ (Ne.symm hne) h₂ hx₁ hx₂
      · rfl

omit [DecidableEq κ] in
theorem Unique.replaced {old : Option ρ} (h : Unique ix db) (hr : Replaced r old db db')
    (hx : ∀ x, ix r = some x → ∃ r₀, old = some r₀ ∧ ix r₀ = some x) : Unique ix db' := by
  have hold : ∀ k' r' x, db'.committed k' = some r' → ix r' = some x →
      ∃ r₀, db.committed k' = some r₀ ∧ ix r₀ = some x := by
    intro k' r' x hr' hxr'
    by_cases hne : k' = key r
    · subst hne
      rw [hr.self] at hr'
      cases hr'
      obtain ⟨r₀, rfl, hxr₀⟩ := hx x hxr'
      exact ⟨r₀, hr.old, hxr₀⟩
    · exact ⟨r', hr.committed k' hne ▸ hr', hxr'⟩
  have hview : ∀ j k' r' x, db'.view j k' = some r' → ix r' = some x →
      ∃ r₀, db.view j k' = some r₀ ∧ ix r₀ = some x := by
    intro j k' r' x hr' hxr'
    rw [view_eq, hr.pending] at hr'
    rw [view_eq]
    cases hpend : db.pending j k' with
    | some =>
      rw [hpend] at hr'
      cases hr'
      exact ⟨r', rfl, hxr'⟩
    | none =>
      rw [hpend] at hr'
      exact hold k' r' x hr' hxr'
  refine ⟨fun k₁ k₂ r₁ r₂ x h₁ h₂ hx₁ hx₂ => ?_, fun j k₁ k₂ r₁ r₂ x h₁ h₂ hx₁ hx₂ => ?_,
    fun j₁ j₂ k₁ k₂ r₁ r₂ x h₁ h₂ => ?_⟩
  · obtain ⟨r₁', h₁', hx₁'⟩ := hold k₁ r₁ x h₁ hx₁
    obtain ⟨r₂', h₂', hx₂'⟩ := hold k₂ r₂ x h₂ hx₂
    exact h.committed k₁ k₂ r₁' r₂' x h₁' h₂' hx₁' hx₂'
  · obtain ⟨r₁', h₁', hx₁'⟩ := hview j k₁ r₁ x h₁ hx₁
    obtain ⟨r₂', h₂', hx₂'⟩ := hview j k₂ r₂ x h₂ hx₂
    exact h.view j k₁ k₂ r₁' r₂' x h₁' h₂' hx₁' hx₂'
  · rw [hr.pending] at h₁ h₂
    exact h.apart j₁ j₂ k₁ k₂ r₁ r₂ x h₁ h₂

omit [DecidableEq κ] in
theorem Unique.commit (h : Unique ix db) (i : Nat) : Unique ix (db.commit i) where
  committed k₁ k₂ r₁ r₂ x h₁ h₂ :=
    h.view i k₁ k₂ r₁ r₂ x (commit_view i k₁ ▸ h₁) (commit_view i k₂ ▸ h₂)
  view j k₁ k₂ r₁ r₂ x h₁ h₂ hx₁ hx₂ := by
    by_cases hji : j = i
    · subst hji
      have hsame : ∀ k', (db.commit j).view j k' = db.view j k' := by
        intro k'
        rw [view_eq, commit_pending, if_pos rfl, commit_view]
        rfl
      rw [hsame] at h₁ h₂
      exact h.view j k₁ k₂ r₁ r₂ x h₁ h₂ hx₁ hx₂
    · -- Each of the two was seen by `j` before, or by `i`.
      have hcases : ∀ k' r', (db.commit i).view j k' = some r' →
          db.pending j k' = some r' ∨ db.pending j k' = none ∧ db.view i k' = some r' := by
        intro k' r' hr'
        rw [view_eq, commit_pending, if_neg hji, commit_view] at hr'
        cases hpend : db.pending j k' with
        | some =>
          rw [hpend] at hr'
          exact .inl hr'
        | none =>
          rw [hpend] at hr'
          exact .inr ⟨rfl, hr'⟩
      have hmixed : ∀ k₁ k₂ r₁ r₂, db.pending j k₁ = some r₁ → db.pending j k₂ = none →
          db.view i k₂ = some r₂ → ix r₁ = some x → ix r₂ = some x → k₁ = k₂ := by
        intro k₁ k₂ r₁ r₂ h₁ hnone h₂ hx₁ hx₂
        cases hpend : db.pending i k₂ with
        | some =>
          rw [view_eq, hpend] at h₂
          cases h₂
          exact absurd (h.apart j i k₁ k₂ r₁ r₂ x h₁ hpend hx₁ hx₂) hji
        | none =>
          rw [view_eq, hpend] at h₂
          refine h.view j k₁ k₂ r₁ r₂ x ?_ ?_ hx₁ hx₂
          · rw [view_eq, h₁]
            rfl
          · rw [view_eq, hnone]
            exact h₂
      rcases hcases k₁ r₁ h₁ with h₁' | ⟨hnone₁, h₁'⟩
      · rcases hcases k₂ r₂ h₂ with h₂' | ⟨hnone₂, h₂'⟩
        · refine h.view j k₁ k₂ r₁ r₂ x ?_ ?_ hx₁ hx₂
          · rw [view_eq, h₁']
            rfl
          · rw [view_eq, h₂']
            rfl
        · exact hmixed k₁ k₂ r₁ r₂ h₁' hnone₂ h₂' hx₁ hx₂
      · rcases hcases k₂ r₂ h₂ with h₂' | ⟨hnone₂, h₂'⟩
        · exact (hmixed k₂ k₁ r₂ r₁ h₂' hnone₁ h₁' hx₂ hx₁).symm
        · exact h.view i k₁ k₂ r₁ r₂ x h₁' h₂' hx₁ hx₂
  apart j₁ j₂ k₁ k₂ r₁ r₂ x h₁ h₂ := by
    rw [commit_pending] at h₁ h₂
    split at h₁
    · cases h₁
    · split at h₂
      · cases h₂
      · exact h.apart j₁ j₂ k₁ k₂ r₁ r₂ x h₁ h₂

omit [DecidableEq κ] in
theorem rollback_view (i j : Nat) (k : κ) :
    (db.rollback i).view j k = if j = i then db.committed k else db.view j k := by
  have hcommitted : (db.rollback i).committed k = db.committed k := Slot.rollback_committed i _
  rw [view_eq, rollback_pending, hcommitted]
  split <;> rfl

omit [DecidableEq κ] in
theorem Unique.rollback (h : Unique ix db) (i : Nat) : Unique ix (db.rollback i) where
  committed k₁ k₂ r₁ r₂ x h₁ h₂ := by
    refine h.committed k₁ k₂ r₁ r₂ x ?_ ?_
    · exact (Slot.rollback_committed i _).symm.trans h₁
    · exact (Slot.rollback_committed i _).symm.trans h₂
  view j k₁ k₂ r₁ r₂ x h₁ h₂ := by
    rw [rollback_view] at h₁ h₂
    by_cases hji : j = i
    · rw [if_pos hji] at h₁ h₂
      exact h.committed k₁ k₂ r₁ r₂ x h₁ h₂
    · rw [if_neg hji] at h₁ h₂
      exact h.view j k₁ k₂ r₁ r₂ x h₁ h₂
  apart j₁ j₂ k₁ k₂ r₁ r₂ x h₁ h₂ := by
    rw [rollback_pending] at h₁ h₂
    split at h₁
    · cases h₁
    · split at h₂
      · cases h₂
      · exact h.apart j₁ j₂ k₁ k₂ r₁ r₂ x h₁ h₂

end Unique

end Db

end Pg
