import Mathlib.Logic.Function.Basic
import Mathlib.Data.Option.Basic

/-!
# A table under READ COMMITTED

The rows of one table, with row locks and uncommitted versions, at the
grain at which PostgreSQL interleaves transactions.

* A row (`Slot`) has at most one committed version and at most one lock.
  The transaction that holds the lock may have written a version of its
  own, which nobody else sees until it commits.
* Every statement reads the versions committed when it starts, and the
  transaction's own (`view`).
* A statement that meets a row locked by another transaction waits
  (`free` is false: the step is not enabled). Once it has the lock it
  works on the version that is current *then*.
* An `UPDATE` therefore takes two kinds of steps: `scan` fixes the keys of
  the rows that match in its snapshot, and `visit` handles one of them,
  evaluating the condition again. A row inserted after the snapshot is
  never visited.

Transactions are numbered by the process that runs them. A primary key
is part of the type (`Db.keyed`), and so is that only finitely many keys
are in use (`Db.known`).
-/

namespace Pg

/-! ## One row -/

/-- The committed version of a row, and the holder of its lock with the
version it has written, if any. -/
structure Slot (ρ : Type) where
  committed : Option ρ
  lock : Option (Nat × Option ρ)
deriving DecidableEq

namespace Slot

variable {ρ : Type} {i : Nat} {r : ρ} {s : Slot ρ}

def empty : Slot ρ := ⟨none, none⟩

def holder (s : Slot ρ) : Option Nat := s.lock.map Prod.fst

/-- The uncommitted version of transaction `i`. -/
def pending (i : Nat) (s : Slot ρ) : Option ρ :=
  match s.lock with
  | some (j, v) => if j = i then v else none
  | none => none

/-- The version transaction `i` sees. -/
def view (i : Nat) (s : Slot ρ) : Option ρ := s.pending i <|> s.committed

/-- Whether transaction `i` gets the lock without waiting. -/
def free (i : Nat) (s : Slot ρ) : Bool :=
  match s.lock with
  | some (j, _) => decide (j = i)
  | none => true

def acquire (i : Nat) (s : Slot ρ) : Slot ρ := ⟨s.committed, some (i, s.pending i)⟩

def write (i : Nat) (r : ρ) (s : Slot ρ) : Slot ρ := ⟨s.committed, some (i, some r)⟩

def commit (i : Nat) (s : Slot ρ) : Slot ρ :=
  if s.holder = some i then ⟨s.view i, none⟩ else s

def rollback (i : Nat) (s : Slot ρ) : Slot ρ :=
  if s.holder = some i then ⟨s.committed, none⟩ else s

/-- The versions of a row, committed or not. -/
def Has (s : Slot ρ) (r : ρ) : Prop :=
  s.committed = some r ∨ ∃ i, s.lock = some (i, some r)

theorem pending_eq_some : s.pending i = some r ↔ s.lock = some (i, some r) := by
  obtain ⟨c, _ | ⟨j, v⟩⟩ := s
  · simp [pending]
  · by_cases h : j = i <;> simp [pending, h]

theorem has_of_view (h : s.view i = some r) : s.Has r := by
  unfold view at h
  cases hp : s.pending i with
  | some =>
    rw [hp] at h
    cases h
    exact .inr ⟨i, pending_eq_some.mp hp⟩
  | none =>
    rw [hp] at h
    exact .inl h

theorem pending_eq_none (h : s.holder ≠ some i) : s.pending i = none := by
  obtain ⟨c, _ | ⟨j, v⟩⟩ := s
  · rfl
  · simp_all [pending, holder]

theorem view_of_not_held (h : s.holder ≠ some i) : s.view i = s.committed := by
  simp [view, pending_eq_none h]

theorem free_iff : s.free i = true ↔ s.holder = none ∨ s.holder = some i := by
  obtain ⟨c, _ | ⟨j, v⟩⟩ := s <;> simp [free, holder]

theorem Has.acquire (h : (s.acquire i).Has r) : s.Has r := by
  rcases h with h | ⟨j, h⟩
  · exact .inl h
  · simp only [Slot.acquire, Option.some.injEq, Prod.mk.injEq] at h
    exact .inr ⟨i, pending_eq_some.mp h.2⟩

theorem Has.commit (h : (s.commit i).Has r) : s.Has r := by
  unfold Slot.commit at h
  split at h
  · rcases h with h | ⟨j, h⟩
    · exact has_of_view h
    · cases h
  · exact h

theorem Has.rollback (h : (s.rollback i).Has r) : s.Has r := by
  unfold Slot.rollback at h
  split at h
  · rcases h with h | ⟨j, h⟩
    · exact .inl h
    · cases h
  · exact h

@[simp] theorem acquire_holder (i : Nat) (s : Slot ρ) : (s.acquire i).holder = some i := rfl

@[simp] theorem write_holder (i : Nat) (r : ρ) (s : Slot ρ) :
    (s.write i r).holder = some i := rfl

theorem commit_holder (i : Nat) (s : Slot ρ) : (s.commit i).holder ≠ some i := by
  unfold commit
  split
  · simp [holder]
  · assumption

theorem rollback_holder (i : Nat) (s : Slot ρ) : (s.rollback i).holder ≠ some i := by
  unfold rollback
  split
  · simp [holder]
  · assumption

@[simp] theorem rollback_committed (i : Nat) (s : Slot ρ) :
    (s.rollback i).committed = s.committed := by
  unfold rollback
  split <;> rfl

end Slot

/-! ## The table -/

/-- The rows of a table by primary key. -/
structure Db {κ ρ : Type} (key : ρ → κ) where
  keys : List κ
  slot : κ → Slot ρ
  known : ∀ k, k ∉ keys → slot k = .empty
  keyed : ∀ k r, (slot k).Has r → key r = k

namespace Db

variable {κ ρ : Type} {key : ρ → κ} {db : Db key} {k : κ} {r : ρ} {i : Nat} {s : Slot ρ}

def committed (db : Db key) (k : κ) : Option ρ := (db.slot k).committed

def holder (db : Db key) (k : κ) : Option Nat := (db.slot k).holder

def view (db : Db key) (i : Nat) (k : κ) : Option ρ := (db.slot k).view i

def empty : Db key where
  keys := []
  slot _ := .empty
  known _ _ := rfl
  keyed k r h := by
    rcases h with h | ⟨i, h⟩ <;> cases h

theorem key_of_committed (h : db.committed k = some r) : key r = k :=
  db.keyed k r (.inl h)

theorem mem_keys (h : (db.slot k).Has r) : k ∈ db.keys := by
  by_contra hk
  rw [db.known k hk] at h
  rcases h with h | ⟨i, h⟩ <;> cases h

theorem mem_keys_of_holder (h : db.holder k = some i) : k ∈ db.keys := by
  by_contra hk
  rw [holder, db.known k hk] at h
  cases h

/-- The rows a statement outside any transaction reads. -/
def rows (db : Db key) : List ρ := db.keys.filterMap db.committed

theorem mem_rows : r ∈ db.rows ↔ db.committed (key r) = some r := by
  simp only [rows, List.mem_filterMap]
  constructor
  · rintro ⟨k, -, h⟩
    rw [key_of_committed h]
    exact h
  · exact fun h => ⟨key r, mem_keys (.inl h), h⟩

/-! ## The end of a transaction, and what it guarantees to the others -/

def commit (db : Db key) (i : Nat) : Db key where
  keys := db.keys
  slot k := (db.slot k).commit i
  known k h := by
    rw [db.known k h]
    rfl
  keyed k r h := db.keyed k r h.commit

def rollback (db : Db key) (i : Nat) : Db key where
  keys := db.keys
  slot k := (db.slot k).rollback i
  known k h := by
    rw [db.known k h]
    rfl
  keyed k r h := db.keyed k r h.rollback

theorem commit_slot :
    (db.commit i).slot k = (db.slot k).commit i := rfl

theorem rollback_slot :
    (db.rollback i).slot k = (db.slot k).rollback i := rfl

/-- What a statement of transaction `i` short of `COMMIT` does to a row:
the committed version stays, rows locked by others are left alone, and
no lock is given to others. -/
structure RowQuiet (i : Nat) (s s' : Slot ρ) : Prop where
  committed_eq : s'.committed = s.committed
  others : ∀ j, j ≠ i → s.holder = some j → s' = s
  grants : ∀ j, j ≠ i → s'.holder = some j → s.holder = some j

theorem RowQuiet.refl : RowQuiet i s s :=
  ⟨rfl, fun _ _ _ => rfl, fun _ _ h => h⟩

theorem RowQuiet.trans {s₁ s₂ s₃ : Slot ρ} (h₁ : RowQuiet i s₁ s₂) (h₂ : RowQuiet i s₂ s₃) :
    RowQuiet i s₁ s₃ where
  committed_eq := h₂.committed_eq.trans h₁.committed_eq
  others j hne hj := by
    have heq := h₁.others j hne hj
    subst heq
    exact h₂.others j hne hj
  grants j hne hj := h₁.grants j hne (h₂.grants j hne hj)

theorem RowQuiet.of_free {s' : Slot ρ} (hfree : s.free i = true) (hc : s'.committed = s.committed)
    (hh : s'.holder = some i) : RowQuiet i s s' where
  committed_eq := hc
  others j hne hj := by
    rcases Slot.free_iff.mp hfree with h | h
    · rw [h] at hj
      cases hj
    · rw [h] at hj
      exact absurd (Option.some.inj hj).symm hne
  grants j hne hj := by
    rw [hh] at hj
    exact absurd (Option.some.inj hj).symm hne

def Quiet (i : Nat) (db db' : Db key) : Prop := ∀ k, RowQuiet i (db.slot k) (db'.slot k)

/-- What any step of transaction `i` does to the table: as `Quiet`, but
rows it has locked may get a new committed version. -/
structure Guar (i : Nat) (db db' : Db key) : Prop where
  frame : ∀ k, db.holder k ≠ some i → db'.committed k = db.committed k
  others : ∀ k j, j ≠ i → db.holder k = some j → db'.slot k = db.slot k
  grants : ∀ k j, j ≠ i → db'.holder k = some j → db.holder k = some j

section Guarantee

variable {db db' : Db key} {i : Nat} {k : κ}

theorem Quiet.refl : Quiet i db db := fun _ => .refl

theorem Quiet.trans {db'' : Db key} (h₁ : Quiet i db db') (h₂ : Quiet i db' db'') :
    Quiet i db db'' := fun k => (h₁ k).trans (h₂ k)

theorem Quiet.committed_eq (h : Quiet i db db') (k : κ) : db'.committed k = db.committed k :=
  (h k).committed_eq

theorem Quiet.guar (h : Quiet i db db') : Guar i db db' :=
  ⟨fun k _ => h.committed_eq k, fun k => (h k).others, fun k => (h k).grants⟩

theorem quiet_rollback : Quiet i db (db.rollback i) := by
  intro k
  refine ⟨Slot.rollback_committed i _, fun j hne hj => ?_, fun j hne hj => ?_⟩
  · rw [rollback_slot, Slot.rollback, if_neg]
    rw [hj]
    exact fun he => hne (Option.some.inj he)
  · rw [rollback_slot, Slot.rollback] at hj
    split at hj
    · cases hj
    · exact hj

theorem guar_commit : Guar i db (db.commit i) where
  frame k h := by
    show ((db.slot k).commit i).committed = _
    rw [Slot.commit, if_neg (show (db.slot k).holder ≠ some i from h)]
    rfl
  others k j hne hj := by
    rw [commit_slot, Slot.commit, if_neg]
    exact fun he => hne (Option.some.inj (hj.symm.trans he))
  grants k j hne hj := by
    change ((db.slot k).commit i).holder = some j at hj
    rw [Slot.commit] at hj
    split at hj
    · cases hj
    · exact hj

theorem guar_others {j : Nat} {s : Slot ρ} (h : Guar i db db') (hne : j ≠ i)
    (hs : db.slot k = s) (hj : s.holder = some j) : db'.slot k = s := by
  subst hs
  exact h.others k j hne hj

end Guarantee

/-! ## Statements -/

variable [DecidableEq κ]

/-- Put another slot at a key in use. -/
def put (db : Db key) (k : κ) (s : Slot ρ) (hk : k ∈ db.keys) (hs : ∀ r, s.Has r → key r = k) :
    Db key where
  keys := db.keys
  slot := Function.update db.slot k s
  known k' h := by
    have hne : k' ≠ k := fun he => h (he ▸ hk)
    rw [Function.update_of_ne hne]
    exact db.known k' h
  keyed k' r h := by
    by_cases hne : k' = k
    · subst hne
      rw [Function.update_self] at h
      exact hs r h
    · rw [Function.update_of_ne hne] at h
      exact db.keyed k' r h

/-- Lock the row `k` for transaction `i`, if there is one. -/
def acquire (db : Db key) (i : Nat) (k : κ) : Db key :=
  if h : k ∈ db.keys ∧ (db.view i k).isSome then
    db.put k ((db.slot k).acquire i) h.1 fun _ hr => db.keyed k _ hr.acquire
  else db

/-- Write a version of a row whose lock is held. -/
def write (db : Db key) (i : Nat) (r : ρ) : Db key :=
  if h : db.holder (key r) = some i then
    db.put (key r) ((db.slot (key r)).write i r) (mem_keys_of_holder h) (by
      rintro r' (h' | ⟨j, h'⟩)
      · exact db.keyed _ _ (.inl h')
      · simp only [Slot.write, Option.some.injEq, Prod.mk.injEq] at h'
        rw [← h'.2])
  else db

/-- `SELECT … WHERE key = k FOR UPDATE`; `none` while another transaction
holds the lock. -/
def selectForUpdate (db : Db key) (i : Nat) (k : κ) : Option (Option ρ × Db key) :=
  if (db.slot k).free i then some (db.view i k, db.acquire i k) else none

/-- `INSERT`; `none` is a violation of the primary key. -/
def insert (db : Db key) (i : Nat) (r : ρ) : Option (Db key) :=
  if (db.slot (key r)).committed.isNone && (db.slot (key r)).lock.isNone then
    some
      { keys := key r :: db.keys
        slot := Function.update db.slot (key r) ⟨none, some (i, some r)⟩
        known := by
          intro k hk
          rw [List.mem_cons, not_or] at hk
          rw [Function.update_of_ne hk.1]
          exact db.known k hk.2
        keyed := by
          intro k r' h
          by_cases hne : k = key r
          · subst hne
            rw [Function.update_self] at h
            rcases h with h | ⟨j, h⟩
            · cases h
            · cases h
              rfl
          · rw [Function.update_of_ne hne] at h
            exact db.keyed k r' h }
  else none

/-- The keys an `UPDATE … WHERE p` of transaction `i` finds in its
snapshot. -/
def scan (db : Db key) (i : Nat) (p : ρ → Bool) : List κ :=
  db.keys.filter fun k => (db.view i k).any p

/-- What became of a row an `UPDATE` came to. -/
inductive Visit (ρ : Type) where
  | skipped
  | updated (r : ρ)
  | violation

/-- The row `k` of an `UPDATE … SET f WHERE p`: lock it, evaluate the
condition on its current version and write the new one, which `f`
refuses when it fails a constraint. `none` while the row is locked. -/
def visit (db : Db key) (i : Nat) (k : κ) (p : ρ → Bool) (f : ρ → Option ρ) :
    Option (Visit ρ × Db key) :=
  if (db.slot k).free i then
    match db.view i k with
    | none => some (.skipped, db)
    | some r =>
      if p r then
        match f r with
        | some r' => some (.updated r', (db.acquire i k).write i r')
        | none => some (.violation, db.acquire i k)
      else some (.skipped, db.acquire i k)
  else none


/-! ## What a statement changes -/

section Slots

variable {db : Db key} {i : Nat} {k k' : κ} {r : ρ} {hk : k ∈ db.keys} {s : Slot ρ}
  {hs : ∀ r, s.Has r → key r = k}

theorem put_slot_self : (db.put k s hk hs).slot k = s := by
  simp [put]

theorem put_slot_of_ne (h : k' ≠ k) : (db.put k s hk hs).slot k' = db.slot k' := by
  simp [put, h]

theorem acquire_eq (h : db.view i k = some r) :
    (db.acquire i k).slot k = (db.slot k).acquire i := by
  have hk : k ∈ db.keys := mem_keys (Slot.has_of_view h)
  rw [acquire, dif_pos ⟨hk, by simp [h]⟩, put_slot_self]

theorem acquire_of_ne (h : k' ≠ k) : (db.acquire i k).slot k' = db.slot k' := by
  unfold acquire
  split
  · exact put_slot_of_ne h
  · rfl

theorem write_eq (h : db.holder (key r) = some i) :
    (db.write i r).slot (key r) = (db.slot (key r)).write i r := by
  rw [write, dif_pos h, put_slot_self]

theorem write_of_ne (h : k' ≠ key r) : (db.write i r).slot k' = db.slot k' := by
  unfold write
  split
  · exact put_slot_of_ne h
  · rfl

theorem insert_eq_some {db' : Db key} (h : db.insert i r = some db') :
    db.slot (key r) = .empty ∧ db'.slot (key r) = ⟨none, some (i, some r)⟩ ∧
      ∀ k, k ≠ key r → db'.slot k = db.slot k := by
  unfold insert at h
  split at h <;> cases h
  rename_i hfree
  rw [Bool.and_eq_true, Option.isNone_iff_eq_none, Option.isNone_iff_eq_none] at hfree
  refine ⟨?_, by simp, fun k hk => by simp [hk]⟩
  cases hslot : db.slot (key r)
  simp_all [Slot.empty]

end Slots

section Quiet

variable {db db' : Db key} {i : Nat} {k : κ} {r : ρ}

theorem quiet_acquire (hfree : (db.slot k).free i = true) : Quiet i db (db.acquire i k) := by
  intro k'
  by_cases hne : k' = k
  · subst hne
    cases hview : db.view i k' with
    | none =>
      rw [acquire, dif_neg (by simp [hview])]
      exact .refl
    | some =>
      rw [acquire_eq hview]
      exact .of_free hfree rfl (Slot.acquire_holder _ _)
  · rw [acquire_of_ne hne]
    exact .refl

theorem quiet_write : Quiet i db (db.write i r) := by
  intro k'
  by_cases hheld : db.holder (key r) = some i
  · by_cases hne : k' = key r
    · subst hne
      rw [write_eq hheld]
      exact .of_free (Slot.free_iff.mpr (.inr hheld)) rfl (Slot.write_holder _ _ _)
    · rw [write_of_ne hne]
      exact .refl
  · rw [write, dif_neg hheld]
    exact .refl

theorem quiet_insert (h : db.insert i r = some db') : Quiet i db db' := by
  obtain ⟨hempty, hself, hother⟩ := insert_eq_some h
  intro k'
  by_cases hne : k' = key r
  · subst hne
    rw [hempty, hself]
    exact .of_free rfl rfl rfl
  · rw [hother k' hne]
    exact .refl

theorem quiet_selectForUpdate {row : Option ρ} (h : db.selectForUpdate i k = some (row, db')) :
    Quiet i db db' := by
  unfold selectForUpdate at h
  split at h <;> cases h
  rename_i hfree
  exact quiet_acquire hfree

theorem quiet_visit {p : ρ → Bool} {f : ρ → Option ρ} {v : Visit ρ}
    (h : db.visit i k p f = some (v, db')) : Quiet i db db' := by
  unfold visit at h
  split at h
  · rename_i hfree
    split at h
    · cases h
      exact .refl
    · split at h
      · split at h <;> cases h
        · exact (quiet_acquire hfree).trans quiet_write
        · exact quiet_acquire hfree
      · cases h
        exact quiet_acquire hfree
  · cases h

end Quiet

/-! ## What a transaction holds -/

section Held

variable {db db' : Db key} {i j : Nat} {k : κ} {r : ρ} {ks : List κ} {c : Option ρ}

/-- Transaction `i` has locked no row but those of `ks`. -/
def HeldOnly (db : Db key) (i : Nat) (ks : List κ) : Prop :=
  ∀ k, db.holder k = some i → k ∈ ks

omit [DecidableEq κ] in
theorem HeldOnly.guar (h : db.HeldOnly j ks) (hg : Guar i db db') (hne : j ≠ i) :
    db'.HeldOnly j ks :=
  fun k hk => h k (hg.grants k j hne hk)

omit [DecidableEq κ] in
theorem heldOnly_commit : (db.commit i).HeldOnly i [] :=
  fun k hk => absurd hk (Slot.commit_holder i (db.slot k))

omit [DecidableEq κ] in
theorem heldOnly_rollback : (db.rollback i).HeldOnly i [] :=
  fun k hk => absurd hk (Slot.rollback_holder i (db.slot k))

omit [DecidableEq κ] in
theorem commit_committed :
    (db.commit i).committed k = if db.holder k = some i then db.view i k else db.committed k := by
  show ((db.slot k).commit i).committed = _
  unfold Slot.commit holder
  split <;> rfl

theorem HeldOnly.commit_one (h : db.HeldOnly i [k]) (hk : db.slot k = ⟨c, some (i, some r)⟩) :
    (db.commit i).committed = Function.update db.committed k (some r) := by
  funext k'
  rw [commit_committed]
  by_cases hne : k' = k
  · subst hne
    rw [Function.update_self, holder, view, hk]
    simp [Slot.holder, Slot.view, Slot.pending]
  · rw [Function.update_of_ne hne, if_neg fun hh => hne (by simpa using h k' hh)]

theorem HeldOnly.commit_two {k₂ : κ} {r₂ : ρ} {c₂ : Option ρ} (h : db.HeldOnly i [k, k₂])
    (hne : k ≠ k₂) (hk : db.slot k = ⟨c, some (i, some r)⟩)
    (hk₂ : db.slot k₂ = ⟨c₂, some (i, some r₂)⟩) :
    (db.commit i).committed
      = Function.update (Function.update db.committed k₂ (some r₂)) k (some r) := by
  funext k'
  rw [commit_committed]
  by_cases h₁ : k' = k
  · subst h₁
    rw [Function.update_self, holder, view, hk]
    simp [Slot.holder, Slot.view, Slot.pending]
  · rw [Function.update_of_ne h₁]
    by_cases h₂ : k' = k₂
    · subst h₂
      rw [Function.update_self, holder, view, hk₂]
      simp [Slot.holder, Slot.view, Slot.pending]
    · rw [Function.update_of_ne h₂, if_neg fun hh => ?_]
      simpa [h₁, h₂] using h k' hh

theorem HeldOnly.insert (h : db.HeldOnly i ks) (hins : db.insert i r = some db') :
    db'.HeldOnly i (key r :: ks) := by
  obtain ⟨-, -, hother⟩ := insert_eq_some hins
  intro k hk
  by_cases hne : k = key r
  · exact hne ▸ List.mem_cons_self
  · rw [holder, hother k hne] at hk
    exact List.mem_cons_of_mem _ (h k hk)

theorem HeldOnly.write (h : db.HeldOnly i ks) : (db.write i r).HeldOnly i ks := by
  intro k hk
  by_cases hheld : db.holder (key r) = some i
  · by_cases hne : k = key r
    · exact h k (hne ▸ hheld)
    · rw [holder, write_of_ne hne] at hk
      exact h k hk
  · rw [Db.write, dif_neg hheld] at hk
    exact h k hk

theorem HeldOnly.acquire (h : db.HeldOnly i ks) : (db.acquire i k).HeldOnly i (k :: ks) := by
  intro k' hk
  by_cases hne : k' = k
  · exact hne ▸ List.mem_cons_self
  · rw [holder, acquire_of_ne hne] at hk
    exact List.mem_cons_of_mem _ (h k' hk)

omit [DecidableEq κ] in
theorem view_of_heldOnly (h : db.HeldOnly i []) (k : κ) : db.view i k = db.committed k :=
  Slot.view_of_not_held fun hk => by simpa using h k hk

/-- A transaction that had locked nothing now holds the row it selected,
and has not written it. -/
theorem HeldOnly.selectForUpdate {row : Option ρ} (h : db.HeldOnly i [])
    (hsel : db.selectForUpdate i k = some (row, db')) :
    row = db.committed k ∧ db'.HeldOnly i [k] ∧
      ∀ r, row = some r → db'.slot k = ⟨some r, some (i, none)⟩ := by
  unfold Db.selectForUpdate at hsel
  split at hsel <;> cases hsel
  refine ⟨view_of_heldOnly h k, h.acquire, fun r hr => ?_⟩
  have hfree : (db.slot k).holder ≠ some i := fun hk => by simpa using h k hk
  rw [acquire_eq hr, Slot.acquire, Slot.pending_eq_none hfree]
  rw [view_of_heldOnly h] at hr
  exact congrArg (Slot.mk · _) hr

theorem HeldOnly.visit {p : ρ → Bool} {f : ρ → Option ρ} {v : Visit ρ} (h : db.HeldOnly i ks)
    (hv : db.visit i k p f = some (v, db')) : db'.HeldOnly i (k :: ks) := by
  unfold Db.visit at hv
  split at hv
  · split at hv
    · cases hv
      exact fun k' hk => List.mem_cons_of_mem _ (h k' hk)
    · split at hv
      · split at hv <;> cases hv
        · exact h.acquire.write
        · exact h.acquire
      · cases hv
        exact h.acquire
  · cases hv

end Held

/-! ## One `UPDATE` -/

section Updating

variable {db db' : Db key} {i j : Nat} {k : κ} {p : ρ → Bool} {f : ρ → Option ρ} {r : ρ}
  {v : Visit ρ}

/-- What a transaction that runs nothing but `UPDATE … SET f WHERE p` has
done to a row it holds: nothing yet, or one update of the committed
version. -/
inductive Touched (i : Nat) (p : ρ → Bool) (f : ρ → Option ρ) : Slot ρ → Prop
  | locked (r : ρ) : Touched i p f ⟨some r, some (i, none)⟩
  | updated {r r' : ρ} (hp : p r = true) (hf : f r = some r') :
      Touched i p f ⟨some r, some (i, some r')⟩

def Updating (db : Db key) (i : Nat) (p : ρ → Bool) (f : ρ → Option ρ) : Prop :=
  ∀ k, db.holder k = some i → Touched i p f (db.slot k)

omit [DecidableEq κ] in
theorem HeldOnly.updating (h : db.HeldOnly i []) : db.Updating i p f :=
  fun k hk => by simpa using h k hk

omit [DecidableEq κ] in
theorem Updating.guar (h : db.Updating j p f) (hg : Guar i db db') (hne : j ≠ i) :
    db'.Updating j p f := by
  intro k hk
  have hk' := hg.grants k j hne hk
  rw [hg.others k j hne hk']
  exact h k hk'

omit [DecidableEq κ] in
/-- The row a visit finds when it gets the lock: the committed one,
unless the transaction has updated the row before. -/
theorem Updating.view_cases (h : db.Updating i p f) (hview : db.view i k = some r) :
    (db.committed k = some r ∧ (db.slot k).acquire i = ⟨some r, some (i, none)⟩) ∨
      ∃ r₀, f r₀ = some r ∧ db.slot k = ⟨some r₀, some (i, some r)⟩ ∧ p r₀ = true := by
  by_cases hheld : db.holder k = some i
  · have htouched := h k hheld
    cases hs : db.slot k with
    | mk =>
      rw [hs] at htouched
      rw [view, hs] at hview
      cases htouched with
      | locked r₁ =>
        have hr : r₁ = r := by simpa [Slot.view, Slot.pending] using hview
        subst hr
        exact .inl ⟨by rw [committed, hs], by simp [Slot.acquire, Slot.pending]⟩
      | @updated r₁ r₂ hp hf =>
        have hr : r₂ = r := by simpa [Slot.view, Slot.pending] using hview
        subst hr
        exact .inr ⟨r₁, hf, rfl, hp⟩
  · rw [view, Slot.view_of_not_held hheld] at hview
    refine .inl ⟨hview, ?_⟩
    rw [Slot.acquire, Slot.pending_eq_none hheld, hview]

section

variable (h : db.Updating i p f) (hf : ∀ r r', f r = some r' → key r' = key r ∧ p r' = false)
  (hv : db.visit i k p f = some (v, db'))
include h hf hv

/-- The cases of a visit, for an `UPDATE` that no longer matches the rows
it has written. -/
theorem Updating.visit_cases :
    (v = .skipped ∧ db.committed k = none ∧ db' = db) ∨
      ∃ r, db.committed k = some r ∧ (∀ k', k' ≠ k → db'.slot k' = db.slot k') ∧
        ((p r = false ∧ v = .skipped ∧ db'.slot k = ⟨some r, some (i, none)⟩) ∨
          (p r = true ∧ f r = none ∧ v = .violation ∧
            db'.slot k = ⟨some r, some (i, none)⟩) ∨
          ∃ r', p r = true ∧ f r = some r' ∧ (v = .skipped ∨ v = .updated r') ∧
            db'.slot k = ⟨some r, some (i, some r')⟩) := by
  unfold Db.visit at hv
  split at hv
  · split at hv
    · rename_i hview
      cases hv
      refine .inl ⟨rfl, ?_, rfl⟩
      by_contra hc
      obtain ⟨r, hr⟩ := Option.ne_none_iff_exists'.mp hc
      unfold view Slot.view at hview
      rw [show (db.slot k).committed = some r from hr] at hview
      cases hp : (db.slot k).pending i <;> simp [hp] at hview
    · rename_i r hview
      have hne : ∀ k', k' ≠ k → (db.acquire i k).slot k' = db.slot k' := fun _ => acquire_of_ne
      rcases h.view_cases hview with ⟨hr, hacq⟩ | ⟨r₀, hr₀, hslot, hp₀⟩
      · refine .inr ⟨r, hr, ?_⟩
        have hself : (db.acquire i k).slot k = ⟨some r, some (i, none)⟩ := by
          rw [acquire_eq hview, hacq]
        split at hv
        · rename_i hp
          split at hv <;> cases hv
          · rename_i r' hr'
            have hkey : key r' = k := (hf r r' hr').1.trans (key_of_committed hr)
            have hheld : (db.acquire i k).holder (key r') = some i := by
              rw [hkey, holder, hself]
              rfl
            refine ⟨fun k' hk' => ?_, .inr (.inr ⟨r', hp, hr', .inr rfl, ?_⟩)⟩
            · rw [write_of_ne (hkey ▸ hk'), hne k' hk']
            · have hwrite := write_eq hheld
              rw [hkey, hself] at hwrite
              exact hwrite
          · rename_i hnone
            exact ⟨hne, .inr (.inl ⟨hp, hnone, rfl, hself⟩)⟩
        · rename_i hp
          cases hv
          exact ⟨hne, .inl ⟨by simpa using hp, rfl, hself⟩⟩
      · -- The row was updated before: its new version no longer matches.
        have hr : db.committed k = some r₀ := by rw [committed, hslot]
        rw [if_neg (by simp [(hf r₀ r hr₀).2])] at hv
        cases hv
        refine .inr ⟨r₀, hr, hne, .inr (.inr ⟨r, hp₀, hr₀, .inl rfl, ?_⟩)⟩
        rw [acquire_eq hview, hslot]
        simp [Slot.acquire, Slot.pending]
  · cases hv

theorem Updating.visit_of_ne {k' : κ} (hne : k' ≠ k) : db'.slot k' = db.slot k' := by
  rcases h.visit_cases hf hv with ⟨-, -, rfl⟩ | ⟨-, -, hother, -⟩
  · rfl
  · exact hother k' hne

theorem Updating.visit_self (hr : db.committed k = some r) (hp : p r = true)
    (hok : v ≠ .violation) : ∃ r', f r = some r' ∧ db'.slot k = ⟨some r, some (i, some r')⟩ := by
  rcases h.visit_cases hf hv with ⟨-, hnone, -⟩ | ⟨r₀, hr₀, -, hcases⟩
  · rw [hr] at hnone
    cases hnone
  · obtain rfl := Option.some.inj (hr.symm.trans hr₀)
    rcases hcases with ⟨hp', -, -⟩ | ⟨-, -, hv', -⟩ | ⟨r', -, hr', -, hslot⟩
    · rw [hp] at hp'
      cases hp'
    · exact absurd hv' hok
    · exact ⟨r', hr', hslot⟩

theorem Updating.visit : db'.Updating i p f := by
  rcases h.visit_cases hf hv with ⟨-, -, rfl⟩ | ⟨r, -, hne, hk⟩
  · exact h
  · intro k' hk'
    by_cases heq : k' = k
    · subst heq
      rcases hk with ⟨-, -, hs⟩ | ⟨-, -, -, hs⟩ | ⟨r', hp, hr', -, hs⟩
      · exact hs ▸ .locked r
      · exact hs ▸ .locked r
      · exact hs ▸ .updated hp hr'
    · rw [hne k' heq]
      rw [holder, hne k' heq] at hk'
      exact h k' hk'

end

omit [DecidableEq κ] in
/-- Committing an `UPDATE` leaves every row alone or updates it once. -/
theorem Updating.commit (h : db.Updating i p f) (k : κ) :
    (db.commit i).committed k = db.committed k ∨
      ∃ r r', db.committed k = some r ∧ p r = true ∧ f r = some r' ∧
        (db.commit i).committed k = some r' := by
  rw [commit_committed]
  split
  · rename_i hheld
    have htouched := h k hheld
    rw [committed, view]
    generalize db.slot k = s at htouched
    cases htouched with
    | locked => exact .inl (by simp [Slot.view, Slot.pending])
    | updated hp hf => exact .inr ⟨_, _, rfl, hp, hf, by simp [Slot.view, Slot.pending]⟩
  · exact .inl rfl

omit [DecidableEq κ] in
theorem mem_scan : k ∈ db.scan i p ↔ ∃ r, db.view i k = some r ∧ p r = true := by
  simp only [scan, List.mem_filter, Option.any_eq_true]
  constructor
  · rintro ⟨-, r, hr, hp⟩
    exact ⟨r, hr, hp⟩
  · rintro ⟨r, hr, hp⟩
    exact ⟨mem_keys (Slot.has_of_view hr), r, hr, hp⟩

end Updating

end Db

end Pg
