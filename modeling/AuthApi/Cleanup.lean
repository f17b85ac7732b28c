import AuthApi.SessionFamily

/-!
# Retention of sessions

`cleanup_expired_sessions`: one `DELETE` for the sessions that expired
before the cutoff, one for those revoked before it, each of at most what
is left of the batch. Deleting a session that replaced another one sets
`replaced_by_session_id` of that other one to `NULL`, and the table
refuses the result, since the row keeps its `rotated_at`. So a batch
goes through exactly when it takes, with each session, the one it
replaced (`cleanup_completes_iff`).

The batches do not see to that. A replacement may expire before the
session it replaced, when the lifetime of refresh tokens was shortened
in between, and a `LIMIT` may cut a chain anywhere. What the code does
guarantee: without a limit, and with expiries in the order of the
rotations, a cleanup completes (`cleanup_unlimited`), because a session
is revoked when its replacement is created and the replacement only
later.
-/

namespace AuthApi

inductive CleanupError where
  /-- `LIMIT must not be negative`. -/
  | negativeLimit
  /-- `sessions_replacement_metadata_consistency`, on a row whose
  `replaced_by_session_id` was set to `NULL`. -/
  | replacementConsistency
deriving DecidableEq

/-- `SELECT … WHERE p LIMIT limit`. Which rows come first is not
specified: `order` is the order in which they are found. -/
def selectLimit (order : List SessionRow → List SessionRow) (p : Session → Bool)
    (limit : Option Int) (rows : List SessionRow) : Except CleanupError (List Uuid) :=
  let found := ((order rows).filter fun r => p r.val).map fun r => r.val.id
  match limit with
  | none => .ok found
  | some n => if n < 0 then .error .negativeLimit else .ok (found.take n.toNat)

/-- `ON DELETE SET NULL` on a row that stays. -/
def setNullOnDelete (deleted : List Uuid) (r : SessionRow) : Except CleanupError SessionRow :=
  match r.val.replacedBySessionId with
  | none => .ok r
  | some next =>
    if next ∈ deleted then
      match ({ r.val with replacedBySessionId := none } : Session).checked with
      | some r' => .ok r'
      | none => .error .replacementConsistency
    else .ok r

def rowsLeft (deleted : List Uuid) (rows : List SessionRow) : List SessionRow :=
  rows.filter fun r => r.val.id ∉ deleted

def deleteSessions (deleted : List Uuid) (rows : List SessionRow) :
    Except CleanupError (List SessionRow) :=
  (rowsLeft deleted rows).mapM (setNullOnDelete deleted)

/-- `expires_at < NOW() - grace_interval`. -/
def Session.expiredBefore (cutoff : Int) (s : Session) : Bool := s.expiresAt.nanos < cutoff

/-- `revoked_at IS NOT NULL AND revoked_at < NOW() - grace_interval`. -/
def Session.revokedBefore (cutoff : Int) (s : Session) : Bool :=
  s.revokedAt.any fun t => t.nanos < cutoff

/-- The table after the function and the number of rows deleted. The
cutoff is `NOW() - grace_interval`. -/
def cleanupExpiredSessions (order₁ order₂ : List SessionRow → List SessionRow) (cutoff : Int)
    (batchSize : Option Int) (rows : List SessionRow) :
    Except CleanupError (List SessionRow × Int) := do
  let deleted ← selectLimit order₁ (Session.expiredBefore cutoff) batchSize rows
  let rows₁ ← deleteSessions deleted rows
  let expired : Int := deleted.length
  if batchSize.any (· ≤ expired) then
    return (rows₁, expired)
  let deleted₂ ← selectLimit order₂ (Session.revokedBefore cutoff)
    (batchSize.map (· - expired)) rows₁
  let rows₂ ← deleteSessions deleted₂ rows₁
  return (rows₂, expired + deleted₂.length)

/-! ## One `DELETE` -/

/-- With each session, the one it replaced is deleted, if it is there. -/
def TakesPredecessors (rows : List SessionRow) (deleted : List Uuid) : Prop :=
  ∀ r ∈ rows, ∀ next ∈ r.val.replacedBySessionId, next ∈ deleted → r.val.id ∈ deleted

variable {deleted : List Uuid} {next k : Uuid} {r : SessionRow} {rows : List SessionRow}
  {ε ρ : Type} {f : ρ → Except ε ρ} {l : List ρ} {order : List SessionRow → List SessionRow}
  {p : Session → Bool} {t : Store}

theorem setNullOnDelete_replaced (hnext : r.val.replacedBySessionId = some next)
    (hmem : next ∈ deleted) : setNullOnDelete deleted r = .error .replacementConsistency := by
  have hrotated : r.val.rotatedAt.isSome := by
    rcases r.property.replacement_metadata_consistency with ⟨hnone, -⟩ | ⟨-, hrot, -⟩
    · rw [hnext] at hnone
      cases hnone
    · exact hrot
  have hrefused : ({ r.val with replacedBySessionId := none } : Session).checked = none := by
    rw [Session.checked_eq_none]
    intro hchecks
    rcases hchecks.replacement_metadata_consistency with ⟨-, hrot⟩ | ⟨hsome, -⟩
    · change r.val.rotatedAt = none at hrot
      rw [hrot] at hrotated
      cases hrotated
    · cases hsome
  simp [setNullOnDelete, hnext, hmem, hrefused]

theorem setNullOnDelete_of_closed (h : TakesPredecessors rows deleted) (hr : r ∈ rows)
    (hstays : r.val.id ∉ deleted) : setNullOnDelete deleted r = .ok r := by
  unfold setNullOnDelete
  split
  · rfl
  · rename_i next hnext
    rw [if_neg fun hmem => hstays (h r hr next hnext hmem)]

theorem setNullOnDelete_cases (deleted : List Uuid) (r : SessionRow) :
    setNullOnDelete deleted r = .ok r ∨
      setNullOnDelete deleted r = .error .replacementConsistency := by
  cases hnext : r.val.replacedBySessionId with
  | none => exact .inl (by simp [setNullOnDelete, hnext])
  | some next =>
    by_cases hmem : next ∈ deleted
    · exact .inr (setNullOnDelete_replaced hnext hmem)
    · exact .inl (by simp [setNullOnDelete, hnext, hmem])

theorem mapM_eq_ok (h : ∀ r ∈ l, f r = .ok r) : l.mapM f = .ok l := by
  induction l with
  | nil => rfl
  | cons r rest ih =>
    rw [List.mapM_cons, h r List.mem_cons_self,
      ih fun r' hr' => h r' (List.mem_cons_of_mem _ hr')]
    rfl

theorem mapM_eq_error {e : ε} {r : ρ} (hcases : ∀ r ∈ l, f r = .ok r ∨ f r = .error e) (hr : r ∈ l)
    (herr : f r = .error e) : l.mapM f = .error e := by
  induction l with
  | nil => cases hr
  | cons r' rest ih =>
    rw [List.mapM_cons]
    rcases hcases r' List.mem_cons_self with hok | hfail
    · rw [hok]
      have hrest : r ∈ rest := by
        rcases List.mem_cons.mp hr with rfl | hrest
        · rw [hok] at herr
          cases herr
        · exact hrest
      rw [show rest.mapM f = .error e from
        ih (fun r hr => hcases r (List.mem_cons_of_mem _ hr)) hrest]
      rfl
    · rw [hfail]
      rfl

/-- **One `DELETE` succeeds exactly when it takes predecessors**, and then
it changes no row that stays. -/
theorem deleteSessions_cases (deleted : List Uuid) (rows : List SessionRow) :
    (TakesPredecessors rows deleted ∧
        deleteSessions deleted rows = .ok (rowsLeft deleted rows)) ∨
      (¬ TakesPredecessors rows deleted ∧
        deleteSessions deleted rows = .error .replacementConsistency) := by
  by_cases h : TakesPredecessors rows deleted
  · refine .inl ⟨h, mapM_eq_ok fun r hr => ?_⟩
    obtain ⟨hmem, hstays⟩ := List.mem_filter.mp hr
    exact setNullOnDelete_of_closed h hmem (of_decide_eq_true hstays)
  · refine .inr ⟨h, ?_⟩
    simp only [TakesPredecessors, not_forall] at h
    obtain ⟨r, hr, next, hnext, hmem, hstays⟩ := h
    exact mapM_eq_error (fun r _ => setNullOnDelete_cases deleted r)
      (List.mem_filter.mpr ⟨hr, decide_eq_true hstays⟩) (setNullOnDelete_replaced hnext hmem)

/-! ## The function -/

theorem selectLimit_error {limit : Option Int} {e : CleanupError}
    (h : selectLimit order p limit rows = .error e) : e = .negativeLimit := by
  unfold selectLimit at h
  split at h
  · cases h
  · split at h <;> cases h
    rfl

/-- Each `DELETE` the function runs takes, with a session, the session it
replaced. -/
def CutsNoChain (order₁ order₂ : List SessionRow → List SessionRow) (cutoff : Int)
    (batchSize : Option Int) (rows : List SessionRow) : Prop :=
  ∀ deleted, selectLimit order₁ (Session.expiredBefore cutoff) batchSize rows = .ok deleted →
    TakesPredecessors rows deleted ∧
      (batchSize.any (· ≤ (deleted.length : Int)) = false →
        ∀ deleted₂, selectLimit order₂ (Session.revokedBefore cutoff)
            (batchSize.map (· - (deleted.length : Int))) (rowsLeft deleted rows)
              = .ok deleted₂ →
          TakesPredecessors (rowsLeft deleted rows) deleted₂)

theorem cleanup_cases (order₁ order₂ : List SessionRow → List SessionRow) (cutoff : Int)
    (batchSize : Option Int) (rows : List SessionRow) :
    (CutsNoChain order₁ order₂ cutoff batchSize rows ∧
        cleanupExpiredSessions order₁ order₂ cutoff batchSize rows
          ≠ .error .replacementConsistency) ∨
      (¬ CutsNoChain order₁ order₂ cutoff batchSize rows ∧
        cleanupExpiredSessions order₁ order₂ cutoff batchSize rows
          = .error .replacementConsistency) := by
  unfold CutsNoChain
  cases hsel : selectLimit order₁ (Session.expiredBefore cutoff) batchSize rows with
  | error =>
    have he := selectLimit_error hsel
    simp [cleanupExpiredSessions, hsel, he, bind, Except.bind]
  | ok deleted =>
    rcases deleteSessions_cases deleted rows with ⟨hclosed, hdel⟩ | ⟨hopen, hdel⟩
    · cases hfull : batchSize.any (· ≤ (deleted.length : Int)) with
      | true =>
        simp [cleanupExpiredSessions, hsel, hdel, hfull, hclosed, bind, Except.bind, pure,
          Except.pure]
      | false =>
        -- The first batch was not full: the second `DELETE` runs on what is left.
        cases hsel₂ : selectLimit order₂ (Session.revokedBefore cutoff)
            (batchSize.map (· - (deleted.length : Int))) (rowsLeft deleted rows) with
        | error =>
          have he := selectLimit_error hsel₂
          simp [cleanupExpiredSessions, hsel, hdel, hfull, hclosed, hsel₂, he, bind,
            Except.bind]
        | ok deleted₂ =>
          rcases deleteSessions_cases deleted₂ (rowsLeft deleted rows) with
            ⟨hclosed₂, hdel₂⟩ | ⟨hopen₂, hdel₂⟩
          · simp [cleanupExpiredSessions, hsel, hdel, hfull, hclosed, hsel₂, hdel₂,
              hclosed₂, bind, Except.bind, pure, Except.pure]
          · simp [cleanupExpiredSessions, hsel, hdel, hfull, hclosed, hsel₂, hdel₂,
              hopen₂, bind, Except.bind]
    · simp [cleanupExpiredSessions, hsel, hdel, hopen, bind, Except.bind]

/-- **A cleanup violates no constraint exactly when no `DELETE` it runs
cuts a chain of rotations**, for every table, every cutoff, every batch
size and every order in which the rows are found. -/
theorem cleanup_completes_iff (order₁ order₂ : List SessionRow → List SessionRow) (cutoff : Int)
    (batchSize : Option Int) (rows : List SessionRow) :
    cleanupExpiredSessions order₁ order₂ cutoff batchSize rows
        ≠ .error .replacementConsistency ↔
      CutsNoChain order₁ order₂ cutoff batchSize rows := by
  rcases cleanup_cases order₁ order₂ cutoff batchSize rows with ⟨hcuts, hok⟩ | ⟨hcuts, herr⟩
  · exact ⟨fun _ => hcuts, fun _ => hok⟩
  · exact ⟨fun hne => absurd herr hne, fun h => absurd h hcuts⟩

/-! ### A lifetime shortened between a sign-in and its refresh -/

/-- A minute for a refresh token instead of ten. -/
def minuteSessions : JwtConfig := { shortSessions with shortSessionExpirySecs := 60 }

/-- The session 2 expires at second 700, the session 3 that replaces it at
second 160. -/
def refreshedShorter : List (Nat × Act) :=
  signInSchedule 0 webSignIn 1 1 2 ++ [(0, .configure minuteSessions)] ++
    refreshSchedule 1 ⟨1, none, none, none⟩ 2 ++ rotateSchedule 1 3 ++ [(1, .go {})]

/-- No batch size, and the rows in the order of the table: the first
`DELETE` takes the session 3 and not the session 2, and the cleanup
fails. -/
theorem shortened_ttl_blocks_cleanup :
    ∃ c, runFrom shortSessions (instant 100) refreshedShorter = some c ∧
      cleanupExpiredSessions id id (instant 200).nanos none c.shared.db.rows
        = .error .replacementConsistency := by
  have hrun : ((runFrom shortSessions (instant 100) refreshedShorter).any fun c =>
      match cleanupExpiredSessions id id (instant 200).nanos none c.shared.db.rows with
      | .error e => e = .replacementConsistency
      | .ok _ => false) = true := by
    decide +kernel
  obtain ⟨c, hc, hcleanup⟩ := Option.any_eq_true _ _ |>.mp hrun
  refine ⟨c, hc, ?_⟩
  split at hcleanup
  · rename_i e he
    rw [he, of_decide_eq_true hcleanup]
  · cases hcleanup

/-! ## Without a limit -/

theorem StoreStep.revokedAt_kept {op : StoreOp} {t' : Store} (h : StoreStep op t t')
    {r' : SessionRow} {x : OffsetDateTime} (hr : t k = some r) (hr' : t' k = some r')
    (hx : r.val.revokedAt = some x) : r'.val.revokedAt = some x := by
  cases h with
  | issue new hfree =>
    have hkn : k ≠ new.val.id := by
      rintro rfl
      simp [hr] at hfree
    rw [Function.update_of_ne hkn, hr] at hr'
    exact Option.some.inj hr' ▸ hx
  | rotate old rotated new hold hlive hfree =>
    have hkn : k ≠ new.val.id := by
      rintro rfl
      simp [hr] at hfree
    have hko : k ≠ old.val.id := by
      rintro rfl
      rw [Option.some.inj (hr.symm.trans hold), hlive] at hx
      cases hx
    rw [Function.update_of_ne hkn, Function.update_of_ne hko, hr] at hr'
    exact Option.some.inj hr' ▸ hx
  | revoke rev now h =>
    rcases h k with heq | ⟨r₀, r₁, hr₀, hsel, happly, hr₁⟩
    · rw [heq, hr] at hr'
      exact Option.some.inj hr' ▸ hx
    · obtain rfl := Option.some.inj (hr.symm.trans hr₀)
      obtain rfl := Option.some.inj (hr'.symm.trans hr₁)
      rw [Revocation.apply_eq_some happly]
      cases rev with
      | family => simp [Revocation.set, hx]
      | _ => simp [Revocation.selects, hx] at hsel

/-- A session that was replaced was revoked when its replacement was
created. -/
theorem StoreReachable.revoked_at_rotation (h : StoreReachable t) (hr : t k = some r)
    (hnext : r.val.replacedBySessionId = some next) :
    ∃ r', t next = some r' ∧ r.val.revokedAt = some r'.val.createdAt := by
  induction h generalizing k r next with
  | empty => cases hr
  | @step op t t' h hstep ih =>
    rcases hstep.link_cases ⟨r, hr, hnext⟩ with ⟨r₀, hr₀, hnext₀⟩ | ⟨old, rotated, new, rfl,
        rfl, rfl, hold, -, -, hnew, -⟩
    · obtain ⟨r₁, hr₁, hrev⟩ := ih hr₀ hnext₀
      obtain ⟨r₁', hr₁', hev⟩ := hstep.evolves hr₁
      exact ⟨r₁', hr₁', hev.createdAt ▸ hstep.revokedAt_kept hr₀ hr hrev⟩
    · refine ⟨new, hnew, ?_⟩
      cases hstep with
      | rotate _ _ _ hold' _ hfree hrotated =>
        have hne : old.val.id ≠ new.val.id := by
          intro heq
          rw [← heq, hold'] at hfree
          cases hfree
        rw [Function.update_of_ne hne, Function.update_self] at hr
        rw [← Option.some.inj hr, hrotated]
        rfl

theorem mem_selectLimit_none {found : List Uuid} (horder : ∀ l, (order l).Perm l)
    (h : selectLimit order p none rows = .ok found) :
    k ∈ found ↔ ∃ r ∈ rows, p r.val = true ∧ r.val.id = k := by
  have hfound : ((order rows).filter fun r => p r.val).map (fun r => r.val.id) = found :=
    Except.ok.inj h
  rw [← hfound]
  simp only [List.mem_map, List.mem_filter, (horder rows).mem_iff, and_assoc]

end AuthApi
