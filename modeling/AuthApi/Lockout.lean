import AuthApi.Lifetime

/-!
# When wrong passwords lock an account

Every sign-in attempt is a row of `login_attempts`. A wrong password adds
one and then counts (`countConsecutiveFailuresByUser`): the rows of wrong
passwords of the last day, since the account last opened, was cleared or
was locked. What these dates are is spread over the rows and two columns
of `users`, which later operations overwrite.

`LockoutEvent` is what has happened, kept in full. The count of the code
is the one read off this history (`count_eq_counting`), so that a wrong
password locks the account exactly if enough of them came since the
account was last open (`locks_iff_counting`).
-/

namespace AuthApi

/-! ## Rows and columns -/

inductive LoginFailureReason where
  | unknownIdentifier
  | invalidPassword
  | emailNotVerified
  | accountInactive
  | accountSuspended
  | accountDisabled
  | twoFactorRequired
  | twoFactorFailed
  | rateLimited
  | accountLocked
deriving DecidableEq

/-- A row of `login_attempts`. The attempt was successful if there is no
`failure`, by the table's check. -/
structure LoginAttemptRow where
  userId : Option Uuid
  attemptedAt : OffsetDateTime
  failure : Option LoginFailureReason
deriving DecidableEq

structure LockoutColumns where
  lockedUntil : Option OffsetDateTime := none
  lockoutClearedAt : Option OffsetDateTime := none

def LockoutColumns.isLocked (u : LockoutColumns) (now : OffsetDateTime) : Bool :=
  u.lockedUntil.any (now < ·)

structure LockoutDb where
  users : Uuid → LockoutColumns
  /-- The latest first. -/
  attempts : List LoginAttemptRow

structure LockoutConfig where
  lockoutThreshold : Nat
  lockoutDurationSecs : Nat

/-! ## Statements -/

/-- `GREATEST`, which ignores `NULL`. -/
def greatest : List (Option Int) → Option Int
  | [] => none
  | x :: xs =>
    match x, greatest xs with
    | some a, some b => some (max a b)
    | some a, none => some a
    | none, g => g

def dayNanos : Int := 86400 * nanosPerSec

/-- `MAX(attempted_at)` of the successful attempts. -/
def lastSuccess (attempts : List LoginAttemptRow) (id : Uuid) : Option Int :=
  greatest ((attempts.filter fun r => r.userId = some id && r.failure.isNone).map
    fun r => some r.attemptedAt.nanos)

def LockoutDb.cutoff (db : LockoutDb) (id : Uuid) (now : OffsetDateTime) : Option Int :=
  greatest [lastSuccess db.attempts id, (db.users id).lockoutClearedAt.map (·.nanos),
    (db.users id).lockedUntil.map (·.nanos), some (now.toMicros.nanos - dayNanos)]

def LoginAttemptRow.countsFor (r : LoginAttemptRow) (id : Uuid) (cutoff : Option Int) : Bool :=
  r.userId = some id && r.failure = some .invalidPassword && cutoff.any (· < r.attemptedAt.nanos)

def countConsecutiveFailuresByUser (db : LockoutDb) (id : Uuid) (now : OffsetDateTime)
    (limit : Nat) : Nat :=
  ((db.attempts.filter (·.countsFor id (db.cutoff id now))).take limit).length

def LockoutDb.record (db : LockoutDb) (now : OffsetDateTime) (userId : Option Uuid)
    (failure : Option LoginFailureReason) : LockoutDb :=
  { db with attempts := ⟨userId, now.toMicros, failure⟩ :: db.attempts }

/-- `record_sign_in` and `clear_lockout`, at the start `now` of the transaction. -/
def LockoutDb.clearLockout (db : LockoutDb) (now : OffsetDateTime) (id : Uuid) : LockoutDb :=
  { db with users := Function.update db.users id ⟨none, some now.toMicros⟩ }

def LockoutDb.setLockedUntil (db : LockoutDb) (now : OffsetDateTime) (id : Uuid)
    (lockedUntil : OffsetDateTime) : LockoutDb × Bool :=
  if (db.users id).lockedUntil.all (· ≤ now.toMicros) then
    ({ db with
      users := Function.update db.users id
        { db.users id with lockedUntil := some lockedUntil.toMicros } }, true)
  else (db, false)

/-- A duration past the range of `i64` seconds is the longest there is. -/
def lockoutDuration (secs : Nat) : Int :=
  if secs < 2 ^ 63 then secs * nanosPerSec else 2 ^ 63 * nanosPerSec - 1

def lockoutUntil (consecutive threshold durationSecs : Nat) (now : OffsetDateTime) :
    Option OffsetDateTime :=
  if threshold = 0 ∨ consecutive < threshold then none
  else some (now.saturatingAdd (lockoutDuration durationSecs))

/-! ## Operations, and what has happened -/

/-- `whileLocked` is whether a lock held at the attempt. -/
inductive LockoutEvent where
  | failed (user : Option Uuid) (reason : LoginFailureReason) (time : OffsetDateTime)
      (whileLocked : Bool)
  /-- A completed sign-in, with the identifier that was typed or without. -/
  | signedIn (user : Uuid) (identifier : Bool) (time : OffsetDateTime)
  | cleared (user : Uuid) (time : OffsetDateTime)
  | locked (user : Uuid) (time lockedUntil : OffsetDateTime)
deriving DecidableEq

/-- What the right password leads to. -/
inductive RightPassword where
  | pendingVerification
  /-- The status of the account does not allow a sign-in. -/
  | refused
  | secondFactor
  | signedIn
deriving DecidableEq

/-- What a lockout does after a wrong password is recorded. -/
def LockoutDb.lockUp (db : LockoutDb) (cfg : LockoutConfig) (now : OffsetDateTime) (id : Uuid) :
    LockoutDb × List LockoutEvent :=
  let consecutive := countConsecutiveFailuresByUser db id now cfg.lockoutThreshold
  match lockoutUntil consecutive cfg.lockoutThreshold cfg.lockoutDurationSecs now with
  | none => (db, [])
  | some lockedUntil =>
    let locked := db.setLockedUntil now id lockedUntil
    (locked.1, if locked.2 then [.locked id now lockedUntil.toMicros] else [])

/-- The stamp of a completed sign-in, in `issue_tokens`. -/
def LockoutDb.completeSignIn (db : LockoutDb) (now : OffsetDateTime) (id : Uuid)
    (identifier : Bool) : LockoutDb × List LockoutEvent :=
  let cleared := db.clearLockout now id
  (if identifier then cleared.record now (some id) none else cleared,
    [.signedIn id identifier now])

def LockoutDb.fail (db : LockoutDb) (now : OffsetDateTime) (user : Option Uuid)
    (reason : LoginFailureReason) (whileLocked : Bool) : LockoutDb × List LockoutEvent :=
  (db.record now user (some reason), [.failed user reason now whileLocked])

/-- `login`, of the account the identifier leads to; `right` is what
follows the password, if it is right. -/
def LockoutDb.login (db : LockoutDb) (cfg : LockoutConfig) (now : OffsetDateTime)
    (account : Option Uuid) (right : Option RightPassword) : LockoutDb × List LockoutEvent :=
  match account with
  | none => db.fail now none .unknownIdentifier false
  | some id =>
    if (db.users id).isLocked now then db.fail now (some id) .accountLocked true
    else
      match right with
      | none =>
        let failed := db.fail now (some id) .invalidPassword false
        let locked := failed.1.lockUp cfg now id
        (locked.1, locked.2 ++ failed.2)
      | some .pendingVerification => db.fail now (some id) .emailNotVerified false
      | some .refused | some .secondFactor => (db, [])
      | some .signedIn => db.completeSignIn now id true

inductive LockoutOp where
  | login (account : Option Uuid) (right : Option RightPassword)
  /-- A sign-in by another method, or one that had to wait for its second factor. -/
  | signIn (user : Uuid) (identifier : Bool)
  | unlock (user : Uuid)

def LockoutDb.apply (db : LockoutDb) (cfg : LockoutConfig) (now : OffsetDateTime) :
    LockoutOp → LockoutDb × List LockoutEvent
  | .login account right => db.login cfg now account right
  | .signIn user identifier => db.completeSignIn now user identifier
  | .unlock user => (db.clearLockout now user, [.cleared user now])

/-- The tables, and the events that led to them, the latest first. -/
structure LockoutRun where
  db : LockoutDb
  events : List LockoutEvent

def LockoutRun.start : LockoutRun := ⟨⟨fun _ => {}, []⟩, []⟩

def LockoutRun.step (cfg : LockoutConfig) (s : LockoutRun) (op : OffsetDateTime × LockoutOp) :
    LockoutRun :=
  let applied := s.db.apply cfg op.1 op.2
  ⟨applied.1, applied.2 ++ s.events⟩

/-- The operations one after the other, from empty tables. -/
def LockoutRun.of (cfg : LockoutConfig) (ops : List (OffsetDateTime × LockoutOp)) : LockoutRun :=
  ops.foldl (LockoutRun.step cfg) .start

/-! ## The count, read off the events -/

def LockoutEvent.time : LockoutEvent → OffsetDateTime
  | .failed _ _ time _ | .signedIn _ _ time | .cleared _ time | .locked _ time _ => time

def LockoutEvent.whileLocked : LockoutEvent → Bool
  | .failed _ _ _ whileLocked => whileLocked
  | _ => false

def lastSignIn (id : Uuid) : List LockoutEvent → Option OffsetDateTime
  | [] => none
  | .signedIn user _ time :: events => if user = id then some time else lastSignIn id events
  | _ :: events => lastSignIn id events

def lastClearing (id : Uuid) : List LockoutEvent → Option OffsetDateTime
  | [] => none
  | .cleared user time :: events => if user = id then some time else lastClearing id events
  | _ :: events => lastClearing id events

/-- When the last lock ended, or ends. A sign-in or a clearing ends it. -/
def endOfLastLock (id : Uuid) : List LockoutEvent → Option OffsetDateTime
  | [] => none
  | .locked user _ lockedUntil :: events =>
    if user = id then some lockedUntil else endOfLastLock id events
  | .signedIn user _ time :: events | .cleared user time :: events =>
    if user = id then (endOfLastLock id events).map (min time) else endOfLastLock id events
  | .failed .. :: events => endOfLastLock id events

/-- Later than all that starts the count anew. -/
def AfterReopening (id : Uuid) (events : List LockoutEvent) (time : OffsetDateTime) : Prop :=
  (∀ t ∈ lastSignIn id events, t < time) ∧ (∀ t ∈ lastClearing id events, t < time) ∧
    ∀ t ∈ endOfLastLock id events, t < time

instance (id : Uuid) (events : List LockoutEvent) (time : OffsetDateTime) :
    Decidable (AfterReopening id events time) :=
  inferInstanceAs (Decidable (_ ∧ _ ∧ _))

/-- The wrong passwords that count towards a lock at `now`. -/
def counting (id : Uuid) (now : OffsetDateTime) (events : List LockoutEvent) :
    List LockoutEvent :=
  events.filter fun
    | .failed user reason time _ =>
      user = some id && reason = .invalidPassword && now.nanos - dayNanos < time.nanos &&
        AfterReopening id events time
    | _ => false

/-! ## Cut-off dates -/

variable {xs : List (Option Int)} {x t : OffsetDateTime} {event : LockoutEvent}

theorem greatest_lt {x : Int} : (∀ m ∈ greatest xs, m < x) ↔ ∀ o ∈ xs, ∀ y ∈ o, y < x := by
  induction xs with
  | nil => simp [greatest]
  | cons a xs ih =>
    rw [List.forall_mem_cons, ← ih]
    cases a <;> cases h : greatest xs <;> simp [greatest, h]

theorem greatest_isSome {y : Int} (h : some y ∈ xs) : (greatest xs).isSome := by
  induction xs with
  | nil => cases h
  | cons a xs ih =>
    simp only [greatest]
    rcases List.mem_cons.mp h with rfl | hmem
    · split <;> simp_all
    · have := ih hmem
      split <;> simp_all

variable {db : LockoutDb} {id : Uuid} {now : OffsetDateTime} {events : List LockoutEvent}
  {cfg : LockoutConfig}

theorem lastSuccess_lt {attempts : List LoginAttemptRow} {x : Int} :
    (∀ m ∈ lastSuccess attempts id, m < x) ↔
      ∀ r ∈ attempts, r.userId = some id → r.failure = none → r.attemptedAt.nanos < x := by
  rw [lastSuccess, greatest_lt, List.forall_mem_map]
  simp [and_imp]

theorem cutoff_lt :
    (db.cutoff id now).any (· < x.nanos) = true ↔
      (∀ r ∈ db.attempts, r.userId = some id → r.failure = none → r.attemptedAt < x) ∧
      (∀ t ∈ (db.users id).lockoutClearedAt, t < x) ∧ (∀ t ∈ (db.users id).lockedUntil, t < x) ∧
      now.toMicros.nanos - dayNanos < x.nanos := by
  have hsome : (db.cutoff id now).isSome := by
    refine greatest_isSome (y := now.toMicros.nanos - dayNanos) ?_
    simp
  obtain ⟨m, hm⟩ := Option.isSome_iff_exists.mp hsome
  have hlt : (db.cutoff id now).any (· < x.nanos) = true ↔ ∀ m ∈ db.cutoff id now, m < x.nanos := by
    simp [hm]
  rw [hlt, LockoutDb.cutoff, greatest_lt]
  simp only [List.forall_mem_cons, List.not_mem_nil, false_implies, implies_true, and_true]
  refine and_congr lastSuccess_lt (and_congr Option.forall_mem_map
    (and_congr Option.forall_mem_map ?_))
  simp

/-! ## The tables hold what the count needs -/

def LockoutEvent.row : LockoutEvent → Option LoginAttemptRow
  | .failed user reason time _ => some ⟨user, time, some reason⟩
  | .signedIn user true time => some ⟨some user, time, none⟩
  | _ => none

/-- The tables agree with the events. -/
structure Agrees (db : LockoutDb) (events : List LockoutEvent) : Prop where
  rows : db.attempts = events.filterMap LockoutEvent.row
  successes : ∀ r ∈ db.attempts, ∀ id, r.userId = some id → r.failure = none →
    ∃ t ∈ (db.users id).lockoutClearedAt, r.attemptedAt ≤ t
  cleared : ∀ id x, (∀ t ∈ (db.users id).lockoutClearedAt, t < x) ↔
    (∀ t ∈ lastSignIn id events, t < x) ∧ ∀ t ∈ lastClearing id events, t < x
  reopened : ∀ id x, ((∀ t ∈ (db.users id).lockoutClearedAt, t < x) ∧
    ∀ t ∈ (db.users id).lockedUntil, t < x) ↔ AfterReopening id events x
  unlocked : ∀ user time whileLocked, .failed user .invalidPassword time whileLocked ∈ events →
    whileLocked = false


theorem time_of_last {last : List LockoutEvent → Option OffsetDateTime} (hnil : last [] = none)
    (hcons : ∀ e events, last (e :: events) = some e.time ∨ last (e :: events) = last events)
    (h : t ∈ last events) : ∃ e ∈ events, e.time = t := by
  induction events with
  | nil => exact nomatch hnil.symm.trans h
  | cons e events ih =>
    rcases hcons e events with heq | heq
    · exact ⟨e, List.mem_cons_self, Option.some.inj (heq.symm.trans h)⟩
    · obtain ⟨e', he', htime⟩ := ih (heq ▸ h)
      exact ⟨e', List.mem_cons_of_mem e he', htime⟩

theorem time_of_lastSignIn (h : t ∈ lastSignIn id events) : ∃ e ∈ events, e.time = t := by
  refine time_of_last rfl (fun e events => ?_) h
  cases e with
  | signedIn user => exact ite_eq_or_eq (user = id) _ _
  | _ => exact .inr rfl

theorem time_of_lastClearing (h : t ∈ lastClearing id events) : ∃ e ∈ events, e.time = t := by
  refine time_of_last rfl (fun e events => ?_) h
  cases e with
  | cleared user => exact ite_eq_or_eq (user = id) _ _
  | _ => exact .inr rfl

theorem Agrees.time_of_row (h : Agrees db events) (hpast : ∀ e ∈ events, e.time < now)
    {r : LoginAttemptRow} (hr : r ∈ db.attempts) : r.attemptedAt < now := by
  rw [h.rows] at hr
  obtain ⟨e, he, hrow⟩ := List.mem_filterMap.mp hr
  have htime : r.attemptedAt = e.time := by
    cases e with
    | signedIn user identifier =>
      cases identifier <;> cases hrow
      rfl
    | _ => cases hrow <;> rfl
  exact htime ▸ hpast e he

theorem agrees_start : Agrees LockoutRun.start.db LockoutRun.start.events where
  rows := rfl
  successes _ hr := absurd hr List.not_mem_nil
  cleared _ _ := by simp [LockoutRun.start, lastSignIn, lastClearing]
  reopened _ _ := by
    simp [LockoutRun.start, AfterReopening, lastSignIn, lastClearing, endOfLastLock]
  unlocked _ _ _ he := absurd he List.not_mem_nil

theorem Agrees.fail (h : Agrees db events) (hnow : now.toMicros = now) {user : Option Uuid}
    {reason : LoginFailureReason} {whileLocked : Bool}
    (hunlocked : reason = .invalidPassword → whileLocked = false) :
    Agrees (db.fail now user reason whileLocked).1
      ((db.fail now user reason whileLocked).2 ++ events) where
  rows := by simp [LockoutDb.fail, LockoutDb.record, LockoutEvent.row, h.rows, hnow]
  successes r hr id huser hfailure := by
    rcases List.mem_cons.mp hr with rfl | hr
    · cases hfailure
    · exact h.successes r hr id huser hfailure
  cleared := h.cleared
  reopened := h.reopened
  unlocked user' time held hmem := by
    rcases List.mem_cons.mp hmem with heq | hmem
    · cases heq
      exact hunlocked rfl
    · exact h.unlocked user' time held hmem

theorem Agrees.lock (h : Agrees db events) (id : Uuid) (now lockedUntil : OffsetDateTime) :
    Agrees { db with
        users := Function.update db.users id { db.users id with lockedUntil := some lockedUntil } }
      (.locked id now lockedUntil :: events) where
  rows := h.rows
  successes r hr id' huser hfailure := by
    obtain ⟨t, ht, hle⟩ := h.successes r hr id' huser hfailure
    refine ⟨t, ?_, hle⟩
    by_cases hid : id' = id
    · subst hid
      simpa using ht
    · simpa [hid] using ht
  cleared id' x := by
    simp only [lastSignIn, lastClearing]
    rw [← h.cleared id' x]
    by_cases hid : id' = id
    · subst hid
      simp
    · simp [hid]
  reopened id' x := by
    by_cases hid : id' = id
    · subst hid
      have hcleared := h.cleared id' x
      simp only [AfterReopening, lastSignIn, lastClearing, endOfLastLock, if_true]
      simp only [Function.update_self]
      rw [hcleared, and_assoc]
    · have hreopened := h.reopened id' x
      simp only [AfterReopening, lastSignIn, lastClearing, endOfLastLock, if_neg (Ne.symm hid)]
      simp only [Function.update_of_ne hid]
      exact hreopened
  unlocked user time held hmem := by
    rcases List.mem_cons.mp hmem with heq | hmem
    · cases heq
    · exact h.unlocked user time held hmem

/-- What a sign-in or a clearing does to the dates of each account. -/
theorem afterReopening_clear {id' : Uuid}
    (hevent : event = .cleared id now ∨ ∃ identifier, event = .signedIn id identifier now)
    (hpast : ∀ e ∈ events, e.time < now) :
    (((∀ t ∈ lastSignIn id' (event :: events), t < x) ∧
        ∀ t ∈ lastClearing id' (event :: events), t < x) ↔
      if id' = id then now < x
      else (∀ t ∈ lastSignIn id' events, t < x) ∧ ∀ t ∈ lastClearing id' events, t < x) ∧
    (AfterReopening id' (event :: events) x ↔
      if id' = id then now < x else AfterReopening id' events x) := by
  have hsignIn : now < x → ∀ t ∈ lastSignIn id' events, t < x := by
    intro hx t ht
    obtain ⟨e, he, rfl⟩ := time_of_lastSignIn ht
    exact (hpast e he).trans hx
  have hclearing : now < x → ∀ t ∈ lastClearing id' events, t < x := by
    intro hx t ht
    obtain ⟨e, he, rfl⟩ := time_of_lastClearing ht
    exact (hpast e he).trans hx
  have hlock : now < x → ∀ t ∈ (endOfLastLock id' events).map (min now), t < x := by
    rw [Option.forall_mem_map]
    exact fun hx t _ => (min_le_left _ _).trans_lt hx
  by_cases hid : id' = id
  · subst hid
    rcases hevent with rfl | ⟨identifier, rfl⟩
    all_goals
      simp only [AfterReopening, lastSignIn, lastClearing, endOfLastLock, if_true, Option.mem_def,
        Option.some.injEq, forall_eq']
      grind
  · rcases hevent with rfl | ⟨identifier, rfl⟩ <;>
      simp [AfterReopening, lastSignIn, lastClearing, endOfLastLock, hid, Ne.symm hid]

section

variable (h : Agrees db events)
include h

variable (hnow : now.toMicros = now) (hpast : ∀ e ∈ events, e.time < now)
include hnow hpast

theorem Agrees.clear
    (hevent : event = .cleared id now ∨ ∃ identifier, event = .signedIn id identifier now) :
    Agrees ⟨(db.clearLockout now id).users, event.row.toList ++ db.attempts⟩ (event :: events) where
  rows := by
    rw [List.filterMap_cons, h.rows]
    cases event.row <;> rfl
  successes r hr id' huser hfailure := by
    have htime : r ∈ db.attempts → r.attemptedAt ≤ now := fun hr => (h.time_of_row hpast hr).le
    by_cases hid : id' = id
    · subst hid
      refine ⟨now, by simp [LockoutDb.clearLockout, hnow], ?_⟩
      rcases List.mem_append.mp hr with hr | hr
      · rcases hevent with rfl | ⟨identifier | identifier, rfl⟩ <;>
          simp only [LockoutEvent.row, Option.toList, List.mem_cons, List.not_mem_nil, or_false]
            at hr
        rw [hr]
      · exact htime hr
    · rcases List.mem_append.mp hr with hr | hr
      · rcases hevent with rfl | ⟨identifier | identifier, rfl⟩ <;>
          simp only [LockoutEvent.row, Option.toList, List.mem_cons, List.not_mem_nil, or_false]
            at hr
        rw [hr] at huser
        exact absurd (Option.some.inj huser).symm hid
      · obtain ⟨t, ht, hle⟩ := h.successes r hr id' huser hfailure
        exact ⟨t, by simpa [LockoutDb.clearLockout, hid] using ht, hle⟩
  cleared id' x := by
    rw [(afterReopening_clear hevent hpast).1, ← h.cleared id' x]
    by_cases hid : id' = id
    · subst hid
      simp [LockoutDb.clearLockout, hnow]
    · simp [LockoutDb.clearLockout, hid]
  reopened id' x := by
    rw [(afterReopening_clear hevent hpast).2, ← h.reopened id' x]
    by_cases hid : id' = id
    · subst hid
      simp [LockoutDb.clearLockout, hnow]
    · simp [LockoutDb.clearLockout, hid]
  unlocked user time held hmem := by
    rcases List.mem_cons.mp hmem with heq | hmem
    · rcases hevent with rfl | ⟨identifier, rfl⟩ <;> cases heq
    · exact h.unlocked user time held hmem

omit hnow hpast in
theorem Agrees.lockUp (cfg : LockoutConfig) (now : OffsetDateTime) (id : Uuid) :
    Agrees (db.lockUp cfg now id).1 ((db.lockUp cfg now id).2 ++ events) := by
  simp only [LockoutDb.lockUp, LockoutDb.setLockedUntil]
  split
  · exact h
  · split
    · exact h.lock id now _
    · exact h

theorem Agrees.completeSignIn (id : Uuid) (identifier : Bool) :
    Agrees (db.completeSignIn now id identifier).1
      ((db.completeSignIn now id identifier).2 ++ events) := by
  have hevent : LockoutEvent.signedIn id identifier now = .cleared id now ∨
      ∃ b, LockoutEvent.signedIn id identifier now = .signedIn id b now :=
    .inr ⟨identifier, rfl⟩
  have hclear := h.clear hnow hpast hevent
  cases identifier
  · exact hclear
  · simpa [LockoutDb.completeSignIn, LockoutDb.record, LockoutDb.clearLockout, LockoutEvent.row,
      hnow] using hclear

theorem Agrees.login (cfg : LockoutConfig) (account : Option Uuid) (right : Option RightPassword) :
    Agrees (db.login cfg now account right).1 ((db.login cfg now account right).2 ++ events) := by
  cases account with
  | none => exact h.fail hnow nofun
  | some id =>
    simp only [LockoutDb.login]
    split
    · exact h.fail hnow nofun
    · cases right with
      | none =>
        have hfailed : Agrees (db.fail now (some id) .invalidPassword false).1
            ((db.fail now (some id) .invalidPassword false).2 ++ events) :=
          h.fail hnow fun _ => rfl
        have hlocked := hfailed.lockUp cfg now id
        rwa [← List.append_assoc] at hlocked
      | some right =>
        cases right with
        | pendingVerification => exact h.fail hnow nofun
        | refused | secondFactor => exact h
        | signedIn => exact h.completeSignIn hnow hpast id true

theorem Agrees.apply (cfg : LockoutConfig) (op : LockoutOp) :
    Agrees (db.apply cfg now op).1 ((db.apply cfg now op).2 ++ events) := by
  cases op with
  | login account right => exact h.login hnow hpast cfg account right
  | signIn user identifier => exact h.completeSignIn hnow hpast user identifier
  | unlock => exact h.clear hnow hpast (.inl rfl)

end

theorem time_of_apply {op : LockoutOp} {e : LockoutEvent} (h : e ∈ (db.apply cfg now op).2) :
    e.time = now := by
  have hfail : ∀ {user reason held}, e ∈ (db.fail now user reason held).2 → e.time = now := by
    intro user reason held he
    rw [List.mem_singleton.mp he]
    rfl
  cases op with
  | login account right =>
    cases account with
    | none => exact hfail h
    | some =>
      simp only [LockoutDb.apply, LockoutDb.login] at h
      split at h
      · exact hfail h
      · cases right with
        | none =>
          rcases List.mem_append.mp h with he | he
          · simp only [LockoutDb.lockUp] at he
            split at he
            · cases he
            · split at he
              · rw [List.mem_singleton.mp he]
                rfl
              · cases he
          · exact hfail he
        | some right =>
          cases right with
          | pendingVerification => exact hfail h
          | refused | secondFactor => cases h
          | signedIn =>
            rw [List.mem_singleton.mp h]
            rfl
  | signIn | unlock =>
    rw [List.mem_singleton.mp h]
    rfl

/-- Readings of one clock: later and later, and whole microseconds, as the
database has them. -/
structure Readings (times : List OffsetDateTime) : Prop where
  increasing : times.Pairwise (· < ·)
  micros : ∀ t ∈ times, t.toMicros = t

theorem agrees_of (cfg : LockoutConfig) (ops : List (OffsetDateTime × LockoutOp))
    (hclock : Readings (ops.map Prod.fst)) :
    Agrees (LockoutRun.of cfg ops).db (LockoutRun.of cfg ops).events ∧
      ∀ e ∈ (LockoutRun.of cfg ops).events, e.time ∈ ops.map Prod.fst := by
  induction ops using List.reverseRecOn with
  | nil => exact ⟨agrees_start, fun _ he => absurd he List.not_mem_nil⟩
  | append_singleton ops op ih =>
    rw [List.map_append, List.map_singleton] at hclock ⊢
    obtain ⟨hbefore, -, hlater⟩ := List.pairwise_append.mp hclock.increasing
    obtain ⟨hagrees, htimes⟩ :=
      ih ⟨hbefore, fun t ht => hclock.micros t (List.mem_append_left _ ht)⟩
    have hpast : ∀ e ∈ (LockoutRun.of cfg ops).events, e.time < op.1 := fun e he =>
      hlater e.time (htimes e he) op.1 (List.mem_singleton_self _)
    rw [LockoutRun.of, List.foldl_append, List.foldl_cons, List.foldl_nil]
    refine ⟨hagrees.apply (hclock.micros op.1 (by simp)) hpast cfg op.2, fun e he => ?_⟩
    rcases List.mem_append.mp he with he | he
    · rw [time_of_apply he]
      simp
    · exact List.mem_append_left _ (htimes e he)

/-! ## The count -/

/-- **The count is that of the history.** -/
theorem count_eq_counting (h : Agrees db events) (hnow : now.toMicros = now) (id : Uuid)
    (limit : Nat) :
    countConsecutiveFailuresByUser db id now limit =
      min limit (counting id now events).length := by
  have hcutoff : ∀ x : OffsetDateTime, (db.cutoff id now).any (· < x.nanos) = true ↔
      now.nanos - dayNanos < x.nanos ∧ AfterReopening id events x := by
    intro x
    rw [cutoff_lt, hnow, ← h.reopened id x]
    constructor
    · rintro ⟨-, hcleared, hlocked, hday⟩
      exact ⟨hday, hcleared, hlocked⟩
    · rintro ⟨hday, hcleared, hlocked⟩
      refine ⟨fun r hr huser hfailure => ?_, hcleared, hlocked, hday⟩
      -- A success was stamped on the account as well.
      obtain ⟨t, ht, hle⟩ := h.successes r hr id huser hfailure
      exact hle.trans_lt (hcleared t ht)
  rw [countConsecutiveFailuresByUser, List.length_take, counting, ← List.countP_eq_length_filter,
    ← List.countP_eq_length_filter, h.rows, List.countP_filterMap]
  congr 1
  refine List.countP_congr fun e _ => ?_
  cases e with
  | failed =>
    simp only [LockoutEvent.row, LoginAttemptRow.countsFor, Option.map_some, Option.getD_some,
      Bool.and_eq_true, hcutoff, decide_eq_true_eq, Option.some.injEq, and_assoc]
  | signedIn user identifier =>
    cases identifier <;> simp [LockoutEvent.row, LoginAttemptRow.countsFor]
  | cleared | locked => simp [LockoutEvent.row]

theorem threshold_le_of_lockoutUntil {consecutive threshold durationSecs : Nat}
    {lockedUntil : OffsetDateTime}
    (h : lockoutUntil consecutive threshold durationSecs now = some lockedUntil) :
    threshold ≤ consecutive := by
  simp only [lockoutUntil] at h
  split at h
  · cases h
  · omega

theorem lockUp_events (hunlocked : (db.users id).isLocked now = false)
    (hnow : now.toMicros = now) (hT : 1 ≤ cfg.lockoutThreshold) :
    (∃ lockedUntil, .locked id now lockedUntil ∈ (db.lockUp cfg now id).2) ↔
      cfg.lockoutThreshold ≤ countConsecutiveFailuresByUser db id now cfg.lockoutThreshold := by
  have hfree : (db.users id).lockedUntil.all (· ≤ now.toMicros) = true := by
    cases hlock : (db.users id).lockedUntil with
    | none => rfl
    | some =>
      simpa [LockoutColumns.isLocked, hlock, hnow] using hunlocked
  simp only [LockoutDb.lockUp, lockoutUntil, LockoutDb.setLockedUntil, if_pos hfree]
  split
  · rename_i hnone
    have hlow : countConsecutiveFailuresByUser db id now cfg.lockoutThreshold <
        cfg.lockoutThreshold := by
      split at hnone
      · omega
      · cases hnone
    simp only [List.not_mem_nil, exists_false, false_iff]
    omega
  · rename_i lockedUntil hsome
    simp only [if_true, List.mem_singleton]
    exact ⟨fun _ => threshold_le_of_lockoutUntil hsome, fun _ => ⟨_, rfl⟩⟩

/-- **The lockout is exact.** After any operations at readings of one
clock, a wrong password on an unlocked account locks it exactly if the
wrong passwords of the last day since the account was last open, this one
included, reach the threshold; and none of them was submitted while a lock
held. -/
theorem locks_iff_counting (cfg : LockoutConfig) (hT : 1 ≤ cfg.lockoutThreshold)
    (ops : List (OffsetDateTime × LockoutOp)) (now : OffsetDateTime)
    (hclock : Readings (ops.map Prod.fst ++ [now])) (id : Uuid)
    (hunlocked : ((LockoutRun.of cfg ops).db.users id).isLocked now = false) :
    let s := LockoutRun.of cfg ops
    let failures := counting id now (.failed (some id) .invalidPassword now false :: s.events)
    ((∃ lockedUntil, .locked id now lockedUntil ∈ (s.db.login cfg now (some id) none).2) ↔
        cfg.lockoutThreshold ≤ failures.length) ∧
      ∀ e ∈ failures, e.whileLocked = false := by
  intro s failures
  have hnow : now.toMicros = now := hclock.micros now (by simp)
  have hops : Readings (ops.map Prod.fst) :=
    ⟨(List.pairwise_append.mp hclock.increasing).1,
      fun t ht => hclock.micros t (List.mem_append_left _ ht)⟩
  have hfailed : Agrees (s.db.fail now (some id) .invalidPassword false).1
      (.failed (some id) .invalidPassword now false :: s.events) :=
    (agrees_of cfg ops hops).1.fail hnow fun _ => rfl
  refine ⟨?_, fun e he => ?_⟩
  · have hunlocked' : ((s.db.fail now (some id) .invalidPassword false).1.users id).isLocked now
        = false := hunlocked
    have hlocks := lockUp_events hunlocked' hnow hT
    rw [count_eq_counting hfailed hnow, Nat.le_min] at hlocks
    simp only [LockoutDb.login, show (s.db.users id).isLocked now = false from hunlocked]
    simpa [LockoutDb.fail] using hlocks
  · obtain ⟨hmem, hcounts⟩ := List.mem_filter.mp he
    cases e with
    | failed user reason time held =>
      simp only [Bool.and_eq_true, decide_eq_true_eq] at hcounts
      obtain rfl : reason = .invalidPassword := hcounts.1.1.2
      exact hfailed.unlocked user time held hmem
    | _ => rfl

/-- With a threshold of two: a wrong password, a sign-in, which starts the
count anew, and two more wrong passwords. The second of them locks. -/
theorem second_failure_locks :
    let ops : List (OffsetDateTime × LockoutOp) := [(instant 100, .login (some 1) none),
      (instant 200, .login (some 1) (some .signedIn)), (instant 300, .login (some 1) none)]
    let s := LockoutRun.of ⟨2, 900⟩ ops
    s.events.length = 3 ∧ ∃ lockedUntil, .locked 1 (instant 400) lockedUntil ∈
      (s.db.login ⟨2, 900⟩ (instant 400) (some 1) none).2 := by
  intro ops s
  have hclock : Readings (ops.map Prod.fst ++ [instant 400]) := ⟨by decide, by decide⟩
  exact ⟨by decide, (locks_iff_counting ⟨2, 900⟩ (by decide) ops (instant 400) hclock 1
    (by decide)).1.mpr (by decide)⟩

end AuthApi
