import AuthApi.Conc
import AuthApi.Lockout
import Mathlib.Tactic.MkIffOfInductiveProp

/-!
# A lockout that was cleared before it was set

A wrong password is recorded, counted and answered with a lockout in
three statements, each on its own. A sign-in, an unlock or a password
reset clears the lockout in a transaction, and stamps the account with
the time at which that transaction began. If it commits between the
count and the lockout, or if the wrong password is recorded while it is
open, the account is locked by failures that were cleared
(`locked_after_clearing`).

If neither happens, whatever else is interleaved, a lockout is always
preceded by enough failures since the last clearing
(`failures_since_clearing`).
-/

namespace AuthApi

open Conc

/-! ## The system -/

/-- What clears a lockout: a completed sign-in, with the identifier that was
typed or without, an administrator's unlock, or a new password. -/
inductive LockoutClearing where
  | signIn (identifier : Bool)
  | unlock
  | reset
deriving DecidableEq

/-- What the requests on one account share. The last two fields record what
has happened: the wrong passwords recorded since a clearing last committed,
and their number at each `set_locked_until` that locked the account. -/
structure LockoutShared where
  /-- The clock of the database. -/
  now : OffsetDateTime
  db : LockoutDb
  /-- The request whose transaction holds the lock on the account's row. -/
  rowLock : Option Nat
  recorded : Nat
  locks : List Nat

inductive LockoutPc where
  | idle
  | load (right : Bool)
  | record (reason : LoginFailureReason)
  | count
  | lock (lockedUntil : OffsetDateTime)
  | begin (clearing : LockoutClearing)
  | clear (clearing : LockoutClearing) (startedAt : OffsetDateTime)
  | commit (clearing : LockoutClearing) (startedAt : OffsetDateTime)
  | done
deriving DecidableEq

structure LockoutInput where
  /-- The statement is executed. -/
  ok : Bool := true
  /-- The clock of the service. -/
  clock : OffsetDateTime := default
  /-- The right password signs in, without a second factor. -/
  completes : Bool := true
deriving DecidableEq

def LockoutClearing.apply (clearing : LockoutClearing) (startedAt : OffsetDateTime) (id : Uuid)
    (db : LockoutDb) : LockoutDb :=
  let cleared := db.clearLockout startedAt id
  match clearing with
  | .signIn true => cleared.record startedAt (some id) none
  | _ => cleared

def lockoutStep (cfg : LockoutConfig) (id : Uuid) (i : Nat) (inp : LockoutInput)
    (s : LockoutShared) : LockoutPc → Option (LockoutShared × LockoutPc)
  | .load right =>
    if !inp.ok then some (s, .done)
    else if (s.db.users id).isLocked inp.clock then some (s, .record .accountLocked)
    else if !right then some (s, .record .invalidPassword)
    else some (s, if inp.completes then .begin (.signIn true) else .done)
  | .record reason =>
    -- An error here is ignored.
    let s' := if inp.ok then
      { s with
        db := s.db.record s.now (some id) (some reason)
        recorded := s.recorded + if reason = .invalidPassword then 1 else 0 }
      else s
    some (s', if reason = .invalidPassword then .count else .done)
  | .count =>
    let consecutive :=
      if inp.ok then countConsecutiveFailuresByUser s.db id s.now cfg.lockoutThreshold else 0
    match lockoutUntil consecutive cfg.lockoutThreshold cfg.lockoutDurationSecs inp.clock with
    | none => some (s, .done)
    | some lockedUntil => some (s, .lock lockedUntil)
  | .lock lockedUntil =>
    if s.rowLock.isSome then none
    else if !inp.ok then some (s, .done)
    else
      let locked := s.db.setLockedUntil s.now id lockedUntil
      some ({ s with
        db := locked.1
        locks := if locked.2 then s.recorded :: s.locks else s.locks }, .done)
  | .begin clearing => some (s, if inp.ok then .clear clearing s.now else .done)
  | .clear clearing startedAt =>
    if s.rowLock.isSome then none
    else if inp.ok then some ({ s with rowLock := some i }, .commit clearing startedAt)
    else some (s, .done)
  | .commit clearing startedAt =>
    some (if inp.ok then
      { s with db := clearing.apply startedAt id s.db, rowLock := none, recorded := 0 }
      else { s with rowLock := none }, .done)
  | .idle | .done => none

inductive LockoutAct where
  /-- A sign-in attempt, with the right password or not. -/
  | attempt (right : Bool)
  /-- A sign-in by another method, an unlock or a reset. -/
  | clear (clearing : LockoutClearing)
  | go (inp : LockoutInput)
  /-- The request is cut off. -/
  | fail
  | elapse (nanos : Nat)
deriving DecidableEq

def lockoutProgram (cfg : LockoutConfig) (id : Uuid) : Program LockoutShared LockoutPc LockoutAct :=
  fun i a s pc =>
    match a with
    | .attempt right => if pc = .idle then some (s, .load right) else none
    | .clear clearing => if pc = .idle then some (s, .begin clearing) else none
    | .go inp => lockoutStep cfg id i inp s pc
    | .fail =>
      some ({ s with rowLock := if s.rowLock = some i then none else s.rowLock }, .done)
    | .elapse nanos => some ({ s with now := s.now.saturatingAdd nanos }, pc)

abbrev LockoutConf := Conf LockoutShared LockoutPc

def lockoutInitial (now : OffsetDateTime) : LockoutConf where
  shared := ⟨now, ⟨fun _ => {}, []⟩, none, 0, []⟩
  procs := fun _ => .idle

/-! ## The condition -/

/-- When the clearing that is open began. -/
def LockoutPc.clearing : LockoutPc → Option OffsetDateTime
  | .clear _ startedAt | .commit _ startedAt => some startedAt
  | _ => none

def LockoutPc.locking : LockoutPc → Bool
  | .lock _ => true
  | _ => false

def LockoutPc.committing : LockoutPc → Bool
  | .commit .. => true
  | _ => false

def LockoutAct.executes : LockoutAct → Bool
  | .go inp => inp.ok
  | _ => false

/-- With respect to request `j`: no clearing commits between its count and
its lockout, and no wrong password is recorded while its clearing is open. -/
@[mk_iff] structure ClearedApart (c : LockoutConf) (i : Nat) (a : LockoutAct) (j : Nat) :
    Prop where
  commits : a.executes = true → (c.procs i).committing = true → (c.procs j).locking = false
  records : a.executes = true → c.procs i = .record .invalidPassword →
    (c.procs j).clearing = none

def ClearingsApart (c : LockoutConf) (i : Nat) (a : LockoutAct) : Prop :=
  ∀ j, ClearedApart c i a j

/-! ## Failures since the last clearing -/

def LoginAttemptRow.wrongPassword (id : Uuid) (r : LoginAttemptRow) : Bool :=
  r.userId = some id && r.failure = some .invalidPassword

variable {cfg : LockoutConfig} {id : Uuid} {c : LockoutConf} {i j : Nat} {a : LockoutAct}
  {s s' : LockoutShared} {p' : LockoutPc} {inp : LockoutInput} {clearing : LockoutClearing}
  {startedAt : OffsetDateTime}

/-- The wrong passwords recorded before a clearing last committed are no
later than its stamp. -/
def SinceClearing (id : Uuid) (s : LockoutShared) : Prop :=
  ∃ newer older, s.db.attempts = newer ++ older ∧
    newer.countP (·.wrongPassword id) = s.recorded ∧
    ∀ r ∈ older, r.wrongPassword id = true →
      ∃ t ∈ (s.db.users id).lockoutClearedAt, r.attemptedAt ≤ t

structure LockoutOk (cfg : LockoutConfig) (id : Uuid) (c : LockoutConf) : Prop where
  since : SinceClearing id c.shared
  past : ∀ r ∈ c.shared.db.attempts, r.attemptedAt ≤ c.shared.now.toMicros
  opened : ∀ j t, (c.procs j).clearing = some t → t ≤ c.shared.now ∧
    ∀ r ∈ c.shared.db.attempts, r.wrongPassword id = true → r.attemptedAt ≤ t.toMicros
  counted : ∀ j, (c.procs j).locking = true → cfg.lockoutThreshold ≤ c.shared.recorded
  locked : ∀ n ∈ c.shared.locks, cfg.lockoutThreshold ≤ n

theorem count_le_recorded (h : SinceClearing id s) (limit : Nat) (now : OffsetDateTime) :
    countConsecutiveFailuresByUser s.db id now limit ≤ s.recorded := by
  obtain ⟨newer, older, hattempts, hrecorded, holder⟩ := h
  have hold : older.filter (·.countsFor id (s.db.cutoff id now)) = [] := by
    rw [List.filter_eq_nil_iff]
    intro r hr hcounts
    simp only [LoginAttemptRow.countsFor, Bool.and_eq_true, decide_eq_true_eq] at hcounts
    obtain ⟨t, ht, hle⟩ := holder r hr (by simp [LoginAttemptRow.wrongPassword, hcounts.1])
    exact absurd ((cutoff_lt.mp hcounts.2).2.1 t ht) (not_lt.mpr hle)
  calc countConsecutiveFailuresByUser s.db id now limit
      ≤ (s.db.attempts.filter (·.countsFor id (s.db.cutoff id now))).length :=
        List.length_take_le' limit _
    _ = newer.countP (·.countsFor id (s.db.cutoff id now)) := by
        rw [hattempts, List.filter_append, hold, List.append_nil, List.countP_eq_length_filter]
    _ ≤ newer.countP (·.wrongPassword id) := by
        refine List.countP_mono_left fun r _ hcounts => ?_
        simp only [LoginAttemptRow.countsFor, Bool.and_eq_true] at hcounts
        simpa [LoginAttemptRow.wrongPassword] using hcounts.1
    _ = s.recorded := hrecorded

theorem LockoutOk.quiet (h : LockoutOk cfg id c)
    (hattempts : s'.db.attempts = c.shared.db.attempts)
    (hcleared : (s'.db.users id).lockoutClearedAt = (c.shared.db.users id).lockoutClearedAt)
    (hrecorded : s'.recorded = c.shared.recorded) (hnow : c.shared.now ≤ s'.now)
    (hlocks : ∀ n ∈ s'.locks, cfg.lockoutThreshold ≤ n)
    (hclearing : ∀ t, p'.clearing = some t → (c.procs i).clearing = some t ∨ t = c.shared.now)
    (hlocking : p'.locking = true → cfg.lockoutThreshold ≤ c.shared.recorded) :
    LockoutOk cfg id (c.set i s' p') where
  since := by
    obtain ⟨newer, older, hsplit, hcount, holder⟩ := h.since
    exact ⟨newer, older, hattempts.trans hsplit, hcount.trans hrecorded.symm, fun r hr hwrong => by
      rw [Conf.set_shared, hcleared]
      exact holder r hr hwrong⟩
  past r hr := by
    rw [Conf.set_shared, hattempts] at hr
    exact (h.past r hr).trans (OffsetDateTime.toMicros_mono hnow)
  opened j t ht := by
    rw [Conf.set_shared, hattempts]
    have hbefore : (c.procs j).clearing = some t ∨ t = c.shared.now := by
      rcases c.procs_cases i s' p' j with ⟨rfl, hset⟩ | ⟨hji, hset⟩ <;> rw [hset] at ht
      · exact hclearing t ht
      · exact .inl ht
    rcases hbefore with hbefore | rfl
    · obtain ⟨hle, hrows⟩ := h.opened j t hbefore
      exact ⟨hle.trans hnow, hrows⟩
    · exact ⟨hnow, fun r hr _ => h.past r hr⟩
  counted j hj := by
    rw [Conf.set_shared, hrecorded]
    rcases c.procs_cases i s' p' j with ⟨rfl, hset⟩ | ⟨hji, hset⟩ <;> rw [hset] at hj
    · exact hlocking hj
    · exact h.counted j hj
  locked := hlocks

theorem LockoutOk.recorded (h : LockoutOk cfg id c) {reason : LoginFailureReason}
    (hclosed : reason = .invalidPassword → ∀ j, (c.procs j).clearing = none)
    (hp' : p'.clearing = none) (hlocking : p'.locking = false) :
    LockoutOk cfg id (c.set i { c.shared with
      db := c.shared.db.record c.shared.now (some id) (some reason)
      recorded := c.shared.recorded + if reason = .invalidPassword then 1 else 0 } p') where
  since := by
    obtain ⟨newer, older, hsplit, hcount, holder⟩ := h.since
    refine ⟨⟨some id, c.shared.now.toMicros, some reason⟩ :: newer, older, ?_, ?_, holder⟩
    · simp [LockoutDb.record, hsplit]
    · rw [List.countP_cons, hcount]
      simp [LoginAttemptRow.wrongPassword]
  past r hr := by
    rcases List.mem_cons.mp hr with rfl | hr
    · exact le_refl _
    · exact h.past r hr
  opened j t ht := by
    by_cases hji : j = i
    · subst hji
      rw [Conf.set_procs_self, hp'] at ht
      cases ht
    · rw [Conf.set_procs_of_ne _ _ _ hji] at ht
      obtain ⟨hle, hrows⟩ := h.opened j t ht
      refine ⟨hle, fun r hr hwrong => ?_⟩
      rcases List.mem_cons.mp hr with rfl | hr
      · have hreason : reason = .invalidPassword := by
          simpa [LoginAttemptRow.wrongPassword] using hwrong
        rw [hclosed hreason j] at ht
        cases ht
      · exact hrows r hr hwrong
  counted j hj := by
    by_cases hji : j = i
    · subst hji
      rw [Conf.set_procs_self, hlocking] at hj
      cases hj
    · rw [Conf.set_procs_of_ne _ _ _ hji] at hj
      exact (h.counted j hj).trans (Nat.le_add_right _ _)
  locked := h.locked

theorem mem_clearing {db : LockoutDb} {r : LoginAttemptRow}
    (h : r ∈ (clearing.apply startedAt id db).attempts) :
    r ∈ db.attempts ∨ r.failure = none ∧ r.attemptedAt = startedAt.toMicros := by
  unfold LockoutClearing.apply at h
  split at h
  · rcases List.mem_cons.mp h with rfl | h
    · exact .inr ⟨rfl, rfl⟩
    · exact .inl h
  · exact .inl h

theorem clearing_users (clearing : LockoutClearing) (startedAt : OffsetDateTime) (id : Uuid)
    (db : LockoutDb) :
    ((clearing.apply startedAt id db).users id).lockoutClearedAt = some startedAt.toMicros := by
  unfold LockoutClearing.apply
  split <;> simp [LockoutDb.record, LockoutDb.clearLockout]

section

variable (h : LockoutOk cfg id c)
include h

theorem LockoutOk.cleared (hp : c.procs i = .commit clearing startedAt)
    (hcounted : ∀ j, (c.procs j).locking = false) {rowLock : Option Nat} :
    LockoutOk cfg id (c.set i { c.shared with
      db := clearing.apply startedAt id c.shared.db, rowLock := rowLock, recorded := 0 }
      .done) := by
  obtain ⟨hstarted, hbefore⟩ := h.opened i startedAt (by rw [hp]; rfl)
  -- A success is not a wrong password.
  have hwrong : ∀ r ∈ (clearing.apply startedAt id c.shared.db).attempts,
      r.wrongPassword id = true → r ∈ c.shared.db.attempts := by
    intro r hr hr'
    rcases mem_clearing hr with hr | ⟨hsuccess, -⟩
    · exact hr
    · simp [LoginAttemptRow.wrongPassword, hsuccess] at hr'
  refine ⟨⟨[], _, rfl, rfl, fun r hr hr' => ?_⟩, fun r hr => ?_, fun j t ht => ?_,
    fun j hj => ?_, h.locked⟩
  · exact ⟨_, clearing_users clearing startedAt id _, hbefore r (hwrong r hr hr') hr'⟩
  · rcases mem_clearing hr with hr | ⟨-, htime⟩
    · exact h.past r hr
    · exact htime ▸ OffsetDateTime.toMicros_mono hstarted
  · by_cases hji : j = i
    · subst hji
      rw [Conf.set_procs_self] at ht
      cases ht
    · rw [Conf.set_procs_of_ne _ _ _ hji] at ht
      obtain ⟨hle, hrows⟩ := h.opened j t ht
      exact ⟨hle, fun r hr hr' => hrows r (hwrong r hr hr') hr'⟩
  · by_cases hji : j = i
    · subst hji
      rw [Conf.set_procs_self] at hj
      cases hj
    · rw [Conf.set_procs_of_ne _ _ _ hji, hcounted j] at hj
      cases hj

theorem LockoutOk.still (hs' : s' = { c.shared with rowLock := s'.rowLock })
    (hclearing : ∀ t, p'.clearing = some t → (c.procs i).clearing = some t ∨ t = c.shared.now)
    (hlocking : p'.locking = true → cfg.lockoutThreshold ≤ c.shared.recorded) :
    LockoutOk cfg id (c.set i s' p') := by
  rw [hs']
  exact h.quiet rfl rfl rfl (le_refl _) h.locked hclearing hlocking

theorem LockoutOk.count_step (hstep : lockoutStep cfg id i inp c.shared .count = some (s', p')) :
    LockoutOk cfg id (c.set i s' p') := by
  simp only [lockoutStep] at hstep
  split at hstep <;> cases hstep
  · exact h.still rfl (by simp [LockoutPc.clearing]) (by simp [LockoutPc.locking])
  · rename_i hsome
    refine h.still rfl (by simp [LockoutPc.clearing]) fun _ => ?_
    have hle := count_le_recorded h.since cfg.lockoutThreshold c.shared.now
    have henough := threshold_le_of_lockoutUntil hsome
    split at henough <;> omega

theorem LockoutOk.lock_step {lockedUntil : OffsetDateTime} (hp : c.procs i = .lock lockedUntil)
    (hstep : lockoutStep cfg id i inp c.shared (.lock lockedUntil) = some (s', p')) :
    LockoutOk cfg id (c.set i s' p') := by
  have henough := h.counted i (by rw [hp]; rfl)
  simp only [lockoutStep, LockoutDb.setLockedUntil] at hstep
  split at hstep
  · cases hstep
  · split at hstep <;> cases hstep
    · exact h.still rfl (by simp [LockoutPc.clearing]) (by simp [LockoutPc.locking])
    · refine h.quiet ?_ ?_ rfl (le_refl _) ?_ (by simp [LockoutPc.clearing])
        (by simp [LockoutPc.locking])
      · split <;> rfl
      · split <;> simp
      · split
        · exact List.forall_mem_cons.mpr ⟨henough, h.locked⟩
        · exact h.locked

theorem LockoutOk.go (hok : ClearingsApart c i (.go inp))
    (hstep : lockoutStep cfg id i inp c.shared (c.procs i) = some (s', p')) :
    LockoutOk cfg id (c.set i s' p') := by
  cases hp : c.procs i with
  | idle | done =>
    rw [hp] at hstep
    cases hstep
  | load =>
    rw [hp] at hstep
    simp only [lockoutStep] at hstep
    repeat' split at hstep
    all_goals
      cases hstep
      exact h.still rfl (by simp [LockoutPc.clearing]) (by simp [LockoutPc.locking])
  | record =>
    rw [hp] at hstep
    cases hinp : inp.ok <;> simp only [lockoutStep, hinp, if_true] at hstep <;> cases hstep
    · exact h.still rfl (by split <;> simp [LockoutPc.clearing])
        (by split <;> simp [LockoutPc.locking])
    · refine h.recorded (fun hreason j => (hok j).records hinp (by rw [hp, hreason])) ?_ ?_ <;>
        split <;> rfl
  | count => exact h.count_step (hp ▸ hstep)
  | lock => exact h.lock_step hp (hp ▸ hstep)
  | begin =>
    rw [hp] at hstep
    cases hstep
    refine h.still rfl (fun t ht => .inr ?_) ?_
    · split at ht <;> cases ht
      rfl
    · split <;> simp [LockoutPc.locking]
  | clear clearing =>
    rw [hp] at hstep
    simp only [lockoutStep] at hstep
    repeat' split at hstep
    all_goals cases hstep
    · exact h.still rfl (fun t ht => .inl (by rw [hp]; exact ht)) (by simp [LockoutPc.locking])
    · exact h.still rfl (by simp [LockoutPc.clearing]) (by simp [LockoutPc.locking])
  | commit clearing =>
    rw [hp] at hstep
    cases hinp : inp.ok <;> simp only [lockoutStep, hinp, if_true] at hstep <;> cases hstep
    · exact h.still rfl (by simp [LockoutPc.clearing]) (by simp [LockoutPc.locking])
    · exact h.cleared hp fun j => (hok j).commits hinp (by rw [hp]; rfl)

end

theorem le_saturatingAdd (t : OffsetDateTime) (nanos : Nat) : t ≤ t.saturatingAdd nanos := by
  have hmax := t.le_max
  rw [OffsetDateTime.le_iff]
  simp only [OffsetDateTime.saturatingAdd, OffsetDateTime.clamp_nanos]
  omega

theorem LockoutOk.step (h : LockoutOk cfg id c) (hok : ClearingsApart c i a)
    (hstep : lockoutProgram cfg id i a c.shared (c.procs i) = some (s', p')) :
    LockoutOk cfg id (c.set i s' p') := by
  cases a with
  | attempt | clear clearing =>
    simp only [lockoutProgram] at hstep
    split at hstep <;> cases hstep
    exact h.still rfl (by simp [LockoutPc.clearing]) (by simp [LockoutPc.locking])
  | go => exact h.go hok hstep
  | fail =>
    cases hstep
    exact h.still rfl (by simp [LockoutPc.clearing]) (by simp [LockoutPc.locking])
  | elapse =>
    cases hstep
    exact h.quiet rfl rfl rfl (le_saturatingAdd _ _) h.locked (fun _ ht => .inl ht) (h.counted i)

theorem lockoutOk_initial (cfg : LockoutConfig) (id : Uuid) (now : OffsetDateTime) :
    LockoutOk cfg id (lockoutInitial now) where
  since := ⟨[], [], rfl, rfl, fun _ hr => absurd hr List.not_mem_nil⟩
  past _ hr := absurd hr List.not_mem_nil
  opened _ _ ht := nomatch ht
  counted _ hj := nomatch hj
  locked _ hn := absurd hn List.not_mem_nil

/-- **A lockout is preceded by its failures.** If no clearing commits between
a count and its lockout and no wrong password is recorded while a clearing
is open, then at every `set_locked_until` that locks the account at least
threshold wrong passwords have been recorded since a clearing last
committed. -/
theorem failures_since_clearing (cfg : LockoutConfig) (id : Uuid) (now : OffsetDateTime)
    {c : LockoutConf}
    (hrun : Steps (lockoutProgram cfg id) ClearingsApart (lockoutInitial now) c) :
    ∀ n ∈ c.shared.locks, cfg.lockoutThreshold ≤ n :=
  (hrun.invariant (fun _ _ _ _ _ hc hok hprog => hc.step hok hprog)
    (lockoutOk_initial cfg id now)).locked

/-! ## A clearing in between -/

instance (c : LockoutConf) (i : Nat) (a : LockoutAct) (j : Nat) :
    Decidable (ClearedApart c i a j) :=
  decidable_of_iff _ (clearedApart_iff c i a j).symm

theorem steps_clearingsApart {n : Nat} {c c' : LockoutConf}
    (h : Steps (lockoutProgram cfg id) (Below n (fun _ _ _ => True) ClearedApart) c c')
    (hidle : ∀ j, n ≤ j → c.procs j = .idle) :
    Steps (lockoutProgram cfg id) ClearingsApart c c' :=
  (h.of_below (Q := (· = .idle)) (fun c i a j hj => by
    constructor <;> intros <;> rw [hj] <;> rfl) hidle).mono fun _ _ _ hok => hok.2

/-- A wrong password up to the count. -/
def failSchedule (i : Nat) : List (Nat × LockoutAct) :=
  [(i, .attempt false), (i, .go {}), (i, .go {}), (i, .go {})]

/-- An unlock, a second later. -/
def unlockSchedule (i : Nat) : List (Nat × LockoutAct) :=
  [(i, .elapse 1000000000), (i, .clear .unlock), (i, .go {}), (i, .go {}), (i, .go {})]

/-- After an unlock the second of two wrong passwords locks the account. -/
theorem locked_by_two_failures :
    ∃ c, Steps (lockoutProgram ⟨2, 900⟩ 1) ClearingsApart (lockoutInitial (instant 100)) c ∧
      c.shared.locks = [2] ∧ ∀ n ∈ c.shared.locks, 2 ≤ n := by
  obtain ⟨c, hc, hlocks⟩ : ∃ c ∈ exec (lockoutProgram ⟨2, 900⟩ 1)
      (Below 4 (fun _ _ _ => True) ClearedApart) (lockoutInitial (instant 100))
      (failSchedule 0 ++ unlockSchedule 1 ++ [(0, .elapse 1000000000)] ++ failSchedule 2 ++
      failSchedule 3 ++ [(3, .go {})]), c.shared.locks = [2] := by
    decide +kernel
  have hsteps := steps_clearingsApart (steps_of_exec hc) fun _ _ => rfl
  exact ⟨c, hsteps, hlocks, failures_since_clearing ⟨2, 900⟩ 1 (instant 100) hsteps⟩

/-- With a threshold of one: the failure is counted, an unlock commits, and
the account is locked although nothing failed since. -/
theorem locked_after_clearing :
    ¬ ∀ (cfg : LockoutConfig) (id : Uuid) (now : OffsetDateTime) (c : LockoutConf),
      Steps (lockoutProgram cfg id) Free (lockoutInitial now) c →
      ∀ n ∈ c.shared.locks, cfg.lockoutThreshold ≤ n := by
  intro h
  obtain ⟨c, hc, hlocks⟩ : ∃ c ∈ exec (lockoutProgram ⟨1, 900⟩ 1) Free
      (lockoutInitial (instant 100)) (failSchedule 0 ++ unlockSchedule 1 ++ [(0, .go {})]),
      c.shared.locks = [0] := by
    decide +kernel
  have hle := h ⟨1, 900⟩ 1 (instant 100) c (steps_of_exec hc) 0 (by simp [hlocks])
  exact absurd hle (by decide)

end AuthApi
