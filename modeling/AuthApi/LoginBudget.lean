import AuthApi.RedisCounter
import AuthApi.SessionSystem
import Mathlib.Data.Finset.Card
import Mathlib.Tactic.MkIffOfInductiveProp

/-!
# How many passwords an account's budget lets through

`login` reserves an attempt before it checks the password
(`reserve_attempt`), on the account and on the client's network, and
gives it back if the password is right. Between the reservation and the
`DECR` the counter may be cleared, by an unlock or a new password, or
may expire; the `DECR` then starts a new count at minus one, which lets
one wrong password through too many.

An attempt that gets no answer from Redis is let through as well, and
counted here with the others.

If what is given back was reserved on the count that is running, and the
wrong passwords are answered, the limit holds (`let_through_le`): the counter
stands at the wrong passwords let through and the attempts that may still be
given back, or above. `eleven_let_through` is a run in which one is given
back too late.
-/

namespace AuthApi

open Conc RedisCounter

/-! ## The system -/

/-- `ip_bucket`: an address, or the /64 it is in. -/
inductive IpBucket where
  | v4 (bits : BitVec 32)
  | v6 (segments : BitVec 64)
deriving DecidableEq

def ipBucket : IpAddr → IpBucket
  | .v4 bits => .v4 bits
  | .v6 bits =>
    -- An IPv4-mapped address is the IPv4 address.
    if bits.extractLsb' 32 96 = 0xffff then .v4 (bits.extractLsb' 0 32)
    else .v6 (bits.extractLsb' 64 64)

/-- `login_try:{id}` and `login_try_ip:{bucket}`. -/
inductive LoginKey where
  | account (id : Uuid)
  | ip (bucket : IpBucket)
deriving DecidableEq

def maxFailuresByIdentifier : Int := 10
def maxFailuresByIp : Int := 30
def bruteForceWindowSecs : Nat := 900

/-- A sign-in whose identifier was looked up. `wrong` is whether the
password fails against the hash that was read. -/
structure LoginAttempt where
  account : Option Uuid
  ip : Option IpAddr
  wrong : Bool
deriving DecidableEq

/-- The last two fields record what has happened: how often the counter of
an account has gone, and the wrong passwords let through on it since. -/
structure LoginState where
  now : Int
  store : Redis.Store LoginKey Int
  captchaEnforced : Bool
  absences : Uuid → Nat
  passed : Uuid → Nat

def LoginState.identifierCeiling (s : LoginState) : Int :=
  if s.captchaEnforced then 2 ^ 63 - 1 else maxFailuresByIdentifier

/-- The budgets of `reserve_attempt`. -/
def LoginAttempt.budgets (attempt : LoginAttempt) (ceiling : Int) : List (Budget LoginKey) :=
  (attempt.account.map fun id => ⟨.account id, ceiling, bruteForceWindowSecs, by decide⟩).toList ++
    (attempt.ip.map fun ip =>
      ⟨.ip (ipBucket ip), maxFailuresByIp, bruteForceWindowSecs, by decide⟩).toList

/-- Where a sign-in is. With what it has reserved it keeps how often the
account's counter had gone then; the code does not. -/
inductive LoginPc where
  | idle
  | reserve (attempt : LoginAttempt)
  | verify (attempt : LoginAttempt) (reserved : List LoginKey) (since : Nat)
  | release (left : List LoginKey) (since : Nat) (result : Option AppError)
  | done (result : Option AppError)

structure LoginInput where
  redis : RedisReply := .answered
  /-- The account's password is locked. -/
  locked : Bool := false

def LoginState.absent (s : LoginState) (id : Uuid) : Bool :=
  (s.store.get s.now (.account id)).isNone

def LoginState.gone (s : LoginState) (account : Option Uuid) : Nat :=
  (account.map s.absences).getD 0

/-- The next statement, and the account on whose counter it lets a wrong
password through. -/
def loginStep (inp : LoginInput) (s : LoginState) :
    LoginPc → Option (LoginState × LoginPc × Option Uuid)
  | .idle => none
  | .reserve attempt =>
    let budgets := attempt.budgets s.identifierCeiling
    let consumed := consume s.now s.store budgets
    let s' := { s with store := consumed.1 }
    let keys := budgets.map (·.key)
    let since := s.gone attempt.account
    let through := if attempt.wrong then attempt.account else none
    match inp.redis with
    | .answered =>
      if consumed.2.exceeded then
        some (s', .release keys since (some .rateLimitExceeded), none)
      else some (s', .verify attempt keys since, through)
    -- Without an answer nothing is reserved, and the attempt goes on.
    | .lost => some (s', .verify attempt [] since, through)
    | .down => some (s, .verify attempt [] since, through)
  | .verify attempt reserved since =>
    if attempt.account.isNone || attempt.wrong || inp.locked then
      some (s, .done (some .invalidCredentials), none)
    else some (s, .release reserved since none, none)
  | .release (key :: left) since result =>
    some (match inp.redis with
      | .down => s
      | _ => { s with store := giveBack s.store s.now key },
      .release left since result, none)
  | .release [] _ result => some (s, .done result, none)
  | .done _ => none

/-- The records after a step from `s`. -/
def LoginState.record (s s' : LoginState) (through : Option Uuid) : LoginState :=
  { s' with
    absences := fun id => s.absences id + if !s.absent id && s'.absent id then 1 else 0
    passed := fun id =>
      if s'.absent id then 0 else s.passed id + if through = some id then 1 else 0 }

inductive LoginAct where
  | start (attempt : LoginAttempt)
  | go (inp : LoginInput)
  /-- The request is cut off. -/
  | fail
  /-- An unlock, a password change or a reset clears the counter. -/
  | clear (id : Uuid)
  | elapse (nanos : Nat)

def loginMove (a : LoginAct) (s : LoginState) (pc : LoginPc) :
    Option (LoginState × LoginPc × Option Uuid) :=
  match a with
  | .start attempt =>
    match pc with
    | .idle => some (s, .reserve attempt, none)
    | _ => none
  | .go inp => loginStep inp s pc
  | .fail => some (s, .done (some .internal), none)
  | .clear id => some ({ s with store := reset s.store [.account id] }, pc, none)
  | .elapse nanos => some ({ s with now := s.now + nanos }, pc, none)

def loginProgram : Program LoginState LoginPc LoginAct := fun _ a s pc =>
  (loginMove a s pc).map fun (s', pc', through) => (s.record s' through, pc')

abbrev LoginConf := Conf LoginState LoginPc

def loginInitial (captchaEnforced : Bool) (now : Int) : LoginConf where
  shared := ⟨now, .empty, captchaEnforced, fun _ => 0, fun _ => 0⟩
  procs := fun _ => .idle

/-! ## What a step does to the counter of an account -/

/-- The reservation on the account's counter that may still be given back:
how often the counter had gone when it was made. -/
def LoginPc.owes (id : Uuid) : LoginPc → Option Nat
  | .verify attempt reserved since =>
    if !attempt.wrong && .account id ∈ reserved then some since else none
  | .release left since _ => if .account id ∈ left then some since else none
  | _ => none

def LoginPc.returning : LoginPc → Option (Uuid × Nat)
  | .release (.account id :: _) since _ => some (id, since)
  | _ => none

def LoginAct.sends : LoginAct → Bool
  | .go inp => inp.redis ≠ .down
  | _ => false

/-- A wrong password that is about to ask for an attempt. -/
def LoginPc.guesses : LoginPc → Bool
  | .reserve attempt => attempt.wrong
  | _ => false

/-- No counter is reserved twice. -/
def LoginPc.Single : LoginPc → Prop
  | .verify _ reserved _ => reserved.Nodup
  | .release left _ _ => left.Nodup
  | _ => True

variable {c : LoginConf} {i j n : Nat} {a : LoginAct} {inp : LoginInput} {s s' t : LoginState}
  {p p' : LoginPc} {id : Uuid} {through : Option Uuid} {attempt : LoginAttempt} {v : Int}

/-- What a step from `s` to `t` does to the counter of account `id`. -/
inductive CounterMoved (id : Uuid) (s : LoginState) (p : LoginPc) (a : LoginAct)
    (t : LoginState) (through : Option Uuid) (p' : LoginPc) : Prop
  | kept (hentry : t.store.entry (.account id) = s.store.entry (.account id))
      (hnow : s.now ≤ t.now) (howes : ∀ n, p'.owes id = some n → p.owes id = some n)
      (hthrough : through ≠ some id)
  | charged (hnow : t.now = s.now)
      (hget : t.store.get t.now (.account id) = some (s.store.count s.now (.account id) + 1))
      (howes : ∀ n, p'.owes id = some n → n = s.absences id)
      (hthrough : through = some id →
        s.store.count s.now (.account id) + 1 ≤ s.identifierCeiling ∧ p'.owes id = none)
  | givenBack {n : Nat} (hsends : a.sends = true) (howed : p.returning = some (id, n))
      (hnow : t.now = s.now)
      (hget : t.store.get t.now (.account id) = some (s.store.count s.now (.account id) - 1))
      (howes : p'.owes id = none) (hthrough : through ≠ some id)
  | cleared (hentry : t.store.entry (.account id) = none)
      (howes : ∀ n, p'.owes id = some n → p.owes id = some n) (hthrough : through ≠ some id)

theorem budgets_nodup (attempt : LoginAttempt) (ceiling : Int) :
    ((attempt.budgets ceiling).map (·.key)).Nodup := by
  unfold LoginAttempt.budgets
  cases attempt.account <;> cases attempt.ip <;> simp

theorem mem_budgets {ceiling : Int} :
    .account id ∈ (attempt.budgets ceiling).map (·.key) ↔ attempt.account = some id := by
  unfold LoginAttempt.budgets
  cases attempt.account <;> cases attempt.ip <;> simp [eq_comm]

theorem consume_account (ceiling now : Int) (st : Redis.Store LoginKey Int)
    (h : attempt.account = some id) :
    let consumed := consume now st (attempt.budgets ceiling)
    consumed.1.get now (.account id) = some (st.count now (.account id) + 1) ∧
      (consumed.2.exceeded = false → st.count now (.account id) + 1 ≤ ceiling) := by
  intro consumed
  obtain ⟨rest, hbudgets, hrest⟩ : ∃ rest : List (Budget LoginKey),
      attempt.budgets ceiling = ⟨.account id, ceiling, bruteForceWindowSecs, by decide⟩ :: rest ∧
        .account id ∉ rest.map (·.key) := by
    refine ⟨_, by simp only [LoginAttempt.budgets, h]; rfl, ?_⟩
    cases attempt.ip <;> simp
  have hconsumed : consumed = consume now st (attempt.budgets ceiling) := rfl
  rw [hbudgets] at hconsumed
  refine ⟨?_, fun hlet => ?_⟩
  · have hentry : consumed.1.entry (.account id) =
        (charge st now ⟨.account id, ceiling, bruteForceWindowSecs, by decide⟩).entry
          (.account id) := by
      rw [hconsumed]
      exact consume_entry_of_not_mem hrest
    rw [Redis.Store.get_of_entry_eq hentry]
    exact charge_get_self st now ⟨.account id, ceiling, bruteForceWindowSecs, by decide⟩
  · rw [hconsumed] at hlet
    exact count_le_of_consume hlet

theorem reserve_moved (hanswered : attempt.wrong = true → inp.redis = .answered)
    (h : loginStep inp s (.reserve attempt) = some (t, p', through)) :
    p'.Single ∧ t.captchaEnforced = s.captchaEnforced ∧
      CounterMoved id s (.reserve attempt) a t through p' := by
  -- What holds of every way the reservation can end in which the script was executed.
  have charged {q : LoginPc} {out : Option Uuid}
      (howes : ∀ n, q.owes id = some n → attempt.account = some id ∧ n = s.gone attempt.account)
      (hout : out = some id → attempt.account = some id ∧ q.owes id = none ∧
        (consume s.now s.store (attempt.budgets s.identifierCeiling)).2.exceeded = false) :
      CounterMoved id s (.reserve attempt) a
        { s with store := (consume s.now s.store (attempt.budgets s.identifierCeiling)).1 }
        out q := by
    by_cases haccount : attempt.account = some id
    · obtain ⟨hget, hlimit⟩ := consume_account s.identifierCeiling s.now s.store haccount
      refine .charged rfl hget (fun n hn => ?_) fun h => ⟨hlimit (hout h).2.2, (hout h).2.1⟩
      rw [(howes n hn).2, haccount]
      rfl
    · exact .kept (consume_entry_of_not_mem (mem_budgets.not.mpr haccount)) (Int.le_refl _)
        (fun n hn => absurd (howes n hn).1 haccount) fun h => haccount (hout h).1
  have hnodup := budgets_nodup attempt s.identifierCeiling
  simp only [loginStep] at h
  split at h
  · split at h <;> rename_i hexceeded <;> cases h
    · refine ⟨hnodup, rfl, charged (fun n hn => ?_) nofun⟩
      simp only [LoginPc.owes, mem_budgets, Option.ite_none_right_eq_some, Option.some.injEq] at hn
      exact ⟨hn.1, hn.2.symm⟩
    · refine ⟨hnodup, rfl, charged (fun n hn => ?_) fun hout => ?_⟩
      · simp only [LoginPc.owes, mem_budgets, Option.ite_none_right_eq_some, Option.some.injEq,
          Bool.and_eq_true, decide_eq_true_eq] at hn
        exact ⟨hn.1.2, hn.2.symm⟩
      · simp only [Option.ite_none_right_eq_some] at hout
        exact ⟨hout.2, by simp [LoginPc.owes, hout.1], Bool.eq_false_iff.mpr hexceeded⟩
  · rename_i hlost
    have hright : attempt.wrong = false := by grind
    cases h
    exact ⟨List.nodup_nil, rfl, charged (by simp [LoginPc.owes]) (by simp [hright])⟩
  · rename_i hdown
    have hright : attempt.wrong = false := by grind
    cases h
    exact ⟨List.nodup_nil, rfl, .kept rfl (Int.le_refl _) (by simp [LoginPc.owes])
      (by simp [hright])⟩

theorem release_moved {key : LoginKey} {left : List LoginKey} {since : Nat}
    {result : Option AppError} (hsingle : (key :: left).Nodup)
    (h : loginStep inp s (.release (key :: left) since result) = some (t, p', through)) :
    p'.Single ∧ t.captchaEnforced = s.captchaEnforced ∧
      CounterMoved id s (.release (key :: left) since result) (.go inp) t through p' := by
  obtain ⟨hfresh, hleft⟩ := List.nodup_cons.mp hsingle
  have howes : ∀ n, LoginPc.owes id (.release left since result) = some n →
      LoginPc.owes id (.release (key :: left) since result) = some n := by
    intro n hn
    simp only [LoginPc.owes, Option.ite_none_right_eq_some] at hn ⊢
    exact ⟨List.mem_cons_of_mem _ hn.1, hn.2⟩
  simp only [loginStep] at h
  split at h <;> cases h
  · exact ⟨hleft, rfl, .kept rfl (Int.le_refl _) howes nofun⟩
  · rename_i hdown
    refine ⟨hleft, rfl, ?_⟩
    by_cases hkey : key = .account id
    · subst hkey
      exact .givenBack (by simpa [LoginAct.sends] using hdown) rfl rfl Redis.Store.incrBy_get
        (by simp [LoginPc.owes, hfresh]) nofun
    · exact .kept (Redis.Store.incrBy_entry_of_ne (Ne.symm hkey)) (Int.le_refl _) howes nofun

theorem loginStep_moved (hsingle : p.Single)
    (hanswered : p.guesses = true → inp.redis = .answered)
    (h : loginStep inp s p = some (t, p', through)) :
    p'.Single ∧ t.captchaEnforced = s.captchaEnforced ∧
      CounterMoved id s p (.go inp) t through p' := by
  cases p with
  | idle | done => cases h
  | reserve => exact reserve_moved hanswered h
  | verify attempt reserved since =>
    simp only [loginStep] at h
    split at h <;> cases h
    · exact ⟨trivial, rfl, .kept rfl (Int.le_refl _) nofun nofun⟩
    · rename_i hright
      refine ⟨hsingle, rfl, .kept rfl (Int.le_refl _) (fun n hn => ?_) nofun⟩
      have hwrong : attempt.wrong = false := by grind
      simpa [LoginPc.owes, hwrong] using hn
  | release left =>
    cases left with
    | nil =>
      cases h
      exact ⟨trivial, rfl, .kept rfl (Int.le_refl _) nofun nofun⟩
    | cons => exact release_moved hsingle h

theorem loginMove_moved (id : Uuid) (hsingle : p.Single)
    (hanswered : ∀ inp, a = .go inp → p.guesses = true → inp.redis = .answered)
    (h : loginMove a s p = some (t, p', through)) :
    p'.Single ∧ t.captchaEnforced = s.captchaEnforced ∧ CounterMoved id s p a t through p' := by
  cases a with
  | start =>
    cases p <;> cases h
    exact ⟨trivial, rfl, .kept rfl (Int.le_refl _) nofun nofun⟩
  | go inp => exact loginStep_moved hsingle (hanswered inp rfl) h
  | fail =>
    cases h
    exact ⟨trivial, rfl, .kept rfl (Int.le_refl _) nofun nofun⟩
  | clear id' =>
    cases h
    refine ⟨hsingle, rfl, ?_⟩
    by_cases hid : id' = id
    · subst hid
      exact .cleared (reset_entry_of_mem (List.mem_singleton_self _)) (fun _ hn => hn) nofun
    · exact .kept (reset_entry_of_not_mem (by simp [Ne.symm hid])) (Int.le_refl _)
        (fun _ hn => hn) nofun
  | elapse =>
    cases h
    exact ⟨hsingle, rfl, .kept rfl (by simp) (fun _ hn => hn) nofun⟩

/-! ## The bound -/

/-- What is given back on an account's counter was reserved since the
counter last was absent. -/
def ReleasedInTime (c : LoginConf) (i : Nat) (a : LoginAct) : Prop :=
  a.sends = true → ∀ r ∈ (c.procs i).returning, c.shared.absences r.1 = r.2

def LoginAct.answered : LoginAct → Bool
  | .go inp => inp.redis = .answered
  | _ => true

/-- The script answers a wrong password that asks for an attempt. -/
def Answered (c : LoginConf) (i : Nat) (a : LoginAct) : Prop :=
  (c.procs i).guesses = true → a.answered = true

/-- Both. -/
def Budgeted (c : LoginConf) (i : Nat) (a : LoginAct) : Prop :=
  ReleasedInTime c i a ∧ Answered c i a

instance (c : LoginConf) (i : Nat) (a : LoginAct) : Decidable (ReleasedInTime c i a) :=
  inferInstanceAs (Decidable (_ → _))

instance (c : LoginConf) (i : Nat) (a : LoginAct) : Decidable (Answered c i a) :=
  inferInstanceAs (Decidable (_ → _))

instance (c : LoginConf) (i : Nat) (a : LoginAct) : Decidable (Budgeted c i a) :=
  inferInstanceAs (Decidable (_ ∧ _))

/-- The counter of `id` covers the wrong passwords let through and the
reservations that may be given back: `held` are the requests that have one
made since the counter was last absent. -/
structure BudgetCovered (id : Uuid) (c : LoginConf) : Prop where
  single : ∀ i, (c.procs i).Single
  owed : ∀ i n, (c.procs i).owes id = some n →
    n ≤ c.shared.absences id ∧ (c.shared.absent id → n < c.shared.absences id)
  fresh : c.shared.absent id → c.shared.passed id = 0
  covers : ∀ v, c.shared.store.get c.shared.now (.account id) = some v →
    ∃ held : Finset Nat, (∀ i, (c.procs i).owes id = some (c.shared.absences id) → i ∈ held) ∧
      c.shared.passed id + held.card ≤ v
  within : c.shared.passed id ≤ c.shared.identifierCeiling

theorem identifierCeiling_nonneg (s : LoginState) : 0 ≤ s.identifierCeiling := by
  unfold LoginState.identifierCeiling
  split <;> decide

theorem identifierCeiling_record (h : t.captchaEnforced = s.captchaEnforced) :
    (s.record t through).identifierCeiling = s.identifierCeiling := by
  simp only [LoginState.identifierCeiling, LoginState.record, h]

theorem not_absent (h : s.store.get s.now (.account id) = some v) : s.absent id = false := by
  simp [LoginState.absent, h]

theorem record_of_absent (s : LoginState) (through : Option Uuid) (h : t.absent id = true) :
    (s.record t through).passed id = 0 ∧
      (s.record t through).absences id = s.absences id + if s.absent id then 0 else 1 := by
  cases hs : s.absent id <;> simp [LoginState.record, h, hs]

theorem record_of_present (s : LoginState) (through : Option Uuid) (h : t.absent id = false) :
    (s.record t through).passed id = s.passed id + (if through = some id then 1 else 0) ∧
      (s.record t through).absences id = s.absences id := by
  simp [LoginState.record, h]

theorem single_set (h : ∀ j, (c.procs j).Single) (hsingle : p'.Single) :
    ∀ j, ((c.set i s p').procs j).Single := by
  intro j
  by_cases hji : j = i
  · subst hji
    simpa using hsingle
  · rw [Conf.set_procs_of_ne _ _ _ hji]
    exact h j

theorem owes_set (howes : ∀ n, p'.owes id = some n → (c.procs i).owes id = some n)
    (h : ((c.set i s p').procs j).owes id = some n) : (c.procs j).owes id = some n := by
  by_cases hji : j = i
  · subst hji
    rw [Conf.set_procs_self] at h
    exact howes n h
  · rwa [Conf.set_procs_of_ne _ _ _ hji] at h

theorem BudgetCovered.gone (hc : BudgetCovered id c) (hsingle : p'.Single)
    (habsent : t.absent id = true)
    (howes : ∀ n, p'.owes id = some n → (c.procs i).owes id = some n) :
    BudgetCovered id (c.set i (c.shared.record t through) p') := by
  obtain ⟨hpassed, habsences⟩ := record_of_absent c.shared through habsent
  refine ⟨single_set hc.single hsingle, fun j n hn => ?_, fun _ => hpassed, fun v hv => ?_, ?_⟩
  · obtain ⟨hle, hlt⟩ := hc.owed j n (owes_set howes hn)
    have hlt' : n < (c.shared.record t through).absences id := by
      rw [habsences]
      split
      · exact hlt ‹_›
      · omega
    exact ⟨hlt'.le, fun _ => hlt'⟩
  · exact absurd (not_absent (s := t) hv) (by simp [habsent])
  · rw [Conf.set_shared, hpassed]
    exact identifierCeiling_nonneg _

theorem BudgetCovered.there (hc : BudgetCovered id c) (hsingle : p'.Single)
    (hcaptcha : t.captchaEnforced = c.shared.captchaEnforced)
    (hget : t.store.get t.now (.account id) = some v)
    (howes : ∀ n, p'.owes id = some n → n ≤ c.shared.absences id) (held : Finset Nat)
    (hheld : ∀ j, ((c.set i (c.shared.record t through) p').procs j).owes id =
      some (c.shared.absences id) → j ∈ held)
    (hcovers : c.shared.passed id + (if through = some id then 1 else 0) + held.card ≤ v)
    (hwithin : through = some id → c.shared.passed id + 1 ≤ c.shared.identifierCeiling) :
    BudgetCovered id (c.set i (c.shared.record t through) p') := by
  have habsent := not_absent hget
  obtain ⟨hpassed, habsences⟩ := record_of_present c.shared through habsent
  refine ⟨single_set hc.single hsingle, fun j n hn => ⟨?_, fun h => ?_⟩, fun h => ?_,
    fun w hw => ⟨held, ?_, ?_⟩, ?_⟩
  · rw [Conf.set_shared, habsences]
    by_cases hji : j = i
    · subst hji
      rw [Conf.set_procs_self] at hn
      exact howes n hn
    · rw [Conf.set_procs_of_ne _ _ _ hji] at hn
      exact (hc.owed j n hn).1
  · exact absurd h (Bool.eq_false_iff.mp habsent)
  · exact absurd h (Bool.eq_false_iff.mp habsent)
  · rw [Conf.set_shared, habsences]
    exact hheld
  · have hvw : v = w := Option.some.inj (hget.symm.trans hw)
    rw [Conf.set_shared, hpassed, ← hvw]
    push_cast
    exact hcovers
  · rw [Conf.set_shared, hpassed, identifierCeiling_record hcaptcha]
    split
    · exact_mod_cast hwithin ‹_›
    · exact hc.within

theorem owes_of_returning (h : p.returning = some (id, n)) : p.owes id = some n := by
  unfold LoginPc.returning at h
  split at h <;> cases h
  simp [LoginPc.owes]

theorem BudgetCovered.count (hc : BudgetCovered id c) :
    ∃ held : Finset Nat, (∀ i, (c.procs i).owes id = some (c.shared.absences id) → i ∈ held) ∧
      c.shared.passed id + held.card ≤ c.shared.store.count c.shared.now (.account id) := by
  cases hget : c.shared.store.get c.shared.now (.account id) with
  | none =>
    have habsent : c.shared.absent id = true := by simp [LoginState.absent, hget]
    refine ⟨∅, fun i hi => ?_, by simp [Redis.Store.count, hget, hc.fresh habsent]⟩
    exact absurd ((hc.owed i _ hi).2 habsent) (Nat.lt_irrefl _)
  | some v =>
    obtain ⟨held, hheld, hcovers⟩ := hc.covers v hget
    exact ⟨held, hheld, by simpa [Redis.Store.count, hget] using hcovers⟩

theorem BudgetCovered.step (hc : BudgetCovered id c) (hok : Budgeted c i a)
    (h : loginProgram i a c.shared (c.procs i) = some (s', p')) :
    BudgetCovered id (c.set i s' p') := by
  simp only [loginProgram, Option.map_eq_some_iff, Prod.mk.injEq] at h
  obtain ⟨⟨t, q, through⟩, hmove, rfl, rfl⟩ := h
  have hanswered : ∀ inp, a = .go inp → (c.procs i).guesses = true → inp.redis = .answered := by
    rintro inp rfl hguess
    simpa [LoginAct.answered] using hok.2 hguess
  obtain ⟨hsingle, hcaptcha, hmoved⟩ := loginMove_moved id (hc.single i) hanswered hmove
  cases hmoved with
  | kept hentry hnow howes hthrough =>
    cases hget : t.store.get t.now (.account id) with
    | none => exact hc.gone hsingle (by simp [LoginState.absent, hget]) howes
    | some v =>
      obtain ⟨held, hheld, hcovers⟩ := hc.covers v (Redis.Store.get_of_later hget hentry hnow)
      exact hc.there hsingle hcaptcha hget (fun n hn => (hc.owed i n (howes n hn)).1) held
        (fun j hj => hheld j (owes_set howes hj)) (by simpa [hthrough] using hcovers)
        fun h => absurd h hthrough
  | charged hnow hget howes hthrough =>
    obtain ⟨held, hheld, hcovers⟩ := hc.count
    refine hc.there hsingle hcaptcha hget (fun n hn => (howes n hn).le)
      (if (q.owes id).isSome then insert i held else held) (fun j hj => ?_) ?_ fun h => ?_
    · by_cases hji : j = i
      · subst hji
        rw [Conf.set_procs_self] at hj
        simp [hj]
      · rw [Conf.set_procs_of_ne _ _ _ hji] at hj
        split
        · exact Finset.mem_insert_of_mem (hheld j hj)
        · exact hheld j hj
    · have hcard := Finset.card_insert_le i held
      split
      · simp [(hthrough ‹_›).2]
        omega
      · split <;> omega
    · have := (hthrough h).1
      omega
  | givenBack hsends howed hnow hget howes hthrough =>
    -- The reservation is of the running count, so it is one of those that are covered.
    have hsince := hok.1 hsends _ howed
    obtain ⟨held, hheld, hcovers⟩ := hc.count
    have hmem : i ∈ held := hheld i (hsince ▸ owes_of_returning howed)
    have hcard := Finset.card_erase_add_one hmem
    refine hc.there hsingle hcaptcha hget (by simp [howes]) (held.erase i)
      (fun j hj => ?_) (by rw [if_neg hthrough]; omega) fun h => absurd h hthrough
    by_cases hji : j = i
    · subst hji
      rw [Conf.set_procs_self, howes] at hj
      cases hj
    · rw [Conf.set_procs_of_ne _ _ _ hji] at hj
      exact Finset.mem_erase.mpr ⟨hji, hheld j hj⟩
  | cleared hentry howes =>
    refine hc.gone hsingle ?_ howes
    simp [LoginState.absent, Redis.Store.get, hentry]

theorem covered_initial (captchaEnforced : Bool) (now : Int) (id : Uuid) :
    BudgetCovered id (loginInitial captchaEnforced now) where
  single _ := trivial
  owed := nofun
  fresh _ := rfl
  covers := nofun
  within := identifierCeiling_nonneg _

/-- **The budget bounds the guesses.** If no reservation is given back on a
later count than the one it was made on, and every wrong password that asks
for an attempt gets an answer, the wrong passwords let through on an account
since its counter was last absent are at most the limit. -/
theorem let_through_le (captchaEnforced : Bool) (now : Int) {c : LoginConf}
    (hrun : Steps loginProgram Budgeted (loginInitial captchaEnforced now) c) (id : Uuid) :
    c.shared.passed id ≤ c.shared.identifierCeiling :=
  (hrun.invariant (fun _ _ _ _ _ hc hok hprog => hc.step hok hprog)
    (covered_initial captchaEnforced now id)).within

/-- A sign-in on account 1 up to the password check. -/
def guess (i : Nat) (wrong : Bool) : List (Nat × LoginAct) :=
  [(i, .start ⟨some 1, none, wrong⟩), (i, .go {})]

/-- Ten wrong passwords and a right one, which is given back. -/
theorem ten_let_through :
    ∃ c, Steps loginProgram Budgeted (loginInitial false 0) c ∧ c.shared.passed 1 = 10 ∧
      (c.shared.passed 1 : Int) ≤ c.shared.identifierCeiling := by
  obtain ⟨c, hc, hpassed⟩ : ∃ c ∈ exec loginProgram Budgeted (loginInitial false 0)
      (guess 0 false ++ [(0, .go {}), (0, .go {})] ++ (List.range 10).flatMap fun i =>
      guess (i + 1) true), c.shared.passed 1 = 10 := by
    decide +kernel
  have hsteps := steps_of_exec hc
  exact ⟨c, hsteps, hpassed, let_through_le false 0 hsteps 1⟩

/-- The counter is cleared between a right password's reservation and its
`DECR`. Eleven wrong passwords are then let through, though Redis answers
every one of them. -/
theorem eleven_let_through :
    ¬ ∀ c, Steps loginProgram Answered (loginInitial false 0) c →
      ∀ id, c.shared.passed id ≤ c.shared.identifierCeiling := by
  intro h
  obtain ⟨c, hc, hpassed, hceiling⟩ :
      ∃ c ∈ exec loginProgram Answered (loginInitial false 0)
      (guess 0 false ++ [(20, .clear 1), (0, .go {}), (0, .go {})] ++ (List.range 11).flatMap fun
      i => guess (i + 1) true), c.shared.passed 1 = 11 ∧ c.shared.identifierCeiling = 10 := by
    decide +kernel
  have hle := h c (steps_of_exec hc) 1
  omega

end AuthApi
