import AuthApi.Redis
import AuthApi.Timestamp

/-!
# Attempt budgets

`redis_counter`: a budget is a counter with a limit and a window. A script
charges the budgets of an attempt one after the other, and the first
charge of a counter arms its time to live. A success gives its attempt
back, or clears the counters.

Giving back is a plain `DECR`, so a counter that is gone comes back
below zero and without a time to live, and is charged from there. It is
still never left standing above zero for good: the charge that takes it
to one arms it (`armed_above_zero`).

A window that is longer than Redis accepts is not modelled, nor is a
counter at the end of the range of 64 bits.
-/

namespace AuthApi

/-- What becomes of a command to Redis. -/
inductive RedisReply where
  | answered
  /-- It is executed, the answer is lost. -/
  | lost
  | down
deriving DecidableEq

namespace RedisCounter

/-- At most `limit` attempts on `key` in a window. -/
structure Budget (κ : Type) where
  key : κ
  limit : Int
  windowSecs : Nat
  positive : 0 < windowSecs

/-- What the scripts return. -/
structure Consumed where
  exceeded : Bool
  counts : List Int
deriving DecidableEq

variable {κ : Type}

theorem Budget.window_nonneg (b : Budget κ) : 0 ≤ b.windowSecs * nanosPerSec := by
  rw [show nanosPerSec = 1000000000 from rfl]
  omega

variable [DecidableEq κ]

/-! ## Commands -/

/-- `INCR`, and `EXPIRE` on the first hit. -/
def charge (st : Redis.Store κ Int) (now : Int) (b : Budget κ) : Redis.Store κ Int :=
  let charged := st.incrBy now b.key 1
  if charged.count now b.key = 1 then charged.expire now b.key (b.windowSecs * nanosPerSec)
  else charged

/-- The script `CONSUME`. -/
def consume (now : Int) : Redis.Store κ Int → List (Budget κ) → Redis.Store κ Int × Consumed
  | st, [] => (st, ⟨false, []⟩)
  | st, b :: budgets =>
    let st' := charge st now b
    let n := st'.count now b.key
    let rest := consume now st' budgets
    (rest.1, ⟨n > b.limit || rest.2.exceeded, n :: rest.2.counts⟩)

/-- The script `CONSUME_IN_ORDER`. -/
def consumeInOrder (now : Int) :
    Redis.Store κ Int → List (Budget κ) → Redis.Store κ Int × Consumed
  | st, [] => (st, ⟨false, []⟩)
  | st, b :: budgets =>
    let st' := charge st now b
    let n := st'.count now b.key
    if n > b.limit then (st', ⟨true, n :: budgets.map fun _ => 0⟩)
    else
      let rest := consumeInOrder now st' budgets
      (rest.1, ⟨rest.2.exceeded, n :: rest.2.counts⟩)

/-- One command of `release`. -/
def giveBack (st : Redis.Store κ Int) (now : Int) (k : κ) : Redis.Store κ Int :=
  st.incrBy now k (-1)

def reset (st : Redis.Store κ Int) (keys : List κ) : Redis.Store κ Int :=
  keys.foldl Redis.Store.del st

/-! ## What each does to one counter -/

variable {st : Redis.Store κ Int} {now : Int} {k : κ} {b : Budget κ} {budgets : List (Budget κ)}

theorem charge_entry_of_ne (h : k ≠ b.key) : (charge st now b).entry k = st.entry k := by
  simp only [charge]
  split
  · rw [Redis.Store.expire_entry_of_ne h, Redis.Store.incrBy_entry_of_ne h]
  · exact Redis.Store.incrBy_entry_of_ne h

/-- A charge counts one more, and arms the counter when that makes one. -/
theorem charge_entry_self (st : Redis.Store κ Int) (now : Int) (b : Budget κ) :
    (charge st now b).entry b.key =
      some (st.count now b.key + 1,
        if st.count now b.key = 0 then some (now + b.windowSecs * nanosPerSec)
        else st.expiresAt now b.key) := by
  have hget : (st.incrBy now b.key 1).get now b.key = some (st.count now b.key + 1) :=
    Redis.Store.incrBy_get
  have hcount : (st.incrBy now b.key 1).count now b.key = st.count now b.key + 1 := by
    rw [Redis.Store.count, hget, Option.getD_some]
  simp only [charge, hcount]
  by_cases hfirst : st.count now b.key = 0
  · rw [if_pos (by omega), if_pos hfirst, Redis.Store.expire_entry_of_get hget]
  · rw [if_neg (by omega), if_neg hfirst, Redis.Store.incrBy_entry_self]

theorem charge_get_self (st : Redis.Store κ Int) (now : Int) (b : Budget κ) :
    (charge st now b).get now b.key = some (st.count now b.key + 1) := by
  refine Redis.Store.get_eq_some.mpr ⟨_, charge_entry_self st now b, ?_⟩
  split
  · have hnonneg := b.window_nonneg
    rw [Redis.live_some]
    omega
  · exact Redis.Store.live_expiresAt st now b.key

@[simp] theorem charge_count_self (st : Redis.Store κ Int) (now : Int) (b : Budget κ) :
    (charge st now b).count now b.key = st.count now b.key + 1 := by
  simp [Redis.Store.count, charge_get_self]

theorem consume_entry_of_not_mem (h : k ∉ budgets.map (·.key)) :
    (consume now st budgets).1.entry k = st.entry k := by
  induction budgets generalizing st with
  | nil => rfl
  | cons b budgets ih =>
    obtain ⟨hne, hrest⟩ := not_or.mp (List.mem_cons.not.mp h)
    exact (ih hrest).trans (charge_entry_of_ne hne)

theorem count_le_of_consume (h : (consume now st (b :: budgets)).2.exceeded = false) :
    st.count now b.key + 1 ≤ b.limit := by
  simp only [consume, charge_count_self, Bool.or_eq_false_iff, decide_eq_false_iff_not] at h
  omega

theorem consumeInOrder_pair (st : Redis.Store κ Int) (now : Int) (b b' : Budget κ) :
    consumeInOrder now st [b, b'] =
      if b.limit < st.count now b.key + 1 then
        (charge st now b, ⟨true, [st.count now b.key + 1, 0]⟩)
      else
        (charge (charge st now b) now b',
          ⟨decide (b'.limit < (charge st now b).count now b'.key + 1),
            [st.count now b.key + 1, (charge st now b).count now b'.key + 1]⟩) := by
  simp only [consumeInOrder, charge_count_self, List.map_cons, List.map_nil]
  split
  · rfl
  · split <;> rename_i hsecond <;> simp [hsecond]

theorem reset_entry_of_not_mem {keys : List κ} (h : k ∉ keys) :
    (reset st keys).entry k = st.entry k := by
  unfold reset
  induction keys generalizing st with
  | nil => rfl
  | cons key keys ih =>
    obtain ⟨hne, hkeys⟩ := not_or.mp (List.mem_cons.not.mp h)
    rw [List.foldl_cons, ih hkeys, Redis.Store.del_entry_of_ne hne]

theorem reset_entry_of_mem {keys : List κ} (h : k ∈ keys) : (reset st keys).entry k = none := by
  unfold reset
  induction keys generalizing st with
  | nil => cases h
  | cons key keys ih =>
    rw [List.foldl_cons]
    by_cases hkeys : k ∈ keys
    · exact ih hkeys
    · have hkey : k = key := (List.mem_cons.mp h).resolve_right hkeys
      have hrest : (reset (st.del key) keys).entry k = (st.del key).entry k :=
        reset_entry_of_not_mem hkeys
      rw [reset] at hrest
      rw [hrest, hkey, Redis.Store.del_entry_self]

/-! ## Counters of one window -/

/-- The counter stands at `n`, until `d`. -/
def Running (st : Redis.Store κ Int) (now : Int) (k : κ) (n d : Int) : Prop :=
  st.entry k = some (n, some d) ∧ now ≤ d

/-- Every counter has counted, and goes within the window. -/
def Windowed (window : Int) (st : Redis.Store κ Int) (now : Int) : Prop :=
  ∀ k n deadline, st.entry k = some (n, deadline) →
    1 ≤ n ∧ ∃ d, deadline = some d ∧ d ≤ now + window

variable {window : Int} {n d : Int}

omit [DecidableEq κ] in
theorem Running.get (h : Running st now k n d) : st.get now k = some n :=
  Redis.Store.get_eq_some.mpr ⟨_, h.1, Redis.live_some.mpr h.2⟩

omit [DecidableEq κ] in
theorem Running.count (h : Running st now k n d) : st.count now k = n := by
  rw [Redis.Store.count, h.get, Option.getD_some]

omit [DecidableEq κ] in
theorem count_of_gone (h : st.get now k = none) : st.count now k = 0 := by
  rw [Redis.Store.count, h, Option.getD_none]

omit [DecidableEq κ] in
theorem Running.congr {st' : Redis.Store κ Int} (h : Running st' now k n d)
    (hentry : st'.entry k = st.entry k) : Running st now k n d :=
  ⟨hentry ▸ h.1, h.2⟩

omit [DecidableEq κ] in
theorem Running.earlier {now' : Int} (h : Running st now' k n d) (hle : now ≤ now') :
    Running st now k n d :=
  ⟨h.1, hle.trans h.2⟩

omit [DecidableEq κ] in
theorem Running.unique {n' d' : Int} (h : Running st now k n d) (h' : Running st now k n' d') :
    n' = n ∧ d' = d := by
  have heq := h'.1.symm.trans h.1
  cases heq
  exact ⟨rfl, rfl⟩

omit [DecidableEq κ] in
theorem Windowed.later {now' : Int} (h : Windowed window st now) (hle : now ≤ now') :
    Windowed window st now' := by
  intro k n deadline hentry
  obtain ⟨hn, d, hd, hwithin⟩ := h k n deadline hentry
  exact ⟨hn, d, hd, by omega⟩

omit [DecidableEq κ] in
theorem Windowed.running (h : Windowed window st now) (hget : st.get now k = some n) :
    ∃ d, Running st now k n d := by
  obtain ⟨deadline, hentry, hlive⟩ := Redis.Store.get_eq_some.mp hget
  obtain ⟨-, d, rfl, -⟩ := h k n deadline hentry
  exact ⟨d, hentry, Redis.live_some.mp hlive⟩

theorem Windowed.reset (h : Windowed window st now) (keys : List κ) :
    Windowed window (reset st keys) now := by
  intro k n deadline hentry
  by_cases hmem : k ∈ keys
  · rw [reset_entry_of_mem hmem] at hentry
    cases hentry
  · exact h k n deadline (reset_entry_of_not_mem hmem ▸ hentry)

/-- A charge goes on with the window that is running, or opens one. -/
theorem Windowed.charged (h : Windowed (b.windowSecs * nanosPerSec) st now) :
    (∃ n d, Running st now b.key n d ∧ Running (charge st now b) now b.key (n + 1) d) ∨
      st.get now b.key = none ∧
        Running (charge st now b) now b.key 1 (now + b.windowSecs * nanosPerSec) := by
  have hself := charge_entry_self st now b
  cases hget : st.get now b.key with
  | none =>
    have hnonneg := b.window_nonneg
    rw [count_of_gone hget, if_pos rfl] at hself
    exact .inr ⟨rfl, hself, by omega⟩
  | some n =>
    obtain ⟨d, hrunning⟩ := h.running hget
    have hpos := (h _ _ _ hrunning.1).1
    rw [hrunning.count, if_neg (by omega),
      Redis.Store.expiresAt_of_entry hrunning.1 (Redis.live_some.mpr hrunning.2)] at hself
    exact .inl ⟨n, d, hrunning, hself, hrunning.2⟩

theorem Windowed.charge (h : Windowed (b.windowSecs * nanosPerSec) st now) :
    Windowed (b.windowSecs * nanosPerSec) (charge st now b) now := by
  intro k n deadline hentry
  by_cases hk : k = b.key
  · subst hk
    rcases h.charged with ⟨m, d, hrunning, hcharged⟩ | ⟨-, hcharged⟩
    · obtain ⟨hm, d', hd, hwithin⟩ := h _ _ _ hrunning.1
      cases hd
      cases hentry.symm.trans hcharged.1
      exact ⟨by omega, d, rfl, hwithin⟩
    · cases hentry.symm.trans hcharged.1
      exact ⟨Int.le_refl _, _, rfl, Int.le_refl _⟩
  · exact h k n deadline (charge_entry_of_ne hk ▸ hentry)

/-! ## Counters above zero expire -/

/-- A counter without a deadline does not stand above zero. -/
def Armed (st : Redis.Store κ Int) : Prop := ∀ k n, st.entry k = some (n, none) → n ≤ 0

omit [DecidableEq κ] in
theorem Armed.count_le (h : Armed st) (hnone : st.expiresAt now k = none) : st.count now k ≤ 0 := by
  unfold Redis.Store.count
  cases hget : st.get now k with
  | none => exact le_rfl
  | some n =>
    obtain ⟨deadline, hentry, hlive⟩ := Redis.Store.get_eq_some.mp hget
    rw [Redis.Store.expiresAt_of_entry hentry hlive] at hnone
    exact h k n (hnone ▸ hentry)

theorem Armed.charge (h : Armed st) (now : Int) (b : Budget κ) : Armed (charge st now b) := by
  intro k n hentry
  by_cases hkey : k = b.key
  · subst hkey
    rw [charge_entry_self] at hentry
    obtain ⟨hn, hdeadline⟩ := Prod.mk.inj (Option.some.inj hentry)
    split at hdeadline
    · cases hdeadline
    · -- The counter was there without a deadline, and one more does not make it one.
      have hcount := h.count_le hdeadline
      omega
  · rw [charge_entry_of_ne hkey] at hentry
    exact h k n hentry

theorem Armed.consume (h : Armed st) :
    Armed (consume now st budgets).1 := by
  induction budgets generalizing st with
  | nil => exact h
  | cons b budgets ih => exact ih (h.charge now b)

theorem Armed.consumeInOrder (h : Armed st) :
    Armed (consumeInOrder now st budgets).1 := by
  induction budgets generalizing st with
  | nil => exact h
  | cons b budgets ih =>
    simp only [RedisCounter.consumeInOrder]
    split
    · exact h.charge now b
    · exact ih (h.charge now b)

theorem Armed.giveBack (h : Armed st) (now : Int) (k : κ) : Armed (giveBack st now k) := by
  intro k' n hentry
  by_cases hkey : k' = k
  · subst hkey
    rw [RedisCounter.giveBack, Redis.Store.incrBy_entry_self] at hentry
    obtain ⟨hn, hdeadline⟩ := Prod.mk.inj (Option.some.inj hentry)
    have hcount := h.count_le hdeadline
    omega
  · rw [RedisCounter.giveBack, Redis.Store.incrBy_entry_of_ne hkey] at hentry
    exact h k' n hentry

theorem Armed.reset (h : Armed st) (keys : List κ) : Armed (reset st keys) := by
  intro k n hentry
  by_cases hkey : k ∈ keys
  · rw [reset_entry_of_mem hkey] at hentry
    cases hentry
  · rw [reset_entry_of_not_mem hkey] at hentry
    exact h k n hentry

/-! ### Runs -/

structure Counters (κ : Type) where
  now : Int
  store : Redis.Store κ Int

/-- The commands on the counters. `release` is a `giveBack` for each of its
keys; keys expire as time passes. -/
inductive Command (κ : Type) where
  | consume (budgets : List (Budget κ))
  | consumeInOrder (budgets : List (Budget κ))
  | giveBack (key : κ)
  | reset (keys : List κ)
  | elapse (nanos : Nat)

def release (keys : List κ) : List (Command κ) := keys.map .giveBack

def Command.run (c : Counters κ) : Command κ → Counters κ
  | .consume budgets => { c with store := (RedisCounter.consume c.now c.store budgets).1 }
  | .consumeInOrder budgets =>
    { c with store := (RedisCounter.consumeInOrder c.now c.store budgets).1 }
  | .giveBack key => { c with store := RedisCounter.giveBack c.store c.now key }
  | .reset keys => { c with store := RedisCounter.reset c.store keys }
  | .elapse nanos => { c with now := c.now + nanos }

theorem Command.run_armed {c : Counters κ} (command : Command κ) (h : Armed c.store) :
    Armed (command.run c).store := by
  cases command with
  | consume => exact h.consume
  | consumeInOrder => exact h.consumeInOrder
  | giveBack key => exact h.giveBack c.now key
  | reset keys => exact h.reset keys
  | elapse => exact h

theorem armed_of_run (commands : List (Command κ)) {c : Counters κ} (h : Armed c.store) :
    Armed (commands.foldl Command.run c).store := by
  induction commands generalizing c with
  | nil => exact h
  | cons command commands ih => exact ih (command.run_armed h)

/-- **No counter stands above zero for good.** Whatever was charged, given
back and cleared, and whenever: a counter that stands at one or more has
a time to live. -/
theorem armed_above_zero (commands : List (Command κ)) (start : Int) (k : κ) :
    let c := commands.foldl Command.run ⟨start, .empty⟩
    1 ≤ c.store.count c.now k → (c.store.expiresAt c.now k).isSome := by
  intro c hcount
  have harmed : Armed c.store := armed_of_run commands fun k n hentry => by cases hentry
  by_contra hnone
  have hle := harmed.count_le (Option.not_isSome_iff_eq_none.mp hnone)
  omega

/-- A release that comes too late leaves a counter below zero, which two
charges take to one. -/
theorem armed_after_late_release :
    let b : Budget Nat := ⟨0, 5, 900, by decide⟩
    let commands : List (Command Nat) := release [0] ++ [.consume [b], .consumeInOrder [b]]
    let c := commands.foldl Command.run ⟨100, .empty⟩
    c.store.count c.now 0 = 1 ∧ (c.store.expiresAt c.now 0).isSome :=
  ⟨by decide, armed_above_zero _ 100 0 (by decide)⟩

end RedisCounter

end AuthApi
