import Mathlib.Logic.Function.Basic

/-!
# Keys with a time to live

A Redis keyspace, command by command. A key that was given a time to live
is there up to and including its deadline; nothing removes it, it just
stops being read. Times are readings of the one clock the commands are
given, in any unit.

Values are of any type: a command that changes a value in place (adding
to a set, comparing and setting) is an `alter`, which keeps the time to
live the key has.
-/

namespace Redis

/-- Every key with its value and its deadline, if it has one. -/
structure Store (κ υ : Type) where
  entry : κ → Option (υ × Option Int)

def live (now : Int) (deadline : Option Int) : Bool := deadline.all fun d => decide (now ≤ d)

variable {now : Int}

theorem live_some {d : Int} : live now (some d) = true ↔ now ≤ d := by
  simp [live]

theorem live_of_le {now' : Int} {deadline : Option Int} (hle : now ≤ now')
    (h : live now' deadline = true) : live now deadline = true := by
  cases deadline with
  | none => rfl
  | some =>
    rw [live_some] at h ⊢
    omega

namespace Store

variable {κ υ : Type} {st st' : Store κ υ} {now now' ttl : Int} {k k' : κ} {v w : υ}
  {deadline : Option Int} {f : Option υ → Option υ}

def empty : Store κ υ := ⟨fun _ => none⟩

def get (st : Store κ υ) (now : Int) (k : κ) : Option υ :=
  match st.entry k with
  | some (v, deadline) => if live now deadline then some v else none
  | none => none

theorem get_eq_some :
    st.get now k = some v ↔
      ∃ deadline, st.entry k = some (v, deadline) ∧ live now deadline = true := by
  unfold get
  split
  · rename_i w deadline hentry
    constructor
    · intro h
      split at h <;> cases h
      rename_i hlive
      exact ⟨deadline, hentry, hlive⟩
    · rintro ⟨deadline', heq, hlive⟩
      rw [hentry] at heq
      cases heq
      exact if_pos hlive
  · rename_i hentry
    simp [hentry]

theorem get_of_later (h : st'.get now' k = some v) (hentry : st'.entry k = st.entry k)
    (hle : now ≤ now') : st.get now k = some v := by
  obtain ⟨deadline, heq, hlive⟩ := get_eq_some.mp h
  exact get_eq_some.mpr ⟨deadline, hentry ▸ heq, live_of_le hle hlive⟩

theorem deadline_lt_of_get {d : Int} (hentry : st.entry k = some (v, some d))
    (h : st.get now k = none) : d < now := by
  by_contra hle
  have hsome := get_eq_some.mpr ⟨some d, hentry, live_some.mpr (Int.not_lt.mp hle)⟩
  rw [h] at hsome
  cases hsome

theorem get_of_entry (hentry : st.entry k = some (w, deadline))
    (h : st.get now k = some v) : v = w := by
  obtain ⟨deadline', heq, -⟩ := get_eq_some.mp h
  rw [hentry] at heq
  cases heq
  rfl

theorem get_of_entry_eq (h : st'.entry k = st.entry k) : st'.get now k = st.get now k := by
  simp only [get, h]

/-- The deadline of a key that is there, if it has one. -/
def expiresAt (st : Store κ υ) (now : Int) (k : κ) : Option Int :=
  match st.entry k with
  | some (_, d) => if live now d then d else none
  | none => none

theorem expiresAt_of_entry (hentry : st.entry k = some (v, deadline))
    (hlive : live now deadline = true) : st.expiresAt now k = deadline := by
  simp [expiresAt, hentry, hlive]

theorem live_expiresAt (st : Store κ υ) (now : Int) (k : κ) :
    live now (st.expiresAt now k) = true := by
  unfold expiresAt
  repeat' split
  · assumption
  · rfl
  · rfl

/-- What a counter stands at; one that is not there stands at zero. -/
def count (st : Store κ Int) (now : Int) (k : κ) : Int := (st.get now k).getD 0

variable [DecidableEq κ]

/-- `SET … EX ttl`. -/
def setEx (st : Store κ υ) (now : Int) (k : κ) (v : υ) (ttl : Int) : Store κ υ :=
  ⟨Function.update st.entry k (some (v, some (now + ttl)))⟩

/-- `SET … NX EX ttl`. -/
def setNx (st : Store κ υ) (now : Int) (k : κ) (v : υ) (ttl : Int) : Store κ υ :=
  if (st.get now k).isNone then st.setEx now k v ttl else st

/-- `DEL`. It returns 1 if the key was there. -/
def del (st : Store κ υ) (k : κ) : Store κ υ := ⟨Function.update st.entry k none⟩

/-- `EXPIRE`, which does nothing to a key that is not there. -/
def expire (st : Store κ υ) (now : Int) (k : κ) (ttl : Int) : Store κ υ :=
  match st.get now k with
  | some v => st.setEx now k v ttl
  | none => st

/-- A command that computes the new value of a key from the old one. The
key keeps its time to live; one that was not there gets none. -/
def alter (st : Store κ υ) (now : Int) (k : κ) (f : Option υ → Option υ) : Store κ υ :=
  ⟨Function.update st.entry k <|
    match st.entry k with
    | some (v, deadline) =>
      if live now deadline then (f (some v)).map (·, deadline) else (f none).map (·, none)
    | none => (f none).map (·, none)⟩

theorem setEx_entry_of_ne (h : k' ≠ k) : (st.setEx now k v ttl).entry k' = st.entry k' := by
  simp [setEx, h]

theorem setEx_entry_self : (st.setEx now k v ttl).entry k = some (v, some (now + ttl)) := by
  simp [setEx]

theorem foldl_setEx_entry (keys : List κ) (f : κ → υ) (st : Store κ υ) :
    (keys.foldl (fun st k => st.setEx now k (f k) ttl) st).entry k =
      if k ∈ keys then some (f k, some (now + ttl)) else st.entry k := by
  induction keys generalizing st with
  | nil => rfl
  | cons k' keys ih =>
    rw [List.foldl_cons, ih]
    by_cases hk : k = k'
    · subst hk
      simp [setEx_entry_self]
    · simp [hk, setEx_entry_of_ne hk]

theorem del_entry_of_ne (h : k' ≠ k) : (st.del k).entry k' = st.entry k' := by
  simp [del, h]

theorem del_entry_self : (st.del k).entry k = none := by
  simp [del]

theorem alter_entry_of_ne (h : k' ≠ k) : (st.alter now k f).entry k' = st.entry k' := by
  simp [alter, h]

theorem alter_entry_of_live (hentry : st.entry k = some (v, deadline))
    (hlive : live now deadline = true) :
    (st.alter now k f).entry k = (f (some v)).map (·, deadline) := by
  simp [alter, hentry, hlive]

theorem alter_entry_of_absent (h : st.get now k = none) :
    (st.alter now k f).entry k = (f none).map (·, none) := by
  cases hentry : st.entry k with
  | none => simp [alter, hentry]
  | some pair =>
    have hdead : live now pair.2 = false := by
      rw [get, hentry] at h
      simpa using h
    simp [alter, hentry, hdead]

theorem expire_entry_of_get (h : st.get now k = some v) :
    (st.expire now k ttl).entry k = some (v, some (now + ttl)) := by
  simp [expire, h, setEx_entry_self]

theorem expire_entry_of_ne (hne : k' ≠ k) : (st.expire now k ttl).entry k' = st.entry k' := by
  unfold expire
  split
  · exact setEx_entry_of_ne hne
  · rfl

theorem setNx_entry_of_ne (h : k' ≠ k) : (st.setNx now k v ttl).entry k' = st.entry k' := by
  unfold setNx
  split
  · exact setEx_entry_of_ne h
  · rfl

theorem setNx_of_get (h : st.get now k = some v) (w : υ) : st.setNx now k w ttl = st := by
  simp [setNx, h]

theorem setNx_of_absent (h : st.get now k = none) :
    st.setNx now k v ttl = st.setEx now k v ttl := by
  simp [setNx, h]

/-! ### Counters -/

def incrBy (st : Store κ Int) (now : Int) (k : κ) (delta : Int) : Store κ Int :=
  st.alter now k fun n => some (n.getD 0 + delta)

variable {counters : Store κ Int} {delta : Int}

theorem incrBy_entry_of_ne (h : k' ≠ k) :
    (counters.incrBy now k delta).entry k' = counters.entry k' :=
  alter_entry_of_ne h

theorem incrBy_entry_self (counters : Store κ Int) (now : Int) (k : κ) (delta : Int) :
    (counters.incrBy now k delta).entry k =
      some (counters.count now k + delta, counters.expiresAt now k) := by
  cases hentry : counters.entry k with
  | none => simp [incrBy, alter, count, get, expiresAt, hentry]
  | some pair =>
    cases hlive : live now pair.2 <;>
      simp [incrBy, alter, count, get, expiresAt, hentry, hlive]

theorem incrBy_get :
    (counters.incrBy now k delta).get now k = some (counters.count now k + delta) :=
  get_eq_some.mpr ⟨_, incrBy_entry_self counters now k delta, live_expiresAt counters now k⟩

end Store

end Redis
