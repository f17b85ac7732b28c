import AuthApi.RedisCounter
import AuthApi.SessionStore
import Mathlib.Tactic.MkIffOfInductiveProp

/-!
# Whose wrong passwords lock whom out

`verify_password` charges the budget of the session it is called from
and then that of the account, which is three times as large, so that a
stolen session uses up its own before the owner's sessions are locked
out. But a session that is rotated gets a new id and with it a new
budget: three rotations are enough to use up the account's
(`owner_locked_out`).

As long as the calls of a family come from one session, the owner is not
locked out (`owner_not_locked`). The account's window meets at most two
windows of that session, so that its share of the account's count is at
most twice the threshold.
-/

namespace AuthApi

open Conc RedisCounter

/-! ## The system -/

/-- `reauth_fail_key` and `session_reauth_fail_key`. -/
inductive ReauthKey where
  | account (user : Uuid)
  | session (user session : Uuid)
deriving DecidableEq

def reauthFailTtlSecs : Nat := 3600
def reauthAccountCeilingFactor : Nat := 3

/-- A call of `verify_password`. `wrong` is whether the password fails
against the stored hash. -/
structure ReauthCall where
  session : Uuid
  wrong : Bool
deriving DecidableEq

/-- `family` is the column `session_family_id` of the sessions there are. -/
structure ReauthState where
  now : Int
  store : Redis.Store ReauthKey Int
  family : Uuid → Option Uuid

inductive ReauthPc where
  | idle
  | reserve (call : ReauthCall)
  | verify (call : ReauthCall) (count : Int)
  | reset (call : ReauthCall)
  | done (call : ReauthCall) (result : Option AppError)
deriving DecidableEq

def sessionBudget (user : Uuid) (threshold : Nat) (session : Uuid) : Budget ReauthKey :=
  ⟨.session user session, threshold, reauthFailTtlSecs, by decide⟩

def accountBudget (user : Uuid) (threshold : Nat) : Budget ReauthKey :=
  ⟨.account user, (threshold * reauthAccountCeilingFactor : Nat), reauthFailTtlSecs, by decide⟩

def reauthStep (user : Uuid) (threshold : Nat) (reply : RedisReply) (s : ReauthState) :
    ReauthPc → Option (ReauthState × ReauthPc)
  | .reserve call =>
    let attempt := consumeInOrder s.now s.store
      [sessionBudget user threshold call.session, accountBudget user threshold]
    let s' := { s with store := attempt.1 }
    match reply with
    | .answered =>
      if attempt.2.exceeded then some (s', .done call (some .accountLocked))
      else some (s', .verify call (attempt.2.counts.headD 0))
    | .lost => some (s', .done call (some .internal))
    | .down => some (s, .done call (some .internal))
  | .verify call count =>
    if call.wrong then
      some (s, .done call (some (if count ≥ threshold then .accountLocked
        else .reauthenticationFailed)))
    else some (s, .reset call)
  | .reset call =>
    some (match reply with
      | .down => s
      | _ =>
        { s with
          store := RedisCounter.reset s.store [.session user call.session, .account user] },
      .done call none)
  | _ => none

inductive ReauthAct where
  | start (call : ReauthCall)
  | go (reply : RedisReply)
  /-- The request is cut off. -/
  | fail
  | elapse (nanos : Nat)
  /-- An administrator unlocks the account. -/
  | unlock
  | signIn (session family : Uuid)
  /-- `rotate`: the new session is of the family of the old one. -/
  | rotate (old new : Uuid)
deriving DecidableEq

def reauthProgram (user : Uuid) (threshold : Nat) : Program ReauthState ReauthPc ReauthAct :=
  fun _ a s pc =>
    match a with
    | .start call =>
      match pc with
      | .idle => if (s.family call.session).isSome then some (s, .reserve call) else none
      | _ => none
    | .go reply => reauthStep user threshold reply s pc
    | .fail =>
      match pc with
      | .reserve call | .verify call _ | .reset call => some (s, .done call (some .internal))
      | _ => none
    | .elapse nanos => some ({ s with now := s.now + nanos }, pc)
    | .unlock => some ({ s with store := RedisCounter.reset s.store [.account user] }, pc)
    | .signIn session family =>
      if s.family session = none then
        some ({ s with family := Function.update s.family session (some family) }, pc)
      else none
    | .rotate old new =>
      if (s.family old).isSome && s.family new = none then
        some ({ s with family := Function.update s.family new (s.family old) }, pc)
      else none

abbrev ReauthConf := Conf ReauthState ReauthPc

def reauthInitial (now : Int) : ReauthConf where
  shared := ⟨now, .empty, fun _ => none⟩
  procs := fun _ => .idle

variable {user s₀ : Uuid} {threshold : Nat} {s s' : ReauthState}

def Store.families (t : Store) (k : Uuid) : Option Uuid := (t k).map (·.val.sessionFamilyId)

theorem Store.families_update (t : Store) (k : Uuid) (r : SessionRow) :
    Store.families (Function.update t k (some r)) =
      Function.update t.families k (some r.val.sessionFamilyId) := by
  funext k'
  simp only [Store.families, Function.update_apply]
  split <;> rfl

/-- What an operation on the table of sessions is here. -/
def StoreOp.reauth : StoreOp → Option ReauthAct
  | .issue new => some (.signIn new.val.id new.val.sessionFamilyId)
  | .rotate old _ new => some (.rotate old.val.id new.val.id)
  | .revoke .. => none

/-- The families here follow those of the table: they change with a sign-in
and a rotation only. -/
theorem StoreStep.reauth {op : StoreOp} {t t' : Store} {i : Nat} {pc : ReauthPc}
    (h : StoreStep op t t') (hs : s.family = t.families) :
    match op.reauth with
    | some a => reauthProgram user threshold i a s pc = some ({ s with family := t'.families }, pc)
    | none => t'.families = t.families := by
  cases h with
  | issue new hfree =>
    simp [StoreOp.reauth, reauthProgram, Store.families_update, hs, Store.families, hfree]
  | rotate old rotated new hold hlive hfree hrotated hnew hkin =>
    have hnone : t.families new.val.id = none := by simp [Store.families, hfree]
    have hsome : t.families old.val.id = some new.val.sessionFamilyId := by
      simp [Store.families, hold, hkin.sessionFamilyId]
    have hsame : Function.update t.families old.val.id (some rotated.val.sessionFamilyId) =
        t.families := by
      rw [Function.update_eq_self_iff, hsome, hrotated, ← hkin.sessionFamilyId]
      rfl
    simp [StoreOp.reauth, reauthProgram, Store.families_update, hs, hnone, hsome, hsame]
  | revoke rev now h =>
    funext k
    rcases h k with heq | ⟨r, r', hr, -, happly, hr'⟩
    · simp [Store.families, heq]
    · have hev := rev.set_evolves now r.val
      rw [← Revocation.apply_eq_some happly] at hev
      simp [Store.families, hr, hr', hev.kin.sessionFamilyId]

/-! ## The share of one session -/

abbrev reauthWindow : Int := reauthFailTtlSecs * nanosPerSec

/-- How much of the account's count, which ends at `e`, the session under
`key` can have. What it added before its own running window is at most the
threshold, and nothing if the account's window goes on longer. -/
structure ShareOf (threshold : Nat) (key : ReauthKey) (share e : Int)
    (st : Redis.Store ReauthKey Int) (now : Int) : Prop where
  running : ∀ n d, Running st now key n d →
    share ≤ threshold + min n threshold ∧ (d < e → share ≤ min n threshold)
  gone : st.get now key = none → share ≤ threshold

/-- The account's count: the share of the session, and one more while a
call of another session is `pending`. -/
def AccountOk (user s₀ : Uuid) (threshold : Nat) (pending : Prop) (st : Redis.Store ReauthKey Int)
    (now : Int) : Prop :=
  ∀ v e, Running st now (.account user) v e → ∃ share extra, v ≤ share + extra ∧ extra ≤ 1 ∧
    (0 < extra → pending) ∧ ShareOf threshold (.session user s₀) share e st now

variable {st st' : Redis.Store ReauthKey Int} {now now' share e : Int} {key : ReauthKey}
  {pending pending' : Prop}

section

variable (h : ShareOf threshold key share e st now)
include h

theorem ShareOf.le (hw : Windowed reauthWindow st now) : share ≤ 2 * threshold := by
  cases hget : st.get now key with
  | none =>
    have := h.gone hget
    omega
  | some n =>
    obtain ⟨d, hrunning⟩ := hw.running hget
    have := (h.running n d hrunning).1
    omega

theorem ShareOf.later (hw : Windowed reauthWindow st now) (hle : now ≤ now') (he : now' ≤ e) :
    ShareOf threshold key share e st now' where
  running n d hrunning := h.running n d (hrunning.earlier hle)
  gone hgone := by
    cases hget : st.get now key with
    | none => exact h.gone hget
    | some n =>
      obtain ⟨d, hrunning⟩ := hw.running hget
      have hd := Redis.Store.deadline_lt_of_get hrunning.1 hgone
      have := (h.running n d hrunning).2 (by omega)
      omega

theorem ShareOf.congr (hentry : st'.entry key = st.entry key) :
    ShareOf threshold key share e st' now where
  running n d hrunning := h.running n d (hrunning.congr hentry)
  gone hgone := h.gone (Redis.Store.get_of_entry_eq hentry ▸ hgone)

end

theorem shareOf_zero (hw : Windowed reauthWindow st now) : ShareOf threshold key 0 e st now where
  running n d hrunning := by
    have := (hw _ _ _ hrunning.1).1
    omega
  gone _ := by omega

theorem AccountOk.mono (h : AccountOk user s₀ threshold pending st now)
    (himp : pending → pending') : AccountOk user s₀ threshold pending' st now := by
  intro v e hrunning
  obtain ⟨share, extra, hv, hextra, hpending, hshare⟩ := h v e hrunning
  exact ⟨share, extra, hv, hextra, fun hpos => himp (hpending hpos), hshare⟩

theorem AccountOk.later (h : AccountOk user s₀ threshold pending st now)
    (hw : Windowed reauthWindow st now) (hle : now ≤ now') :
    AccountOk user s₀ threshold pending st now' := by
  intro v e hrunning
  obtain ⟨share, extra, hv, hextra, hpending, hshare⟩ := h v e (hrunning.earlier hle)
  exact ⟨share, extra, hv, hextra, hpending, hshare.later hw hle hrunning.2⟩

theorem accountOk_of_none (h : st.entry (.account user) = none) :
    AccountOk user s₀ threshold pending st now := by
  intro v e hrunning
  cases h.symm.trans hrunning.1

theorem shareOf_running {n d : Int} (h : Running st now key n d)
    (hshare : share ≤ threshold + min n threshold) (hlonger : d < e → share ≤ min n threshold) :
    ShareOf threshold key share e st now where
  running n' d' h' := by
    obtain ⟨rfl, rfl⟩ := h.unique h'
    exact ⟨hshare, hlonger⟩
  gone hgone := by
    rw [h.get] at hgone
    cases hgone

/-- The session's own budget is charged, and within its limit the account's
may be too. -/
theorem ShareOf.charged (h : ShareOf threshold (.session user s₀) share e st now)
    (hw : Windowed reauthWindow st now) (he : e ≤ now + reauthWindow) (one : Int) (hone : one ≤ 1)
    (hlimit : 0 < one → st.count now (.session user s₀) + 1 ≤ threshold) :
    ShareOf threshold (.session user s₀) (share + one) e
      (charge st now (sessionBudget user threshold s₀)) now := by
  rcases hw.charged (b := sessionBudget user threshold s₀) with
    ⟨n, d, hrunning, hcharged⟩ | ⟨hgone, hcharged⟩
  · obtain ⟨hshare, hlonger⟩ := h.running n d hrunning
    have hcount : st.count now (.session user s₀) = n := hrunning.count
    rw [hcount] at hlimit
    exact shareOf_running hcharged (by omega) (by omega)
  · have hshare := h.gone hgone
    have hcount : st.count now (.session user s₀) = 0 := count_of_gone hgone
    rw [hcount] at hlimit
    refine shareOf_running hcharged (by omega) fun hlt => absurd he ?_
    exact Int.not_le.mpr hlt

/-- The counters after a call whose own budget lets it through. -/
abbrev chargeBoth (user : Uuid) (threshold : Nat) (session : Uuid) (st : Redis.Store ReauthKey Int)
    (now : Int) : Redis.Store ReauthKey Int :=
  charge (charge st now (sessionBudget user threshold session)) now (accountBudget user threshold)

theorem windowed_session (hw : Windowed reauthWindow st now) (session : Uuid) :
    Windowed reauthWindow (charge st now (sessionBudget user threshold session)) now :=
  hw.charge (b := sessionBudget user threshold session)

section

variable (h : AccountOk user s₀ threshold pending st now) (hw : Windowed reauthWindow st now)
include h hw

theorem AccountOk.refused :
    AccountOk user s₀ threshold pending (charge st now (sessionBudget user threshold s₀)) now := by
  intro v e hrunning
  have hbefore : Running st now (.account user) v e :=
    hrunning.congr (charge_entry_of_ne (by simp [sessionBudget]))
  obtain ⟨-, d, hd, he⟩ := hw _ _ _ hbefore.1
  cases hd
  obtain ⟨share, extra, hv, hextra, hpending, hshare⟩ := h v e hbefore
  have hcharged := hshare.charged hw he 0 (by omega) (by omega)
  exact ⟨share, extra, hv, hextra, hpending, by simpa using hcharged⟩

theorem AccountOk.own (hlimit : st.count now (.session user s₀) + 1 ≤ threshold) :
    AccountOk user s₀ threshold pending (chargeBoth user threshold s₀ st now) now := by
  have hsession : ∀ {share e : Int},
      ShareOf threshold (.session user s₀) share e (charge st now (sessionBudget user threshold s₀))
        now →
      ShareOf threshold (.session user s₀) share e (chargeBoth user threshold s₀ st now) now :=
    fun hshare => hshare.congr (charge_entry_of_ne (by simp [accountBudget]))
  intro v e hrunning
  rcases (windowed_session hw s₀).charged (b := accountBudget user threshold) with
    ⟨v₀, e₀, hbefore, hcharged⟩ | ⟨-, hcharged⟩
  · obtain ⟨rfl, rfl⟩ := hcharged.unique hrunning
    have hfirst : Running st now (.account user) v₀ e :=
      hbefore.congr (charge_entry_of_ne (by simp [sessionBudget, accountBudget]))
    obtain ⟨-, d, hd, he⟩ := hw _ _ _ hfirst.1
    cases hd
    obtain ⟨share, extra, hv, hextra, hpending, hshare⟩ := h v₀ e hfirst
    exact ⟨share + 1, extra, by omega, hextra, hpending,
      hsession (hshare.charged hw he 1 (by omega) fun _ => hlimit)⟩
  · obtain ⟨rfl, rfl⟩ := hcharged.unique hrunning
    have hzero : ShareOf threshold (.session user s₀) 0 (now + reauthWindow) st now :=
      shareOf_zero hw
    have hshare := hsession (hzero.charged hw (by omega) 1 (by omega) fun _ => hlimit)
    rw [Int.zero_add] at hshare
    exact ⟨1, 0, by omega, by omega, by omega, hshare⟩

theorem AccountOk.other {session : Uuid} (hnone : ¬ pending) (hne : session ≠ s₀) (hp : pending') :
    AccountOk user s₀ threshold pending' (chargeBoth user threshold session st now) now := by
  have hsession : (chargeBoth user threshold session st now).entry (.session user s₀) =
      st.entry (.session user s₀) := by
    rw [charge_entry_of_ne (by simp [accountBudget]),
      charge_entry_of_ne (by simp [sessionBudget, Ne.symm hne])]
  intro v e hrunning
  rcases (windowed_session hw session).charged (b := accountBudget user threshold) with
    ⟨v₀, e₀, hbefore, hcharged⟩ | ⟨-, hcharged⟩
  · obtain ⟨rfl, rfl⟩ := hcharged.unique hrunning
    obtain ⟨share, extra, hv, hextra, hpending, hshare⟩ := h v₀ e
      (hbefore.congr (charge_entry_of_ne (by simp [sessionBudget, accountBudget])))
    have hextra' : extra ≤ 0 := by
      by_contra hpos
      exact hnone (hpending (by omega))
    exact ⟨share, 1, by omega, by omega, fun _ => hp, hshare.congr hsession⟩
  · obtain ⟨rfl, rfl⟩ := hcharged.unique hrunning
    exact ⟨0, 1, by omega, by omega, fun _ => hp, (shareOf_zero hw).congr hsession⟩

theorem AccountOk.room (hnone : ¬ pending) : st.count now (.account user) ≤ 2 * threshold := by
  cases hget : st.get now (.account user) with
  | none =>
    rw [count_of_gone hget]
    omega
  | some v =>
    obtain ⟨e, hrunning⟩ := hw.running hget
    obtain ⟨share, extra, hv, hextra, hpending, hshare⟩ := h v e hrunning
    have hle := hshare.le hw
    have hextra' : extra ≤ 0 := by
      by_contra hpos
      exact hnone (hpending (by omega))
    rw [hrunning.count]
    omega

end

/-! ## Calls -/

def ReauthPc.call : ReauthPc → Option ReauthCall
  | .reserve call | .verify call _ | .reset call => some call
  | _ => none

def ReauthPc.counted : ReauthPc → Option ReauthCall
  | .verify call _ | .reset call => some call
  | _ => none

def ReauthPc.reserving : ReauthPc → Option ReauthCall
  | .reserve call => some call
  | _ => none

def ReauthPc.resetting : ReauthPc → Option ReauthCall
  | .reset call => some call
  | _ => none

def ReauthAct.starts : ReauthAct → Option ReauthCall
  | .start call => some call
  | _ => none

variable {family : Uuid} {c : ReauthConf} {i j : Nat} {a : ReauthAct}

/-- All wrong passwords are submitted from one family. -/
def WrongWithin (family : Uuid) (c : ReauthConf) (_ : Nat) (a : ReauthAct) : Prop :=
  ∀ call ∈ a.starts, call.wrong = true → c.shared.family call.session = some family

/-- A call from outside the family starts when no other such call is running. -/
def InTurn (family : Uuid) (c : ReauthConf) (_ : Nat) (a : ReauthAct) (j : Nat) : Prop :=
  ∀ call ∈ a.starts, c.shared.family call.session ≠ some family →
    ∀ other ∈ (c.procs j).call, c.shared.family other.session = some family

/-- The calls of the family come from the session `s₀`, which is one of it.
For those from outside, the answer to the reservation arrives and the reset
is executed. -/
@[mk_iff] structure Steady (family s₀ : Uuid) (c : ReauthConf) (i : Nat) (a : ReauthAct) :
    Prop where
  single : ∀ call ∈ a.starts, c.shared.family call.session = some family ↔ call.session = s₀
  told : a = .go .lost →
    ∀ call ∈ (c.procs i).reserving, c.shared.family call.session = some family
  executed : a = .go .down →
    ∀ call ∈ (c.procs i).resetting, c.shared.family call.session = some family
  finished : a = .fail → ∀ call ∈ (c.procs i).counted, c.shared.family call.session = some family

def OneFamily (family : Uuid) (c : ReauthConf) (i : Nat) (a : ReauthAct) : Prop :=
  WrongWithin family c i a ∧ ∀ j, InTurn family c i a j

def OneSession (family s₀ : Uuid) (c : ReauthConf) (i : Nat) (a : ReauthAct) : Prop :=
  OneFamily family c i a ∧ Steady family s₀ c i a

/-! ## The invariant -/

variable {fam fam' : Uuid → Option Uuid} {counted counted' : Nat → Option ReauthCall}
  {call : ReauthCall} {reply : RedisReply}

/-- A call from outside the family is counted. -/
def Pending (family : Uuid) (fam : Uuid → Option Uuid) (counted : Nat → Option ReauthCall) : Prop :=
  ∃ i call, counted i = some call ∧ fam call.session ≠ some family

/-- The budget of a session outside the family is charged only by the call
that is running. -/
structure BudgetsOk (user family s₀ : Uuid) (threshold : Nat) (fam : Uuid → Option Uuid)
    (counted : Nat → Option ReauthCall) (st : Redis.Store ReauthKey Int) (now : Int) : Prop where
  windowed : Windowed reauthWindow st now
  sessions : ∀ session, fam session ≠ some family →
    st.get now (.session user session) ≠ none → ∃ i call, counted i = some call ∧
      call.session = session
  account : AccountOk user s₀ threshold (Pending family fam counted) st now

namespace BudgetsOk

section

variable (h : BudgetsOk user family s₀ threshold fam counted st now)
include h

theorem later (hle : now ≤ now') :
    BudgetsOk user family s₀ threshold fam counted st now' where
  windowed := h.windowed.later hle
  sessions session hsession hget := by
    obtain ⟨n, hn⟩ := Option.ne_none_iff_exists'.mp hget
    refine h.sessions session hsession ?_
    rw [Redis.Store.get_of_later hn rfl hle]
    exact Option.some_ne_none n
  account := h.account.later h.windowed hle

/-- More sessions, or calls of the family that start or end. -/
theorem mono (hfam : ∀ session, fam' session ≠ some family → fam session ≠ some family)
    (hpending : ∀ i call, counted i = some call → fam call.session ≠ some family →
      counted' i = some call ∧ fam' call.session ≠ some family) :
    BudgetsOk user family s₀ threshold fam' counted' st now where
  windowed := h.windowed
  sessions session hsession hget := by
    obtain ⟨i, call, hcall, rfl⟩ := h.sessions session (hfam session hsession) hget
    exact ⟨i, call, (hpending i call hcall (hfam _ hsession)).1, rfl⟩
  account := h.account.mono fun ⟨i, call, hcall, hout⟩ => ⟨i, call, hpending i call hcall hout⟩

/-- The account's counter is deleted, with those of the sessions whose calls
are no longer counted. -/
theorem reset {keys : List ReauthKey} (haccount : .account user ∈ keys)
    (hpending : ∀ i call, counted i = some call → fam call.session ≠ some family →
      counted' i = some call ∨ .session user call.session ∈ keys) :
    BudgetsOk user family s₀ threshold fam counted' (RedisCounter.reset st keys) now where
  windowed := h.windowed.reset keys
  sessions session hsession hget := by
    have hkey : .session user session ∉ keys := by
      intro hmem
      exact hget (by simp [Redis.Store.get, reset_entry_of_mem hmem])
    rw [Redis.Store.get_of_entry_eq (reset_entry_of_not_mem hkey)] at hget
    obtain ⟨i, call, hcall, rfl⟩ := h.sessions session hsession hget
    exact ⟨i, call, (hpending i call hcall hsession).resolve_right hkey, rfl⟩
  account := accountOk_of_none (reset_entry_of_mem haccount)

theorem own (hs₀ : fam s₀ = some family) :
    BudgetsOk user family s₀ threshold fam counted
        (charge st now (sessionBudget user threshold s₀)) now ∧
      (st.count now (.session user s₀) + 1 ≤ threshold →
        BudgetsOk user family s₀ threshold fam counted (chargeBoth user threshold s₀ st now)
          now) := by
  have hother : ∀ {session}, fam session ≠ some family →
      (charge st now (sessionBudget user threshold s₀)).entry (.session user session) =
        st.entry (.session user session) := by
    intro session hsession
    refine charge_entry_of_ne ?_
    simp only [sessionBudget, ne_eq, ReauthKey.session.injEq, true_and]
    rintro rfl
    exact hsession hs₀
  refine ⟨⟨windowed_session h.windowed s₀, fun session hsession hget => ?_,
    h.account.refused h.windowed⟩, fun hlimit =>
    ⟨(windowed_session h.windowed s₀).charge (b := accountBudget user threshold),
      fun session hsession hget => ?_, h.account.own h.windowed hlimit⟩⟩
  · rw [Redis.Store.get_of_entry_eq (hother hsession)] at hget
    exact h.sessions session hsession hget
  · rw [Redis.Store.get_of_entry_eq
      ((charge_entry_of_ne (by simp [accountBudget])).trans (hother hsession))] at hget
    exact h.sessions session hsession hget

/-- Both budgets have room for a call from outside while no other is counted. -/
theorem room {session : Uuid} (hT : 1 ≤ threshold) (hnone : ¬ Pending family fam counted)
    (hout : fam session ≠ some family) :
    st.count now (.session user session) + 1 ≤ threshold ∧
      (charge st now (sessionBudget user threshold session)).count now (.account user) + 1 ≤
        (threshold * reauthAccountCeilingFactor : Nat) := by
  have hgone : st.get now (.session user session) = none := by
    by_contra hget
    obtain ⟨j, call, hcall, heq⟩ := h.sessions _ hout hget
    exact hnone ⟨j, call, hcall, heq ▸ hout⟩
  have hroom := h.account.room h.windowed hnone
  have haccount : (charge st now (sessionBudget user threshold session)).count now
      (.account user) = st.count now (.account user) := by
    simp only [Redis.Store.count]
    rw [Redis.Store.get_of_entry_eq (charge_entry_of_ne (by simp [sessionBudget]))]
  rw [count_of_gone hgone, haccount]
  simp only [reauthAccountCeilingFactor]
  omega

theorem other {call : ReauthCall} (hnone : ¬ Pending family fam counted)
    (hout : fam call.session ≠ some family) (hne : call.session ≠ s₀)
    (hcounted : counted' i = some call)
    (hpending : ∀ i call, counted i = some call → counted' i = some call) :
    BudgetsOk user family s₀ threshold fam counted' (chargeBoth user threshold call.session st now)
      now := by
  refine ⟨(windowed_session h.windowed _).charge (b := accountBudget user threshold),
    fun session hsession hget => ?_, h.account.other h.windowed hnone hne ⟨i, call, hcounted, hout⟩⟩
  by_cases heq : session = call.session
  · exact ⟨i, call, hcounted, heq.symm⟩
  · rw [Redis.Store.get_of_entry_eq ((charge_entry_of_ne (by simp [accountBudget])).trans
      (charge_entry_of_ne (by simp [sessionBudget, heq])))] at hget
    obtain ⟨j, call', hcall', hsess⟩ := h.sessions session hsession hget
    exact ⟨j, call', hpending j call' hcall', hsess⟩

end

end BudgetsOk

/-- How a reservation ends. -/
inductive Reserved (user : Uuid) (threshold : Nat) (call : ReauthCall) (reply : RedisReply)
    (s : ReauthState) : ReauthState → ReauthPc → Prop
  | down (hreply : reply = .down) :
      Reserved user threshold call reply s s (.done call (some .internal))
  | refused {p} (hcount : threshold < s.store.count s.now (.session user call.session) + 1)
      (hpc : p = .done call (some .accountLocked) ∨
        reply = .lost ∧ p = .done call (some .internal)) :
      Reserved user threshold call reply s
        { s with store := charge s.store s.now (sessionBudget user threshold call.session) } p
  | charged {p} (hcount : s.store.count s.now (.session user call.session) + 1 ≤ threshold)
      (hpc : p = .done call (some .accountLocked) ∧
          (threshold * reauthAccountCeilingFactor : Nat) <
            (charge s.store s.now (sessionBudget user threshold call.session)).count s.now
              (.account user) + 1 ∨
        reply = .lost ∧ p = .done call (some .internal) ∨ ∃ n, p = .verify call n) :
      Reserved user threshold call reply s
        { s with
          store := charge (charge s.store s.now (sessionBudget user threshold call.session)) s.now
            (accountBudget user threshold) } p

theorem reserved_of_step {p' : ReauthPc}
    (h : reauthStep user threshold reply s (.reserve call) = some (s', p')) :
    Reserved user threshold call reply s s' p' := by
  simp only [reauthStep, consumeInOrder_pair] at h
  by_cases hlt : (sessionBudget user threshold call.session).limit <
      s.store.count s.now (sessionBudget user threshold call.session).key + 1
  · rw [if_pos hlt] at h
    cases reply <;> cases h
    · exact .refused hlt (.inl rfl)
    · exact .refused hlt (.inr ⟨rfl, rfl⟩)
    · exact .down rfl
  · have hle := Int.not_lt.mp hlt
    rw [if_neg hlt] at h
    cases reply with
    | answered =>
      simp only [decide_eq_true_eq] at h
      split at h <;> rename_i haccount <;> cases h
      · exact .charged hle (.inl ⟨rfl, haccount⟩)
      · exact .charged hle (.inr (.inr ⟨_, rfl⟩))
    | lost =>
      cases h
      exact .charged hle (.inr (.inl ⟨rfl, rfl⟩))
    | down =>
      cases h
      exact .down rfl

theorem Reserved.done {call' : ReauthCall} {p' : ReauthPc} {result : Option AppError}
    (h : Reserved user threshold call reply s s' p') (hp : p' = .done call' result) :
    call' = call := by
  subst hp
  cases h with
  | down => rfl
  | refused hcount hpc =>
    rcases hpc with hpc | ⟨-, hpc⟩ <;> cases hpc <;> rfl
  | charged hcount hpc =>
    rcases hpc with ⟨hpc, -⟩ | ⟨-, hpc⟩ | ⟨n, hpc⟩ <;> cases hpc <;> rfl

/-- Which calls are running. -/
structure CallsOk (family s₀ : Uuid) (c : ReauthConf) : Prop where
  known : ∀ i call, (c.procs i).call = some call → (c.shared.family call.session).isSome
  single : ∀ i call, (c.procs i).call = some call →
    (c.shared.family call.session = some family ↔ call.session = s₀)
  wrong : ∀ i call, (c.procs i).call = some call → call.wrong = true →
    c.shared.family call.session = some family
  one : ∀ i j call call', (c.procs i).call = some call → (c.procs j).call = some call' →
    c.shared.family call.session ≠ some family →
    c.shared.family call'.session ≠ some family → i = j

variable {p p' : ReauthPc}

theorem call_of_counted (h : p.counted = some call) : p.call = some call := by
  cases p <;> first | exact h | cases h

theorem reauthStep_call (h : reauthStep user threshold reply s p = some (s', p')) :
    s'.family = s.family ∧ s'.now = s.now ∧ ∀ call, p'.call = some call → p.call = some call := by
  cases p with
  | reserve =>
    cases reserved_of_step h with
    | down => exact ⟨rfl, rfl, nofun⟩
    | refused hcount hpc =>
      rcases hpc with rfl | ⟨-, rfl⟩ <;> exact ⟨rfl, rfl, nofun⟩
    | charged hcount hpc =>
      rcases hpc with ⟨rfl, -⟩ | ⟨-, rfl⟩ | ⟨n, rfl⟩
      · exact ⟨rfl, rfl, nofun⟩
      · exact ⟨rfl, rfl, nofun⟩
      · exact ⟨rfl, rfl, fun _ hcall => hcall⟩
  | verify =>
    simp only [reauthStep] at h
    split at h <;> cases h
    · exact ⟨rfl, rfl, nofun⟩
    · exact ⟨rfl, rfl, fun _ hcall => hcall⟩
  | reset =>
    cases reply <;> cases h <;> exact ⟨rfl, rfl, nofun⟩
  | idle | done => cases h

/-- Calls start in idle processes, and sessions keep their family. -/
theorem reauthProgram_call (h : reauthProgram user threshold i a s p = some (s', p')) :
    (∀ call, p'.call = some call → p.call = some call ∨
      a.starts = some call ∧ (s.family call.session).isSome) ∧
    ∀ session, (s.family session).isSome → s'.family session = s.family session := by
  cases a with
  | start call =>
    cases p with
    | idle =>
      simp only [reauthProgram] at h
      split at h <;> rename_i hknown <;> cases h
      refine ⟨fun call' hcall => .inr ?_, fun _ _ => rfl⟩
      cases hcall
      exact ⟨rfl, hknown⟩
    | _ => cases h
  | go =>
    obtain ⟨hfamily, -, hcall⟩ := reauthStep_call h
    exact ⟨fun call h => .inl (hcall call h), fun _ _ => by rw [hfamily]⟩
  | fail => cases p <;> cases h <;> exact ⟨nofun, fun _ _ => rfl⟩
  | elapse | unlock =>
    cases h
    exact ⟨fun _ hcall => .inl hcall, fun _ _ => rfl⟩
  | signIn session family =>
    simp only [reauthProgram] at h
    split at h <;> rename_i hfresh <;> cases h
    refine ⟨fun _ hcall => .inl hcall, fun session' hknown => Function.update_of_ne ?_ _ _⟩
    rintro rfl
    simp [hfresh] at hknown
  | rotate old new =>
    simp only [reauthProgram, Bool.and_eq_true, decide_eq_true_eq] at h
    split at h <;> rename_i hfresh <;> cases h
    refine ⟨fun _ hcall => .inl hcall, fun session' hknown => Function.update_of_ne ?_ _ _⟩
    rintro rfl
    simp [hfresh.2] at hknown

theorem CallsOk.step (hc : CallsOk family s₀ c) (hok : OneSession family s₀ c i a)
    (h : reauthProgram user threshold i a c.shared (c.procs i) = some (s', p')) :
    CallsOk family s₀ (c.set i s' p') := by
  obtain ⟨hcalls, hfamily⟩ := reauthProgram_call h
  obtain ⟨⟨hwrong, hturn⟩, hsteady⟩ := hok
  -- What is known of each call that runs after the step.
  have hrunning : ∀ j call, ((c.set i s' p').procs j).call = some call →
      (c.procs j).call = some call ∨ j = i ∧ a.starts = some call ∧
        (c.shared.family call.session).isSome := by
    intro j call hcall
    rcases c.procs_cases i s' p' j with ⟨rfl, hset⟩ | ⟨hji, hset⟩ <;> rw [hset] at hcall
    · exact (hcalls call hcall).imp id fun h => ⟨rfl, h⟩
    · exact .inl hcall
  have hknown : ∀ j call, ((c.set i s' p').procs j).call = some call →
      (c.shared.family call.session).isSome := by
    intro j call hcall
    rcases hrunning j call hcall with h | ⟨-, -, h⟩
    · exact hc.known j call h
    · exact h
  refine ⟨fun j call hcall => ?_, fun j call hcall => ?_, fun j call hcall hbad => ?_,
    fun j k call call' hcall hcall' hout hout' => ?_⟩
  · rw [Conf.set_shared, hfamily _ (hknown j call hcall)]
    exact hknown j call hcall
  · rw [Conf.set_shared, hfamily _ (hknown j call hcall)]
    rcases hrunning j call hcall with h | ⟨-, h, -⟩
    · exact hc.single j call h
    · exact hsteady.single call h
  · rw [Conf.set_shared, hfamily _ (hknown j call hcall)]
    rcases hrunning j call hcall with h | ⟨-, h, -⟩
    · exact hc.wrong j call h hbad
    · exact hwrong call h hbad
  · rw [Conf.set_shared, hfamily _ (hknown j call hcall)] at hout
    rw [Conf.set_shared, hfamily _ (hknown k call' hcall')] at hout'
    rcases hrunning j call hcall with hold | ⟨rfl, hnew, -⟩ <;>
      rcases hrunning k call' hcall' with hold' | ⟨rfl, hnew', -⟩
    · exact hc.one j k call call' hold hold' hout hout'
    · exact absurd (hturn j call' hnew' hout' call hold) hout
    · exact absurd (hturn k call hnew hout call' hold') hout'
    · rfl

def countedCalls (c : ReauthConf) (i : Nat) : Option ReauthCall := (c.procs i).counted

structure ReauthOk (user family s₀ : Uuid) (threshold : Nat) (c : ReauthConf) : Prop where
  calls : CallsOk family s₀ c
  budgets : BudgetsOk user family s₀ threshold c.shared.family (countedCalls c) c.shared.store
    c.shared.now
  locked : ∀ i call, c.procs i = .done call (some .accountLocked) → call.wrong = false →
    c.shared.family call.session = some family

theorem countedCalls_set_self : countedCalls (c.set i s' p') i = p'.counted := by
  simp [countedCalls]

theorem countedCalls_set_of_ne (h : j ≠ i) : countedCalls (c.set i s' p') j = countedCalls c j := by
  simp [countedCalls, Conf.set_procs_of_ne _ _ _ h]

/-- A call that was counted still is, if the process that takes the step
does not have it, or keeps it. -/
theorem countedCalls_set (hcall : countedCalls c j = some call)
    (h : (c.procs i).counted = some call → p'.counted = some call) :
    countedCalls (c.set i s' p') j = some call := by
  by_cases hji : j = i
  · subst hji
    rw [countedCalls_set_self]
    exact h hcall
  · rw [countedCalls_set_of_ne hji]
    exact hcall

theorem BudgetsOk.carried
    (hb : BudgetsOk user family s₀ threshold fam (countedCalls c) st now)
    (h : ∀ call, (c.procs i).counted = some call → fam call.session ≠ some family →
      p'.counted = some call) :
    BudgetsOk user family s₀ threshold fam (countedCalls (c.set i s' p')) st now :=
  hb.mono (fun _ hout => hout) fun _ call hcall hout =>
    ⟨countedCalls_set hcall fun hown => h call hown hout, hout⟩

/-- What the budgets are after a step of process `i`. -/
abbrev BudgetsAfter (user family s₀ : Uuid) (threshold : Nat) (c : ReauthConf) (i : Nat)
    (s' : ReauthState) (p' : ReauthPc) : Prop :=
  BudgetsOk user family s₀ threshold s'.family (countedCalls (c.set i s' p')) s'.store s'.now

section

variable (hc : ReauthOk user family s₀ threshold c)
include hc

theorem ReauthOk.kept
    (h : ∀ call, (c.procs i).counted = some call → c.shared.family call.session ≠ some family →
      p'.counted = some call) :
    BudgetsAfter user family s₀ threshold c i c.shared p' :=
  hc.budgets.carried h

theorem ReauthOk.reserve_own (hp : c.procs i = .reserve call)
    (hin : c.shared.family call.session = some family)
    (h : Reserved user threshold call reply c.shared s' p') :
    BudgetsAfter user family s₀ threshold c i s' p' := by
  have hs₀ : call.session = s₀ := (hc.calls.single i call (by rw [hp]; rfl)).mp hin
  obtain ⟨hrefused, hcharged⟩ := hc.budgets.own (hs₀ ▸ hin)
  cases h with
  | down => exact hc.kept (by simp [hp, ReauthPc.counted])
  | refused =>
    rw [hs₀]
    exact hrefused.carried (by simp [hp, ReauthPc.counted])
  | charged hcount =>
    rw [hs₀] at hcount ⊢
    exact (hcharged hcount).carried (by simp [hp, ReauthPc.counted])

theorem ReauthOk.reserve_other (hT : 1 ≤ threshold) (hp : c.procs i = .reserve call)
    (hout : c.shared.family call.session ≠ some family) (htold : reply ≠ .lost)
    (h : Reserved user threshold call reply c.shared s' p') :
    BudgetsAfter user family s₀ threshold c i s' p' ∧ p' ≠ .done call (some .accountLocked) := by
  have hcall : (c.procs i).call = some call := by rw [hp]; rfl
  have hnone : ¬ Pending family c.shared.family (countedCalls c) := by
    rintro ⟨j, call', hcounted, hout'⟩
    have hji := hc.calls.one j i call' call (call_of_counted hcounted) hcall hout' hout
    rw [hji, countedCalls, hp] at hcounted
    cases hcounted
  obtain ⟨hsession, haccount⟩ := hc.budgets.room hT hnone hout
  cases h with
  | down => exact ⟨hc.kept (by simp [hp, ReauthPc.counted]), by simp⟩
  | refused hcount => exact absurd hsession (Int.not_le.mpr hcount)
  | charged hcount hpc =>
    rcases hpc with ⟨-, hlt⟩ | ⟨hlost, -⟩ | ⟨n, rfl⟩
    · exact absurd haccount (Int.not_le.mpr hlt)
    · exact absurd hlost htold
    · refine ⟨hc.budgets.other (i := i) hnone hout (fun hs₀ => hout ?_) (by simp [countedCalls,
        ReauthPc.counted]) fun j call' hcounted => ?_, nofun⟩
      · exact (hc.calls.single i call hcall).mpr hs₀
      · exact countedCalls_set hcounted (by simp [hp, ReauthPc.counted])

theorem ReauthOk.reset_step (hp : c.procs i = .reset call)
    (hexecuted : reply = .down → c.shared.family call.session = some family)
    (h : reauthStep user threshold reply c.shared (.reset call) = some (s', p')) :
    BudgetsAfter user family s₀ threshold c i s' p' ∧ p' = .done call none := by
  have hreset : BudgetsAfter user family s₀ threshold c i { c.shared with
      store := RedisCounter.reset c.shared.store [.session user call.session, .account user] }
      (.done call none) := by
    refine hc.budgets.reset (by simp) fun j call' hcounted hout => ?_
    by_cases hji : j = i
    · subst hji
      rw [countedCalls, hp] at hcounted
      cases hcounted
      exact .inr (by simp)
    · exact .inl (by rw [countedCalls_set_of_ne hji]; exact hcounted)
  cases reply with
  | answered | lost =>
    cases h
    exact ⟨hreset, rfl⟩
  | down =>
    cases h
    refine ⟨hc.kept fun call' hcounted hout => ?_, rfl⟩
    rw [hp] at hcounted
    cases hcounted
    exact absurd (hexecuted rfl) hout

/-- A step of a call keeps the budgets, and locks no call from outside out. -/
theorem ReauthOk.go (hT : 1 ≤ threshold) (hok : Steady family s₀ c i (.go reply))
    (h : reauthStep user threshold reply c.shared (c.procs i) = some (s', p')) :
    BudgetsAfter user family s₀ threshold c i s' p' ∧
      ∀ call, p' = .done call (some .accountLocked) → call.wrong = false →
        c.shared.family call.session = some family := by
  cases hp : c.procs i with
  | idle | done =>
    rw [hp] at h
    cases h
  | reserve call =>
    rw [hp] at h
    have hreserved := reserved_of_step h
    by_cases hin : c.shared.family call.session = some family
    · exact ⟨hc.reserve_own hp hin hreserved, fun call' hp' _ => hreserved.done hp' ▸ hin⟩
    · have htold : reply ≠ .lost := by
        rintro rfl
        exact hin (hok.told rfl call (by rw [hp]; rfl))
      obtain ⟨hbudgets, hlocked⟩ := hc.reserve_other hT hp hin htold hreserved
      refine ⟨hbudgets, fun call' hp' _ => absurd hp' ?_⟩
      exact fun heq => hlocked (hreserved.done heq ▸ heq)
  | verify call count =>
    rw [hp] at h
    simp only [reauthStep] at h
    split at h <;> rename_i hwrong <;> cases h
    · have hin := hc.calls.wrong i call (by rw [hp]; rfl) hwrong
      refine ⟨hc.kept fun call' hcounted hout => ?_, fun call' hp' hright => ?_⟩
      · rw [hp] at hcounted
        cases hcounted
        exact absurd hin hout
      · obtain ⟨rfl, -⟩ := ReauthPc.done.inj hp'
        exact hin
    · exact ⟨hc.kept fun call' hcounted _ => by rwa [hp] at hcounted, nofun⟩
  | reset call =>
    rw [hp] at h
    obtain ⟨hbudgets, rfl⟩ := hc.reset_step hp
      (fun hdown => hok.executed (hdown ▸ rfl) call (by rw [hp]; rfl)) h
    exact ⟨hbudgets, nofun⟩

theorem ReauthOk.families
    (hfam : ∀ session, (c.shared.family session).isSome → fam session = c.shared.family session) :
    BudgetsAfter user family s₀ threshold c i { c.shared with family := fam } (c.procs i) := by
  refine hc.budgets.mono (fun session hout hin => hout ?_) fun j call hcounted hout => ⟨?_, ?_⟩
  · exact (hfam session (by simp [hin])).trans hin
  · exact countedCalls_set hcounted id
  · have hkept := hfam _ (hc.calls.known j call (call_of_counted hcounted))
    exact fun hin => hout (hkept.symm.trans hin)

theorem ReauthOk.moved (hT : 1 ≤ threshold) (hok : Steady family s₀ c i a)
    (h : reauthProgram user threshold i a c.shared (c.procs i) = some (s', p')) :
    BudgetsAfter user family s₀ threshold c i s' p' ∧
      ∀ call, p' = .done call (some .accountLocked) → call.wrong = false →
        c.shared.family call.session = some family := by
  have hfamily := (reauthProgram_call h).2
  have hsame : ∀ call, c.procs i = .done call (some .accountLocked) → call.wrong = false →
      c.shared.family call.session = some family := hc.locked i
  cases a with
  | start =>
    cases hp : c.procs i with
    | idle =>
      rw [hp] at h
      simp only [reauthProgram] at h
      split at h <;> cases h
      exact ⟨hc.kept (by simp [hp, ReauthPc.counted]), nofun⟩
    | _ =>
      rw [hp] at h
      cases h
  | go => exact hc.go hT hok h
  | fail =>
    have hcounted := hok.finished rfl
    cases hp : c.procs i <;> rw [hp] at h hcounted <;> cases h
    · exact ⟨hc.kept (by simp [hp, ReauthPc.counted]), nofun⟩
    all_goals
      refine ⟨hc.kept fun call' hcall hout => ?_, nofun⟩
      rw [hp] at hcall
      exact absurd (hcounted call' hcall) hout
  | elapse =>
    cases h
    exact ⟨(hc.budgets.later (by simp)).carried fun _ hcounted _ => hcounted, hsame⟩
  | unlock =>
    cases h
    exact ⟨hc.budgets.reset (by simp) fun _ _ hcounted _ => .inl (countedCalls_set hcounted id),
      hsame⟩
  | signIn | rotate =>
    simp only [reauthProgram] at h
    split at h <;> cases h
    exact ⟨hc.families hfamily, hsame⟩

theorem ReauthOk.step (hT : 1 ≤ threshold) (hok : OneSession family s₀ c i a)
    (h : reauthProgram user threshold i a c.shared (c.procs i) = some (s', p')) :
    ReauthOk user family s₀ threshold (c.set i s' p') := by
  obtain ⟨hbudgets, hlocked⟩ := hc.moved hT hok.2 h
  have hfamily := (reauthProgram_call h).2
  refine ⟨hc.calls.step hok h, hbudgets, fun j call hdone hright => ?_⟩
  have hin : c.shared.family call.session = some family := by
    rcases c.procs_cases i s' p' j with ⟨rfl, hset⟩ | ⟨hji, hset⟩ <;> rw [hset] at hdone
    · exact hlocked call hdone hright
    · exact hc.locked j call hdone hright
  rw [Conf.set_shared, hfamily _ (by simp [hin]), hin]

end

theorem reauthOk_initial (user family s₀ : Uuid) (threshold : Nat) (now : Int) :
    ReauthOk user family s₀ threshold (reauthInitial now) where
  calls := ⟨nofun, nofun, nofun, nofun⟩
  budgets := ⟨nofun, fun _ _ h => absurd rfl h, fun _ _ h => nomatch h.1⟩
  locked := nofun

/-- **The family locks itself out, not the owner.** If all wrong passwords
are of one family, the calls from outside it come one after the other and
are reset, and the family calls from one session only, then no call with
the right password from outside is refused with `AccountLocked`. -/
theorem owner_not_locked (user family s₀ : Uuid) (threshold : Nat) (hT : 1 ≤ threshold) (now : Int)
    {c : ReauthConf}
    (hrun : Steps (reauthProgram user threshold) (OneSession family s₀) (reauthInitial now) c)
    {i : Nat} {call : ReauthCall} (hlocked : c.procs i = .done call (some .accountLocked))
    (hright : call.wrong = false) : c.shared.family call.session = some family :=
  (hrun.invariant (fun _ _ _ _ _ hc hok hprog => hc.step hT hok hprog)
    (reauthOk_initial user family s₀ threshold now)).locked i call hlocked hright

/-! ## Rotation -/

instance (family : Uuid) (c : ReauthConf) (i : Nat) (a : ReauthAct) :
    Decidable (WrongWithin family c i a) :=
  inferInstanceAs (Decidable (∀ call ∈ a.starts, _))

instance (family : Uuid) (c : ReauthConf) (i : Nat) (a : ReauthAct) (j : Nat) :
    Decidable (InTurn family c i a j) :=
  inferInstanceAs (Decidable (∀ call ∈ a.starts, _))

instance (family s₀ : Uuid) (c : ReauthConf) (i : Nat) (a : ReauthAct) :
    Decidable (Steady family s₀ c i a) :=
  decidable_of_iff _ (steady_iff family s₀ c i a).symm

theorem InTurn.of_idle (h : (c.procs j).call = none) : InTurn family c i a j := by
  intro _ _ _ other hother
  rw [h] at hother
  cases hother

theorem steps_oneFamily {n : Nat} {own : ReauthConf → Nat → ReauthAct → Prop} {c : ReauthConf}
    {now : Int} (h : Steps (reauthProgram user threshold) (Below n own (InTurn family))
      (reauthInitial now) c) :
    Steps (reauthProgram user threshold) (fun c i a => own c i a ∧ ∀ j, InTurn family c i a j)
      (reauthInitial now) c :=
  h.of_below (Q := fun p => p.call = none) (fun _ _ _ _ => .of_idle) fun _ _ => rfl

/-- A call up to its answer, or its reset if the password is right. -/
def reauthCall (i : Nat) (session : Uuid) (wrong : Bool) : List (Nat × ReauthAct) :=
  [(i, .start ⟨session, wrong⟩), (i, .go .answered), (i, .go .answered)]

/-- Session 1 uses up its budget. Session 2 of the owner is let through, and
the right password from session 1 is refused. -/
theorem thief_locked_out :
    ∃ c, Steps (reauthProgram 1 1) (OneSession 7 1) (reauthInitial 0) c ∧
      c.procs 1 = .done ⟨2, false⟩ none ∧ c.procs 2 = .done ⟨1, false⟩ (some .accountLocked) ∧
      c.shared.family 1 = some 7 := by
  obtain ⟨c, hc, howner, hthief⟩ : ∃ c ∈ exec (reauthProgram 1 1)
      (Below 3 (fun c i a => WrongWithin 7 c i a ∧ Steady 7 1 c i a) (InTurn 7)) (reauthInitial 0)
      ([(0, .signIn 1 7), (0, .signIn 2 8)] ++ reauthCall 0 1 true ++ reauthCall 1 2 false ++
      [(1, .go .answered), (2, .start ⟨1, false⟩), (2, .go .answered)]),
      c.procs 1 = .done ⟨2, false⟩ none ∧ c.procs 2 = .done ⟨1, false⟩ (some .accountLocked) := by
    decide +kernel
  have hsteps : Steps (reauthProgram 1 1) (OneSession 7 1) (reauthInitial 0) c :=
    (steps_oneFamily (steps_of_exec hc)).mono fun _ _ _ hok => ⟨⟨hok.1.1, hok.2⟩, hok.1.2⟩
  exact ⟨c, hsteps, howner, hthief, owner_not_locked 1 7 1 1 (by decide) 0 hsteps hthief rfl⟩

/-- With a threshold of one, a session that is rotated twice submits three
wrong passwords. The owner's right one is then refused. -/
theorem owner_locked_out :
    ¬ ∀ (user family : Uuid) (threshold : Nat) (now : Int) (c : ReauthConf), 1 ≤ threshold →
      Steps (reauthProgram user threshold) (OneFamily family) (reauthInitial now) c →
      ∀ i call, c.procs i = .done call (some .accountLocked) → call.wrong = false →
        c.shared.family call.session = some family := by
  intro h
  obtain ⟨c, hc, hlocked, hfamily⟩ : ∃ c ∈ exec (reauthProgram 1 1)
      (Below 4 (WrongWithin 7) (InTurn 7)) (reauthInitial 0)
      ([(0, .signIn 1 7), (0, .signIn 9 8)] ++ reauthCall 0 1 true ++ [(0, .rotate 1 2)] ++
      reauthCall 1 2 true ++ [(0, .rotate 2 3)] ++ reauthCall 2 3 true ++
      [(3, .start ⟨9, false⟩), (3, .go .answered)]),
      c.procs 3 = .done ⟨9, false⟩ (some .accountLocked) ∧ c.shared.family 9 = some 8 := by
    decide +kernel
  have hsteps : Steps (reauthProgram 1 1) (OneFamily 7) (reauthInitial 0) c :=
    steps_oneFamily (steps_of_exec hc)
  have hin := h 1 7 1 0 c (by decide) hsteps 3 _ hlocked rfl
  rw [hfamily] at hin
  exact absurd hin (by decide)

end AuthApi
