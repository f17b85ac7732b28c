import AuthApi.Conc
import Mathlib.Algebra.Order.Ring.Int
import Mathlib.Data.List.Count

/-!
# Key fetches of the verifiers

A verifier that meets a token signed with a key it has not cached
fetches the issuer's key set, unless it has just done so. The Rust one
holds a mutex over the fetch and the calls that wait for it check again;
in the JavaScript one they share the promise of the running fetch. Both
note the time when a fetch has succeeded: after a failure the next
unknown key fetches again, at once (`fetched_again_after_failure`).

The starts of all fetches are kept beside the state (`starts`).
-/

namespace AuthApi

open Conc

inductive KeyAnswer where
  | key
  | unknownKey
  | unavailable
deriving DecidableEq

/-- What the calls of a verifier share; `τ` is how it notes the last
fetch. -/
structure KeyCache (κ τ : Type) where
  clock : Int
  keys : List κ
  fetchedAt : τ
  refreshing : Bool
  starts : List Int

/-- A call, a step of one, or time going by. A fetch ends with a key set or
fails. -/
inductive KeyAct (κ : Type) where
  | verify (kid : κ)
  | go (fetched : Option (List κ))
  | tick (clock : Int)

/-! ## Spacing -/

/-- Starts are an interval apart, and all of them before the last fetch
that has ended; `since` reads when that was. -/
structure Spaced {κ τ : Type} (interval : Int) (since : τ → Option Int) (s : KeyCache κ τ) :
    Prop where
  apart : s.starts.Pairwise fun later earlier => earlier + interval ≤ later
  past : ∀ t ∈ s.starts, t ≤ s.clock
  ended : s.refreshing = false → ∀ t ∈ s.starts, ∃ end' ∈ since s.fetchedAt, t ≤ end'

section Spacing

variable {κ τ : Type} {interval : Int} {since : τ → Option Int} {s : KeyCache κ τ}
  (h : Spaced interval since s)
include h

theorem Spaced.tick {clock : Int} (hle : s.clock ≤ clock) :
    Spaced interval since { s with clock := clock } :=
  { h with past := fun t ht => le_trans (h.past t ht) hle }

theorem Spaced.start (hidle : s.refreshing = false)
    (hlate : ∀ end' ∈ since s.fetchedAt, interval ≤ s.clock - end') :
    Spaced interval since { s with refreshing := true, starts := s.clock :: s.starts } where
  apart := by
    refine List.pairwise_cons.mpr ⟨fun t ht => ?_, h.apart⟩
    obtain ⟨end', hend, hle⟩ := h.ended hidle t ht
    have := hlate end' hend
    omega
  past := by
    intro t ht
    rcases List.mem_cons.mp ht with rfl | ht
    · exact le_rfl
    · exact h.past t ht
  ended := by simp

theorem Spaced.fetched {keys : List κ} {fetchedAt : τ} (hsince : since fetchedAt = some s.clock) :
    Spaced interval since
      { s with keys := keys, fetchedAt := fetchedAt, refreshing := false } :=
  { h with ended := fun _ t ht => ⟨s.clock, hsince, h.past t ht⟩ }

theorem Spaced.count_le_one {a b : Int} (hab : b - a < interval) :
    (s.starts.countP fun t => decide (a ≤ t ∧ t ≤ b)) ≤ 1 := by
  have hapart := h.apart
  generalize s.starts = starts at hapart
  induction starts with
  | nil => simp
  | cons t starts ih =>
    obtain ⟨hfirst, hrest⟩ := List.pairwise_cons.mp hapart
    rw [List.countP_cons]
    split
    · rename_i ht
      have hnone : (starts.countP fun t => decide (a ≤ t ∧ t ≤ b)) = 0 := by
        refine List.countP_eq_zero.mpr fun t' ht' hin => ?_
        have := hfirst t' ht'
        simp only [decide_eq_true_eq] at ht hin
        omega
      omega
    · exact ih hrest

end Spacing

variable {κ : Type} [DecidableEq κ] {clock interval : Int}

/-! ## The Rust verifier -/

/-- `Verifier::key`: the cached keys, then the check under the mutex, then
the fetch. -/
inductive RustKeyPc (κ : Type) where
  | idle
  | lookup (kid : κ)
  | locked (kid : κ)
  | fetch (kid : κ)
  | done (answer : KeyAnswer)

def rustKeyStep (interval : Int) (fetched : Option (List κ)) (s : KeyCache κ (Option Int)) :
    RustKeyPc κ → Option (KeyCache κ (Option Int) × RustKeyPc κ)
  | .lookup kid => some (s, if kid ∈ s.keys then .done .key else .locked kid)
  | .locked kid =>
    if s.refreshing then none
    else if kid ∈ s.keys then some (s, .done .key)
    else if s.fetchedAt.any fun at' => s.clock - at' < interval then some (s, .done .unknownKey)
    else some ({ s with refreshing := true, starts := s.clock :: s.starts }, .fetch kid)
  | .fetch kid =>
    match fetched with
    | none => some ({ s with refreshing := false }, .done .unavailable)
    | some keys =>
      some ({ s with keys := keys, fetchedAt := some s.clock, refreshing := false },
        .done (if kid ∈ keys then .key else .unknownKey))
  | _ => none

def rustKeyProgram (interval : Int) :
    Program (KeyCache κ (Option Int)) (RustKeyPc κ) (KeyAct κ) := fun _ a s pc =>
  match a with
  | .verify kid =>
    match pc with
    | .idle => some (s, .lookup kid)
    | _ => none
  | .go fetched => rustKeyStep interval fetched s pc
  | .tick clock => if s.clock ≤ clock then some ({ s with clock := clock }, pc) else none

def rustKeyInitial (clock : Int) : Conf (KeyCache κ (Option Int)) (RustKeyPc κ) where
  shared := ⟨clock, [], none, false, []⟩
  procs _ := .idle

/-- A fetch that ends succeeds. -/
def rustFetches : RustKeyPc κ → KeyAct κ → Bool
  | .fetch _, .go none => false
  | _, _ => true

theorem rustKey_spaced {c : Conf (KeyCache κ (Option Int)) (RustKeyPc κ)}
    (hrun : Steps (rustKeyProgram interval) (fun c i a => rustFetches (c.procs i) a)
      (rustKeyInitial clock) c) :
    Spaced interval id c.shared := by
  refine hrun.invariant (I := fun c => Spaced interval id c.shared) ?_
    ⟨.nil, by simp [rustKeyInitial], by simp [rustKeyInitial]⟩
  intro c i a s' pc' h hok hstep
  cases a with
  | verify kid =>
    simp only [rustKeyProgram] at hstep
    split at hstep <;> cases hstep
    exact h
  | tick clock =>
    simp only [rustKeyProgram] at hstep
    split at hstep <;> cases hstep
    exact h.tick ‹_›
  | go fetched =>
    simp only [rustKeyProgram, rustKeyStep] at hstep
    split at hstep
    · cases hstep
      exact h
    · split at hstep
      · cases hstep
      · rename_i hidle
        split at hstep
        · cases hstep
          exact h
        · split at hstep <;> cases hstep
          · exact h
          · rename_i hlate
            refine h.start (Bool.eq_false_iff.mpr hidle) fun end' hend => ?_
            rw [Option.mem_def, id] at hend
            simp only [hend, Option.any_some, decide_eq_true_eq] at hlate
            omega
    · rename_i hpc
      split at hstep
      · rw [hpc] at hok
        cases hok
      · cases hstep
        exact h.fetched rfl
    · cases hstep

/-! ## The JavaScript verifier -/

/-- With the outcomes of the fetches that have ended: whoever waits for the
promise of one learns it. -/
structure JsKeyCache (κ : Type) extends KeyCache κ Int where
  outcomes : List Bool

/-- `Verifier.#key`, which runs up to its `await`; the call that has started
the fetch stands for `#refresh` until it ends. -/
inductive JsKeyPc (κ : Type) where
  | idle
  | key (kid : κ)
  | refresh (kid : κ)
  | wait (kid : κ) (fetch : Nat)
  | done (answer : KeyAnswer)

def jsKeyStep (interval : Int) (fetched : Option (List κ)) (s : JsKeyCache κ) :
    JsKeyPc κ → Option (JsKeyCache κ × JsKeyPc κ)
  | .key kid =>
    if kid ∈ s.keys then some (s, .done .key)
    else if s.refreshing then some (s, .wait kid s.outcomes.length)
    else if s.fetchedAt ≠ 0 ∧ s.clock - s.fetchedAt < interval then some (s, .done .unknownKey)
    else some ({ s with refreshing := true, starts := s.clock :: s.starts }, .refresh kid)
  | .refresh kid =>
    match fetched with
    | none =>
      some ({ s with refreshing := false, outcomes := s.outcomes ++ [false] },
        .wait kid s.outcomes.length)
    | some keys =>
      some ({ s with
          keys := keys, fetchedAt := s.clock, refreshing := false
          outcomes := s.outcomes ++ [true] }, .wait kid s.outcomes.length)
  | .wait kid fetch =>
    match s.outcomes[fetch]? with
    | none => none
    | some false => some (s, .done .unavailable)
    | some true => some (s, .done (if kid ∈ s.keys then .key else .unknownKey))
  | _ => none

def jsKeyProgram (interval : Int) : Program (JsKeyCache κ) (JsKeyPc κ) (KeyAct κ) :=
  fun _ a s pc =>
  match a with
  | .verify kid =>
    match pc with
    | .idle => some (s, .key kid)
    | _ => none
  | .go fetched => jsKeyStep interval fetched s pc
  | .tick clock => if s.clock ≤ clock then some ({ s with clock := clock }, pc) else none

def jsKeyInitial (clock : Int) : Conf (JsKeyCache κ) (JsKeyPc κ) where
  shared := ⟨⟨clock, [], 0, false, []⟩, []⟩
  procs _ := .idle

/-- A fetch that ends succeeds, and not at the time that reads as never. -/
def jsFetches (clock : Int) : JsKeyPc κ → KeyAct κ → Bool
  | .refresh _, .go fetched => fetched.isSome && clock ≠ 0
  | _, _ => true

/-- 0 is falsy. -/
def jsSince (fetchedAt : Int) : Option Int := if fetchedAt = 0 then none else some fetchedAt

theorem jsKey_spaced {c : Conf (JsKeyCache κ) (JsKeyPc κ)}
    (hrun : Steps (jsKeyProgram interval) (fun c i a => jsFetches c.shared.clock (c.procs i) a)
      (jsKeyInitial clock) c) :
    Spaced interval jsSince c.shared.toKeyCache := by
  refine hrun.invariant (I := fun c => Spaced interval jsSince c.shared.toKeyCache) ?_
    ⟨.nil, by simp [jsKeyInitial], by simp [jsKeyInitial]⟩
  intro c i a s' pc' h hok hstep
  cases a with
  | verify kid =>
    simp only [jsKeyProgram] at hstep
    split at hstep <;> cases hstep
    exact h
  | tick clock =>
    simp only [jsKeyProgram] at hstep
    split at hstep <;> cases hstep
    exact h.tick ‹_›
  | go fetched =>
    simp only [jsKeyProgram, jsKeyStep] at hstep
    split at hstep
    · split at hstep
      · cases hstep
        exact h
      · split at hstep
        · cases hstep
          exact h
        · rename_i hidle
          split at hstep <;> cases hstep
          · exact h
          · rename_i hlate
            refine h.start (Bool.eq_false_iff.mpr hidle) fun end' hend => ?_
            simp only [jsSince, Option.mem_def] at hend
            split at hend <;> cases hend
            omega
    · rename_i hpc
      rw [hpc] at hok
      split at hstep
      · cases hok
      · cases hstep
        refine h.fetched (if_neg ?_)
        simpa [jsFetches] using hok
    · split at hstep <;> cases hstep
      · exact h
      · exact h
    · cases hstep

/-! ## At most one fetch -/

/-- **Fetches for unknown keys.** Where every fetch succeeds, and in
JavaScript not at the clock reading 0, no period shorter than the interval
has two of them. -/
theorem one_fetch_per_interval (interval : Int) :
    (∀ clock (c : Conf (KeyCache κ (Option Int)) (RustKeyPc κ)),
      Steps (rustKeyProgram interval) (fun c i a => rustFetches (c.procs i) a)
      (rustKeyInitial clock) c →
      ∀ a b, b - a < interval →
        (c.shared.starts.countP fun t => decide (a ≤ t ∧ t ≤ b)) ≤ 1) ∧
    (∀ clock (c : Conf (JsKeyCache κ) (JsKeyPc κ)),
      Steps (jsKeyProgram interval)
      (fun c i a => jsFetches c.shared.clock (c.procs i) a) (jsKeyInitial clock) c →
      ∀ a b, b - a < interval →
        (c.shared.starts.countP fun t => decide (a ≤ t ∧ t ≤ b)) ≤ 1) :=
  ⟨fun _ _ hrun _ _ hab => (rustKey_spaced hrun).count_le_one hab,
    fun _ _ hrun _ _ hab => (jsKey_spaced hrun).count_le_one hab⟩

/-- Two calls name one unknown key; the second learns what the first has
fetched. -/
theorem fetched_once_for_two_calls :
    (∃ c : Conf (KeyCache Nat _) _, Steps (rustKeyProgram 60)
        (fun c i a => rustFetches (c.procs i) a) (rustKeyInitial 100) c ∧
      c.shared.starts = [100] ∧
      (c.shared.starts.countP fun t => decide (100 ≤ t ∧ t ≤ 159)) ≤ 1) ∧
    ∃ c : Conf (JsKeyCache Nat) _, Steps (jsKeyProgram 60)
        (fun c i a => jsFetches c.shared.clock (c.procs i) a) (jsKeyInitial 100) c ∧
      c.shared.starts = [100] ∧
      (c.shared.starts.countP fun t => decide (100 ≤ t ∧ t ≤ 159)) ≤ 1 := by
  obtain ⟨c, hexec, hstarts⟩ : ∃ c ∈ exec (rustKeyProgram (κ := Nat) 60)
      (fun c i a => rustFetches (c.procs i) a) (rustKeyInitial 100)
      [(0, .verify 5), (1, .verify 5), (0, .go none), (1, .go none), (0, .go none),
        (0, .tick 103), (0, .go (some [5])), (1, .go none)],
      c.shared.starts = [100] := by decide +kernel
  obtain ⟨c', hexec', hstarts'⟩ : ∃ c ∈ exec (jsKeyProgram (κ := Nat) 60)
      (fun c i a => jsFetches c.shared.clock (c.procs i) a) (jsKeyInitial 100)
      [(0, .verify 5), (1, .verify 5), (0, .go none), (1, .go none), (0, .tick 103),
        (0, .go (some [5])), (1, .go none)],
      c.shared.starts = [100] := by decide +kernel
  have hrun := steps_of_exec hexec
  have hrun' := steps_of_exec hexec'
  have hone := one_fetch_per_interval (κ := Nat) 60
  exact ⟨⟨c, hrun, hstarts, hone.1 100 c hrun 100 159 (by decide)⟩,
    ⟨c', hrun', hstarts', hone.2 100 c' hrun' 100 159 (by decide)⟩⟩

/-- A fetch fails, and the next call fetches at the same instant. -/
theorem fetched_again_after_failure :
    (∃ c : Conf (KeyCache Nat _) _, Steps (rustKeyProgram 60) Free (rustKeyInitial 100) c ∧
      c.shared.starts = [100, 100]) ∧
    ∃ c : Conf (JsKeyCache Nat) _, Steps (jsKeyProgram 60) Free (jsKeyInitial 100) c ∧
      c.shared.starts = [100, 100] := by
  constructor
  · exact exists_steps [(0, .verify 5), (0, .go none), (0, .go none), (0, .go none),
      (1, .verify 5), (1, .go none), (1, .go none)] (by decide +kernel)
  · exact exists_steps [(0, .verify 5), (0, .go none), (0, .go none), (1, .verify 5),
      (1, .go none)] (by decide +kernel)

end AuthApi
