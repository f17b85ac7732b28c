import Mathlib.Logic.Relation
import Mathlib.Logic.Function.Basic

/-!
# Interleaved processes over a shared state

Any number of processes, each with a local state, take atomic steps on
one shared state. What process `i` may do is a partial function (a
`Program`): `none` means that the step is not enabled, because the
process waits or because the action is not one it can take there.

A run may be restricted by a condition on its steps (`ok`), which is how
a result that needs a scheduling assumption is stated: the assumption is
part of the run, not of the program. Facts about every state reached are
proved by induction (`Steps.invariant`). `Holds.step` splits the step of
such an induction into a shared part, a part local to each process and a
guarantee every step keeps towards the others: the local part of one
process has to be checked only against its own steps and against the
guarantee, never against the steps of the others one by one.
`Steps.simulate` carries runs over from one program to another, and
`Once.step` is the step of a proof that nothing is used twice.
-/

namespace Conc

/-- The shared state and the local state of every process. -/
structure Conf (σ π : Type) where
  shared : σ
  procs : Nat → π

/-- What the step `a` of process `i` does. -/
abbrev Program (σ π α : Type) := Nat → α → σ → π → Option (σ × π)

variable {σ π α κ : Type} {i j : Nat} {c c' : Conf σ π} {p : π} {s : σ} {I : Conf σ π → Prop}
  {L : Nat → σ → π → Prop} {a : α} {holds : π → Option κ} {spent : κ → Prop}

def Conf.set (c : Conf σ π) (i : Nat) (s : σ) (p : π) : Conf σ π :=
  ⟨s, Function.update c.procs i p⟩

@[simp] theorem Conf.set_shared (c : Conf σ π) (i : Nat) (s : σ) (p : π) :
    (c.set i s p).shared = s := rfl

@[simp] theorem Conf.set_procs_self (c : Conf σ π) (i : Nat) (s : σ) (p : π) :
    (c.set i s p).procs i = p := by
  simp [Conf.set]

theorem Conf.set_procs_of_ne (c : Conf σ π) (s : σ) (p : π) (h : j ≠ i) :
    (c.set i s p).procs j = c.procs j := by
  simp [Conf.set, h]

/-- A process is the one that has moved, or is as it was. -/
theorem Conf.set_procs_eq {q : π} (h : (c.set i s p).procs j = q) :
    j = i ∧ p = q ∨ j ≠ i ∧ c.procs j = q := by
  by_cases hji : j = i
  · subst hji
    exact .inl ⟨rfl, c.set_procs_self j s p ▸ h⟩
  · exact .inr ⟨hji, c.set_procs_of_ne s p hji ▸ h⟩

theorem Conf.procs_cases (c : Conf σ π) (i : Nat) (s : σ) (p : π) (j : Nat) :
    j = i ∧ (c.set i s p).procs j = p ∨ j ≠ i ∧ (c.set i s p).procs j = c.procs j := by
  by_cases hji : j = i
  · subst hji
    exact .inl ⟨rfl, c.set_procs_self j s p⟩
  · exact .inr ⟨hji, c.set_procs_of_ne s p hji⟩

/-- What is to be shown of a process after a step: of the one that has taken
it, and of each of the others. -/
@[elab_as_elim]
theorem Conf.set_cases {motive : Nat → π → Prop} (j : Nat) (self : motive i p)
    (others : ∀ j, j ≠ i → motive j (c.procs j)) : motive j ((c.set i s p).procs j) := by
  by_cases hji : j = i
  · subst hji
    rwa [set_procs_self]
  · rw [set_procs_of_ne _ _ _ hji]
    exact others j hji

variable {prog : Program σ π α} {ok ok' : Conf σ π → Nat → α → Prop}

/-- One step, by any process, that meets the condition `ok`. -/
inductive Step (prog : Program σ π α) (ok : Conf σ π → Nat → α → Prop) :
    Conf σ π → Conf σ π → Prop
  | mk {c : Conf σ π} {i : Nat} {a : α} {s : σ} {p : π}
      (hok : ok c i a) (h : prog i a c.shared (c.procs i) = some (s, p)) :
      Step prog ok c (c.set i s p)

/-- Runs all of whose steps meet the condition `ok`. -/
def Steps (prog : Program σ π α) (ok : Conf σ π → Nat → α → Prop) :
    Conf σ π → Conf σ π → Prop :=
  Relation.ReflTransGen (Step prog ok)

/-- No condition on the steps. -/
def Free : Conf σ π → Nat → α → Prop := fun _ _ _ => True

instance (c : Conf σ π) (i : Nat) (a : α) : Decidable (Free c i a) :=
  inferInstanceAs (Decidable True)

theorem Steps.mono (hle : ∀ c i a, ok c i a → ok' c i a) (h : Steps prog ok c c') :
    Steps prog ok' c c' := by
  refine Relation.ReflTransGen.mono ?_ _ _ h
  rintro _ _ ⟨hok, hstep⟩
  exact .mk (hle _ _ _ hok) hstep

theorem Steps.free (h : Steps prog ok c c') : Steps prog Free c c' :=
  h.mono fun _ _ _ _ => trivial

theorem Steps.trans {c₁ c₂ c₃ : Conf σ π} (h₁ : Steps prog ok c₁ c₂)
    (h₂ : Steps prog ok c₂ c₃) : Steps prog ok c₁ c₃ :=
  Relation.ReflTransGen.trans h₁ h₂

section

variable
  (hstep : ∀ c i a s p, I c → ok c i a → prog i a c.shared (c.procs i) = some (s, p) →
    I (c.set i s p))
include hstep

/-- What holds at the start and is kept by every step holds in every
configuration reached. -/
theorem Steps.invariant (h : Steps prog ok c c') (h₀ : I c) : I c' := by
  induction h with
  | refl => exact h₀
  | tail _ hs ih =>
    obtain ⟨hok, hprog⟩ := hs
    exact hstep _ _ _ _ _ ih hok hprog

/-- A condition that follows from another where an invariant holds. -/
theorem Steps.strengthen (himp : ∀ c i a, I c → ok c i a → ok' c i a) (h : Steps prog ok c c')
    (h₀ : I c) : Steps prog ok' c c' := by
  induction h with
  | refl => exact .refl
  | tail hrun hs ih =>
    obtain ⟨hok, hprog⟩ := hs
    exact ih.tail (.mk (himp _ _ _ (Steps.invariant hstep hrun h₀) hok) hprog)

end

/-- A configuration in which the shared part `I` and every local part `L`
hold. -/
structure Holds (I : σ → Prop) (L : Nat → σ → π → Prop) (c : Conf σ π) : Prop where
  shared : I c.shared
  procs : ∀ i, L i c.shared (c.procs i)

theorem Holds.set {I : σ → Prop} (hI : I s) (hL : L i s p)
    (hothers : ∀ j, j ≠ i → L j s (c.procs j)) : Holds I L (c.set i s p) := by
  refine ⟨hI, fun j => ?_⟩
  by_cases hji : j = i
  · subst hji
    rw [Conf.set_procs_self]
    exact hL
  · rw [Conf.set_procs_of_ne _ _ _ hji]
    exact hothers j hji

/-- The rely–guarantee rule: each step keeps the shared part and the
local part of the process that takes it and meets its guarantee `G`, and
the guarantee of one process keeps the local parts of the others. -/
theorem Holds.step {I : σ → Prop} {G : Nat → σ → σ → Prop}
    (hlocal : ∀ i a s p s' p', I s → L i s p → prog i a s p = some (s', p') → I s' ∧ L i s' p' ∧
      G i s s')
    (hstable : ∀ i j s s' p, j ≠ i → I s → L j s p → G i s s' → L j s' p) (h : Holds I L c)
    (hprog : prog i a c.shared (c.procs i) = some (s, p)) : Holds I L (c.set i s p) := by
  obtain ⟨hI, hL, hG⟩ := hlocal i a _ _ _ _ h.shared (h.procs i) hprog
  exact .set hI hL fun j hji => hstable i j _ _ _ hji h.shared (h.procs j) hG

/-- If every step of one program is matched by a run of another, so is
every run. -/
theorem Steps.simulate {σ' π' α' : Type} {prog' : Program σ' π' α'}
    {ok' : Conf σ' π' → Nat → α' → Prop} {f : Conf σ π → Conf σ' π'} (h : Steps prog ok c c')
    (hstep : ∀ c i a s p, ok c i a → prog i a c.shared (c.procs i) = some (s, p) →
      Steps prog' ok' (f c) (f (c.set i s p))) :
    Steps prog' ok' (f c) (f c') := by
  induction h with
  | refl => exact .refl
  | tail _ hs ih =>
    obtain ⟨hok, hprog⟩ := hs
    exact ih.trans (hstep _ _ _ _ _ hok hprog)

/-! ## Running a schedule -/

instance decidableExistsSome {o : Option α} {P : α → Prop} [DecidablePred P] :
    Decidable (∃ x, o = some x ∧ P x) :=
  inferInstanceAs (Decidable (∃ x ∈ o, P x))

/-- The configuration a schedule leads to, if every step is enabled and
meets the condition. -/
def exec (prog : Program σ π α) (ok : Conf σ π → Nat → α → Prop)
    [∀ c i a, Decidable (ok c i a)] : Conf σ π → List (Nat × α) → Option (Conf σ π)
  | c, [] => some c
  | c, (i, a) :: rest =>
    if ok c i a then
      match prog i a c.shared (c.procs i) with
      | some (s, p) => exec prog ok (c.set i s p) rest
      | none => none
    else none

theorem steps_of_exec [∀ c i a, Decidable (ok c i a)] :
    ∀ {schedule : List (Nat × α)} {c c' : Conf σ π},
      exec prog ok c schedule = some c' → Steps prog ok c c'
  | [], c, c', h => by
      cases h
      exact .refl
  | (i, a) :: rest, c, c', h => by
      simp only [exec] at h
      split at h
      · rename_i hok
        split at h
        · rename_i s p hprog
          exact Relation.ReflTransGen.head (.mk hok hprog) (steps_of_exec h)
        · cases h
      · cases h

theorem exists_steps [∀ c i a, Decidable (ok c i a)] {P : Conf σ π → Prop}
    (schedule : List (Nat × α)) (h : ∃ c' ∈ exec prog ok c schedule, P c') :
    ∃ c', Steps prog ok c c' ∧ P c' := by
  obtain ⟨c', hexec, hP⟩ := h
  exact ⟨c', steps_of_exec hexec, hP⟩

theorem exec_one [∀ c i a, Decidable (ok c i a)] (h : exec prog ok c [(i, a)] = some c') :
    ∃ s p, prog i a c.shared (c.procs i) = some (s, p) ∧ c' = c.set i s p := by
  simp only [exec] at h
  split at h
  · split at h <;> cases h
    exact ⟨_, _, ‹_›, rfl⟩
  · cases h

theorem exec_procs [∀ c i a, Decidable (ok c i a)] :
    ∀ {schedule : List (Nat × α)} {c c' : Conf σ π},
      exec prog ok c schedule = some c' → j ∉ schedule.map Prod.fst → c'.procs j = c.procs j
  | [], c, c', h, _ => by
      cases h
      rfl
  | (i, a) :: rest, c, c', h, hj => by
      simp only [List.map_cons, List.mem_cons, not_or] at hj
      simp only [exec] at h
      split at h
      · split at h
        · rw [exec_procs h hj.2, Conf.set_procs_of_ne _ _ _ hj.1]
        · cases h
      · cases h

/-! ### Runs of finitely many processes -/

/-- A condition with a part on every process, checked for the processes
below `n` only, which are those that take steps. -/
def Below (n : Nat) (own : Conf σ π → Nat → α → Prop)
    (other : Conf σ π → Nat → α → Nat → Prop) (c : Conf σ π) (i : Nat) (a : α) : Prop :=
  i < n ∧ own c i a ∧ ∀ j < n, other c i a j

instance {n : Nat} {own : Conf σ π → Nat → α → Prop} {other : Conf σ π → Nat → α → Nat → Prop}
    [∀ c i a, Decidable (own c i a)] [∀ c i a j, Decidable (other c i a j)] (c : Conf σ π)
    (i : Nat) (a : α) : Decidable (Below n own other c i a) :=
  inferInstanceAs (Decidable (_ ∧ _ ∧ _))

/-- The others stay as they are, and of a process like that the condition
holds. -/
theorem Steps.of_below {n : Nat} {own : Conf σ π → Nat → α → Prop}
    {other : Conf σ π → Nat → α → Nat → Prop} {Q : π → Prop}
    (hother : ∀ c i a j, Q (c.procs j) → other c i a j) (h : Steps prog (Below n own other) c c')
    (hidle : ∀ j, n ≤ j → Q (c.procs j)) :
    Steps prog (fun c i a => own c i a ∧ ∀ j, other c i a j) c c' := by
  refine h.strengthen (I := fun c => ∀ j, n ≤ j → Q (c.procs j)) ?_ ?_ hidle
  · intro c i a s p hc hok _ j hj
    have hji : j ≠ i := fun heq => absurd hok.1 (by omega)
    rw [Conf.set_procs_of_ne _ _ _ hji]
    exact hc j hj
  · intro c i a hc hok
    refine ⟨hok.2.1, fun j => ?_⟩
    by_cases hj : j < n
    · exact hok.2.2 j hj
    · exact hother c i a j (hc j (by omega))

/-! ## What can be used once -/

/-- Things of which each is used at most once: `spent` ones are no longer
to be had, a process may hold one it has had (`holds`), and uses it up
later. -/
structure Once {κ : Type} (spent : κ → Prop) (holds : π → Option κ) (used : List κ)
    (procs : Nat → π) : Prop where
  apart : ∀ i j k, holds (procs i) = some k → holds (procs j) = some k → i = j
  unused : ∀ i k, holds (procs i) = some k → k ∉ used
  held : ∀ i k, holds (procs i) = some k → spent k
  gone : ∀ k ∈ used, spent k
  nodup : used.Nodup

/-- What a step does with the thing its process holds. -/
inductive Handled {κ : Type} (spent spent' : κ → Prop) (held : Option κ) (used : List κ) :
    Option κ → List κ → Prop
  | keeps : Handled spent spent' held used held used
  | drops : Handled spent spent' held used none used
  | takes {k : κ} (hfree : ¬ spent k) (hspent : spent' k) :
      Handled spent spent' held used (some k) used
  | uses {k : κ} (h : held = some k) : Handled spent spent' held used none (k :: used)

theorem Once.empty {procs : Nat → π} (h : ∀ i, holds (procs i) = none) :
    Once spent holds [] procs where
  apart i _ _ hi := nomatch (h i).symm.trans hi
  unused i _ hi := nomatch (h i).symm.trans hi
  held i _ hi := nomatch (h i).symm.trans hi
  gone _ hk := nomatch hk
  nodup := .nil

/-- The others hold what they have held, which is not what was taken. -/
theorem Once.step {spent' : κ → Prop} {used used' : List κ} (h : Once spent holds used c.procs)
    (hgrows : ∀ k, spent k → spent' k)
    (hown : Handled spent spent' (holds (c.procs i)) used (holds p) used') :
    Once spent' holds used' (c.set i s p).procs := by
  -- What process `j` holds now it has held before, or `i` has just taken it.
  have hfrom : ∀ j k, holds ((c.set i s p).procs j) = some k →
      holds (c.procs j) = some k ∨ j = i ∧ ¬ spent k ∧ spent' k ∧ used' = used := by
    intro j k hj
    by_cases hji : j = i
    · subst hji
      rw [Conf.set_procs_self] at hj
      rw [hj] at hown
      generalize hheld : holds (c.procs j) = held at hown
      cases hown with
      | keeps => exact .inl rfl
      | takes hfree hspent => exact .inr ⟨rfl, hfree, hspent, rfl⟩
    · rw [Conf.set_procs_of_ne _ _ _ hji] at hj
      exact .inl hj
  have hused : used' = used ∨ ∃ k, holds (c.procs i) = some k ∧ holds p = none ∧
      used' = k :: used := by
    generalize hheld : holds p = held at hown
    cases hown with
    | uses hk => exact .inr ⟨_, hk, rfl, rfl⟩
    | _ => exact .inl rfl
  refine ⟨fun j j' k hj hj' => ?_, fun j k hj hmem => ?_, fun j k hj => ?_, fun k hmem => ?_, ?_⟩
  · rcases hfrom j k hj with hold | ⟨rfl, hfree, -⟩ <;>
      rcases hfrom j' k hj' with hold' | ⟨rfl, hfree', -⟩
    · exact h.apart j j' k hold hold'
    · exact absurd (h.held j k hold) hfree'
    · exact absurd (h.held j' k hold') hfree
    · rfl
  · rcases hfrom j k hj with hold | ⟨rfl, hfree, -, heq⟩
    · rcases hused with heq | ⟨k', hk', hnone, heq⟩
      · exact h.unused j k hold (heq ▸ hmem)
      · rw [heq] at hmem
        rcases List.mem_cons.mp hmem with rfl | hmem
        · obtain rfl := h.apart j i k hold hk'
          rw [Conf.set_procs_self, hnone] at hj
          cases hj
        · exact h.unused j k hold hmem
    · exact hfree (h.gone k (heq ▸ hmem))
  · rcases hfrom j k hj with hold | ⟨rfl, -, hspent, -⟩
    · exact hgrows k (h.held j k hold)
    · exact hspent
  · rcases hused with rfl | ⟨k', hk', -, rfl⟩
    · exact hgrows k (h.gone k hmem)
    · rcases List.mem_cons.mp hmem with rfl | hmem
      · exact hgrows k (h.held i k hk')
      · exact hgrows k (h.gone k hmem)
  · rcases hused with rfl | ⟨k', hk', -, rfl⟩
    · exact h.nodup
    · exact List.nodup_cons.mpr ⟨h.unused i k' hk', h.nodup⟩

end Conc
