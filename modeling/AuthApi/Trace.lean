import AuthApi.Conc

/-!
# Runs with their past

A property may speak of what happened on the way: that a step is preceded
by another, or what a process was asked to do. `Traced` is a run together
with its steps, each with the states before and after it (`Event`).

Facts about the events are proved by induction, as facts about the
configurations are (`Traced.invariant`).
-/

namespace Conc

/-- A step that was taken: by whom, and what it did. -/
structure Event (σ π α : Type) where
  proc : Nat
  act : α
  shared : σ
  self : π
  shared' : σ
  self' : π

variable {σ π α : Type} {prog : Program σ π α} {ok ok' : Conf σ π → Nat → α → Prop}
  {c' c₀ : Conf σ π} {events' : List (Event σ π α)}

/-- The runs from `c₀` with their events, the last one first. -/
inductive Traced (prog : Program σ π α) (ok : Conf σ π → Nat → α → Prop) (c₀ : Conf σ π) :
    List (Event σ π α) → Conf σ π → Prop
  | refl : Traced prog ok c₀ [] c₀
  | tail {events : List (Event σ π α)} {c : Conf σ π} {i : Nat} {a : α} {s : σ} {p : π}
      (hrun : Traced prog ok c₀ events c) (hok : ok c i a)
      (h : prog i a c.shared (c.procs i) = some (s, p)) :
      Traced prog ok c₀ (⟨i, a, c.shared, c.procs i, s, p⟩ :: events) (c.set i s p)

section Runs

variable {c₀ c : Conf σ π} {events : List (Event σ π α)}

theorem Traced.mono (hle : ∀ c i a, ok c i a → ok' c i a) (h : Traced prog ok c₀ events c) :
    Traced prog ok' c₀ events c := by
  induction h with
  | refl => exact .refl
  | tail _ hok hprog ih => exact ih.tail (hle _ _ _ hok) hprog

/-- What holds at the start and is kept by every step holds of every run
and its events. -/
theorem Traced.invariant {I : List (Event σ π α) → Conf σ π → Prop}
    (hstep : ∀ events c i a s p, I events c → ok c i a →
      prog i a c.shared (c.procs i) = some (s, p) →
      I (⟨i, a, c.shared, c.procs i, s, p⟩ :: events) (c.set i s p))
    (h : Traced prog ok c₀ events c) (h₀ : I [] c₀) : I events c := by
  induction h with
  | refl => exact h₀
  | tail _ hok hprog ih => exact hstep _ _ _ _ _ _ ih hok hprog

/-- An event is a step from what its past leads to. -/
theorem Traced.event (h : Traced prog ok c₀ events c) {e : Event σ π α}
    {past : List (Event σ π α)} (he : e :: past <:+ events) :
    ∃ c', Traced prog ok c₀ past c' ∧ ok c' e.proc e.act ∧
      prog e.proc e.act c'.shared (c'.procs e.proc) = some (e.shared', e.self') ∧
      e = ⟨e.proc, e.act, c'.shared, c'.procs e.proc, e.shared', e.self'⟩ := by
  induction h with
  | refl => cases List.suffix_nil.mp he
  | @tail events c i a s p hrun hok hprog ih =>
    rcases List.suffix_cons_iff.mp he with heq | he
    · cases heq
      exact ⟨c, hrun, hok, hprog, rfl⟩
    · exact ih he

theorem Traced.procs_of_absent {j : Nat} (h : Traced prog ok c₀ events c)
    (habsent : ∀ e ∈ events, e.proc ≠ j) : c.procs j = c₀.procs j := by
  induction h with
  | refl => rfl
  | tail _ _ _ ih =>
    rw [List.forall_mem_cons] at habsent
    rw [Conf.set_procs_of_ne _ _ _ (Ne.symm habsent.1)]
    exact ih habsent.2

/-- The condition of a run with a part on every process, checked for the
processes below `n`: the others stay as they are. -/
theorem Traced.of_below {n : Nat} {own : Conf σ π → Nat → α → Prop}
    {other : Conf σ π → Nat → α → Nat → Prop} {Q : π → Prop}
    (hother : ∀ c i a j, Q (c.procs j) → other c i a j)
    (h : Traced prog (Below n own other) c₀ events c) (hidle : ∀ j, n ≤ j → Q (c₀.procs j)) :
    Traced prog (fun c i a => own c i a ∧ ∀ j, other c i a j) c₀ events c := by
  suffices Traced prog (fun c i a => own c i a ∧ ∀ j, other c i a j) c₀ events c ∧
      ∀ j, n ≤ j → Q (c.procs j) from this.1
  induction h with
  | refl => exact ⟨.refl, hidle⟩
  | @tail events c i a s p _ hok hprog ih =>
    obtain ⟨hrun, hQ⟩ := ih
    obtain ⟨hi, hown, hbelow⟩ := hok
    refine ⟨hrun.tail ⟨hown, fun j => ?_⟩ hprog, fun j hj => ?_⟩
    · by_cases hj : j < n
      · exact hbelow j hj
      · exact hother c i a j (hQ j (by omega))
    · rw [Conf.set_procs_of_ne _ _ _ (show j ≠ i by omega)]
      exact hQ j hj

end Runs

/-! ## Schedules -/

/-- The run a schedule leads to, with its events. -/
def record (prog : Program σ π α) (ok : Conf σ π → Nat → α → Prop)
    [∀ c i a, Decidable (ok c i a)] (events : List (Event σ π α)) :
    Conf σ π → List (Nat × α) → Option (List (Event σ π α) × Conf σ π)
  | c, [] => some (events, c)
  | c, (i, a) :: rest =>
    if ok c i a then
      match prog i a c.shared (c.procs i) with
      | some (s, p) =>
        record prog ok (⟨i, a, c.shared, c.procs i, s, p⟩ :: events) (c.set i s p) rest
      | none => none
    else none

/-- A run is continued by a schedule whose steps all meet a condition that
is stronger than that of the run. -/
theorem Traced.record_of [∀ c i a, Decidable (ok' c i a)] (hmono : ∀ c i a, ok' c i a → ok c i a) :
    ∀ {schedule : List (Nat × α)} {events : List (Event σ π α)} {c : Conf σ π},
      Traced prog ok c₀ events c →
      Conc.record prog ok' events c schedule = some (events', c') → Traced prog ok c₀ events' c'
  | [], events, c, hrun, h => by
      cases h
      exact hrun
  | (i, a) :: rest, events, c, hrun, h => by
      simp only [Conc.record] at h
      split at h
      · rename_i hok
        split at h
        · rename_i hprog
          exact (hrun.tail (hmono _ _ _ hok) hprog).record_of hmono h
        · cases h
      · cases h

theorem Traced.record [∀ c i a, Decidable (ok c i a)] {c : Conf σ π} {events : List (Event σ π α)}
    {schedule : List (Nat × α)} (hrun : Traced prog ok c₀ events c)
    (h : Conc.record prog ok events c schedule = some (events', c')) :
    Traced prog ok c₀ events' c' :=
  hrun.record_of (fun _ _ _ hok => hok) h

end Conc
