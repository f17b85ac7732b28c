import AuthApi.AdministrationInvariant

/-!
# Somebody can always manage roles

An operation that could take `roles:manage` from the last active account
that has it looks for another one before it commits, under the advisory
lock, so no two of them look at once, and one remains
(`administrator_remains`). What the others do meanwhile takes nothing
from an account that manages roles. `suspend` and `erase_account` skip
the check for an account they have found not to manage roles; it cannot
begin to while they hold its lock.
-/

namespace AuthApi

open Conc

section Commit

variable {i : Nat} {s s' : AdminState} {op : AdminOp} {careful : Bool}

/-- The account that was found manages roles when the transaction has
committed. -/
theorem GuardPassed.managed (h : GuardPassed i s) : (s.seenBy i).Managed := by
  obtain ⟨u, r, hm⟩ := h.manager
  obtain ⟨row, hrow, hstatus⟩ := hm.active
  obtain ⟨grant, hgrant, hheld⟩ := hm.held
  refine ⟨u, ⟨row, (Pg.Db.view_of_unwritten hm.unchanged).trans hrow, hstatus⟩, r, ?_, hm.grants⟩
  exact ⟨grant, (Pg.Db.view_of_unwritten hm.kept).trans hgrant, hheld⟩

theorem managed_commit (hwrites : op.Writes i s) (hset : op.Settling i s careful)
    (h : s.tables.Managed) : (s.seenBy i).Managed := by
  by_cases hguarded : GuardPassed i s
  · exact hguarded.managed
  -- Nobody has looked: the account that manages roles is not touched.
  obtain ⟨u, hactive, r, hheld, hgrants⟩ := h
  have hhas : s.tables.Has u rolesManage := ⟨r, hheld, hgrants⟩
  refine ⟨u, ?_, r, ?_, (commit_losesPermission hwrites hset hgrants).resolve_right hguarded⟩
  · refine (commit_losesStatus hwrites hset hactive).resolve_right ?_
    rintro (hg | ⟨-, hnot⟩)
    · exact hguarded hg
    · exact hnot hhas
  · refine (commit_losesRole hwrites hset hheld).resolve_right ?_
    rintro (hg | ⟨-, hnot⟩)
    · exact hguarded hg
    · exact hnot hhas

theorem managed_step (h : s.tables.Managed) (hc : AdminCommits careful i s s') :
    s'.tables.Managed := by
  cases hc with
  | nothing hsame => exact hsame ▸ h
  | op op hwrites hset hseen => exact hseen ▸ managed_commit hwrites hset h

end Commit

/-- **However the operations interleave**, an active account can manage
roles in every state that is reached, if one could at the start. -/
theorem administrator_remains {c c' : AdminConf} (hrest : c.AtRest)
    (hmanaged : c.shared.tables.Managed) (hrun : Steps adminProgram Free c c') :
    c'.shared.tables.Managed := by
  have hrun' : Steps adminProgram (SteadyIf false) c c' :=
    hrun.mono fun _ _ _ _ hcareful => nomatch hcareful
  suffices hinv : AdminHolds false c' ∧ c'.shared.tables.Managed from hinv.2
  refine hrun'.invariant (I := fun c => AdminHolds false c ∧ c.shared.tables.Managed)
    (fun c i a s pc hc hok hprog => ?_) ⟨hrest.holds false, hmanaged⟩
  have hkeeps := adminProgram_keeps hc.1.shared (hc.1.procs i) hok hprog
  exact ⟨adminHolds_step hc.1 hok hprog, managed_step hc.2 hkeeps.commits⟩

/-- Two administrators, each about to take the other's place away. -/
def twoAdministrators : AdminConf :=
  adminInitial [⟨1, "a@x.y", .active, false⟩, ⟨2, "b@x.y", .active, false⟩]
    [⟨10, "admin", false, [rolesManage], false⟩] [⟨1, 10, true⟩, ⟨2, 10, true⟩] []

def eachOther : List (Nat × AdminAct) :=
  [(0, .start (.unassign 1 2 "admin")), (1, .start (.suspend 2 1)), (0, .go {}), (1, .go {}),
    (0, .go {}), (0, .go {}), (0, .go {}), (0, .go {}), (1, .go {}), (1, .go {}), (0, .go {}),
    (0, .go {}), (0, .go {}), (0, .go {}), (1, .go {}), (1, .go {})]

theorem second_withdrawal_refused :
    twoAdministrators.AtRest ∧ twoAdministrators.shared.tables.Managed ∧
      ∃ c, Steps adminProgram Free twoAdministrators c ∧ c.procs 0 = .done (.ok ()) ∧
        c.procs 1 = .done (.error (.app (.conflict "last_administrator"))) ∧
        c.shared.tables.Managed := by
  have hmanaged : twoAdministrators.shared.tables.Managed := by
    have hseen : twoAdministrators.shared.seenBy 0 = twoAdministrators.shared.tables :=
      (adminInitial_atRest.holds false).seenBy rfl
    exact hseen ▸ managed_iff.mp (by decide +kernel)
  obtain ⟨c, hexec, hfirst, hsecond⟩ : ∃ c ∈ exec adminProgram Free twoAdministrators eachOther,
      c.procs 0 = .done (.ok ()) ∧ c.procs 1 = .done
      (.error (.app (.conflict "last_administrator"))) := by
    decide +kernel
  have hsteps := steps_of_exec hexec
  exact ⟨adminInitial_atRest, hmanaged, c, hsteps, hfirst, hsecond,
    administrator_remains adminInitial_atRest hmanaged hsteps⟩

end AuthApi
