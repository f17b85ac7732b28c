import AuthApi.FactorSteps

/-!
# The table of methods

What one step can do to `two_factor_methods` (`MethodEffect`), whichever
request takes it, and what follows in every state: a transaction only
changes who is primary and what is deleted (`Follows`), and
`idx_2fa_user_primary` holds. A committed row changes in three ways, which
`Evolves` lists.
-/

namespace AuthApi

open Conc Pg.Db

/-! ## Versions of a row -/

namespace MethodRow

variable {r r' r'' : MethodRow} {now : Int} {userId : Uuid}

theorem update_eq_some {m : TwoFactorMethod} (h : r.update m = some r') :
    r'.val = m ∧ r'.deleted = r.deleted ∧ r'.verifiedAt = r.verifiedAt := by
  unfold update at h
  split_ifs at h
  cases h
  exact ⟨rfl, rfl, rfl⟩

/-- A version that a transaction may write over `r`. -/
structure Follows (r r' : MethodRow) : Prop where
  val : r'.val = { r.val with isPrimary := r'.val.isPrimary }
  deleted : r.deleted = true → r'.deleted = true
  verifiedAt : r'.verifiedAt = r.verifiedAt

theorem Follows.refl (r : MethodRow) : r.Follows r := ⟨rfl, id, rfl⟩

theorem Follows.trans (h : r.Follows r') (h' : r'.Follows r'') : r.Follows r'' where
  val := by
    rw [h'.val, h.val]
  deleted hd := h'.deleted (h.deleted hd)
  verifiedAt := h'.verifiedAt.trans h.verifiedAt

theorem follows_of_setPrimary {b : Bool} (h : r.setPrimary b = some r') :
    r.Follows r' ∧ r'.val.isPrimary = b ∧ r'.deleted = r.deleted := by
  obtain ⟨hval, hdeleted, hat⟩ := update_eq_some h
  exact ⟨⟨by rw [hval], fun hd => hdeleted.trans hd, hat⟩, by rw [hval], hdeleted⟩

theorem follows_of_delete (h : r.delete = some r') :
    r.Follows r' ∧ r'.val = r.val ∧ r'.deleted = true := by
  cases h
  exact ⟨⟨rfl, fun _ => rfl, rfl⟩, rfl, rfl⟩

section Fields

variable (h : r.Follows r')
include h

theorem Follows.id_eq : r'.val.id = r.val.id := by rw [h.val]

theorem Follows.userId_eq : r'.val.userId = r.val.userId := by rw [h.val]

theorem Follows.createdAt_eq : r'.val.createdAt = r.val.createdAt := by rw [h.val]

theorem Follows.isVerified_eq : r'.val.isVerified = r.val.isVerified := by rw [h.val]

theorem Follows.totpSecret_eq : r'.val.totpSecret = r.val.totpSecret := by rw [h.val]

end Fields

theorem restart_eq_some {new : NewTwoFactorMethod} (h : r.restart new now = some r') :
    r'.val = { r.val with totpSecret := new.totpSecret, createdAt := now } ∧
      r'.deleted = r.deleted ∧ r'.verifiedAt = r.verifiedAt :=
  update_eq_some h

theorem markVerified_eq_some (h : r.markVerified now = some r') :
    r'.val = { r.val with isVerified := true } ∧ r'.deleted = r.deleted ∧
      r'.verifiedAt = some now := by
  simp only [markVerified, Option.map_eq_some_iff] at h
  obtain ⟨r₁, h₁, rfl⟩ := h
  obtain ⟨hval, hdeleted, -⟩ := update_eq_some h₁
  exact ⟨hval, hdeleted, rfl⟩

theorem markVerified_isSome (r : MethodRow) (now : Int) : (r.markVerified now).isSome := by
  have hchecks : ({ r.val with isVerified := true } : TwoFactorMethod).Checks :=
    ⟨fun _ => rfl, r.checks.payload⟩
  simp [markVerified, update, hchecks]

theorem ofUser_eq_true : r.ofUser userId = true ↔ r.deleted = false ∧ r.val.userId = userId := by
  simp [ofUser]

theorem verifiedOf_eq_true :
    r.verifiedOf userId = true ↔
      r.deleted = false ∧ r.val.userId = userId ∧ r.val.isVerified = true := by
  simp [verifiedOf, ofUser, and_assoc]

theorem primaryOf_eq_true :
    r.primaryOf userId = true ↔
      r.deleted = false ∧ r.val.userId = userId ∧ r.val.isPrimary = true := by
  simp [primaryOf, ofUser, and_assoc]

theorem primaryIndex_eq_some : r.primaryIndex = some userId ↔ r.primaryOf userId = true := by
  simp only [primaryIndex, primaryOf_eq_true]
  split_ifs with h
  · simp_all
  · simp only [Bool.and_eq_true, Bool.not_eq_true', not_and] at h
    simp only [false_iff, not_and]
    exact fun hd _ => h hd

theorem verifiedOf_of_primaryOf (h : r.primaryOf userId = true) : r.verifiedOf userId = true := by
  obtain ⟨hd, hu, hp⟩ := primaryOf_eq_true.mp h
  exact verifiedOf_eq_true.mpr ⟨hd, hu, r.checks.primary hp⟩

end MethodRow

variable {id userId : Uuid} {r r' : MethodRow} {q : MethodRow → Bool} {v : Visit MethodRow}
  {d : Removal} {c : FactorConf} {j : Nat}

theorem NewTwoFactorMethod.row_eq_some {new : NewTwoFactorMethod} {now : Int}
    (h : new.row id now = some r) :
    r.val.isVerified = false ∧ r.val.isPrimary = false ∧ r.deleted = false ∧
      r.verifiedAt = none ∧ r.val.id = id := by
  simp only [NewTwoFactorMethod.row] at h
  split_ifs at h
  cases h
  exact ⟨rfl, rfl, rfl, rfl, rfl⟩

/-! ## What a step does to the table -/

/-- What a step of process `i`, at `own`, does to the table `db`. -/
inductive MethodEffect (i : Nat) (own : FactorFlow) (db db' : MethodDb) : Prop
  | same (h : db' = db)
  | locked {k : Uuid} (h : Changed i k none db db')
  | wrote {k : Uuid} {r r' : MethodRow} (hview : db.view i k = some r) (hlive : r.deleted = false)
      (hfollows : r.Follows r')
      (hindex : ∀ userId, r'.primaryIndex = some userId →
        r.primaryIndex = some userId ∨ Available MethodRow.primaryIndex db i k userId)
      (h : Changed i k (some r') db db')
  | restarted {new : NewTwoFactorMethod} {now : Int} {r r' : MethodRow}
      (hown : own = .setup (.restart new r'.val.id now))
      (hold : r.restartable new = true) (hnew : r.restart new now = some r')
      (h : Replaced r' (some r) db db')
  | created {new : NewTwoFactorMethod} {id : Uuid} {now : Int} {r : MethodRow}
      (hown : own = .setup (.create new)) (hnew : new.row id now = some r)
      (h : Replaced r none db db')
  | marked {request : Activation} {evidence : Evidence} {now : Int} {r r' : MethodRow}
      (hown : own = .activate (.mark request evidence)) (hkey : r'.val.id = request.methodId)
      (hold : r.deleted = false) (hnew : r.markVerified now = some r')
      (h : Replaced r' (some r) db db')
  | committed (h : db' = db.commit i)
  | rolledBack {db₁ : MethodDb} (h₁ : db₁ = db ∨ ∃ k, Changed i k none db db₁)
      (h : db' = db₁.rollback i)

variable {i : Nat} {inp : FactorInput} {s s' : FactorState} {p p' : FactorProc}
  {own : FactorFlow} {db db' : MethodDb} {k : Uuid}

theorem method_key (h : db.view i k = some r) : r.val.id = k :=
  db.keyed k r (Pg.Slot.has_of_view h)

theorem setPrimary_key (b : Bool) (r r' : MethodRow) (h : r.setPrimary b = some r') :
    r'.val.id = r.val.id :=
  (MethodRow.follows_of_setPrimary h).1.id_eq

theorem delete_key (r r' : MethodRow) (h : r.delete = some r') : r'.val.id = r.val.id :=
  (MethodRow.follows_of_delete h).1.id_eq

section

variable (hq : ∀ r, q r = true → r.deleted = false)
include hq

theorem visit_delete (h : db.visit i k q MethodRow.delete = some (v, db')) :
    (∃ r r', v = .updated r' ∧ db.view i k = some r ∧ q r = true ∧ r.delete = some r' ∧
        Changed i k (some r') db db' ∧ ∀ own, MethodEffect i own db db') ∨
      v = .skipped ∧ (∀ r, db.view i k = some r → q r = false) ∧ Changed i k none db db' := by
  rcases visit_spec delete_key h with ⟨r, r', rfl, hview, hr, hdelete, hc⟩ | hskipped |
    ⟨r, -, -, -, hnone, -⟩
  · obtain ⟨hfollows, -, hdeleted⟩ := MethodRow.follows_of_delete hdelete
    refine .inl ⟨r, r', rfl, hview, hr, hdelete, hc, fun _ => .wrote hview (hq r hr) hfollows ?_ hc⟩
    intro userId hindex
    rw [MethodRow.primaryIndex_eq_some, MethodRow.primaryOf_eq_true, hdeleted] at hindex
    cases hindex.1
  · exact .inr hskipped
  · cases hnone

theorem MethodEffect.of_delete (h : db.visit i k q MethodRow.delete = some (v, db')) :
    MethodEffect i own db db' := by
  rcases visit_delete hq h with ⟨_, _, -, -, -, -, -, he⟩ | ⟨-, -, hc⟩
  · exact he _
  · exact .locked hc

theorem visit_unset (h : db.visit i k q (MethodRow.setPrimary false) = some (v, db')) :
    (∃ r r', v = .updated r' ∧ db.view i k = some r ∧ q r = true ∧
        r.setPrimary false = some r' ∧ Changed i k (some r') db db' ∧ ∀ own,
          MethodEffect i own db db') ∨
      (v = .skipped ∧ (∀ r, db.view i k = some r → q r = false) ∧ Changed i k none db db') ∨
      v = .violation ∧ Changed i k none db db' := by
  rcases visit_spec (setPrimary_key false) h with ⟨r, r', rfl, hview, hr, hset, hc⟩ | hskipped |
    ⟨r, hv, -, -, -, hc⟩
  · obtain ⟨hfollows, hprimary, -⟩ := MethodRow.follows_of_setPrimary hset
    refine .inl ⟨r, r', rfl, hview, hr, hset, hc, fun _ => .wrote hview (hq r hr) hfollows ?_ hc⟩
    intro userId hindex
    rw [MethodRow.primaryIndex_eq_some, MethodRow.primaryOf_eq_true, hprimary] at hindex
    cases hindex.2.2
  · exact .inr (.inl hskipped)
  · exact .inr (.inr ⟨hv, hc⟩)

/-- The row a method is promoted in: the index lets it through, or refuses
it because of a method that is primary already. -/
theorem promoteRow_spec (h : promoteRow db i k q = some (v, db')) :
    (∃ r r', v = .updated r' ∧ db.view i k = some r ∧ q r = true ∧ r.setPrimary true = some r' ∧
        Changed i k (some r') db db' ∧ ∀ own, MethodEffect i own db db') ∨
      (v = .skipped ∧ (∀ r, db.view i k = some r → q r = false) ∧ Changed i k none db db') ∨
      v = .violation ∧ (db' = db ∨ ∃ k, Changed i k none db db') ∧
        ((∃ r, db.view i k = some r ∧ q r = true ∧ r.setPrimary true = none) ∨
          ∃ r r', db.view i k = some r ∧ r.setPrimary true = some r' ∧
            db.conflict MethodRow.primaryIndex i r' = .violation) := by
  unfold promoteRow at h
  split at h
  · rename_i r' db₁ hvisit
    rcases visit_spec (setPrimary_key true) hvisit with ⟨r, r₁, heq, hview, hr, hset, hc⟩ |
      ⟨hv, -⟩ | ⟨r, hv, -⟩
    · cases heq
      split at h <;> cases h
      · rename_i hconflict
        exact .inr (.inr ⟨rfl, .inl rfl, .inr ⟨r, r', hview, hset, hconflict⟩⟩)
      · rename_i hclear
        obtain ⟨hfollows, -, -⟩ := MethodRow.follows_of_setPrimary hset
        refine .inl ⟨r, r', rfl, hview, hr, hset, hc,
          fun _ => .wrote hview (hq r hr) hfollows ?_ hc⟩
        intro userId hindex
        have hkey : r'.val.id = k := hfollows.id_eq.trans (method_key hview)
        have havailable := available_of_clear hindex hclear
        rw [hkey] at havailable
        exact .inr havailable
    · cases hv
    · cases hv
  · rename_i hnot
    rcases visit_spec (setPrimary_key true) h with ⟨r, r', rfl, -⟩ | hskipped |
      ⟨r, rfl, hview, hr, hset, hc⟩
    · exact absurd h (hnot r' db')
    · exact .inr (.inl hskipped)
    · exact .inr (.inr ⟨rfl, .inr ⟨k, hc⟩, .inl ⟨r, hview, hr, hset⟩⟩)

theorem MethodEffect.of_promote (h : promoteRow db i k q = some (v, db')) (hv : v ≠ .violation) :
    MethodEffect i own db db' := by
  rcases promoteRow_spec hq h with ⟨_, _, -, -, -, -, -, he⟩ | ⟨-, -, hc⟩ | ⟨rfl, -⟩
  · exact he _
  · exact .locked hc
  · exact absurd rfl hv

theorem MethodEffect.of_refused (h : promoteRow db i k q = some (.violation, db')) :
    MethodEffect i own db (db'.rollback i) := by
  rcases promoteRow_spec hq h with ⟨_, _, hv, -⟩ | ⟨hv, -⟩ | ⟨-, hdb, -⟩
  · cases hv
  · cases hv
  · exact .rolledBack hdb rfl

end

section

variable {methodType : TwoFactorType} {since : Int} (r : MethodRow)

theorem ofUser_live (h : r.ofUser userId = true) : r.deleted = false :=
  (MethodRow.ofUser_eq_true.mp h).1

theorem primaryOf_live (h : r.primaryOf userId = true) : r.deleted = false :=
  (MethodRow.primaryOf_eq_true.mp h).1

theorem removable_live (h : r.removable id userId methodType = true) :
    r.deleted = false := by
  simp only [MethodRow.removable, Bool.and_eq_true] at h
  exact ofUser_live r h.1.1

theorem takes_live (h : d.takes since r = true) : r.deleted = false := by
  simp only [Removal.takes, Bool.and_eq_true] at h
  exact ofUser_live r h.1.1

theorem not_deleted_live (h : (!r.deleted) = true) : r.deleted = false := by
  simpa using h

theorem verified_live (h : (!r.deleted && r.val.isVerified) = true) : r.deleted = false := by
  simp only [Bool.and_eq_true, Bool.not_eq_true'] at h
  exact h.1

end

theorem SetupStepped.methods {pc : SetupPc} (h : SetupStepped inp s pc s' own) :
    MethodEffect i (.setup pc) s.methods s'.methods := by
  cases h with
  | restarted hupdate =>
    rcases update_spec (fun r r' hr => by rw [(MethodRow.restart_eq_some hr).1]) hupdate with
      ⟨r, r', -, -, hold, hnew, rfl, hrep⟩ | ⟨rfl, -⟩
    · exact .restarted rfl hold hnew hrep
    · exact .same rfl
  | created hrow hinsert => exact .created rfl hrow (insertNow_spec hinsert)
  | _ => exact .same rfl

theorem mark_spec (h : s.mark id = some s') :
    (∃ r r', s.methods.committed id = some r ∧ r.deleted = false ∧
        r.markVerified s.dbNow = some r' ∧ r'.val.id = id ∧
        Replaced r' (some r) s.methods s'.methods) ∨
      s' = s ∧ ∀ r, s.methods.committed id = some r → r.deleted = true := by
  unfold FactorState.mark at h
  split at h <;> cases h
  rename_i v methods hupdate
  rcases update_spec (fun r r' hr => by rw [(MethodRow.markVerified_eq_some hr).1]) hupdate with
    ⟨r, r', -, hr, hlive, hnew, hkey, hrep⟩ | ⟨rfl, hcases⟩
  · exact .inl ⟨r, r', hr, by simpa using hlive, hnew, hkey, hrep⟩
  · rcases hcases with ⟨-, hskipped⟩ | ⟨r, -, -, -, hnone⟩
    · exact .inr ⟨rfl, fun r hr => by simpa using hskipped r hr⟩
    · have hsome := r.markVerified_isSome s.dbNow
      rw [hnone] at hsome
      cases hsome

theorem ActivateStepped.methods {pc : ActivatePc} (h : ActivateStepped i inp s pc s' own) :
    MethodEffect i (.activate pc) s.methods s'.methods := by
  cases h with
  | checked hcheck => exact .same (hcheck.frame).methods
  | marked hmark =>
    rcases mark_spec hmark with ⟨r, r', -, hlive, hnew, hkey, hrep⟩ | ⟨rfl, -⟩
    · exact .marked rfl hkey hlive hnew hrep
    · exact .same rfl
  | unset _ hvisit =>
    rcases visit_unset primaryOf_live hvisit with ⟨_, _, -, -, -, -, -, he⟩ | ⟨-, -, hc⟩ | ⟨-, hc⟩
    · exact he _
    · exact .locked hc
    · exact .locked hc
  | stuck hvisit =>
    rcases visit_unset primaryOf_live hvisit with ⟨_, _, hv, -⟩ | ⟨hv, -⟩ | ⟨-, hc⟩
    · cases hv
    · cases hv
    · exact .rolledBack (.inr ⟨_, hc⟩) rfl
  | promoted hpromote hv => exact .of_promote verified_live hpromote hv
  | turnedDown hpromote => exact .of_refused verified_live hpromote
  | committed => exact .committed rfl
  | replaced hreplace => exact .same (replaceRecovery_frame hreplace).methods
  | _ => exact .same rfl

theorem DisableStepped.methods {pc : DisablePc} (h : DisableStepped i inp s pc s' own) :
    MethodEffect i (.disable pc) s.methods s'.methods := by
  cases h with
  | locked hlock =>
    obtain ⟨-, -, rfl⟩ := FactorState.lockRow_eq_some hlock
    exact .same rfl
  | deleted hvisit => exact .of_delete removable_live hvisit
  | missed hvisit hv =>
    rcases visit_delete removable_live hvisit with ⟨_, _, rfl, -⟩ | ⟨-, -, hc⟩
    · exact (hv _ rfl).elim
    · exact .rolledBack (.inr ⟨_, hc⟩) rfl
  | turnedDown hpromote => exact .of_refused not_deleted_live hpromote
  | promoted hpromote hv => exact .of_promote not_deleted_live hpromote hv
  | guarded => exact .rolledBack (.inl rfl) rfl
  | committed => exact .committed rfl
  | _ => exact .same rfl

theorem ResetMoved.methods {pc : ResetPc} (h : ResetMoved i inp s pc s' own) :
    MethodEffect i (.reset pc) s.methods s'.methods := by
  cases h with
  | spared htouch | touched htouch =>
    obtain ⟨-, rfl⟩ := FactorState.touchRow_eq_some htouch
    exact .same rfl
  | locked hlock =>
    obtain ⟨-, -, rfl⟩ := FactorState.lockRow_eq_some hlock
    exact .same rfl
  | deleted hvisit => exact .of_delete takes_live hvisit
  | promoted hpromote hv => exact .of_promote not_deleted_live hpromote hv
  | dropping hvisit => exact .of_delete ofUser_live hvisit
  | _ => exact .same rfl

theorem ownStep_methods (h : ownStep i inp s p = some (s', own)) :
    MethodEffect i p.own s.methods s'.methods := by
  unfold ownStep at h
  split at h
  · cases h
  · rename_i hown
    exact hown ▸ (setupStepped h).methods
  · rename_i hown
    exact hown ▸ (activateStepped h).methods
  · rename_i hown
    exact hown ▸ (disableStepped h).methods
  · rename_i hown
    exact hown ▸ (resetMoved h).methods
  · obtain ⟨_, _, _, rfl⟩ := (enrolStepped h).changes
    exact .same rfl
  · exact .same (mailStep_frame h).methods
  · exact .same ((completionStepped h).frame).methods
  · split at h <;> cases h
    exact .same (createOtp_frame ‹_›).methods
  · split at h <;> cases h
    exact .same (replaceRecovery_frame ‹_›).methods
  · cases h

theorem settle_methods (account : AccountState) (q : Request) (a : AccountAct) :
    MethodEffect i own s.methods (settle i s p account q a).1.methods := by
  cases a with
  | session =>
    simp only [settle, settleSession]
    split
    · exact .committed rfl
    · split
      · exact .rolledBack (.inl rfl) rfl
      · exact .same rfl
    · exact .same rfl
  | _ => exact .same rfl

theorem settled_commit {ch : Choice} (hown : (c.procs i).own = .reset (.commit d))
    (hprog : factorProgram i (.account (.session ch)) c.shared (c.procs i) = some (s, p)) :
    s.methods = c.shared.methods.commit i := by
  cases factorStepped hprog with
  | account => simp only [settle, settleSession, hown, FactorState.commitReset]

theorem FactorStepped.methods {a : FactorAct} (h : FactorStepped i s p a s' p') :
    MethodEffect i (a.executes p.own) s.methods s'.methods := by
  cases h with
  | account _ _ => exact settle_methods _ _ _
  | go h => exact ownStep_methods h
  | failed | failedAlone => exact .rolledBack (.inl rfl) rfl
  | _ => exact .same rfl

/-! ## What holds of the table -/

/-- The index holds, and what a transaction has written follows what is
committed. -/
structure MethodsOk (db : MethodDb) : Prop where
  unique : Unique MethodRow.primaryIndex db
  staged : ∀ j k r', db.pending j k = some r' → ∃ r, db.committed k = some r ∧ r.Follows r'

section

variable (h : MethodsOk db)
include h

theorem MethodsOk.view (hview : db.view j k = some r') :
    ∃ r, db.committed k = some r ∧ r.Follows r' := by
  rw [view_eq] at hview
  cases hpend : db.pending j k with
  | some =>
    rw [hpend] at hview
    cases hview
    exact h.staged j k r' hpend
  | none =>
    rw [hpend] at hview
    exact ⟨r', hview, .refl r'⟩

theorem MethodsOk.locked (hc : Changed i k none db db') : MethodsOk db' where
  unique := h.unique.locked hc
  staged j k' r' hpend := by
    have hold : db.pending j k' = some r' := by
      by_cases hji : j = i
      · subst hji
        by_cases hne : k' = k
        · subst hne
          rw [hc.self] at hpend
          exact hpend
        · rw [hc.rest k' hne] at hpend
          exact hpend
      · rw [hc.others j k' hji] at hpend
        exact hpend
    rw [hc.committed]
    exact h.staged j k' r' hold

theorem MethodsOk.wrote (hview : db.view i k = some r) (hfollows : r.Follows r')
    (hindex : ∀ userId, r'.primaryIndex = some userId → r.primaryIndex = some userId ∨
      Available MethodRow.primaryIndex db i k userId)
    (hc : Changed i k (some r') db db') : MethodsOk db' where
  unique := by
    refine h.unique.written hc fun userId hx => ?_
    rcases hindex userId hx with hold | havailable
    · exact .inl ⟨r, hview, hold⟩
    · exact .inr havailable
  staged j k' r₁ hpend := by
    rw [hc.committed]
    by_cases hji : j = i
    · subst hji
      by_cases hne : k' = k
      · subst hne
        rw [hc.self] at hpend
        cases hpend
        obtain ⟨r₀, hr₀, hfollows₀⟩ := h.view hview
        exact ⟨r₀, hr₀, hfollows₀.trans hfollows⟩
      · rw [hc.rest k' hne] at hpend
        exact h.staged j k' r₁ hpend
    · rw [hc.others j k' hji] at hpend
      exact h.staged j k' r₁ hpend

theorem MethodsOk.replaced {old : Option MethodRow} (hr : Replaced r old db db')
    (hindex : ∀ userId, r.primaryIndex = some userId → ∃ r₀, old = some r₀ ∧
      r₀.primaryIndex = some userId) :
    MethodsOk db' where
  unique := h.unique.replaced hr hindex
  staged j k' r' hpend := by
    rw [hr.pending] at hpend
    have hne : k' ≠ r.val.id := by
      rintro rfl
      rw [hr.alone j] at hpend
      cases hpend
    rw [hr.committed k' hne]
    exact h.staged j k' r' hpend

theorem MethodsOk.commit (i : Nat) : MethodsOk (db.commit i) where
  unique := h.unique.commit i
  staged j k r' hpend := by
    rw [commit_pending] at hpend
    split_ifs at hpend with hji
    obtain ⟨r, hr, hfollows⟩ := h.staged j k r' hpend
    refine ⟨r, ?_, hfollows⟩
    have hnone : db.pending i k = none := by
      by_contra hsome
      obtain ⟨r₁, hr₁⟩ := Option.ne_none_iff_exists'.mp hsome
      exact hji (pending_unique hpend hr₁)
    rw [commit_view, view_eq, hnone]
    exact hr

theorem MethodsOk.rollback (i : Nat) : MethodsOk (db.rollback i) where
  unique := h.unique.rollback i
  staged j k r' hpend := by
    rw [rollback_pending] at hpend
    split_ifs at hpend
    obtain ⟨r, hr, hfollows⟩ := h.staged j k r' hpend
    exact ⟨r, (Pg.Slot.rollback_committed i _).trans hr, hfollows⟩

end

theorem MethodEffect.ok (he : MethodEffect i own db db') (h : MethodsOk db) : MethodsOk db' := by
  cases he with
  | same heq =>
    subst heq
    exact h
  | locked hc => exact h.locked hc
  | wrote hview _ hfollows hindex hc => exact h.wrote hview hfollows hindex hc
  | restarted _ hold hnew hr =>
    refine h.replaced hr fun userId hx => ⟨_, rfl, ?_⟩
    obtain ⟨hval, hdeleted, -⟩ := MethodRow.restart_eq_some hnew
    rw [MethodRow.primaryIndex_eq_some, MethodRow.primaryOf_eq_true, hval, hdeleted] at hx
    rw [MethodRow.primaryIndex_eq_some, MethodRow.primaryOf_eq_true]
    exact hx
  | created _ hnew hr =>
    obtain ⟨-, hprimary, -⟩ := NewTwoFactorMethod.row_eq_some hnew
    refine h.replaced hr fun userId hx => ?_
    rw [MethodRow.primaryIndex_eq_some, MethodRow.primaryOf_eq_true, hprimary] at hx
    cases hx.2.2
  | marked _ _ hold hnew hr =>
    refine h.replaced hr fun userId hx => ⟨_, rfl, ?_⟩
    obtain ⟨hval, hdeleted, -⟩ := MethodRow.markVerified_eq_some hnew
    rw [MethodRow.primaryIndex_eq_some, MethodRow.primaryOf_eq_true, hval, hdeleted] at hx
    rw [MethodRow.primaryIndex_eq_some, MethodRow.primaryOf_eq_true]
    exact hx
  | committed heq =>
    subst heq
    exact h.commit i
  | rolledBack h₁ heq =>
    subst heq
    rcases h₁ with rfl | ⟨k, hc⟩
    · exact h.rollback i
    · exact (h.locked hc).rollback i

/-! ## How rows change -/

/-- The method a `verify_setup` is about to mark. -/
def FactorFlow.marking : FactorFlow → Option Uuid
  | .activate (.mark request _) => some request.methodId
  | _ => none

/-- A method nobody has verified yet. -/
structure MethodRow.Fresh (r : MethodRow) : Prop where
  unverified : r.val.isVerified = false
  unmarked : r.verifiedAt = none

/-- What a step of process `i`, at `own`, does to the committed row `k`. -/
inductive RowChange (i : Nat) (own : FactorFlow) (db db' : MethodDb) (k : Uuid) : Prop
  | same (h : db'.committed k = db.committed k)
  | published {r' : MethodRow} (hpending : db.pending i k = some r')
      (hnew : db'.committed k = some r')
  | restarted {new : NewTwoFactorMethod} {now : Int} {r r' : MethodRow}
      (hown : own = .setup (.restart new k now)) (hold : db.committed k = some r)
      (hnew : db'.committed k = some r') (hpending : r.restartable new = true)
      (h : r.restart new now = some r')
  | created {r' : MethodRow} (hold : db.committed k = none) (hnew : db'.committed k = some r')
      (hfresh : r'.Fresh)
  | marked {request : Activation} {evidence : Evidence} {now : Int} {r r' : MethodRow}
      (hown : own = .activate (.mark request evidence)) (hkey : k = request.methodId)
      (hold : db.committed k = some r) (hnew : db'.committed k = some r')
      (hlive : r.deleted = false) (h : r.markVerified now = some r')

theorem MethodEffect.rowChange (he : MethodEffect i own db db') (k : Uuid) :
    RowChange i own db db' k := by
  cases he with
  | same heq => exact .same (by rw [heq])
  | locked hc | wrote _ _ _ _ hc => exact .same (hc.committed k)
  | @restarted new now r r' hown hold hnew hr =>
    by_cases hne : k = r'.val.id
    · subst hne
      exact .restarted hown hr.old hr.self hold hnew
    · exact .same (hr.committed k hne)
  | @created new id now r _ hnew hr =>
    by_cases hne : k = r.val.id
    · subst hne
      obtain ⟨hverified, -, -, hat, -⟩ := NewTwoFactorMethod.row_eq_some hnew
      exact .created hr.old hr.self ⟨hverified, hat⟩
    · exact .same (hr.committed k hne)
  | @marked request evidence now r r' hown hkey hold hnew hr =>
    by_cases hne : k = r'.val.id
    · subst hne
      exact .marked hown hkey hr.old hr.self hold hnew
    · exact .same (hr.committed k hne)
  | committed heq =>
    subst heq
    cases hpend : db.pending i k with
    | some =>
      refine .published hpend ?_
      rw [commit_view, view_eq, hpend]
      rfl
    | none =>
      refine .same ?_
      rw [commit_view, view_eq, hpend]
      rfl
  | rolledBack h₁ heq =>
    subst heq
    refine .same ((Pg.Slot.rollback_committed i _).trans ?_)
    rcases h₁ with rfl | ⟨k', hc⟩
    · rfl
    · exact hc.committed k

/-- How a row changes by a step at `own`. -/
inductive MethodRow.Evolves (own : FactorFlow) (r r' : MethodRow) : Prop
  | follows (h : r.Follows r')
  | restarted {new : NewTwoFactorMethod} {now : Int}
      (hown : own = .setup (.restart new r'.val.id now)) (hold : r.restartable new = true)
      (hnew : r.restart new now = some r')
  | marked {request : Activation} {evidence : Evidence} {now : Int}
      (hown : own = .activate (.mark request evidence)) (hkey : r'.val.id = request.methodId)
      (hold : r.deleted = false) (hnew : r.markVerified now = some r')

/-- A committed row stays, and changes as `Evolves` says; one that was not
there is a new method. -/
theorem MethodEffect.committed_cases (he : MethodEffect i own db db') (h : MethodsOk db)
    (k : Uuid) :
    (∃ r r', db.committed k = some r ∧ db'.committed k = some r' ∧ r.Evolves own r') ∨
      db.committed k = none ∧ ∀ r', db'.committed k = some r' → r'.Fresh := by
  cases he.rowChange k with
  | same heq =>
    rw [heq]
    cases hk : db.committed k with
    | some r => exact .inl ⟨r, r, rfl, rfl, .follows (.refl r)⟩
    | none => exact .inr ⟨rfl, nofun⟩
  | @published r' hpending hnew =>
    obtain ⟨r, hr, hfollows⟩ := h.staged i k r' hpending
    exact .inl ⟨r, r', hr, hnew, .follows hfollows⟩
  | @restarted new now r r' hown hold hnew hpending hrestart =>
    have hkey : r'.val.id = k := db'.keyed k r' (.inl hnew)
    exact .inl ⟨r, r', hold, hnew, .restarted (hkey ▸ hown) hpending hrestart⟩
  | created hold hnew hfresh =>
    refine .inr ⟨hold, fun r hr => ?_⟩
    cases hnew.symm.trans hr
    exact hfresh
  | @marked request evidence now r r' hown hkey hold hnew hlive hmark =>
    have hid : r'.val.id = k := db'.keyed k r' (.inl hnew)
    exact .inl ⟨r, r', hold, hnew, .marked hown (hid.trans hkey) hlive hmark⟩

theorem MethodEffect.pending_other (he : MethodEffect i own db db') (hne : j ≠ i) (k : Uuid) :
    db'.pending j k = db.pending j k := by
  cases he with
  | same heq => rw [heq]
  | locked hc | wrote _ _ _ _ hc => exact hc.others j k hne
  | restarted _ _ _ hr | created _ _ hr | marked _ _ _ _ hr => exact hr.pending j k
  | committed heq => rw [heq, commit_pending, if_neg hne]
  | rolledBack h₁ heq =>
    rw [heq, rollback_pending, if_neg hne]
    rcases h₁ with rfl | ⟨k', hc⟩
    · rfl
    · exact hc.others j k hne

theorem MethodEffect.view_cases (he : MethodEffect i own db db') (h : MethodsOk db) (hne : j ≠ i)
    (k : Uuid) :
    (∃ r r', db.view j k = some r ∧ db'.view j k = some r' ∧ r.Evolves own r') ∨
      db.view j k = none ∧ ∀ r', db'.view j k = some r' → r'.Fresh := by
  rw [view_eq, view_eq, he.pending_other hne]
  cases db.pending j k with
  | some r => exact .inl ⟨r, r, rfl, rfl, .follows (.refl r)⟩
  | none => exact he.committed_cases h k

/-- A method that is not verified was never marked. -/
def Unmarked (db : MethodDb) : Prop :=
  ∀ k r, db.committed k = some r → r.val.isVerified = false → r.verifiedAt = none

theorem MethodEffect.unmarked (he : MethodEffect i own db db') (hok : MethodsOk db)
    (h : Unmarked db) : Unmarked db' := by
  intro k r' hr' hun
  rcases he.committed_cases hok k with ⟨r, r₁, hr, hr₁, hev⟩ | ⟨-, hfresh⟩
  · cases hr'.symm.trans hr₁
    cases hev with
    | follows hfollows =>
      rw [hfollows.verifiedAt]
      exact h k r hr (hfollows.isVerified_eq ▸ hun)
    | restarted _ _ hnew =>
      obtain ⟨hval, -, hat⟩ := MethodRow.restart_eq_some hnew
      rw [hat]
      refine h k r hr ?_
      rw [hval] at hun
      exact hun
    | marked _ _ _ hnew =>
      rw [(MethodRow.markVerified_eq_some hnew).1] at hun
      cases hun
  · exact (hfresh r' hr').unmarked

/-! ## Every run -/

theorem methodsOk_empty : MethodsOk .empty := ⟨unique_empty, nofun⟩

end AuthApi
