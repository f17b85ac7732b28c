import AuthApi.PgReference
import AuthApi.Registration

/-!
# The password an account is activated with

Whatever registrations, resends, verifications and resets interleave, an
account that becomes active has a stored hash of the password submitted
in the call that activated it (`activated_with_password`).

Nothing about the links of an account is needed for it, nor how often one
can be used. The proof rests on what every transaction leaves to the others
(`HashKept`): the stored hash of a pending account is replaced only by the
commit that activates it. So the hash a call has checked the password
against, or has stored itself, is still there when it activates the
account, or else the account is active already and not activated again.
-/

namespace AuthApi

open Conc

abbrev UserTable := Pg.Db Account.id

/-! ## What the others may rely on -/

/-- No account is removed, none becomes pending, and one that stays pending
keeps its hash. -/
def HashKept (users users' : UserTable) : Prop :=
  ∀ k r, users.committed k = some r → ∃ r', users'.committed k = some r' ∧
    (r'.isPending = true → r.isPending = true ∧ r'.passwordHash = r.passwordHash)

variable {users' : UserTable} {c : RegistrationConf}

theorem HashKept.of_committed {users : UserTable}
    (h : ∀ k, users'.committed k = users.committed k) : HashKept users users' :=
  fun k r hr => ⟨r, (h k).trans hr, fun hp => ⟨hp, rfl⟩⟩

theorem HashKept.isSome {users : UserTable} (h : HashKept users users') {k : Uuid}
    (hk : (users.committed k).isSome) : (users'.committed k).isSome := by
  obtain ⟨r, hr⟩ := Option.isSome_iff_exists.mp hk
  obtain ⟨r', hr', -⟩ := h k r hr
  exact Option.isSome_iff_exists.mpr ⟨r', hr'⟩

structure RegistrationGuar (i : Nat) (users users' : UserTable) : Prop where
  locks : Pg.Db.Guar i users users'
  kept : HashKept users users'

theorem RegistrationGuar.of_quiet {i : Nat} {users : UserTable} (h : Pg.Db.Quiet i users users') :
    RegistrationGuar i users users' :=
  ⟨h.guar, .of_committed h.committed_eq⟩

/-! ## What a call knows about the account -/

/-- The transaction has locked no account, and `u` is one. -/
structure Unlocked (i : Nat) (users : UserTable) (u : Uuid) : Prop where
  held : users.HeldOnly i []
  found : (users.committed u).isSome

/-- The transaction has locked no account but `u`, and sees a version of it
of which, with the committed one, `Q` holds. -/
structure Sees (i : Nat) (users : UserTable) (u : Uuid) (Q : Option Account → Account → Prop) :
    Prop where
  held : users.HeldOnly i [u]
  row : ∃ r, users.view i u = some r ∧ Q (users.committed u) r

/-- The password is that of the account, as long as there is something to
activate. -/
def Checked (password : String) (committed : Option Account) (r : Account) : Prop :=
  r.isPending = true ∨ committed.any Account.isPending = true →
    r.passwordHash.accepts password = true

/-- The account is not pending, and if the transaction made it so, then with
this password. -/
def SettledWith (password : String) (committed : Option Account) (r : Account) : Prop :=
  r.isPending = false ∧
    (committed.any Account.isPending = true → r.passwordHash.accepts password = true)

structure Hashed (i : Nat) (users : UserTable) (job : ActivationJob) : Prop where
  kind : job.kind = .reset
  held : users.HeldOnly i [job.userId]
  row : ∃ r, users.pending i job.userId = some r ∧ r.passwordHash.accepts job.password = true

structure Created (i : Nat) (users : UserTable) (u : Uuid) : Prop where
  held : users.HeldOnly i [u]
  row : ∃ r, users.slot u = ⟨none, some (i, some r)⟩

/-- What a transaction knows before an `UPDATE` of the account. -/
def UserUpdate.Ready (i : Nat) (users : UserTable) (job : ActivationJob) : UserUpdate → Prop
  | .adoptPendingCredentials credentials _ =>
    job.kind = .link ∧ Unlocked i users job.userId ∧
      credentials.passwordHash.accepts job.password = true
  | .markEmailVerified => Sees i users job.userId (Checked job.password)
  | .updatePasswordHash hash =>
    job.kind = .reset ∧ Unlocked i users job.userId ∧ hash.accepts job.password = true
  | .adoptLatestRegistrationIdentity _ => Hashed i users job
  | .verifyIfPending => Hashed i users job

/-- What a transaction knows while it revokes the links: the account is
still to be activated by a verification, and settled by a reset. -/
def ActivationJob.Revoking (i : Nat) (users : UserTable) (job : ActivationJob) : Prop :=
  match job.kind with
  | .link => Sees i users job.userId (Checked job.password)
  | .reset => Sees i users job.userId (SettledWith job.password)

def RegistrationPc.Ok (i : Nat) (users : UserTable) : RegistrationPc → Prop
  | .createLink u _ => Created i users u
  | .commitCreate _ => ∃ u, Created i users u
  | .ownHash token _ => token.credentials = none ∧ Unlocked i users token.userId
  | .consume token password =>
    Unlocked i users token.userId ∧
      match token.credentials with
      | some carried => carried.passwordHash.accepts password = true
      | none => Sees i users token.userId (Checked password)
  | .adopt job credentials =>
    job.kind = .link ∧ Unlocked i users job.userId ∧
      credentials.passwordHash.accepts job.password = true
  | .consumeReset token _ => Unlocked i users token.userId
  | .revokeResets job | .revokeEachReset job _ | .identity job => Hashed i users job
  | .update job change | .write job change => change.Ready i users job
  | .revoke job | .revokeEach job _ => job.Revoking i users
  | .commit job => Sees i users job.userId (SettledWith job.password)
  | .idle | .register _ | .create _ | .issue _ _ | .resend _ | .verify _ _ | .forgot _
  | .reset _ _ | .done _ => users.HeldOnly i []

/-! ### It stays true whatever the others do -/

section Stable

variable {i j : Nat} {users users' : UserTable} {u : Uuid} {job : ActivationJob} {password : String}

section

variable (r r' : Account)
  (hkept : r'.isPending = true → r.isPending = true ∧ r'.passwordHash = r.passwordHash)
include r r' hkept

theorem Checked.stable (h : Checked password (some r) r) : Checked password (some r') r' := by
  intro hp
  have hp' : r'.isPending = true := by simpa using hp
  obtain ⟨hpending, hhash⟩ := hkept hp'
  rw [hhash]
  exact h (.inl hpending)

theorem SettledWith.stable (h : SettledWith password (some r) r) :
    SettledWith password (some r') r' := by
  have hactive : r'.isPending = false := by
    by_contra hp
    have := (hkept (by simpa using hp)).1
    rw [h.1] at this
    cases this
  exact ⟨hactive, fun hp => by simp [hactive] at hp⟩

end

variable (hg : RegistrationGuar i users users') (hne : j ≠ i)
include hg hne

theorem Unlocked.stable (h : Unlocked j users u) : Unlocked j users' u :=
  ⟨h.held.guar hg.locks hne, hg.kept.isSome h.found⟩

theorem Created.stable (h : Created j users u) : Created j users' u := by
  obtain ⟨hheld, r, hr⟩ := h
  exact ⟨hheld.guar hg.locks hne, r, Pg.Db.guar_others hg.locks hne hr rfl⟩

theorem Hashed.stable (h : Hashed j users job) : Hashed j users' job := by
  obtain ⟨hkind, hheld, r, hr, haccepts⟩ := h
  refine ⟨hkind, hheld.guar hg.locks hne, r, ?_, haccepts⟩
  have hslot := hg.locks.others _ j hne (Pg.Db.holder_of_pending hr)
  rw [Pg.Db.pending, hslot]
  exact hr

/-- A row that is not locked may change under the transaction, but only as
`HashKept` allows. -/
theorem Sees.stable {Q : Option Account → Account → Prop}
    (hQ : ∀ r r' : Account, (r'.isPending = true → r.isPending = true ∧
      r'.passwordHash = r.passwordHash) → Q (some r) r → Q (some r') r')
    (h : Sees j users u Q) : Sees j users' u Q := by
  obtain ⟨hheld, r, hview, hq⟩ := h
  refine ⟨hheld.guar hg.locks hne, ?_⟩
  by_cases hlock : users.holder u = some j
  · have hslot := hg.locks.others u j hne hlock
    refine ⟨r, ?_, ?_⟩
    · rw [Pg.Db.view, hslot]
      exact hview
    · rw [Pg.Db.committed, hslot]
      exact hq
  · have hlock' : users'.holder u ≠ some j := fun h' => hlock (hg.locks.grants u j hne h')
    rw [Pg.Db.view, Pg.Slot.view_of_not_held hlock] at hview
    obtain ⟨r', hr', hkept⟩ := hg.kept u r hview
    refine ⟨r', (Pg.Slot.view_of_not_held hlock').trans hr', ?_⟩
    rw [show users.committed u = some r from hview] at hq
    rw [hr']
    exact hQ r r' hkept hq

theorem UserUpdate.Ready.stable {change : UserUpdate} (h : change.Ready j users job) :
    change.Ready j users' job := by
  cases change with
  | adoptPendingCredentials | updatePasswordHash => exact ⟨h.1, h.2.1.stable hg hne, h.2.2⟩
  | markEmailVerified => exact Sees.stable hg hne Checked.stable h
  | adoptLatestRegistrationIdentity | verifyIfPending => exact Hashed.stable hg hne h

theorem ActivationJob.Revoking.stable (h : job.Revoking j users) : job.Revoking j users' := by
  unfold ActivationJob.Revoking at h ⊢
  split at h
  · exact Sees.stable hg hne Checked.stable h
  · exact Sees.stable hg hne SettledWith.stable h

theorem RegistrationPc.Ok.stable {pc : RegistrationPc} (h : pc.Ok j users) : pc.Ok j users' := by
  cases pc with
  | createLink => exact Created.stable hg hne h
  | commitCreate => exact h.imp fun _ h => h.stable hg hne
  | ownHash => exact ⟨h.1, h.2.stable hg hne⟩
  | consumeReset => exact Unlocked.stable hg hne h
  | consume =>
    refine ⟨h.1.stable hg hne, ?_⟩
    have hpassword := h.2
    split at hpassword
    · exact hpassword
    · exact Sees.stable hg hne Checked.stable hpassword
  | adopt => exact ⟨h.1, h.2.1.stable hg hne, h.2.2⟩
  | revokeResets | revokeEachReset | identity => exact Hashed.stable hg hne h
  | update | write => exact UserUpdate.Ready.stable hg hne h
  | revoke | revokeEach => exact ActivationJob.Revoking.stable hg hne h
  | commit => exact Sees.stable hg hne SettledWith.stable h
  | _ => exact Pg.Db.HeldOnly.guar h hg.locks hne

end Stable

/-! ## An `UPDATE` of the account -/

section Update

variable {i : Nat} {users users' : UserTable} {job : ActivationJob} {change : UserUpdate} {u : Uuid}

theorem heldOnly_weaken (h : users.HeldOnly i []) : users.HeldOnly i [u] :=
  fun k hk => absurd (h k hk) List.not_mem_nil

theorem UserUpdate.Ready.held (h : change.Ready i users job) :
    users.HeldOnly i [job.userId] := by
  cases change with
  | adoptPendingCredentials | updatePasswordHash => exact heldOnly_weaken h.2.1.held
  | markEmailVerified => exact Sees.held h
  | adoptLatestRegistrationIdentity | verifyIfPending => exact Hashed.held h

theorem Unlocked.view (h : Unlocked i users u) :
    ∃ r, users.view i u = some r ∧ users.committed u = some r := by
  obtain ⟨r, hr⟩ := Option.isSome_iff_exists.mp h.found
  exact ⟨r, (Pg.Db.view_of_heldOnly h.held u).trans hr, hr⟩

theorem Hashed.view (h : Hashed i users job) :
    ∃ r, users.view i job.userId = some r ∧ r.passwordHash.accepts job.password = true := by
  obtain ⟨-, -, r, hr, haccepts⟩ := h
  exact ⟨r, by rw [Pg.Db.view_eq, hr]; rfl, haccepts⟩

theorem UserUpdate.Ready.found (h : change.Ready i users job) :
    ∃ r, users.view i job.userId = some r := by
  cases change with
  | adoptPendingCredentials | updatePasswordHash => exact h.2.1.view.imp fun _ hr => hr.1
  | markEmailVerified => exact (Sees.row h).imp fun _ hr => hr.1
  | adoptLatestRegistrationIdentity | verifyIfPending => exact (Hashed.view h).imp fun _ hr => hr.1

theorem UserUpdate.Ready.skipped (h : change.Ready i users job)
    (hskip : ∀ r, users.view i job.userId = some r → change.applies r = false)
    (hc : Pg.Db.Changed i job.userId none users users')
    (hheld : users'.HeldOnly i [job.userId]) : (change.next job false).Ok i users' := by
  obtain ⟨r, hview⟩ := h.found
  have hview' : users'.view i job.userId = some r := hc.view_none.trans hview
  have hno := hskip r hview
  cases change with
  | adoptPendingCredentials credentials held =>
    obtain ⟨hkind, hfree, -⟩ := h
    have hcommitted : users'.committed job.userId = some r := by
      rw [hc.committed, ← Pg.Db.view_of_heldOnly hfree.held]
      exact hview
    show job.Revoking i users'
    rw [ActivationJob.Revoking, hkind]
    refine ⟨hheld, r, hview', fun hp => ?_⟩
    have hpending : r.isPending = false := hno
    simp [hcommitted, hpending] at hp
  | markEmailVerified | updatePasswordHash => cases hno
  | adoptLatestRegistrationIdentity =>
    obtain ⟨hkind, -, r', hr', haccepts⟩ := h
    exact ⟨hkind, hheld, r', by rw [hc.pending_none, hr'], haccepts⟩
  | verifyIfPending =>
    obtain ⟨r', hr', haccepts⟩ := Hashed.view h
    rw [hview] at hr'
    obtain rfl := Option.some.inj hr'
    exact ⟨hheld, r, hview', hno, fun _ => haccepts⟩

theorem UserUpdate.Ready.written {r : Account} (h : change.Ready i users job)
    (hview : users.view i job.userId = some r) (happlies : change.applies r = true)
    (hc : Pg.Db.Changed i job.userId (some (change.apply r)) users users')
    (hheld : users'.HeldOnly i [job.userId]) : (change.next job true).Ok i users' := by
  have hview' : users'.view i job.userId = some (change.apply r) := hc.view_self
  have hpending' : users'.pending i job.userId = some (change.apply r) := hc.self
  cases change with
  | adoptPendingCredentials =>
    obtain ⟨hkind, -, haccepts⟩ := h
    show job.Revoking i users'
    rw [ActivationJob.Revoking, hkind]
    exact ⟨hheld, _, hview', fun _ => haccepts⟩
  | markEmailVerified =>
    obtain ⟨-, r', hr', hchecked⟩ := h
    rw [hview] at hr'
    obtain rfl := Option.some.inj hr'
    refine ⟨hheld, _, hview', ?_, fun hp => hchecked (.inr ?_)⟩
    · by_cases hp : r.isPending <;> simp_all [UserUpdate.apply, Account.isPending]
    · rwa [hc.committed] at hp
  | updatePasswordHash =>
    exact ⟨h.1, hheld, _, hpending', h.2.2⟩
  | adoptLatestRegistrationIdentity =>
    obtain ⟨r', hr', haccepts⟩ := Hashed.view h
    rw [hview] at hr'
    obtain rfl := Option.some.inj hr'
    exact ⟨Hashed.kind h, hheld, _, hpending', haccepts⟩
  | verifyIfPending =>
    obtain ⟨r', hr', haccepts⟩ := Hashed.view h
    rw [hview] at hr'
    obtain rfl := Option.some.inj hr'
    show job.Revoking i users'
    rw [ActivationJob.Revoking, Hashed.kind h]
    exact ⟨hheld, _, hview', rfl, fun _ => haccepts⟩

end Update

/-! ## The commit -/

/-- The accounts a transaction has locked are not pending for it, and the
password is theirs if they are pending for the others. -/
def Settling (i : Nat) (users : UserTable) (password : String) : Prop :=
  ∀ k before after, users.holder k = some i → users.committed k = some before →
    users.view i k = some after →
      after.isPending = false ∧
        (before.isPending = true → after.passwordHash.accepts password = true)

section Commit

variable {i : Nat} {users : UserTable} {password : String} {u : Uuid}

theorem Created.settling (h : Created i users u) : Settling i users password := by
  intro k before after hk hbefore _
  obtain rfl : k = u := by simpa using h.held k hk
  obtain ⟨r, hr⟩ := h.row
  rw [Pg.Db.committed, hr] at hbefore
  cases hbefore

theorem Sees.settling (h : Sees i users u (SettledWith password)) : Settling i users password := by
  intro k before after hk hbefore hafter
  obtain rfl : k = u := by simpa using h.held k hk
  obtain ⟨r, hr, hpending, haccepts⟩ := h.row
  rw [hafter] at hr
  obtain rfl := Option.some.inj hr
  refine ⟨hpending, fun hp => haccepts ?_⟩
  simpa [hbefore] using hp

theorem Settling.kept (h : Settling i users password) : HashKept users (users.commit i) := by
  intro k r hr
  by_cases hk : users.holder k = some i
  · obtain ⟨r', hr'⟩ := Option.isSome_iff_exists.mp
      (Pg.Db.view_isSome_of_committed i (Option.isSome_of_mem hr))
    refine ⟨r', (Pg.Db.commit_view i k).trans hr', fun hp => ?_⟩
    rw [(h k r r' hk hr hr').1] at hp
    cases hp
  · refine ⟨r, ?_, fun hp => ⟨hp, rfl⟩⟩
    rw [Pg.Db.commit_committed, if_neg hk]
    exact hr

theorem Settling.accepts {s : RegistrationState} (h : Settling i s.users password)
    {a : ActivatedAccount} (ha : a ∈ s.activated i password) :
    a.stored.accepts a.submitted = true := by
  obtain ⟨k, -, hk⟩ := List.mem_filterMap.mp ha
  split at hk
  · rename_i before after hbefore hafter
    split at hk
    · rename_i hstatus
      obtain rfl := Option.some.inj hk
      have hpending : before.isPending = true := by simpa [Account.isPending] using hstatus.1
      by_cases hheld : s.users.holder k = some i
      · exact (h k before after hheld hbefore hafter).2 hpending
      · -- A row the transaction has not locked is not changed by its commit.
        rw [Pg.Db.view, Pg.Slot.view_of_not_held hheld] at hafter
        obtain rfl := Option.some.inj (hbefore.symm.trans hafter)
        rw [hstatus.1] at hstatus
        cases hstatus.2
    · cases hk
  · cases hk

end Commit

/-! ## Every step -/

structure RegistrationOk (s : RegistrationState) : Prop where
  links : Pg.Db.References EmailVerificationToken.userId s.verifications s.users
  resets : Pg.Db.References PasswordResetToken.userId s.resets s.users
  accepted : ∀ a ∈ s.activations, a.stored.accepts a.submitted = true

structure StepKeeps (i : Nat) (s s' : RegistrationState) (pc' : RegistrationPc) : Prop where
  shared : RegistrationOk s'
  own : pc'.Ok i s'.users
  guar : RegistrationGuar i s.users s'.users

section Steps

variable {i : Nat} {inp : RegistrationInput} {s s' : RegistrationState} {pc pc' : RegistrationPc}
  {k : Uuid} {change : UserUpdate} {v : Pg.Db.Visit Account}

section

variable (hI : RegistrationOk s)
include hI

theorem StepKeeps.stay (h : pc'.Ok i s.users) : StepKeeps i s s pc' :=
  ⟨hI, h, .of_quiet .refl⟩

theorem StepKeeps.abort {error : AppError} (h : s.abort i error = some (s', pc')) :
    StepKeeps i s s' pc' := by
  cases h
  exact ⟨⟨hI.links.rollback i, hI.resets.rollback i, hI.accepted⟩, Pg.Db.heldOnly_rollback,
    .of_quiet Pg.Db.quiet_rollback⟩

theorem StepKeeps.commit {password : String} (h : Settling i s.users password) :
    StepKeeps i s (s.commit i password) (.done none) where
  shared := by
    refine ⟨hI.links.commit i, hI.resets.commit i, fun a ha => ?_⟩
    rcases List.mem_append.mp ha with ha | ha
    · exact h.accepts ha
    · exact hI.accepted a ha
  own := Pg.Db.heldOnly_commit
  guar := ⟨Pg.Db.guar_commit, h.kept⟩

theorem StepKeeps.verifications {verifications : Pg.Db EmailVerificationToken.id}
    (hlinks : Pg.Db.References EmailVerificationToken.userId verifications s.users)
    (h : pc'.Ok i s.users) : StepKeeps i s { s with verifications := verifications } pc' :=
  ⟨⟨hlinks, hI.resets, hI.accepted⟩, h, .of_quiet .refl⟩

theorem StepKeeps.resets {resets : Pg.Db PasswordResetToken.id}
    (hresets : Pg.Db.References PasswordResetToken.userId resets s.users) (h : pc'.Ok i s.users) :
    StepKeeps i s { s with resets := resets } pc' :=
  ⟨⟨hI.links, hresets, hI.accepted⟩, h, .of_quiet .refl⟩

theorem StepKeeps.users {users : UserTable} (hgrows : Pg.Db.Grows s.users users)
    (hquiet : Pg.Db.Quiet i s.users users) (h : pc'.Ok i users) :
    StepKeeps i s { s with users := users } pc' :=
  ⟨⟨hI.links.grows hgrows, hI.resets.grows hgrows, hI.accepted⟩, h, .of_quiet hquiet⟩

theorem useLink_visit {p : EmailVerificationToken → Bool} {v : Pg.Db.Visit EmailVerificationToken}
    {verifications : Pg.Db EmailVerificationToken.id}
    (h : s.verifications.visit i k p (EmailVerificationToken.use s.now) = some (v, verifications)) :
    Pg.Db.References EmailVerificationToken.userId verifications s.users := by
  refine hI.links.visit ?_ ?_ h <;>
  · intro r r' hr
    obtain rfl := Option.some.inj hr
    rfl

theorem useReset_visit {p : PasswordResetToken → Bool} {v : Pg.Db.Visit PasswordResetToken}
    {resets : Pg.Db PasswordResetToken.id}
    (h : s.resets.visit i k p (PasswordResetToken.use s.now) = some (v, resets)) :
    Pg.Db.References PasswordResetToken.userId resets s.users := by
  refine hI.resets.visit ?_ ?_ h <;>
  · intro r r' hr
    obtain rfl := Option.some.inj hr
    rfl

end

theorem UserUpdate.apply_id (change : UserUpdate) (a : Account) :
    (change.apply a).id = a.id := by
  cases change <;> rfl

theorem UserUpdate.visit_cases {u : Uuid} {users : UserTable}
    (h : s.users.visit i u change.applies (some ∘ change.apply) = some (v, users)) :
    (∃ r, v = .updated (change.apply r) ∧ s.users.view i u = some r ∧
        change.applies r = true ∧ Pg.Db.Changed i u (some (change.apply r)) s.users users) ∨
      v = .skipped ∧ (∀ r, s.users.view i u = some r → change.applies r = false) ∧
        Pg.Db.Changed i u none s.users users := by
  have hkey : ∀ r r', (some ∘ change.apply) r = some r' → r'.id = r.id := by
    intro r r' hr
    obtain rfl := Option.some.inj hr
    exact change.apply_id r
  rcases Pg.Db.visit_spec hkey h with ⟨r, r', rfl, hview, hp, hf, hc⟩ | hskip | ⟨r, -, -, -, hf, -⟩
  · obtain rfl := Option.some.inj hf
    exact .inl ⟨r, rfl, hview, hp, hc⟩
  · exact .inr hskip
  · cases hf

theorem UserUpdate.Ready.visited {job : ActivationJob} {users : UserTable}
    (hpc : change.Ready i s.users job) (hI : RegistrationOk s)
    (h : s.users.visit i job.userId change.applies (some ∘ change.apply) = some (v, users)) :
    StepKeeps i s { s with users := users } (change.next job (v matches .updated _)) := by
  have hheld : users.HeldOnly i [job.userId] := fun k hk => by simpa using hpc.held.visit h k hk
  rcases UserUpdate.visit_cases h with ⟨r, rfl, hview, happlies, hc⟩ | ⟨rfl, hskip, hc⟩
  · exact .users hI hc.grows (Pg.Db.quiet_visit h) (hpc.written hview happlies hc hheld)
  · exact .users hI hc.grows (Pg.Db.quiet_visit h) (hpc.skipped hskip hc hheld)

theorem findByEmail_committed {email : String} {user : Account}
    (h : s.findByEmail email = some user) : s.users.committed user.id = some user :=
  Pg.Db.mem_rows.mp (List.mem_of_find?_eq_some h)

/-- The request has locked nothing. -/
def RegistrationPc.outside : RegistrationPc → Bool
  | .idle | .register _ | .create _ | .issue _ _ | .resend _ | .verify _ _ | .forgot _
  | .reset _ _ | .done _ => true
  | _ => false

theorem RegistrationPc.ok_iff (h : pc.outside = true) :
    pc.Ok i s.users ↔ s.users.HeldOnly i [] := by
  cases pc <;> first | rfl | cases h

variable (i inp s)

/-- What a statement of a registration, a verification or a reset does. -/
inductive RegistrationStepped : RegistrationPc → RegistrationState → RegistrationPc → Prop
  | aside {pc pc' : RegistrationPc} (hpc : pc.outside = true) (hpc' : pc'.outside = true) :
      RegistrationStepped pc s pc'
  | aborted {pc s₁ pc₁} {error : AppError} (h : s.abort i error = some (s₁, pc₁)) :
      RegistrationStepped pc s₁ pc₁
  | created {account users} (hins : s.users.insert i account = some users) :
      RegistrationStepped (.create account) { s with users := users }
        (.createLink account.id account.passwordHash.password)
  | linked {u password link verifications} (hlink : link.userId = u)
      (hins : s.verifications.insert i link = some verifications) :
      RegistrationStepped (.createLink u password) { s with verifications := verifications }
        (.commitCreate password)
  | committedNew {password} :
      RegistrationStepped (.commitCreate password) (s.commit i password) (.done none)
  | issued {u credentials link verifications} (hfound : (s.users.committed u).isSome)
      (hlink : link.userId = u) (hins : s.verifications.insertNow link = some verifications) :
      RegistrationStepped (.issue u credentials) { s with verifications := verifications }
        (.done none)
  | readsOwn {tokenId password token} (htoken : s.verifications.committed tokenId = some token)
      (hown : token.credentials = none) :
      RegistrationStepped (.verify tokenId password) s (.ownHash token password)
  | carried {tokenId password token credentials}
      (htoken : s.verifications.committed tokenId = some token)
      (hcarried : token.credentials = some credentials)
      (haccepts : credentials.passwordHash.accepts password = true) :
      RegistrationStepped (.verify tokenId password) s (.consume token password)
  | refused {token password error} :
      RegistrationStepped (.ownHash token password) s (.done error)
  | owned {token password user} (huser : s.users.committed token.userId = some user)
      (haccepts : user.passwordHash.accepts password = true) :
      RegistrationStepped (.ownHash token password) s (.consume token password)
  | consumed {token password p v verifications}
      (hvisit : s.verifications.visit i token.id p (EmailVerificationToken.use s.now) =
        some (v, verifications)) :
      RegistrationStepped (.consume token password) { s with verifications := verifications }
        (match token.credentials with
        | some credentials => .adopt ⟨.link, token.userId, password⟩ credentials
        | none => .revoke ⟨.link, token.userId, password⟩)
  | adopts {job credentials held} :
      RegistrationStepped (.adopt job credentials) s
        (.update job (.adoptPendingCredentials credentials held))
  | forgot {email user link resets} (huser : s.findByEmail email = some user)
      (hlink : link.userId = user.id) (hins : s.resets.insertNow link = some resets) :
      RegistrationStepped (.forgot email) { s with resets := resets } (.done none)
  | reads {tokenId password token hash} (htoken : s.resets.committed tokenId = some token) :
      RegistrationStepped (.reset tokenId password) s (.consumeReset token hash)
  | consumedReset {token hash p v resets}
      (hvisit : s.resets.visit i token.id p (PasswordResetToken.use s.now) = some (v, resets)) :
      RegistrationStepped (.consumeReset token hash) { s with resets := resets }
        (.update ⟨.reset, token.userId, hash.password⟩ (.updatePasswordHash hash))
  | listsResets {job left} :
      RegistrationStepped (.revokeResets job) s (.revokeEachReset job left)
  | revokedReset {job left left' k p v resets}
      (hvisit : s.resets.visit i k p (PasswordResetToken.use s.now) = some (v, resets)) :
      RegistrationStepped (.revokeEachReset job left) { s with resets := resets }
        (.revokeEachReset job left')
  | noResets {job} : RegistrationStepped (.revokeEachReset job []) s (.identity job)
  | keepsIdentity {job} : RegistrationStepped (.identity job) s (.update job .verifyIfPending)
  | adoptsIdentity {job credentials} :
      RegistrationStepped (.identity job) s
        (.update job (.adoptLatestRegistrationIdentity credentials))
  | writes {job change} : RegistrationStepped (.update job change) s (.write job change)
  | skips {job change}
      (hskip : ∀ r, s.users.view i job.userId = some r → change.applies r = false) :
      RegistrationStepped (.update job change) s (change.next job false)
  | written {job change r users} (hvisit : s.users.visit i job.userId change.applies
        (some ∘ change.apply) = some (.updated r, users)) :
      RegistrationStepped (.write job change) { s with users := users } (change.next job true)
  | missed {job change v users} (hmissed : ∀ r, v ≠ .updated r)
      (hvisit : s.users.visit i job.userId change.applies (some ∘ change.apply) =
        some (v, users)) :
      RegistrationStepped (.write job change) { s with users := users } (change.next job false)
  | lists {job left} : RegistrationStepped (.revoke job) s (.revokeEach job left)
  | revoked {job left left' k p v verifications}
      (hvisit : s.verifications.visit i k p (EmailVerificationToken.use s.now) =
        some (v, verifications)) :
      RegistrationStepped (.revokeEach job left) { s with verifications := verifications }
        (.revokeEach job left')
  | noLinks {job} :
      RegistrationStepped (.revokeEach job []) s (match job.kind with
        | .link => .update job .markEmailVerified
        | .reset => .commit job)
  | committed {job} : RegistrationStepped (.commit job) (s.commit i job.password) (.done none)

variable {i inp s}

theorem registrationStepped (h : registrationStep i inp s pc = some (s', pc')) :
    RegistrationStepped i s pc s' pc' := by
  cases pc
  case update =>
    cases h
    split
    · exact .writes
    · rename_i hskip
      exact .skips fun r hr => by simpa [hr] using hskip
  case consume =>
    simp only [registrationStep, verifyEmailStep] at h
    split at h
    · cases h
    · cases h
      exact .consumed ‹_›
    · exact .aborted h
  case revokeEach job left =>
    cases left with
    | nil =>
      cases h
      exact .noLinks
    | cons =>
      simp only [registrationStep, activationStep] at h
      (repeat' split at h) <;> cases h
      exact .revoked ‹_›
  case revokeEachReset job left =>
    cases left with
    | nil =>
      cases h
      exact .noResets
    | cons =>
      simp only [registrationStep, resetPasswordStep] at h
      (repeat' split at h) <;> cases h
      exact .revokedReset ‹_›
  all_goals simp only [registrationStep, registerStep, verifyEmailStep, resetPasswordStep,
    activationStep] at h
  all_goals repeat' split at h
  all_goals first | exact .aborted h | cases h
  any_goals exact .aside rfl rfl
  · exact .created ‹_›
  · exact .linked rfl ‹_›
  · exact .committedNew
  · exact .issued (by simpa [Option.isSome_iff_ne_none] using ‹¬ Option.isNone _ = true›) rfl ‹_›
  · exact .readsOwn ‹_› ‹_›
  · exact .carried ‹_› ‹_› ‹_›
  · exact .refused
  · exact .owned ‹_› ‹_›
  · exact .refused
  · exact .adopts
  · exact .forgot ‹_› rfl ‹_›
  · exact .reads ‹_›
  · exact .consumedReset ‹_›
  · exact .listsResets
  · exact .keepsIdentity
  · exact .keepsIdentity
  · exact .adoptsIdentity
  · exact .keepsIdentity
  · exact .written ‹_›
  · exact .missed ‹_› ‹_›
  · exact .lists
  · exact .committed

theorem RegistrationStepped.keeps (h : RegistrationStepped i s pc s' pc') (hI : RegistrationOk s)
    (hpc : pc.Ok i s.users) : StepKeeps i s s' pc' := by
  cases h with
  | aside hout hout' =>
    exact .stay hI ((RegistrationPc.ok_iff hout').mpr ((RegistrationPc.ok_iff hout).mp hpc))
  | aborted h => exact .abort hI h
  | created hins =>
    obtain ⟨-, hslot, -⟩ := Pg.Db.insert_eq_some hins
    exact .users hI (Pg.Db.changed_insert hins).grows (Pg.Db.quiet_insert hins)
      ⟨Pg.Db.HeldOnly.insert hpc hins, _, hslot⟩
  | @linked u _ _ _ hlink hins =>
    refine .verifications hI (hI.links.changed (Pg.Db.changed_insert hins) ?_) ⟨u, hpc⟩
    intro token htoken
    obtain rfl := Option.some.inj htoken
    obtain ⟨r, hr⟩ := Created.row hpc
    simp [hlink, Pg.Db.view, hr, Pg.Slot.view, Pg.Slot.pending]
  | committedNew =>
    obtain ⟨u, hu⟩ := hpc
    exact .commit hI hu.settling
  | issued hfound hlink hins =>
    exact .verifications hI (hI.links.replaced (Pg.Db.insertNow_spec hins) (hlink ▸ hfound)) hpc
  | readsOwn htoken hown => exact .stay hI ⟨hown, hpc, hI.links.committed _ _ htoken⟩
  | carried htoken hcarried haccepts =>
    refine .stay hI ⟨⟨hpc, hI.links.committed _ _ htoken⟩, ?_⟩
    rw [hcarried]
    exact haccepts
  | refused => exact .stay hI hpc.2.held
  | owned huser haccepts =>
    refine .stay hI ⟨hpc.2, ?_⟩
    rw [hpc.1]
    exact ⟨heldOnly_weaken hpc.2.held, _, (Pg.Db.view_of_heldOnly hpc.2.held _).trans huser,
      fun _ => haccepts⟩
  | consumed hvisit =>
    refine .verifications hI (useLink_visit hI hvisit) ?_
    have hpassword := hpc.2
    split at hpassword
    · exact ⟨rfl, hpc.1, hpassword⟩
    · exact hpassword
  | forgot huser hlink hins =>
    refine .resets hI (hI.resets.replaced (Pg.Db.insertNow_spec hins) ?_) hpc
    exact hlink ▸ Option.isSome_of_mem (findByEmail_committed huser)
  | reads htoken => exact .stay hI ⟨hpc, hI.resets.committed _ _ htoken⟩
  | consumedReset hvisit =>
    exact .resets hI (useReset_visit hI hvisit) ⟨rfl, hpc, by simp [PasswordHash.accepts]⟩
  | revokedReset hvisit => exact .resets hI (useReset_visit hI hvisit) hpc
  | adopts | listsResets | noResets | keepsIdentity | adoptsIdentity | writes | lists =>
    exact .stay hI hpc
  | skips hskip =>
    exact .stay hI (UserUpdate.Ready.skipped hpc hskip .refl (UserUpdate.Ready.held hpc))
  | written hvisit => exact UserUpdate.Ready.visited hpc hI hvisit
  | @missed _ _ v _ hmissed hvisit =>
    have hkeeps := UserUpdate.Ready.visited hpc hI hvisit
    cases v with
    | updated r => exact absurd rfl (hmissed r)
    | skipped | violation => exact hkeeps
  | revoked hvisit => exact .verifications hI (useLink_visit hI hvisit) hpc
  | @noLinks job =>
    refine .stay hI ?_
    have hrevoking : job.Revoking i s.users := hpc
    unfold ActivationJob.Revoking at hrevoking
    cases hkind : job.kind with
    | link | reset =>
      rw [hkind] at hrevoking
      exact hrevoking
  | committed => exact .commit hI (Sees.settling hpc)

theorem RegistrationPc.Ok.of_entry (hpc : s.users.HeldOnly i []) (h : pc.entry = true) :
    pc.Ok i s.users :=
  (ok_iff (by cases pc <;> first | rfl | cases h)).mpr hpc

theorem registrationProgram_keeps {a : RegistrationAct} (hI : RegistrationOk s)
    (hpc : pc.Ok i s.users) (h : registrationProgram i a s pc = some (s', pc')) :
    StepKeeps i s s' pc' := by
  cases a with
  | start pc₀ =>
    simp only [registrationProgram] at h
    split at h
    · split at h <;> cases h
      rename_i hentry
      exact .stay hI (.of_entry hpc hentry)
    · split at h <;> cases h
      rename_i hentry
      exact .stay hI (.of_entry hpc hentry)
    · cases h
  | go => exact (registrationStepped h).keeps hI hpc
  | fail =>
    simp only [registrationProgram] at h
    split at h
    · exact .abort hI h
    · cases h
  | elapse =>
    cases h
    exact ⟨⟨hI.links, hI.resets, hI.accepted⟩, hpc, .of_quiet .refl⟩

end Steps

/-! ## Every run -/

abbrev RegistrationConf.Ok (c : RegistrationConf) : Prop :=
  Holds RegistrationOk (fun i s pc => pc.Ok i s.users) c

theorem RegistrationConf.AtRest.ok (h : c.AtRest) : c.Ok where
  shared := by
    refine ⟨⟨h.linked, fun i k r hr => ?_⟩, ⟨h.resetLinked, fun i k r hr => ?_⟩, ?_⟩
    · exact nomatch (h.verifications k).symm.trans (Pg.Db.holder_of_pending hr)
    · exact nomatch (h.resets k).symm.trans (Pg.Db.holder_of_pending hr)
    · rw [h.activations]
      exact fun _ ha => nomatch ha
  procs i := by
    rw [h.procs i]
    exact fun k hk => nomatch (h.users k).symm.trans hk

theorem RegistrationConf.Ok.run {c' : RegistrationConf} (h : c.Ok)
    (hrun : Steps registrationProgram Free c c') : c'.Ok := by
  refine hrun.invariant (fun c i a s p hc _ hprog => ?_) h
  refine Holds.step (G := fun i s s' => RegistrationGuar i s.users s'.users) ?_ ?_ hc hprog
  · intro i a s p s' p' hI hpc hstep
    have hkeeps := registrationProgram_keeps hI hpc hstep
    exact ⟨hkeeps.shared, hkeeps.own, hkeeps.guar⟩
  · exact fun i j s s' p hne _ hpc hg => hpc.stable hg hne

/-- **An account is activated with the submitted password**: in every run
from a state at rest, the hash stored for an account by the commit that
activates it accepts the password given in the call. -/
theorem activated_with_password {c c' : RegistrationConf} (h : c.AtRest)
    (hrun : Steps registrationProgram Free c c') :
    ∀ a ∈ c'.shared.activations, a.stored.accepts a.submitted = true :=
  (h.ok.run hrun).shared.accepted

def registrationInitial : RegistrationConf :=
  ⟨⟨0, .empty, .empty, .empty, []⟩, fun _ => .idle⟩

theorem registrationInitial_atRest : registrationInitial.AtRest where
  procs _ := rfl
  users _ := rfl
  verifications _ := rfl
  resets _ := rfl
  linked _ _ h := nomatch h
  resetLinked _ _ h := nomatch h
  activations := rfl

/-- Two registrations on one address, with the links 10 and 11. -/
def registeredTwice : List (Nat × RegistrationAct) :=
  [(0, .start (.register ⟨"a@b.c", "one", "ann", "en"⟩)), (0, .go { salt := 1, uuid := 1 }),
    (0, .go {}), (0, .go { uuid := 10 }), (0, .go {}),
    (1, .start (.register ⟨"a@b.c", "two", "bob", "fr"⟩)), (1, .go { salt := 2 }),
    (1, .go { uuid := 11 })]

/-- The link of the second one is followed, and ends the other. -/
def followedSecond : List (Nat × RegistrationAct) :=
  [(2, .start (.verify 11 "two")), (2, .go {}), (2, .go {}), (2, .go {}), (2, .go {}),
    (2, .go {}), (2, .go {}), (2, .go { row := 10 }), (2, .go {}), (2, .go {}), (2, .go {}),
    (2, .go {})]

theorem activated_by_second_link :
    registrationInitial.AtRest ∧ ∃ c, Steps registrationProgram Free registrationInitial c ∧
      c.shared.activations = [⟨1, ⟨"two", 2⟩, "two"⟩] ∧
        ∀ a ∈ c.shared.activations, a.stored.accepts a.submitted = true := by
  obtain ⟨c, hexec, hactivations⟩ : ∃ c ∈ exec registrationProgram Free registrationInitial
      (registeredTwice ++ followedSecond), c.shared.activations = [⟨1, ⟨"two", 2⟩, "two"⟩] := by
    decide +kernel
  have hsteps := steps_of_exec hexec
  exact ⟨registrationInitial_atRest, c, hsteps, hactivations,
    activated_with_password registrationInitial_atRest hsteps⟩

end AuthApi
