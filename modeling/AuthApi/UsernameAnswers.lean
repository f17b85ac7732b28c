import AuthApi.Registration

/-!
# What the answers to registrations tell about an address

A registration on an address that has an account is accepted like one on a
free address, and reserves the username it asks for, so that asking for it
again is answered alike. The usernames of the two cases are kept in
different tables, though: with a new account for good, as a reservation for
a day and only until the next registration on the address. Here two runs of
the same calls are compared, on states that differ in one active account.

They are told apart by three calls (`answers_differ`). They are not as
long as the calls on the address all ask for one username, nobody asks
for it a day after the first of them, and no expired reservation of it
is in the way: an expired one is not reported as taken, but makes the
`INSERT` of the new one do nothing (`answers_alike`).
-/

namespace AuthApi

/-! ## `register_account`, one call after another -/

structure UsernameReservation where
  username : String
  expiresAt : Int
  reservedFor : Uuid
deriving DecidableEq

structure Directory where
  users : List Account
  reservations : List UsernameReservation
deriving DecidableEq

/-- A call, with the time, the id and the salt drawn for it, and whether
the check for breached passwords refuses it. -/
structure RegisterCall where
  registrant : Registrant
  now : Int
  uuid : Uuid
  salt : Nat
  refusal : Option AppError
deriving DecidableEq

def RegisterCall.account (call : RegisterCall) : Account :=
  ⟨call.uuid, call.registrant.email, .pendingVerification,
    ⟨call.registrant.password, call.salt⟩, call.registrant.username,
    call.registrant.preferredLocale⟩

namespace Directory

variable (d : Directory)

def usernameUnavailable (username : String) (now : Int) : Bool :=
  d.users.any (·.username.toLower = username.toLower) ||
    d.reservations.any fun r => r.username.toLower = username.toLower && now < r.expiresAt

def findByEmail (email : String) : Option Account := d.users.find? (·.email = email)

/-- The account's reservation is replaced, unless a row of the new username
is left, expired or not. -/
def reserveUsername (username : String) (account : Uuid) (expiresAt : Int) : Directory :=
  let rest := d.reservations.filter (·.reservedFor ≠ account)
  { d with
    reservations :=
      if rest.any (·.username.toLower = username.toLower) then rest
      else ⟨username, expiresAt, account⟩ :: rest }

def registerAccount (call : RegisterCall) : Except AppError Unit × Directory :=
  let username := call.registrant.username
  if d.usernameUnavailable username call.now then (.error (.conflict "username_taken"), d)
  else
    match call.refusal with
    | some error => (.error error, d)
    | none =>
      match d.findByEmail call.registrant.email with
      | some existing =>
        (.ok (), d.reserveUsername username existing.id
          (call.now + emailTokenExpirySecs * nanosPerSec))
      | none =>
        if d.users.any (·.id = call.uuid) then (.error .internal, d)
        else (.ok (), { d with users := call.account :: d.users })

def answers : Directory → List RegisterCall → List (Except AppError Unit)
  | _, [] => []
  | d, call :: rest => (d.registerAccount call).1 :: answers (d.registerAccount call).2 rest

end Directory

/-! ## Two states that differ in one account -/

/-- The second state has no account on the address of `a`, and nothing
refers to `a`. -/
structure Directory.Lacks (d : Directory) (a : Account) : Prop where
  address : ∀ u ∈ d.users, u.email ≠ a.email
  id : ∀ u ∈ d.users, u.id ≠ a.id
  reserved : ∀ r ∈ d.reservations, r.reservedFor ≠ a.id

/-- The first one: the same with `a`. -/
def Directory.withAccount (d : Directory) (a : Account) : Directory :=
  { d with users := a :: d.users }

def NewIds (d : Directory) (calls : List RegisterCall) : Prop :=
  (calls.map RegisterCall.uuid).Nodup ∧
    ∀ call ∈ calls, ∀ u ∈ d.users, u.id ≠ call.uuid

instance (d : Directory) (calls : List RegisterCall) : Decidable (NewIds d calls) :=
  inferInstanceAs (Decidable (_ ∧ _))

abbrev reservationNanos : Int := emailTokenExpirySecs * nanosPerSec

/-- A call on the address `email` asks for `username`, at a time when no
expired reservation of it is left; and whoever asks for it does so less
than a day after `start`, when these calls begin. -/
def OneUsername (email username : String) (start : Int) (d : Directory) (call : RegisterCall) :
    Prop :=
  (call.registrant.email = email →
    call.registrant.username.toLower = username ∧ start ≤ call.now ∧
      ∀ r ∈ d.reservations, r.username.toLower = username → call.now < r.expiresAt) ∧
  (call.registrant.username.toLower = username → call.now < start + reservationNanos)

instance (email username : String) (start : Int) (d : Directory) (call : RegisterCall) :
    Decidable (OneUsername email username start d call) :=
  inferInstanceAs (Decidable (_ ∧ _))

/-- So does every call of the sequence, in the state it finds. -/
def OneUsernameThroughout (email username : String) (start : Int) :
    Directory → List RegisterCall → Prop
  | _, [] => True
  | d, call :: rest =>
    OneUsername email username start d call ∧
      OneUsernameThroughout email username start (d.registerAccount call).2 rest

instance (email username : String) (start : Int) :
    (d : Directory) → (calls : List RegisterCall) →
      Decidable (OneUsernameThroughout email username start d calls)
  | _, [] => inferInstanceAs (Decidable True)
  | d, call :: rest =>
    have := instDecidableOneUsernameThroughout email username start
      (d.registerAccount call).2 rest
    inferInstanceAs (Decidable (_ ∧ _))

/-! ## The two runs -/

/-- Before a registration on the address was accepted, neither state has a
trace of one. -/
structure Unregistered (a : Account) (d₁ d₂ : Directory) : Prop where
  absent : ∀ u ∈ d₂.users, u.email ≠ a.email
  unreserved : ∀ r ∈ d₁.reservations, r.reservedFor ≠ a.id

/-- Afterwards the username is reserved for `a` in the first state, and that
of the new account in the second. -/
structure Taken (a : Account) (username : String) (start : Int) (d₁ d₂ : Directory) : Prop where
  account : ∃ u ∈ d₂.users, u.username.toLower = username
  accounts : ∀ u ∈ d₂.users, u.email = a.email → u.username.toLower = username
  reservation : ∃ r ∈ d₁.reservations, r.reservedFor = a.id ∧
    r.username.toLower = username ∧ start + reservationNanos ≤ r.expiresAt
  reservations : ∀ r ∈ d₁.reservations, r.reservedFor = a.id → r.username.toLower = username

structure Alike (a : Account) (username : String) (start : Int) (d₁ d₂ : Directory) : Prop where
  own : d₁.findByEmail a.email = some a
  owns : ∀ u ∈ d₁.users, u.email = a.email → u = a
  ids : ∀ u ∈ d₁.users, u.email ≠ a.email → u.id ≠ a.id
  others : d₁.users.filter (·.email ≠ a.email) = d₂.users.filter (·.email ≠ a.email)
  kept : d₁.reservations.filter (·.reservedFor ≠ a.id) = d₂.reservations
  phase : Unregistered a d₁ d₂ ∨ Taken a username start d₁ d₂

section Alike

variable {a u : Account} {username name : String} {start now : Int} {d d₁ d₂ : Directory}
  {call : RegisterCall}

theorem usernameUnavailable_iff :
    d.usernameUnavailable name now = true ↔
      (∃ u ∈ d.users, u.username.toLower = name.toLower) ∨
        ∃ r ∈ d.reservations, r.username.toLower = name.toLower ∧ now < r.expiresAt := by
  simp [Directory.usernameUnavailable]

theorem alike_initial (h : d.Lacks a) : Alike a username start (d.withAccount a) d where
  own := by simp [Directory.findByEmail, Directory.withAccount]
  owns u hu he := by
    rcases List.mem_cons.mp hu with rfl | hu
    · rfl
    · exact absurd he (h.address u hu)
  ids u hu he := by
    rcases List.mem_cons.mp hu with rfl | hu
    · exact absurd rfl he
    · exact h.id u hu
  others := by simp [Directory.withAccount]
  kept := List.filter_eq_self.mpr fun r hr => by simpa using h.reserved r hr
  phase := .inl ⟨h.address, h.reserved⟩

section

variable (h : Alike a username start d₁ d₂)
include h

theorem Alike.mem_users (he : u.email ≠ a.email) : u ∈ d₁.users ↔ u ∈ d₂.users := by
  have := congrArg (u ∈ ·) h.others
  simpa [he] using this

theorem Alike.mem_reservations {r : UsernameReservation} :
    r ∈ d₂.reservations ↔ r ∈ d₁.reservations ∧ r.reservedFor ≠ a.id := by
  rw [← h.kept]
  simp

theorem Alike.unavailable (hname : name.toLower ≠ a.username.toLower)
    (hsoon : name.toLower = username → now < start + reservationNanos) :
    d₁.usernameUnavailable name now = d₂.usernameUnavailable name now := by
  rw [Bool.eq_iff_iff, usernameUnavailable_iff, usernameUnavailable_iff]
  constructor
  · rintro (⟨u, hu, heq⟩ | ⟨r, hr, heq, hlive⟩)
    · by_cases he : u.email = a.email
      · obtain rfl := h.owns u hu he
        exact absurd heq.symm hname
      · exact .inl ⟨u, (h.mem_users he).mp hu, heq⟩
    · by_cases hfor : r.reservedFor = a.id
      · rcases h.phase with hnone | htaken
        · exact absurd hfor (hnone.unreserved r hr)
        · obtain ⟨u, hu, hname'⟩ := htaken.account
          exact .inl ⟨u, hu, hname'.trans ((htaken.reservations r hr hfor).symm.trans heq)⟩
      · exact .inr ⟨r, h.mem_reservations.mpr ⟨hr, hfor⟩, heq, hlive⟩
  · rintro (⟨u, hu, heq⟩ | ⟨r, hr, heq, hlive⟩)
    · by_cases he : u.email = a.email
      · rcases h.phase with hnone | htaken
        · exact absurd he (hnone.absent u hu)
        · obtain ⟨r, hr, -, hname', hexpires⟩ := htaken.reservation
          have hasked : name.toLower = username := heq.symm.trans (htaken.accounts u hu he)
          have := hsoon hasked
          exact .inr ⟨r, hr, hname'.trans hasked.symm, by omega⟩
      · exact .inl ⟨u, (h.mem_users he).mpr hu, heq⟩
    · exact .inr ⟨r, (h.mem_reservations.mp hr).1, heq, hlive⟩

theorem Alike.findByEmail {email : String} (he : email ≠ a.email) :
    d₁.findByEmail email = d₂.findByEmail email := by
  have hfilter : ∀ users : List Account, users.find? (·.email = email) =
      (users.filter (·.email ≠ a.email)).find? (·.email = email) := by
    intro users
    rw [List.find?_filter]
    congr 1
    funext u
    by_cases hu : u.email = email <;> simp [hu, he]
  rw [Directory.findByEmail, Directory.findByEmail, hfilter, h.others, ← hfilter]

end

/-! ### What a call does to both -/

theorem Taken.ne_of_free (h : Taken a username start d₁ d₂)
    (hfree : d₂.usernameUnavailable name now = false) : name.toLower ≠ username := by
  intro heq
  obtain ⟨u, hu, hname⟩ := h.account
  have htaken : d₂.usernameUnavailable name now = true :=
    usernameUnavailable_iff.mpr (.inl ⟨u, hu, hname.trans heq.symm⟩)
  rw [hfree] at htaken
  cases htaken

section

variable (h : Alike a username start d₁ d₂)
include h

theorem Alike.reserve {expiresAt : Int} {account : Uuid}
    (hfree : d₂.usernameUnavailable name now = false) (hne : account ≠ a.id) :
    Alike a username start (d₁.reserveUsername name account expiresAt)
      (d₂.reserveUsername name account expiresAt) := by
  have hrest : (d₁.reservations.filter (·.reservedFor ≠ account)).filter (·.reservedFor ≠ a.id) =
      d₂.reservations.filter (·.reservedFor ≠ account) := by
    rw [List.filter_comm, h.kept]
  -- The row of `a`, if any, is of another username and not in the way.
  have hconflict : (d₁.reservations.filter (·.reservedFor ≠ account)).any
        (·.username.toLower = name.toLower) =
      (d₂.reservations.filter (·.reservedFor ≠ account)).any
        (·.username.toLower = name.toLower) := by
    rw [← hrest, Bool.eq_iff_iff]
    simp only [List.any_eq_true, List.mem_filter, decide_eq_true_eq]
    constructor
    · rintro ⟨r, ⟨hr, hfor⟩, hname⟩
      refine ⟨r, ⟨⟨hr, hfor⟩, fun hown => ?_⟩, hname⟩
      rcases h.phase with hnone | htaken
      · exact hnone.unreserved r hr hown
      · exact htaken.ne_of_free hfree (hname.symm.trans (htaken.reservations r hr hown))
    · rintro ⟨r, ⟨hr, -⟩, hname⟩
      exact ⟨r, hr, hname⟩
  refine ⟨h.own, h.owns, h.ids, h.others, ?_, ?_⟩
  · simp only [Directory.reserveUsername, hconflict]
    split
    · exact hrest
    · rw [List.filter_cons_of_pos (by simpa using hne), hrest]
  · have hmem : ∀ r ∈ (d₁.reserveUsername name account expiresAt).reservations,
        r.reservedFor = a.id → r ∈ d₁.reservations := by
      intro r hr hown
      simp only [Directory.reserveUsername] at hr
      split at hr
      · exact (List.mem_filter.mp hr).1
      · rcases List.mem_cons.mp hr with rfl | hr
        · exact absurd hown hne
        · exact (List.mem_filter.mp hr).1
    rcases h.phase with hnone | htaken
    · exact .inl ⟨hnone.absent, fun r hr hown => hnone.unreserved r (hmem r hr hown) hown⟩
    · obtain ⟨r, hr, hown, hname⟩ := htaken.reservation
      refine .inr ⟨htaken.account, htaken.accounts, ⟨r, ?_, hown, hname⟩,
        fun r hr hown => htaken.reservations r (hmem r hr hown) hown⟩
      have hleft : r ∈ d₁.reservations.filter (·.reservedFor ≠ account) :=
        List.mem_filter.mpr ⟨hr, by simpa [hown] using Ne.symm hne⟩
      simp only [Directory.reserveUsername]
      split
      · exact hleft
      · exact List.mem_cons_of_mem _ hleft

theorem Alike.create (haddress : u.email ≠ a.email) (hid : u.id ≠ a.id) :
    Alike a username start { d₁ with users := u :: d₁.users } { d₂ with users := u :: d₂.users }
    where
  own := by
    have := h.own
    simpa [Directory.findByEmail, haddress] using this
  owns v hv he := by
    rcases List.mem_cons.mp hv with rfl | hv
    · exact absurd he haddress
    · exact h.owns v hv he
  ids v hv he := by
    rcases List.mem_cons.mp hv with rfl | hv
    · exact hid
    · exact h.ids v hv he
  others := by
    have := h.others
    simpa [haddress] using this
  kept := h.kept
  phase := by
    rcases h.phase with hnone | htaken
    · refine .inl ⟨fun v hv => ?_, hnone.unreserved⟩
      rcases List.mem_cons.mp hv with rfl | hv
      · exact haddress
      · exact hnone.absent v hv
    · obtain ⟨w, hw, hname⟩ := htaken.account
      refine .inr ⟨⟨w, List.mem_cons_of_mem _ hw, hname⟩, fun v hv he => ?_, htaken.reservation,
        htaken.reservations⟩
      rcases List.mem_cons.mp hv with rfl | hv
      · exact absurd he haddress
      · exact htaken.accounts v hv he

/-- The first registration on the address itself: a reservation in one
state, an account in the other. -/
theorem Alike.register (hnone : Unregistered a d₁ d₂) (haddress : u.email = a.email)
    (hname : u.username.toLower = username) (hstart : start ≤ now)
    (hleft : ∀ r ∈ d₁.reservations, r.username.toLower ≠ u.username.toLower) :
    Alike a username start (d₁.reserveUsername u.username a.id (now + reservationNanos))
      { d₂ with users := u :: d₂.users } := by
  have hrest : d₁.reservations.filter (·.reservedFor ≠ a.id) = d₁.reservations :=
    List.filter_eq_self.mpr fun r hr => by simpa using hnone.unreserved r hr
  have hreserved : (d₁.reserveUsername u.username a.id (now + reservationNanos)).reservations =
      ⟨u.username, now + reservationNanos, a.id⟩ :: d₁.reservations := by
    simp only [Directory.reserveUsername, hrest]
    rw [if_neg]
    simpa using hleft
  refine ⟨h.own, h.owns, h.ids, ?_, ?_, .inr ⟨⟨u, List.mem_cons_self, hname⟩, ?_, ?_, ?_⟩⟩
  · have := h.others
    simpa [haddress, Directory.reserveUsername] using this
  · rw [hreserved, ← h.kept]
    simp
  · intro v hv he
    rcases List.mem_cons.mp hv with rfl | hv
    · exact hname
    · exact absurd he (hnone.absent v hv)
  · rw [hreserved]
    exact ⟨_, List.mem_cons_self, rfl, hname, Int.add_le_add_right hstart _⟩
  · rw [hreserved]
    intro r hr hown
    rcases List.mem_cons.mp hr with rfl | hr
    · exact hname
    · exact absurd hown (hnone.unreserved r hr)

theorem Alike.step (hname : call.registrant.username.toLower ≠ a.username.toLower)
    (hok : OneUsername a.email username start d₁ call) (hnew₁ : ∀ u ∈ d₁.users, u.id ≠ call.uuid)
    (hnew₂ : ∀ u ∈ d₂.users, u.id ≠ call.uuid) :
    (d₁.registerAccount call).1 = (d₂.registerAccount call).1 ∧
      Alike a username start (d₁.registerAccount call).2 (d₂.registerAccount call).2 := by
  have hsame := h.unavailable hname hok.2
  have hdraw₁ : d₁.users.any (·.id = call.uuid) = false := by simpa using hnew₁
  have hdraw₂ : d₂.users.any (·.id = call.uuid) = false := by simpa using hnew₂
  cases hfree : d₂.usernameUnavailable call.registrant.username call.now with
  | true =>
    rw [hfree] at hsame
    simp only [Directory.registerAccount, hsame, hfree, if_true]
    exact ⟨trivial, h⟩
  | false =>
    rw [hfree] at hsame
    simp only [Directory.registerAccount, hsame, hfree, Bool.false_eq_true, if_false]
    cases call.refusal with
    | some => exact ⟨rfl, h⟩
    | none =>
      by_cases he : call.registrant.email = a.email
      · obtain ⟨hasked, hstart, hleft⟩ := hok.1 he
        rcases h.phase with hnone | htaken
        · have habsent : d₂.findByEmail a.email = none := by
            simpa [Directory.findByEmail] using hnone.absent
          simp only [he, h.own, habsent, hdraw₂, Bool.false_eq_true, if_false]
          refine ⟨trivial, h.register (u := call.account) hnone he hasked hstart ?_⟩
          intro r hr hr'
          -- A row of the username that is left has not expired, and would be reported.
          have hlive := hleft r hr (hr'.trans hasked)
          have htaken := usernameUnavailable_iff.mpr (.inr ⟨r, hr, hr', hlive⟩)
          exact Bool.false_ne_true (hsame.symm.trans htaken)
        · exact absurd hasked (htaken.ne_of_free hfree)
      · rw [h.findByEmail he]
        cases hfind : d₂.findByEmail call.registrant.email with
        | some existing =>
          have hmem : existing ∈ d₁.users := List.mem_of_find?_eq_some
            ((h.findByEmail he).trans hfind)
          have haddress : existing.email = call.registrant.email := by
            simpa using List.find?_some hfind
          have hid := h.ids existing hmem (haddress.trans_ne he)
          exact ⟨rfl, h.reserve hfree hid⟩
        | none =>
          have hid : call.uuid ≠ a.id := fun heq =>
            hnew₁ a (List.mem_of_find?_eq_some h.own) heq.symm
          simp only [hdraw₁, hdraw₂, Bool.false_eq_true, if_false]
          exact ⟨trivial, h.create he hid⟩

end

theorem registerAccount_ids (hu : u ∈ (d.registerAccount call).2.users) :
    u ∈ d.users ∨ u.id = call.uuid := by
  simp only [Directory.registerAccount] at hu
  split at hu
  · exact .inl hu
  · split at hu
    · exact .inl hu
    · split at hu
      · exact .inl hu
      · split at hu
        · exact .inl hu
        · rcases List.mem_cons.mp hu with rfl | hu
          · exact .inr rfl
          · exact .inl hu

theorem NewIds.rest {rest : List RegisterCall} (h : NewIds d (call :: rest)) :
    NewIds (d.registerAccount call).2 rest := by
  obtain ⟨hnodup, hnew⟩ := h
  rw [List.map_cons, List.nodup_cons] at hnodup
  refine ⟨hnodup.2, fun call' hcall' u hu => ?_⟩
  rcases registerAccount_ids hu with hu | hu
  · exact hnew call' (List.mem_cons_of_mem _ hcall') u hu
  · exact fun heq => hnodup.1 (List.mem_map.mpr ⟨call', hcall', heq.symm.trans hu⟩)

theorem Alike.answers : ∀ {calls : List RegisterCall} {d₁ d₂ : Directory},
    Alike a username start d₁ d₂ →
    (∀ call ∈ calls, call.registrant.username.toLower ≠ a.username.toLower) →
    OneUsernameThroughout a.email username start d₁ calls →
    NewIds d₁ calls → NewIds d₂ calls → d₁.answers calls = d₂.answers calls
  | [], _, _, _, _, _, _, _ => rfl
  | call :: rest, d₁, d₂, h, hnames, hok, hnew₁, hnew₂ => by
      obtain ⟨hanswer, halike⟩ := h.step (hnames call List.mem_cons_self) hok.1
        (hnew₁.2 call List.mem_cons_self) (hnew₂.2 call List.mem_cons_self)
      have hrest := halike.answers (fun c hc => hnames c (List.mem_cons_of_mem _ hc)) hok.2
        hnew₁.rest hnew₂.rest
      rw [Directory.answers, Directory.answers, hanswer, hrest]

end Alike

/-- **An account does not show in the answers** to calls that ask for other
usernames than its own, as long as those on its address ask for one
username and nobody asks for that one a day later. -/
theorem answers_alike (username : String) (start : Int) {a : Account} {d : Directory}
    {calls : List RegisterCall} (h : d.Lacks a)
    (hnames : ∀ call ∈ calls, call.registrant.username.toLower ≠ a.username.toLower)
    (hnew : NewIds (d.withAccount a) calls)
    (hok : OneUsernameThroughout a.email username start (d.withAccount a) calls) :
    (d.withAccount a).answers calls = d.answers calls :=
  (alike_initial h).answers hnames hok hnew
    ⟨hnew.1, fun call hcall u hu => hnew.2 call hcall u (List.mem_cons_of_mem _ hu)⟩

/-! ### Two sequences of calls -/

/-- The owner of the address in question. -/
def owner : Account := ⟨1, "e@x.y", .active, ⟨"secret", 0⟩, "owner", "en"⟩

theorem lacks_of_empty (a : Account) : (Directory.mk [] []).Lacks a where
  address _ h := nomatch h
  id _ h := nomatch h
  reserved _ h := nomatch h

/-- A call on `email` that asks for `username`, `secs` seconds into the run. -/
def asking (uuid : Uuid) (email username : String) (secs : Int) : RegisterCall :=
  ⟨⟨email, "password", username, "en"⟩, secs * nanosPerSec, uuid, 0, none⟩

/-- The address asks twice for one username, another asks for it an hour
later, and for another one after two days. -/
theorem one_username_alike :
    let calls := [asking 2 "e@x.y" "ann" 0, asking 3 "e@x.y" "Ann" 60,
      asking 4 "f@x.y" "ann" 3600, asking 5 "f@x.y" "bob" 172800]
    (Directory.mk [] []).Lacks owner ∧
      (Directory.mk [owner] []).answers calls = (Directory.mk [] []).answers calls ∧
        (Directory.mk [] []).answers calls = [.ok (), .error (.conflict "username_taken"),
          .error (.conflict "username_taken"), .ok ()] := by
  intro calls
  refine ⟨lacks_of_empty owner, ?_, by decide +kernel⟩
  exact answers_alike "ann" 0 (lacks_of_empty owner) (by decide +kernel) (by decide +kernel)
    (by decide +kernel)

/-- The address asks for one username and then for another, and a second
address asks for the first. The reservation has been replaced, the account
has not: the last answer tells whether the address had an account. -/
theorem answers_differ :
    let calls := [asking 2 "e@x.y" "ann" 0, asking 3 "e@x.y" "bob" 60,
      asking 4 "f@x.y" "ann" 120]
    (Directory.mk [] []).Lacks owner ∧ owner.status = .active ∧
      (∀ call ∈ calls, call.registrant.username.toLower ≠ owner.username.toLower) ∧
      NewIds ((Directory.mk [] []).withAccount owner) calls ∧
      ((Directory.mk [] []).withAccount owner).answers calls = [.ok (), .ok (), .ok ()] ∧
      (Directory.mk [] []).answers calls =
        [.ok (), .ok (), .error (.conflict "username_taken")] := by
  exact ⟨lacks_of_empty owner, rfl, by decide +kernel⟩

end AuthApi
