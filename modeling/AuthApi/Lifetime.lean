import AuthApi.Session

/-!
# The absolute lifetime of a sign-in

Two formulas bound how long a sign-in may be refreshed. `cappedExpiry`
dates every session of the family at most `maxLifetimeSecs` after the
family's start, by a saturating addition on instants; `refreshVerdict`
refuses a refresh once that many *whole* seconds have passed, by a
truncated difference. This file shows that the two agree along every
chain of rotations: no session outlives the bound (`chain_lifetime`), a
refresh that is let through always gets a session with time left, and a
session that is still active is never refused for its age.

The clock is read several times on the way (the verdict, the expiry, the
start of the transaction, which is `NOW()`), and the database keeps
microseconds of it. All that is used is that later readings are not
earlier.
-/

namespace AuthApi

variable {n L : Nat} {clock now start : OffsetDateTime} {s : Session} {cfg : JwtConfig}

theorem i64OfU64_pos (h : 0 < n) : 0 < i64OfU64 n := by
  unfold i64OfU64
  omega

theorem seconds_pos (h : 0 < n) : 0 < seconds n :=
  Int.mul_pos (i64OfU64_pos h) (by decide)

/-- The rows of one sign-in and its rotations under a fixed lifetime
`L`, newest first, with the last reading of the clock. Every step may
use another refresh TTL (`cfg`), and `now` is where the service read the
clock for the expiry, `start` where the transaction began. -/
inductive Chain (L : Nat) : OffsetDateTime → List Session → Prop
  | issue {args : IssueArgs} {cfg : JwtConfig} {now start : OffsetDateTime}
      {tokenHash : TokenHash} {family id : Uuid}
      (hL : cfg.maxSessionLifetimeSecs = L) (hstart : now ≤ start) :
      Chain L start [(args.newSession cfg now tokenHash family).create start.toMicros id]
  | rotate {old rest cfg clock now start ip userAgent tokenHash id}
      (hchain : Chain L clock (old :: rest)) (hL : cfg.maxSessionLifetimeSecs = L)
      (hnow : clock ≤ now) (hstart : now ≤ start) :
      Chain L start
        ((old.rotation cfg now ip userAgent tokenHash).replace start.toMicros id old ::
          old.rotatedInto start.toMicros id :: rest)

/-- What every row of a chain keeps: it ends within the lifetime of its
family, whose start the clock has passed. -/
structure Session.Within (L : Nat) (clock : OffsetDateTime) (s : Session) : Prop where
  expires_le : s.expiresAt ≤ s.familyCreatedAt.saturatingAdd (seconds L)
  started : s.familyCreatedAt ≤ clock

theorem Session.Within.mono {clock' : OffsetDateTime} (h : s.Within L clock)
    (hle : clock ≤ clock') : s.Within L clock' :=
  ⟨h.expires_le, h.started.trans hle⟩

/-- The expiry is computed from the application's reading of the clock,
the family's start is the database's: the second is not earlier, and
dropping what is below a microsecond does not lose the bound. -/
theorem issued_within (args : IssueArgs) (tokenHash : TokenHash) (family id : Uuid)
    (hL : cfg.maxSessionLifetimeSecs = L) (hstart : now ≤ start) :
    ((args.newSession cfg now tokenHash family).create start.toMicros id).Within L start where
  expires_le := by
    show (cappedExpiry now _ now cfg.maxSessionLifetimeSecs).toMicros ≤ _
    rw [hL]
    calc (cappedExpiry now _ now L).toMicros
        ≤ (now.saturatingAdd (seconds L)).toMicros :=
          OffsetDateTime.toMicros_mono (min_le_right _ _)
      _ ≤ now.toMicros.saturatingAdd (seconds L) := OffsetDateTime.toMicros_saturatingAdd_le
      _ ≤ start.toMicros.saturatingAdd (seconds L) :=
          OffsetDateTime.saturatingAdd_mono (OffsetDateTime.toMicros_mono hstart) _
  started := OffsetDateTime.toMicros_le start

theorem rotated_within {old : Session} (ip : Option IpAddr) (userAgent : Option String)
    (tokenHash : TokenHash) (id : Uuid) (hL : cfg.maxSessionLifetimeSecs = L)
    (hold : old.Within L clock) (hle : clock ≤ start) :
    ((old.rotation cfg now ip userAgent tokenHash).replace start.toMicros id old).Within L
      start where
  expires_le := by
    show (cappedExpiry now _ old.familyCreatedAt cfg.maxSessionLifetimeSecs).toMicros
      ≤ old.familyCreatedAt.saturatingAdd (seconds L)
    rw [hL]
    exact (OffsetDateTime.toMicros_le _).trans (min_le_right _ _)
  started := hold.started.trans hle

theorem Chain.within {chain : List Session} (h : Chain L clock chain) :
    ∀ s ∈ chain, s.Within L clock := by
  induction h with
  | issue hL hstart =>
    intro s hs
    rw [List.mem_singleton] at hs
    subst hs
    exact issued_within _ _ _ _ hL hstart
  | @rotate old rest cfg clock now start ip userAgent tokenHash id hchain hL hnow hstart ih =>
    have hle : clock ≤ start := hnow.trans hstart
    have hold := ih old List.mem_cons_self
    intro s hs
    rcases List.mem_cons.mp hs with rfl | hs
    · exact rotated_within ip userAgent tokenHash id hL hold hle
    · rcases List.mem_cons.mp hs with rfl | hs
      · exact ⟨hold.expires_le, hold.started.trans hle⟩
      · exact (ih s (List.mem_cons_of_mem _ hs)).mono hle

/-- A refresh that is let through leaves time on the clock: both bounds
of the new expiry are past the instant of the verdict. -/
theorem lt_cappedExpiry_of_rotate {requestIp : Option IpAddr} {policy : RefreshPolicy}
    {ttlSecs : Nat} (hverdict : s.refreshVerdict now requestIp policy = .rotate)
    (httl : 0 < ttlSecs) :
    now < cappedExpiry now ttlSecs s.familyCreatedAt policy.maxLifetimeSecs := by
  obtain ⟨-, hactive, hlife⟩ := Session.refreshVerdict_eq_rotate hverdict
  have hexact := lt_of_wholeSeconds_lt hlife
  have httl' := seconds_pos httl
  refine lt_min ?_ ?_
  · exact OffsetDateTime.lt_saturatingAdd hactive (by omega)
  · refine OffsetDateTime.lt_saturatingAdd hactive ?_
    unfold seconds
    omega

/-- Below the saturated bound, the whole seconds that have passed are
fewer than the lifetime. -/
theorem Session.Within.not_too_old (h : s.Within L clock) (hclock : clock ≤ now)
    (hactive : now < s.expiresAt) :
    wholeSeconds (now.nanos - s.familyCreatedAt.nanos) < i64OfU64 L := by
  have hlt := OffsetDateTime.lt_add_of_lt_saturatingAdd (hactive.trans_le h.expires_le)
  have hstarted : s.familyCreatedAt.nanos ≤ now.nanos := h.started.trans hclock
  unfold seconds at hlt
  exact wholeSeconds_lt_of_lt (by omega) (by omega)

/-- **The two lifetime bounds agree along every chain of rotations.** -/
theorem chain_lifetime {L : Nat} {clock : OffsetDateTime} {chain : List Session}
    (h : Chain L clock chain) :
    ∀ s ∈ chain,
      s.expiresAt ≤ s.familyCreatedAt.saturatingAdd (seconds L) ∧
      (∀ now requestIp policy ttlSecs, policy.maxLifetimeSecs = L → 0 < ttlSecs →
        s.refreshVerdict now requestIp policy = .rotate →
        now < cappedExpiry now ttlSecs s.familyCreatedAt L) ∧
      (∀ now requestIp policy, policy.maxLifetimeSecs = L → clock ≤ now →
        s.isActive now = true → s.refreshVerdict now requestIp policy ≠ .expired) := by
  intro s hs
  have hwithin := h.within s hs
  refine ⟨hwithin.expires_le, ?_, ?_⟩
  · intro now requestIp policy ttlSecs hL httl hverdict
    rw [← hL]
    exact lt_cappedExpiry_of_rotate hverdict httl
  · intro now requestIp policy hL hclock hactive
    have hlt : now < s.expiresAt := by
      simp only [Session.isActive, Bool.and_eq_true, decide_eq_true_eq] at hactive
      exact hactive.2
    have hyoung := hwithin.not_too_old hclock hlt
    rw [← hL] at hyoung
    unfold Session.refreshVerdict
    rw [if_neg (show ¬ i64OfU64 policy.maxLifetimeSecs ≤ _ by omega), hactive]
    split_ifs <;> simp_all

/-! ### One sign-in, refreshed once -/

/-- The instant `n` seconds after the epoch. -/
def instant (n : Nat) : OffsetDateTime := .clamp (n * nanosPerSec)

def webSignIn : IssueArgs where
  userId := 1
  ip := none
  userAgent := none
  deviceName := none
  rememberMe := false
  sessionType := .web
  clientId := none
  scopes := none
  secondFactor := some true

/-- Ten minutes for a refresh token, an hour for the sign-in. -/
def shortSessions : JwtConfig where
  refreshExpirySecs := 86400
  shortSessionExpirySecs := 600
  maxSessionLifetimeSecs := 3600
  strictSessionBinding := true

def firstSession : Session :=
  (webSignIn.newSession shortSessions (instant 100) 1 1).create (instant 101).toMicros 2

def secondSession : Session :=
  (firstSession.rotation shortSessions (instant 500) none none 2).replace
    (instant 501).toMicros 3 firstSession

theorem chain_lifetime_refreshed_once :
    secondSession.expiresAt ≤ secondSession.familyCreatedAt.saturatingAdd (seconds 3600) ∧
      secondSession.refreshVerdict (instant 1000) none ⟨nanosPerSec, 3600, true⟩ = .rotate ∧
      instant 1000 < cappedExpiry (instant 1000) 600 secondSession.familyCreatedAt 3600 ∧
      secondSession.isActive (instant 1050) = true ∧
      secondSession.refreshVerdict (instant 1050) none ⟨nanosPerSec, 3600, true⟩ ≠ .expired := by
  have hchain : Chain 3600 (instant 501)
      [secondSession, firstSession.rotatedInto (instant 501).toMicros 3] :=
    .rotate (.issue rfl (show instant 100 ≤ instant 101 by decide)) rfl
      (show instant 101 ≤ instant 500 by decide) (by decide)
  obtain ⟨hexpires, hrotate, hactive⟩ :=
    chain_lifetime hchain secondSession List.mem_cons_self
  exact ⟨hexpires, by decide, hrotate _ none ⟨nanosPerSec, 3600, true⟩ 600 rfl (by decide)
    (by decide), by decide, hactive _ none _ rfl (by decide) (by decide)⟩

end AuthApi
