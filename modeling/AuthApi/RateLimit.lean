import AuthApi.Redis
import Mathlib.Data.Rat.Floor
import Mathlib.Tactic.FieldSimp
import Mathlib.Tactic.Linarith
import Mathlib.Tactic.Positivity
import Mathlib.Tactic.Ring

/-!
# The rate limiter

The script counts the requests of each bucket in two aligned windows and
weighs the previous one by the part of it still inside the sliding minute.
What it keeps are the true counts of the accepted requests (`Exact`), over
window changes and after a key has expired: a key outlives both windows it
is read for. So its answer is one on the true counts (`answer_of_hits`),
whatever `Rule` the script's arithmetic makes of them.

The bounds on what is accepted (`accepted_within_limits`) follow from the
comparison made at each acceptance, and when a client that waits is let in
(`retry_accepted_iff`) from the wait. For these two the rule is `rational`,
where the script computes with floating point.
-/

namespace AuthApi

def windowMs : Int := 60000

/-- The hash of one bucket. -/
structure Counters where
  w : Int
  c : Nat
  p : Nat
deriving DecidableEq

abbrev BucketStore (κ : Type) := Redis.Store κ Counters

/-- A call of the script; each key has a limit. -/
structure Hit (κ : Type) where
  now : Int
  keys : List κ

def into (now : Int) : ℚ := ((now % windowMs : Int) : ℚ) / (windowMs : ℚ)

variable {κ : Type} {st : BucketStore κ} {r : Hit κ} {k : κ} {now : Int}
  {accepted : List (Hit κ)}

/-- `c` and `p` of a bucket, as of `now`. -/
def counters (st : BucketStore κ) (now : Int) (k : κ) : Nat × Nat :=
  match st.get now k with
  | none => (0, 0)
  | some h =>
    if h.w < now / windowMs - 1 then (0, 0)
    else if h.w = now / windowMs - 1 then (0, h.c)
    else (h.c, h.p)

/-- The wait a bucket refuses with. -/
def refusal (now : Int) (limit : Nat) : Nat × Nat → Option Nat
  | (c, p) =>
    if (limit : ℚ) < p * (1 - into now) + c + 1 then
      let wait : Int :=
        if c + 1 ≤ limit ∧ 0 < p then
          ⌈(p * (1 - into now) + c + 1 - limit) / p * (windowMs : ℚ)⌉
        else windowMs - now % windowMs
      some (max wait 1).toNat
    else none

theorem refusal_ne_zero {n wait : Nat} {state : Nat × Nat}
    (h : refusal now n state = some wait) : wait ≠ 0 := by
  simp only [refusal] at h
  split at h <;> cases h
  omega

/-- How a bucket decides on its counts, by some arithmetic. -/
structure Rule where
  refusal : Int → Nat → Nat × Nat → Option Nat
  refusal_ne_zero : ∀ {now n state wait}, refusal now n state = some wait → wait ≠ 0

def rational : Rule := ⟨refusal, refusal_ne_zero⟩

variable [DecidableEq κ] {limit : κ → Nat}

/-- `SLIDING_WINDOW`, with its answer. -/
def slidingWindow (rule : Rule) (limit : κ → Nat) (st : BucketStore κ) (r : Hit κ) :
    BucketStore κ × Nat :=
  match r.keys.findSome? fun k => rule.refusal r.now (limit k) (counters st r.now k) with
  | some wait => (st, wait)
  | none =>
    (r.keys.foldl (fun st' k =>
      let state := counters st r.now k
      st'.setEx r.now k ⟨r.now / windowMs, state.1 + 1, state.2⟩ (2 * windowMs)) st, 0)

def retryAfterSecs (waitMs : Nat) : Nat := max ((waitMs + 999) / 1000) 1

/-- The store and the requests that were accepted. -/
structure Limiter (κ : Type) where
  store : BucketStore κ
  accepted : List (Hit κ)

def Limiter.serve (rule : Rule) (limit : κ → Nat) (l : Limiter κ) (r : Hit κ) : Limiter κ :=
  let answer := slidingWindow rule limit l.store r
  ⟨answer.1, if answer.2 = 0 then l.accepted ++ [r] else l.accepted⟩

def serveAll (rule : Rule) (limit : κ → Nat) (requests : List (Hit κ)) : Limiter κ :=
  requests.foldl (Limiter.serve rule limit) ⟨.empty, []⟩

/-- The requests of a bucket in the window numbered `n`. -/
def hits (accepted : List (Hit κ)) (k : κ) (n : Int) : Nat :=
  accepted.countP fun r => decide (k ∈ r.keys ∧ r.now / windowMs = n)

/-! ## The decision -/

theorem into_nonneg (now : Int) : 0 ≤ into now := by
  have hmod : 0 ≤ now % windowMs := Int.emod_nonneg _ (by decide)
  exact div_nonneg (by exact_mod_cast hmod) (by decide +kernel)

theorem into_le_one (now : Int) : into now ≤ 1 := by
  have hmod : now % windowMs ≤ windowMs := (Int.emod_lt_of_pos _ (by decide)).le
  exact div_le_one_of_le₀ (by exact_mod_cast hmod) (by decide +kernel)

theorem refusal_eq_none {n c p : Nat} :
    refusal now n (c, p) = none ↔ p * (1 - into now) + c + 1 ≤ n := by
  simp only [refusal]
  split
  · rename_i h
    simp [h]
  · rename_i h
    simpa using h

/-- What one call does, with its answer. -/
inductive Limiter.Served (rule : Rule) (limit : κ → Nat) (l : Limiter κ) (r : Hit κ) :
    Limiter κ → Nat → Prop
  | accepted {st'} (hfits : ∀ k ∈ r.keys,
        rule.refusal r.now (limit k) (counters l.store r.now k) = none)
      (hentry : ∀ k, st'.entry k = if k ∈ r.keys then
        some (⟨r.now / windowMs, (counters l.store r.now k).1 + 1, (counters l.store r.now k).2⟩,
          some (r.now + 2 * windowMs)) else l.store.entry k) :
      Served rule limit l r ⟨st', l.accepted ++ [r]⟩ 0
  | refused {wait} (hwait : wait ≠ 0) : Served rule limit l r l wait

variable {rule : Rule}

theorem Limiter.served (rule : Rule) (limit : κ → Nat) (l : Limiter κ) (r : Hit κ) :
    l.Served rule limit r (l.serve rule limit r) (slidingWindow rule limit l.store r).2 := by
  unfold Limiter.serve slidingWindow
  split
  · rename_i wait hfind
    obtain ⟨k, hk, hrefusal⟩ := List.exists_of_findSome?_eq_some hfind
    have hwait := rule.refusal_ne_zero hrefusal
    simp only [hwait, if_false]
    exact .refused hwait
  · rename_i hfind
    exact .accepted (List.findSome?_eq_none_iff.mp hfind) fun k => Redis.Store.foldl_setEx_entry ..

/-! ## The counters are the true counts -/

/-- The counters of every bucket, from the last acceptance on. -/
def Limiter.Exact (l : Limiter κ) : Prop :=
  ∀ k now, (∀ r ∈ l.accepted, r.now ≤ now) → counters l.store now k =
    (hits l.accepted k (now / windowMs), hits l.accepted k (now / windowMs - 1))

theorem hits_append (accepted : List (Hit κ)) (r : Hit κ) (k : κ) (n : Int) :
    hits (accepted ++ [r]) k n =
      hits accepted k n + if k ∈ r.keys ∧ r.now / windowMs = n then 1 else 0 := by
  simp [hits, List.countP_append, List.countP_singleton]

theorem hits_later {n : Int} (h : ∀ r ∈ accepted, r.now ≤ now) (hn : now / windowMs < n) :
    hits accepted k n = 0 := by
  simp only [hits, List.countP_eq_zero, decide_eq_true_eq]
  rintro r hr ⟨-, heq⟩
  have hdiv : r.now / windowMs ≤ now / windowMs := Int.ediv_le_ediv (by decide) (h r hr)
  omega

omit [DecidableEq κ] in
/-- A bucket that was counted in holds its counts until they no longer
matter; the key goes later. -/
theorem counters_later {now' : Int} {c p : Nat}
    (hentry : st.entry k = some (⟨now / windowMs, c, p⟩, some (now + 2 * windowMs)))
    (hle : now ≤ now') :
    counters st now' k =
      if now' / windowMs = now / windowMs then (c, p)
      else if now' / windowMs = now / windowMs + 1 then (0, c) else (0, 0) := by
  have hdiv : now / windowMs ≤ now' / windowMs := Int.ediv_le_ediv (by decide) hle
  unfold counters
  split
  · rename_i hget
    have hlt := Redis.Store.deadline_lt_of_get hentry hget
    have hlate : now / windowMs + 1 < now' / windowMs := by
      unfold windowMs at *
      omega
    rw [if_neg (by omega), if_neg (by omega)]
  · rename_i h hget
    cases Redis.Store.get_of_entry hentry hget
    grind

theorem Limiter.Exact.serve {l : Limiter κ} (h : l.Exact)
    (hlast : ∀ r' ∈ l.accepted, r'.now ≤ r.now) : (l.serve rule limit r).Exact := by
  have hserved := l.served rule limit r
  generalize l.serve rule limit r = l', (slidingWindow rule limit l.store r).2 = wait at hserved ⊢
  cases hserved with
  | refused => exact h
  | accepted hfits hentry =>
    intro k now hnow
    have hle : r.now ≤ now := hnow r (by simp)
    have hold : ∀ r' ∈ l.accepted, r'.now ≤ now := fun r' hr' => hnow r' (by simp [hr'])
    by_cases hk : k ∈ r.keys
    · have heq := hentry k
      rw [if_pos hk, h k r.now hlast] at heq
      rw [counters_later heq hle, hits_append, hits_append]
      have hdiv : r.now / windowMs ≤ now / windowMs := Int.ediv_le_ediv (by decide) hle
      rcases hdiv.eq_or_lt with hsame | hlater
      · simp [hk, hsame]
        omega
      · rw [if_neg (by omega), hits_later hlast hlater]
        split
        · rename_i hnext
          simp [hk, hnext]
        · rw [hits_later hlast (by omega)]
          simp [hlater.ne]
          omega
    · have heq := hentry k
      rw [if_neg hk] at heq
      rw [hits_append, hits_append]
      simp only [hk, false_and, if_false, Nat.add_zero]
      rw [← h k now hold]
      simp only [counters, Redis.Store.get_of_entry_eq heq]

theorem serveAll_append (requests : List (Hit κ)) (r : Hit κ) :
    serveAll rule limit (requests ++ [r]) = (serveAll rule limit requests).serve rule limit r :=
  List.foldl_append ..

theorem serveAll_accepted (requests : List (Hit κ)) :
    ∀ r ∈ (serveAll rule limit requests).accepted, r ∈ requests := by
  induction requests using List.reverseRecOn with
  | nil => simp [serveAll]
  | append_singleton requests last ih =>
    intro r hr
    rw [serveAll_append] at hr
    simp only [Limiter.serve] at hr
    split at hr
    · rcases List.mem_append.mp hr with hr | hr
      · exact List.mem_append_left _ (ih r hr)
      · exact List.mem_append_right _ hr
    · exact List.mem_append_left _ (ih r hr)

theorem accepted_le (rule : Rule) (limit : κ → Nat) {requests : List (Hit κ)}
    (h : (requests ++ [r]).Pairwise (·.now ≤ ·.now)) :
    ∀ r' ∈ (serveAll rule limit requests).accepted, r'.now ≤ r.now := by
  intro r' hr'
  exact (List.pairwise_append.mp h).2.2 r' (serveAll_accepted requests r' hr') r (by simp)

theorem serveAll_exact (rule : Rule) (limit : κ → Nat) {requests : List (Hit κ)}
    (h : requests.Pairwise (·.now ≤ ·.now)) : (serveAll rule limit requests).Exact := by
  induction requests using List.reverseRecOn with
  | nil =>
    intro k now _
    rfl
  | append_singleton requests r ih =>
    rw [serveAll_append]
    exact (ih (List.pairwise_append.mp h).1).serve (accepted_le rule limit h)

/-! ## The decision depends on the true counts -/

theorem Limiter.Exact.fits {l : Limiter κ} (h : l.Exact)
    (hlast : ∀ r' ∈ l.accepted, r'.now ≤ r.now)
    (hfits : refusal r.now (limit k) (counters l.store r.now k) = none) :
    (hits l.accepted k (r.now / windowMs - 1) : ℚ) * (1 - into r.now) +
      hits l.accepted k (r.now / windowMs) + 1 ≤ limit k := by
  rw [h k r.now hlast] at hfits
  exact refusal_eq_none.mp hfits

theorem hits_le_limit (limit : κ → Nat) {requests : List (Hit κ)}
    (h : requests.Pairwise (·.now ≤ ·.now)) (k : κ) (n : Int) :
    hits (serveAll rational limit requests).accepted k n ≤ limit k := by
  induction requests using List.reverseRecOn with
  | nil => simp [serveAll, hits]
  | append_singleton requests r ih =>
    have hbefore := (List.pairwise_append.mp h).1
    have hexact := serveAll_exact rational limit hbefore
    have hlast := accepted_le rational limit h
    have ih := ih hbefore
    rw [serveAll_append]
    generalize serveAll rational limit requests = l at *
    have hserved := l.served rational limit r
    generalize l.serve rational limit r = l',
      (slidingWindow rational limit l.store r).2 = wait at hserved ⊢
    cases hserved with
    | refused => exact ih
    | accepted hfits _ =>
      rw [hits_append]
      split
      · rename_i hcounted
        obtain ⟨hk, rfl⟩ := hcounted
        have hfit := hexact.fits hlast (hfits k hk)
        have hweight : (0 : ℚ) ≤ hits l.accepted k (r.now / windowMs - 1) * (1 - into r.now) :=
          mul_nonneg (by positivity) (sub_nonneg.mpr (into_le_one _))
        have hcast : (hits l.accepted k (r.now / windowMs) : ℚ) + 1 ≤ limit k := by linarith
        exact_mod_cast hcast
      · exact ih

/-- An interval of the length of a window meets two windows at most. -/
theorem interval_hits (accepted : List (Hit κ)) (k : κ) (t : ℚ) :
    (accepted.countP fun r => decide (k ∈ r.keys ∧ t ≤ r.now ∧ r.now < t + windowMs)) ≤
      hits accepted k (⌈t⌉ / windowMs) + hits accepted k (⌈t⌉ / windowMs + 1) := by
  induction accepted with
  | nil => simp [hits]
  | cons r accepted ih =>
    simp only [hits, List.countP_cons, decide_eq_true_eq] at ih ⊢
    have hmeets : t ≤ r.now → (r.now : ℚ) < t + windowMs →
        r.now / windowMs = ⌈t⌉ / windowMs ∨ r.now / windowMs = ⌈t⌉ / windowMs + 1 := by
      intro hge hlt
      have hceil : ⌈t⌉ ≤ r.now := Int.ceil_le.mpr hge
      have hlt' : r.now - windowMs < ⌈t⌉ := by
        rw [Int.lt_ceil]
        push_cast
        linarith
      unfold windowMs at *
      omega
    grind

/-- **What the limiter lets through.** Of each bucket at most `limit`
requests are accepted in an aligned window, and at most twice as many in
any interval of its length; at an acceptance the weighted count fits the
limit of every bucket of the request. An accepted request is counted in
all its buckets and in no other; a refused one changes nothing. -/
theorem accepted_within_limits (limit : κ → Nat) (requests : List (Hit κ))
    (h : requests.Pairwise (·.now ≤ ·.now)) :
    (∀ k n, hits (serveAll rational limit requests).accepted k n ≤ limit k) ∧
    (∀ k (t : ℚ), ((serveAll rational limit requests).accepted.countP fun r =>
      decide (k ∈ r.keys ∧ t ≤ r.now ∧ r.now < t + windowMs)) ≤ 2 * limit k) ∧
    ∀ before r after, requests = before ++ r :: after →
      let l := serveAll rational limit before
      let l' := l.serve rational limit r
      (slidingWindow rational limit l.store r).2 = 0 ∧ l'.accepted = l.accepted ++ [r] ∧
        (∀ k ∈ r.keys,
          (hits l'.accepted k (r.now / windowMs) : ℚ) +
            hits l'.accepted k (r.now / windowMs - 1) * (1 - into r.now) ≤ limit k ∧
          counters l'.store r.now k =
            ((counters l.store r.now k).1 + 1, (counters l.store r.now k).2)) ∧
        (∀ k ∉ r.keys, l'.store.entry k = l.store.entry k) ∨
      (slidingWindow rational limit l.store r).2 ≠ 0 ∧ l' = l := by
  refine ⟨hits_le_limit limit h, ?_, ?_⟩
  · intro k t
    have hinterval := interval_hits (serveAll rational limit requests).accepted k t
    have hfirst := hits_le_limit limit h k (⌈t⌉ / windowMs)
    have hsecond := hits_le_limit limit h k (⌈t⌉ / windowMs + 1)
    omega
  · rintro before r after rfl
    have hsplit : (before ++ [r]).Pairwise (·.now ≤ ·.now) := by
      rw [List.append_cons] at h
      exact (List.pairwise_append.mp h).1
    have hexact := serveAll_exact rational limit (List.pairwise_append.mp hsplit).1
    have hlast := accepted_le rational limit hsplit
    dsimp only
    generalize serveAll rational limit before = l at *
    have hserved := l.served rational limit r
    generalize l.serve rational limit r = l',
      (slidingWindow rational limit l.store r).2 = wait at hserved ⊢
    cases hserved with
    | refused hwait => exact .inr ⟨hwait, rfl⟩
    | accepted hfits hentry =>
      refine .inl ⟨rfl, rfl, ?_, fun k hk => (hentry k).trans (if_neg hk)⟩
      intro k hk
      have heq := hentry k
      rw [if_pos hk] at heq
      refine ⟨?_, (counters_later heq le_rfl).trans (if_pos rfl)⟩
      have hfit := hexact.fits hlast (hfits k hk)
      simp only [hits_append, hk, true_and, if_true]
      rw [if_neg (by omega)]
      push_cast
      linarith

def sharedBucket : Nat → Nat := fun k => if k = 0 then 2 else 1

/-- Two clients fill a bucket they share. A third is refused; in the next
window the weight of the two leaves room for one. -/
theorem shared_bucket_fills :
    let requests : List (Hit Nat) :=
      [⟨0, [0, 1]⟩, ⟨5, [0, 2]⟩, ⟨9, [0, 3]⟩, ⟨100000, [0, 4]⟩]
    let l := serveAll rational sharedBucket requests
    hits l.accepted 0 0 = 2 ∧ hits l.accepted 0 0 ≤ 2 ∧
      (serveAll rational sharedBucket (requests.take 2)).serve rational sharedBucket ⟨9, [0, 3]⟩ =
        serveAll rational sharedBucket (requests.take 2) ∧
      (hits l.accepted 0 1 : ℚ) + hits l.accepted 0 0 * (1 - into 100000) ≤ 2 := by
  intro requests l
  have h := accepted_within_limits sharedBucket requests (by decide)
  refine ⟨by decide +kernel, h.1 0 0, ?_, ?_⟩
  · rcases h.2.2 (requests.take 2) ⟨9, [0, 3]⟩ [⟨100000, [0, 4]⟩] rfl with haccepted | hrefused
    · exact absurd haccepted.1 (by decide +kernel)
    · exact hrefused.2
  · rcases h.2.2 (requests.take 3) ⟨100000, [0, 4]⟩ [] rfl with haccepted | hrefused
    · exact (haccepted.2.2.1 0 (by decide)).1
    · exact absurd hrefused.1 (by decide +kernel)

/-! ## The answer to a refused request -/

/-- The instant a refused client is told to come back at. -/
def retryAt (now : Int) (wait : Nat) : Int := now + 1000 * retryAfterSecs wait

theorem slidingWindow_single (limit : κ → Nat) (st : BucketStore κ) (now : Int) (k : κ) :
    refusal now (limit k) (counters st now k) =
      if (slidingWindow rational limit st ⟨now, [k]⟩).2 = 0 then none
      else some (slidingWindow rational limit st ⟨now, [k]⟩).2 := by
  cases h : refusal now (limit k) (counters st now k) with
  | none => simp [slidingWindow, rational, h]
  | some wait => simp [slidingWindow, rational, h, refusal_ne_zero h]

theorem retryAt_spec (now : Int) {wait : Nat} (h : wait ≠ 0) :
    now + wait ≤ retryAt now wait ∧ retryAt now wait < now + wait + 1000 := by
  unfold retryAt retryAfterSecs
  omega

section

variable {n c p wait : Nat} (h : refusal now n (c, p) = some wait)
include h

theorem refusal_wait (hc : c < n) :
    0 < p ∧ p * (1 - into now) + c + 1 - n ≤ (p : ℚ) * (wait / (windowMs : ℚ)) := by
  simp only [refusal] at h
  split at h
  · rename_i hover
    have hp : 0 < p := by
      by_contra hzero
      obtain rfl : p = 0 := by omega
      have hcast : (c : ℚ) + 1 ≤ n := by exact_mod_cast hc
      simp only [Nat.cast_zero, zero_mul, zero_add] at hover
      linarith
    rw [if_pos ⟨hc, hp⟩] at h
    cases h
    refine ⟨hp, ?_⟩
    generalize hover' : (p * (1 - into now) + c + 1 - n : ℚ) = excess
    have hpos : (0 : ℚ) < p := by exact_mod_cast hp
    have hceil : ⌈excess / p * (windowMs : ℚ)⌉ ≤
        ((max ⌈excess / p * (windowMs : ℚ)⌉ 1).toNat : Int) :=
      (le_max_left ..).trans (Int.self_le_toNat _)
    have hwait : excess / p * (windowMs : ℚ) ≤
        ((max ⌈excess / p * (windowMs : ℚ)⌉ 1).toNat : ℚ) :=
      (Int.le_ceil _).trans (by exact_mod_cast hceil)
    rw [← le_div_iff₀ (by decide +kernel)] at hwait
    rw [← div_le_iff₀' hpos]
    exact hwait
  · cases h

theorem refusal_full (hc : n ≤ c) :
    retryAt now wait / windowMs = now / windowMs + 1 ∧
      retryAt now wait % windowMs = now % 1000 := by
  simp only [refusal] at h
  split at h
  · rw [if_neg (by omega)] at h
    cases h
    unfold retryAt retryAfterSecs windowMs
    omega
  · cases h

theorem retry_with_room (hc : c < n) (hsame : retryAt now wait / windowMs = now / windowMs) :
    refusal (retryAt now wait) n (c, p) = none := by
  obtain ⟨hp, hover⟩ := refusal_wait h hc
  have hlater : now + wait ≤ retryAt now wait := (retryAt_spec now (refusal_ne_zero h)).1
  have hinto : into now + wait / (windowMs : ℚ) ≤ into (retryAt now wait) := by
    unfold into
    rw [← add_div]
    have hmod : now % windowMs + wait ≤ retryAt now wait % windowMs := by
      unfold windowMs at *
      omega
    exact div_le_div_of_nonneg_right (by exact_mod_cast hmod) (by decide +kernel)
  rw [refusal_eq_none]
  have hweight : (p : ℚ) * (into now + wait / (windowMs : ℚ)) ≤ p * into (retryAt now wait) :=
    mul_le_mul_of_nonneg_left hinto (by positivity)
  linarith

end

/-- **When a client that waits is let in.** A request refused at `now` and
repeated when the answer says is accepted if the window of `now` had room,
so that only the weight of the previous one was in the way. Of a full
window all requests still count at the turn, and the retry is as far into
the next window as `now` was into its second. -/
theorem retry_accepted_iff (limit : κ → Nat) (requests : List (Hit κ)) (k : κ) (now : Int)
    (wait : Nat) (hlimit : 1 ≤ limit k) (h : requests.Pairwise (·.now ≤ ·.now))
    (hlast : ∀ r ∈ requests, r.now ≤ now)
    (hanswer : (slidingWindow rational limit (serveAll rational limit requests).store
      ⟨now, [k]⟩).2 = wait)
    (hrefused : wait ≠ 0) :
    (slidingWindow rational limit (serveAll rational limit (requests ++ [⟨now, [k]⟩])).store
      ⟨retryAt now wait, [k]⟩).2 = 0 ↔
      hits (serveAll rational limit requests).accepted k (now / windowMs) < limit k ∨
        windowMs ≤ limit k * (now % 1000) := by
  have hexact := serveAll_exact rational limit h
  have hle : ∀ r ∈ (serveAll rational limit requests).accepted, r.now ≤ now :=
    fun r hr => hlast r (serveAll_accepted requests r hr)
  have hfull := hits_le_limit limit h k (now / windowMs)
  have hserved := (serveAll rational limit requests).served rational limit ⟨now, [k]⟩
  rw [serveAll_append]
  generalize serveAll rational limit requests = l at *
  have hrefusal : refusal now (limit k) (counters l.store now k) = some wait := by
    rw [slidingWindow_single, hanswer, if_neg hrefused]
  have hlater := (retryAt_spec now hrefused).1
  have hretry := hexact k (retryAt now wait) fun r hr => (hle r hr).trans (by omega)
  rw [hanswer] at hserved
  generalize l.serve rational limit ⟨now, [k]⟩ = l' at *
  rw [hexact k now hle] at hrefusal
  cases hserved with
  | accepted => exact absurd rfl hrefused
  | refused =>
    have hnone := slidingWindow_single limit l.store (retryAt now wait) k
    rw [hretry] at hnone
    have hiff : (slidingWindow rational limit l.store ⟨retryAt now wait, [k]⟩).2 = 0 ↔
        refusal (retryAt now wait) (limit k) (hits l.accepted k (retryAt now wait / windowMs),
          hits l.accepted k (retryAt now wait / windowMs - 1)) = none := by
      rw [hnone]
      split <;> simp [*]
    rw [hiff]
    rcases hfull.lt_or_eq with hroom | hfull
    · refine iff_of_true ?_ (.inl hroom)
      have hdiv : now / windowMs ≤ retryAt now wait / windowMs :=
        Int.ediv_le_ediv (by decide) (by omega)
      rcases hdiv.eq_or_lt with hsame | hnext
      · rw [← hsame]
        exact retry_with_room hrefusal hroom hsame.symm
      · rw [hits_later hle hnext]
        have hweight : (hits l.accepted k (retryAt now wait / windowMs - 1) : ℚ) + 1 ≤ limit k := by
          by_cases hturn : retryAt now wait / windowMs = now / windowMs + 1
          · rw [hturn, Int.add_sub_cancel]
            exact_mod_cast hroom
          · rw [hits_later hle (by omega)]
            exact_mod_cast hlimit
        rw [refusal_eq_none]
        have hdecayed := mul_nonneg (Nat.cast_nonneg (α := ℚ)
          (hits l.accepted k (retryAt now wait / windowMs - 1))) (into_nonneg (retryAt now wait))
        push_cast
        linarith
    · obtain ⟨hturn, hmod⟩ := refusal_full hrefusal hfull.ge
      have hwindow : (0 : ℚ) < (windowMs : ℚ) := by decide +kernel
      rw [hturn, hits_later hle (by omega), Int.add_sub_cancel, hfull, refusal_eq_none, into, hmod]
      have hscaled : (limit k : ℚ) * (1 - ((now % 1000 : Int) : ℚ) / (windowMs : ℚ)) + 1 ≤
          limit k ↔ (windowMs : ℚ) ≤ limit k * ((now % 1000 : Int) : ℚ) := by
        rw [← one_le_div hwindow, mul_div_assoc]
        constructor <;> intro h <;> linarith
      simp only [Nat.cast_zero, add_zero, lt_self_iff_false, false_or]
      rw [hscaled]
      exact_mod_cast Iff.rfl

/-- Two requests of the last window weigh as one after half a minute. -/
theorem retry_after_half_a_window :
    (slidingWindow rational (fun _ => 2) (serveAll rational (fun _ => 2)
      [⟨0, [0]⟩, ⟨59000, [0]⟩, ⟨60000, [0]⟩]).store ⟨retryAt 60000 30000, [0]⟩).2 = 0 :=
  (retry_accepted_iff (κ := Nat) (fun _ => 2) [⟨0, [0]⟩, ⟨59000, [0]⟩] 0 60000 30000 (by decide)
    (by decide) (by decide) (by decide +kernel) (by decide)).mpr (.inl (by decide +kernel))

/-- The one request a minute was made at the start of a window; whoever
waits until the next one is refused again. -/
theorem refused_again_at_the_turn :
    (slidingWindow (κ := Nat) rational (fun _ => 1) (serveAll rational (fun _ => 1)
      [⟨0, [0]⟩]).store ⟨0, [0]⟩).2 = 60000 ∧
    (slidingWindow (κ := Nat) rational (fun _ => 1) (serveAll rational (fun _ => 1)
      [⟨0, [0]⟩, ⟨0, [0]⟩]).store ⟨retryAt 0 60000, [0]⟩).2 ≠ 0 := by
  decide +kernel

end AuthApi
