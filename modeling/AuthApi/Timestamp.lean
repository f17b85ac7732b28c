import Mathlib.Order.Basic
import Mathlib.Order.MinMax
import Mathlib.Tactic.NormNum

/-!
# Instants of the `time` crate

`OffsetDateTime` in UTC, as nanoseconds since the Unix epoch, with the
range of the crate built without `large-dates`: from -9999-01-01 to the
last nanosecond of 9999. The range is part of the type, so that the
saturating addition (`saturatingAdd`) can be compared with the exact one
at its two ends.

A `TIMESTAMPTZ` column holds whole microseconds. `toMicros` is what is
left of an instant once it has been through the database; it is
monotone and leaves whole microseconds alone.
-/

namespace AuthApi

/-! ## The range -/

def nanosPerSec : Int := 1000000000

/-- -9999-01-01T00:00:00 UTC. -/
def minNanos : Int := -377705116800 * nanosPerSec

/-- 9999-12-31T23:59:59.999999999 UTC. -/
def maxNanos : Int := 253402300800 * nanosPerSec - 1

theorem minNanos_le_maxNanos : minNanos ≤ maxNanos := by decide

/-- An instant the crate can represent. -/
structure OffsetDateTime where
  nanos : Int
  min_le : minNanos ≤ nanos
  le_max : nanos ≤ maxNanos
deriving DecidableEq

namespace OffsetDateTime

theorem nanos_injective : Function.Injective OffsetDateTime.nanos := by
  rintro ⟨a, _, _⟩ ⟨b, _, _⟩ h
  cases h
  rfl

instance : LinearOrder OffsetDateTime := LinearOrder.lift' nanos nanos_injective

variable {a b s t : OffsetDateTime} {duration : Int}

theorem le_iff : a ≤ b ↔ a.nanos ≤ b.nanos := Iff.rfl

theorem lt_iff : a < b ↔ a.nanos < b.nanos := Iff.rfl

/-- The representable instant closest to `n` nanoseconds. -/
def clamp (n : Int) : OffsetDateTime where
  nanos := max minNanos (min n maxNanos)
  min_le := le_max_left _ _
  le_max := max_le minNanos_le_maxNanos (min_le_right _ _)

theorem clamp_nanos (n : Int) : (clamp n).nanos = max minNanos (min n maxNanos) := rfl

instance : Inhabited OffsetDateTime := ⟨clamp 0⟩

/-- `OffsetDateTime::saturating_add`; the duration is in nanoseconds. -/
def saturatingAdd (t : OffsetDateTime) (duration : Int) : OffsetDateTime :=
  clamp (t.nanos + duration)

theorem saturatingAdd_mono (h : a ≤ b) (duration : Int) :
    a.saturatingAdd duration ≤ b.saturatingAdd duration := by
  rw [le_iff] at *
  simp only [saturatingAdd, clamp_nanos]
  omega

/-- An addition that lands short of `t` did not saturate upwards past it. -/
theorem lt_add_of_lt_saturatingAdd (h : s < t.saturatingAdd duration) :
    s.nanos < t.nanos + duration := by
  have hmin := s.min_le
  rw [lt_iff] at h
  simp only [saturatingAdd, clamp_nanos] at h
  omega

/-- Conversely an exact sum past `s` stays past it once saturated, unless
`s` is the last instant there is. -/
theorem lt_saturatingAdd {u : OffsetDateTime} (hu : s < u) (h : s.nanos < t.nanos + duration) :
    s < t.saturatingAdd duration := by
  have hmax := u.le_max
  rw [lt_iff] at *
  simp only [saturatingAdd, clamp_nanos]
  omega

/-! ## Whole microseconds -/

/-- What a `TIMESTAMPTZ` column keeps of an instant. -/
def toMicros (t : OffsetDateTime) : OffsetDateTime where
  nanos := t.nanos - t.nanos % 1000
  min_le := by
    have := t.min_le
    have hdiv : minNanos % 1000 = 0 := by decide
    omega
  le_max := by
    have := t.le_max
    omega

theorem toMicros_le (t : OffsetDateTime) : t.toMicros ≤ t := by
  rw [le_iff]
  simp only [toMicros]
  omega

theorem toMicros_mono (h : a ≤ b) : a.toMicros ≤ b.toMicros := by
  rw [le_iff] at *
  simp only [toMicros]
  omega

/-- Adding whole seconds commutes with dropping what is below a
microsecond, up to the saturation of the sum that kept it. -/
theorem toMicros_saturatingAdd_le {secs : Int} :
    (t.saturatingAdd (secs * nanosPerSec)).toMicros
      ≤ t.toMicros.saturatingAdd (secs * nanosPerSec) := by
  have hmin : minNanos % 1000 = 0 := by decide
  have hmax := t.le_max
  have hone : nanosPerSec = 1000 * 1000000 := by decide
  rw [le_iff]
  simp only [saturatingAdd, toMicros, clamp_nanos]
  generalize maxNanos = M at *
  generalize minNanos = m at *
  rw [hone]
  omega

end OffsetDateTime

/-- `time::Duration::whole_seconds`: truncated towards zero. -/
def wholeSeconds (duration : Int) : Int := duration.tdiv nanosPerSec

variable {duration secs : Int}

theorem wholeSeconds_lt_of_lt (hnonneg : 0 ≤ duration) (h : duration < secs * nanosPerSec) :
    wholeSeconds duration < secs := by
  rw [wholeSeconds, Int.tdiv_eq_ediv_of_nonneg hnonneg]
  exact Int.ediv_lt_of_lt_mul (by decide) h

theorem lt_of_wholeSeconds_lt (h : wholeSeconds duration < secs) :
    duration < secs * nanosPerSec := by
  rw [wholeSeconds] at h
  by_cases hnonneg : 0 ≤ duration
  · rw [Int.tdiv_eq_ediv_of_nonneg hnonneg] at h
    exact (Int.ediv_lt_iff_lt_mul (by decide)).mp h
  · -- Below zero the truncation rounds up: the quotient is at least the exact one.
    have hneg : duration.tdiv nanosPerSec = -((-duration) / nanosPerSec) := by
      rw [← Int.tdiv_eq_ediv_of_nonneg (by omega), Int.neg_tdiv, neg_neg]
    have hone : nanosPerSec = 1000000000 := rfl
    rw [hneg, hone] at h
    rw [hone]
    omega

end AuthApi
