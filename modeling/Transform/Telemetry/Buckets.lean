import Transform.Lib.Histogram

/-!
# Telemetry.Buckets — the buckets of the chart

The size of a bucket for a window, and the starts of the buckets from the one that the window starts in.  A moment is a
number of microseconds since the epoch.  At most `maxBuckets` buckets are listed: `bucketStarts_eq` gives them as tiles that
follow one another, and where they stop.
-/

namespace Transform.Telemetry

open Lib

def second : ℤ := 1000000

def bucketChoices : List ℤ := [1, 5, 10, 15, 30, 60, 300, 900, 1800, 3600]

/-- The most buckets that one chart shows. -/
def maxBuckets : ℕ := 200

def targetBuckets : ℤ := 120

def minBucketSeconds : ℤ := 1

def maxBucketSeconds : ℤ := 3600

/-- The smallest size that gives no more than the target, or the coarsest.  A span is in microseconds. -/
def bucketSecondsForSpan (span : ℤ) : ℤ :=
  if span ≤ 0 then minBucketSeconds
  else (bucketChoices.find? fun size => span ≤ size * targetBuckets * second).getD maxBucketSeconds

def clampBucketSeconds (bucketSeconds : ℤ) : ℤ := max minBucketSeconds (min bucketSeconds maxBucketSeconds)

/-- The bucket size of a request: a size that is asked for and is not zero, else the one for the span. -/
def bucketSecondsFor (bucketOverride : Option ℤ) (span : ℤ) : ℤ :=
  match bucketOverride with
  | some size => if size ≠ 0 then clampBucketSeconds size else bucketSecondsForSpan span
  | none => bucketSecondsForSpan span

/-- The start of the bucket of a moment.  `int` cuts a fraction of a second off towards zero. -/
def alignToBucket (moment bucketSeconds : ℤ) : ℤ :=
  let epoch := Int.tdiv moment second
  (epoch - epoch % bucketSeconds) * second

/-- The loop of `bucketStarts`, with room for some more starts. -/
def bucketStartsFrom (stop bucketSeconds : ℤ) : ℕ → ℤ → List ℤ
  | 0, _ => []
  | room + 1, current =>
    if current < stop then current :: bucketStartsFrom stop bucketSeconds room (current + bucketSeconds * second) else []

/-- The bucket starts of the window `[start, stop)`. -/
def bucketStarts (start stop bucketSeconds : ℤ) : List ℤ :=
  if stop < start then [] else bucketStartsFrom stop bucketSeconds maxBuckets (alignToBucket start bucketSeconds)

/-! ## What the sizes are -/

theorem bucketSecondsForSpan_mem (span : ℤ) : bucketSecondsForSpan span ∈ bucketChoices := by
  unfold bucketSecondsForSpan
  split
  · decide
  · cases h : bucketChoices.find? fun size => decide (span ≤ size * targetBuckets * second) with
    | none => decide
    | some size => exact List.mem_of_find?_eq_some h

theorem bucketSecondsForSpan_bounds (span : ℤ) :
    minBucketSeconds ≤ bucketSecondsForSpan span ∧ bucketSecondsForSpan span ≤ maxBucketSeconds := by
  have hall : ∀ size ∈ bucketChoices, minBucketSeconds ≤ size ∧ size ≤ maxBucketSeconds := by decide
  exact hall _ (bucketSecondsForSpan_mem span)

theorem clampBucketSeconds_bounds (size : ℤ) :
    minBucketSeconds ≤ clampBucketSeconds size ∧ clampBucketSeconds size ≤ maxBucketSeconds := by
  unfold clampBucketSeconds minBucketSeconds maxBucketSeconds
  omega

theorem bucketSecondsFor_bounds (bucketOverride : Option ℤ) (span : ℤ) :
    minBucketSeconds ≤ bucketSecondsFor bucketOverride span ∧ bucketSecondsFor bucketOverride span ≤ maxBucketSeconds := by
  unfold bucketSecondsFor
  split
  · split
    · exact clampBucketSeconds_bounds _
    · exact bucketSecondsForSpan_bounds _
  · exact bucketSecondsForSpan_bounds _

theorem bucketSecondsFor_pos (bucketOverride : Option ℤ) (span : ℤ) : 0 < bucketSecondsFor bucketOverride span := by
  have h := (bucketSecondsFor_bounds bucketOverride span).1
  unfold minBucketSeconds at h
  omega

/-! ## Where the buckets are -/

section Starts

variable {start stop bucketSeconds current : ℤ} {room : ℕ}

theorem dvd_alignToBucket (start bucketSeconds : ℤ) : bucketSeconds * second ∣ alignToBucket start bucketSeconds := by
  have h : bucketSeconds ∣ Int.tdiv start second - Int.tdiv start second % bucketSeconds :=
    dvd_alignDown bucketSeconds (Int.tdiv start second)
  exact Int.mul_dvd_mul_right second h

theorem bucketStartsFrom_eq (stop bucketSeconds : ℤ) : ∀ (room : ℕ) (current : ℤ), ∃ n ≤ room,
    bucketStartsFrom stop bucketSeconds room current = tiles current (bucketSeconds * second) n ∧
      (n = room ∨ stop ≤ current + bucketSeconds * second * n)
  | 0, current => ⟨0, Nat.le_refl 0, rfl, .inl rfl⟩
  | room + 1, current => by
    by_cases h : current < stop
    · obtain ⟨n, hn, heq, hend⟩ := bucketStartsFrom_eq stop bucketSeconds room (current + bucketSeconds * second)
      refine ⟨n + 1, Nat.succ_le_succ hn, ?_, ?_⟩
      · rw [bucketStartsFrom, if_pos h, heq, tiles_succ]
      · rcases hend with rfl | hend
        · exact .inl rfl
        · right
          rw [Nat.cast_succ, Int.mul_add, Int.mul_one]
          omega
    · refine ⟨0, Nat.zero_le _, ?_, .inr ?_⟩
      · rw [bucketStartsFrom, if_neg h]
        rfl
      · simpa using h

theorem bucketStarts_eq (h : start ≤ stop) (bucketSeconds : ℤ) : ∃ n ≤ maxBuckets,
    bucketStarts start stop bucketSeconds = tiles (alignToBucket start bucketSeconds) (bucketSeconds * second) n ∧
      (n = maxBuckets ∨ stop ≤ alignToBucket start bucketSeconds + bucketSeconds * second * n) := by
  rw [bucketStarts, if_neg (Int.not_lt.2 h)]
  exact bucketStartsFrom_eq stop bucketSeconds maxBuckets _

end Starts

end Transform.Telemetry
