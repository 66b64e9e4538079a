import Mathlib.Algebra.BigOperators.Group.List.Lemmas
import Mathlib.Data.List.Sort
import Mathlib.Data.Rat.Floor
import Mathlib.Tactic.FieldSimp
import Mathlib.Tactic.Linarith
import Transform.Telemetry.Totals

/-!
# Telemetry.Latency — the latencies of the window

The average and the percentiles of the overview come from a second `aggregate` whose buckets are as long as the window.  The
buckets begin at multiples of their length since the epoch and not where the window begins, so the window may touch more than
one, and the first that the database answers stands for all of them: whatever the durations are, the overview is that of the
window exactly when its events lie in one bucket (`overview_latency_iff`).
-/

namespace Transform.Telemetry

open Lib

/-! ## Latencies -/

section Latencies

abbrev Quantile : Type := { quantile : ℚ // 0 ≤ quantile ∧ quantile ≤ 1 }

/-- The linear-interpolated percentile, that of `percentile_cont` too.  Both positions are of the list. -/
def percentile (values : List ℚ) (quantile : Quantile) : Option ℚ :=
  if values = [] then none
  else
    let ordered := values.insertionSort (· ≤ ·)
    if ordered.length = 1 then ordered.head?
    else
      let position := quantile.1 * (ordered.length - 1)
      let lower := ⌊position⌋.toNat
      let upper := min (lower + 1) (ordered.length - 1)
      let fraction := position - lower
      some (ordered.getD lower 0 + (ordered.getD upper 0 - ordered.getD lower 0) * fraction)

/-- `AVG` of the database. -/
def average (values : List ℚ) : Option ℚ := if values = [] then none else some (values.sum / values.length)

structure Latency where
  avgLatencyMs : Option ℚ := none
  p50Ms : Option ℚ := none
  p95Ms : Option ℚ := none
  p99Ms : Option ℚ := none
  deriving DecidableEq, Repr

def latencyOf (durations : List ℚ) : Latency where
  avgLatencyMs := average durations
  p50Ms := percentile durations ⟨1 / 2, by norm_num⟩
  p95Ms := percentile durations ⟨19 / 20, by norm_num⟩
  p99Ms := percentile durations ⟨99 / 100, by norm_num⟩

end Latencies

/-! ## The overview -/

section Overview

/-- A bucket with its latencies. -/
structure LatencyBucket extends BucketAggregate where
  latency : Latency := {}
  deriving DecidableEq, Repr

/-- The stored events with their durations; no two events have one id. -/
structure MeasuredRepository extends TelemetryRepository where
  durationMs : ApiRequestEvent → ℚ
  arrangeMeasured : List LatencyBucket → List LatencyBucket
  arrangeMeasured_perm : ∀ found, (arrangeMeasured found).Perm found

namespace MeasuredRepository

variable (repo : MeasuredRepository) (text : TextOps) (accountId : ℕ) (window : ResolvedRange)
  (filters : Option ApiLogFilters)

/-- The row of a group, with the columns of its durations. -/
def measuredBucketOf (bucketSeconds start : ℤ) (found : List ApiRequestEvent) : LatencyBucket where
  toBucketAggregate := bucketOf bucketSeconds start found
  latency := latencyOf (found.map repo.durationMs)

/-- `aggregate`, with the latencies. -/
def aggregateMeasured (start stop bucketSeconds : ℤ) : Option (List LatencyBucket) := do
  let conditions ← eventConditions text accountId start stop filters
  let found := repo.events.filter fun e => conditions.all (· e)
  return repo.arrangeMeasured
    (groups (fun e => fromTimestamp (bucketEpoch bucketSeconds e)) (repo.measuredBucketOf bucketSeconds) found)

/-- The bucket size of the second query, the length of the window. -/
def wholeSeconds (window : ResolvedRange) : ℤ := max 1 (Int.tdiv window.span second)

/-- `_overview`, as far as it is about latencies. -/
def overviewLatency : Option Latency := do
  let whole ← repo.aggregateMeasured text accountId filters window.start window.stop (wholeSeconds window)
  let single := whole.head?.getD { start := window.start, seconds := 1 }
  return single.latency

/-- `metrics`, with the latencies of the overview. -/
def metricsMeasured (metric : ApiMetric) (bucketOverride : Option ℤ) (now generatedAt : ℤ) :
    Option (MetricsWindow × Latency) := do
  let payload ← metrics text repo.toTelemetryRepository accountId window metric filters bucketOverride now generatedAt
  let latency ← repo.overviewLatency text accountId window filters
  return (payload, latency)

def withDurations (durationMs : ApiRequestEvent → ℚ) : MeasuredRepository := { repo with durationMs := durationMs }

end MeasuredRepository

/-- The events lie in one bucket of the size. -/
def OneBucket (bucketSeconds : ℤ) (found : List ApiRequestEvent) : Prop :=
  ∀ e ∈ found, ∀ e' ∈ found, bucketEpoch bucketSeconds e = bucketEpoch bucketSeconds e'

instance (bucketSeconds : ℤ) (found : List ApiRequestEvent) : Decidable (OneBucket bucketSeconds found) := by
  unfold OneBucket
  infer_instance

end Overview

/-! ## The window in one bucket -/

section OneBucket

variable {repo : MeasuredRepository} {text : TextOps} {accountId : ℕ} {window : ResolvedRange} {filters : Option ApiLogFilters}
  {metric : ApiMetric} {bucketOverride : Option ℤ} {now generatedAt bucketSeconds : ℤ} {found : List ApiRequestEvent}

open MeasuredRepository

/-- The rows of a query, and the one that the overview takes. -/
def taken (repo : MeasuredRepository) (window : ResolvedRange) (bucketSeconds : ℤ) (found : List ApiRequestEvent) :
    LatencyBucket :=
  ((repo.arrangeMeasured (groups (fun e => fromTimestamp (bucketEpoch bucketSeconds e))
    (repo.measuredBucketOf bucketSeconds) found)).head?).getD { start := window.start, seconds := 1 }

theorem exists_conditions_of_matching {e : ApiRequestEvent} (h : matching text accountId window filters e = true) :
    ∃ conditions, eventConditions text accountId window.start window.stop filters = some conditions := by
  unfold matching at h
  unfold eventConditions
  cases filters with
  | none => exact ⟨_, rfl⟩
  | some filters =>
    cases hasked : filterConditions text filters with
    | none => simp [hasked] at h
    | some asked => simp [hasked]

theorem overviewLatency_eq : repo.overviewLatency text accountId window filters =
    (eventConditions text accountId window.start window.stop filters).map fun _ =>
      (taken repo window (wholeSeconds window) (repo.events.filter (matching text accountId window filters))).latency := by
  unfold overviewLatency aggregateMeasured
  cases hconditions : eventConditions text accountId window.start window.stop filters with
  | none => rfl
  | some conditions =>
    have hfound : (fun e => conditions.all (· e)) = matching text accountId window filters :=
      funext (eventConditions_matching hconditions)
    simp only [Option.bind_eq_bind, Option.bind_some, Option.pure_def, Option.map_some, hfound]
    rfl

theorem metricsMeasured_eq :
    (repo.metricsMeasured text accountId window filters metric bucketOverride now generatedAt).map Prod.snd =
      repo.overviewLatency text accountId window filters := by
  unfold metricsMeasured metrics TelemetryRepository.aggregate
  rw [overviewLatency_eq]
  cases hconditions : eventConditions text accountId window.start window.stop filters with
  | none => rfl
  | some conditions => rfl

theorem fromTimestamp_inj {a b : ℤ} : fromTimestamp a = fromTimestamp b ↔ a = b :=
  Int.mul_eq_mul_right_iff (by decide)

theorem taken_of_ne_nil (repo : MeasuredRepository) (window : ResolvedRange) (bucketSeconds : ℤ) (h : found ≠ []) :
    ∃ e ∈ found, taken repo window bucketSeconds found =
      repo.measuredBucketOf bucketSeconds (fromTimestamp (bucketEpoch bucketSeconds e))
        (found.filter fun e' => bucketEpoch bucketSeconds e' = bucketEpoch bucketSeconds e) := by
  obtain ⟨first, hfirst⟩ := List.exists_mem_of_ne_nil _ h
  have hperm := repo.arrangeMeasured_perm (groups (fun e => fromTimestamp (bucketEpoch bucketSeconds e))
    (repo.measuredBucketOf bucketSeconds) found)
  unfold taken
  generalize repo.arrangeMeasured _ = rows at hperm ⊢
  rcases rows with _ | ⟨row, rows⟩
  · have hnone := List.nil_perm.1 hperm
    rw [groups, List.map_eq_nil_iff, List.dedup_eq_nil, List.map_eq_nil_iff] at hnone
    exact absurd hnone h
  · have hrow := hperm.mem_iff.1 (List.mem_cons_self ..)
    obtain ⟨key, hkey, rfl⟩ := List.mem_map.1 hrow
    obtain ⟨e, he, rfl⟩ := List.mem_map.1 (List.mem_dedup.1 hkey)
    refine ⟨e, he, ?_⟩
    have hfilter : (fun e' : ApiRequestEvent => decide (fromTimestamp (bucketEpoch bucketSeconds e') =
        fromTimestamp (bucketEpoch bucketSeconds e))) =
        fun e' => decide (bucketEpoch bucketSeconds e' = bucketEpoch bucketSeconds e) :=
      funext fun e' => decide_eq_decide.2 fromTimestamp_inj
    rw [List.head?_cons, Option.getD_some, hfilter]

theorem taken_nil : (taken repo window bucketSeconds []).latency = {} := by
  have hperm := repo.arrangeMeasured_perm (groups (fun e => fromTimestamp (bucketEpoch bucketSeconds e))
    (repo.measuredBucketOf bucketSeconds) [])
  have hnil : repo.arrangeMeasured (groups (fun e => fromTimestamp (bucketEpoch bucketSeconds e))
      (repo.measuredBucketOf bucketSeconds) []) = [] := List.perm_nil.1 hperm
  rw [taken, hnil]
  rfl

def markBucket (bucketSeconds : ℤ) (e : ApiRequestEvent) (e' : ApiRequestEvent) : ℚ :=
  if bucketEpoch bucketSeconds e' = bucketEpoch bucketSeconds e then 1 else 0

theorem sum_markBucket {e : ApiRequestEvent} : (found.map (markBucket bucketSeconds e)).sum =
    found.countP fun e' => bucketEpoch bucketSeconds e' = bucketEpoch bucketSeconds e := by
  induction found with
  | nil => rfl
  | cons e' found ih =>
    rw [List.map_cons, List.sum_cons, ih, List.countP_cons, markBucket, Nat.cast_add, add_comm]
    by_cases h : bucketEpoch bucketSeconds e' = bucketEpoch bucketSeconds e
    · rw [if_pos h, if_pos (decide_eq_true h), Nat.cast_one]
    · rw [if_neg h, if_neg (by simpa using h), Nat.cast_zero]

theorem average_markBucket {e : ApiRequestEvent} (h : found ≠ []) : average (found.map (markBucket bucketSeconds e)) =
    some ((found.countP fun e' => bucketEpoch bucketSeconds e' = bucketEpoch bucketSeconds e : ℕ) / (found.length : ℚ)) := by
  rw [average, if_neg fun hnil => h (List.map_eq_nil_iff.1 hnil), sum_markBucket, List.length_map]

theorem average_ne_of_split {e e' first : ApiRequestEvent} (he : e ∈ found) (he' : e' ∈ found)
    (hne : bucketEpoch bucketSeconds e' ≠ bucketEpoch bucketSeconds e) (hfirst : first ∈ found) :
    average ((found.filter fun other => bucketEpoch bucketSeconds other = bucketEpoch bucketSeconds first).map
      (markBucket bucketSeconds e)) ≠ average (found.map (markBucket bucketSeconds e)) := by
  have hgroup : found.filter (fun other => bucketEpoch bucketSeconds other = bucketEpoch bucketSeconds first) ≠ [] :=
    List.ne_nil_of_mem (List.mem_filter.2 ⟨hfirst, decide_eq_true rfl⟩)
  rw [average_markBucket hgroup, average_markBucket (List.ne_nil_of_mem he)]
  generalize hcount : found.countP (fun e' => bucketEpoch bucketSeconds e' = bucketEpoch bucketSeconds e) = marked
  have hlow : 0 < marked := by
    rw [← hcount, List.countP_pos_iff]
    exact ⟨e, he, decide_eq_true rfl⟩
  have hhigh : marked < found.length := by
    rw [← hcount]
    refine lt_of_le_of_ne List.countP_le_length fun hall => hne ?_
    exact of_decide_eq_true (List.countP_eq_length.1 hall e' he')
  have hpos : (0 : ℚ) < found.length := Nat.cast_pos.2 (Nat.zero_lt_of_lt hhigh)
  have hzero : (0 : ℚ) < marked / found.length := div_pos (Nat.cast_pos.2 hlow) hpos
  have hone : (marked : ℚ) / found.length < 1 := (div_lt_one hpos).2 (Nat.cast_lt.2 hhigh)
  intro heq
  rw [Option.some.injEq] at heq
  by_cases hsame : bucketEpoch bucketSeconds first = bucketEpoch bucketSeconds e
  · have hall : (found.filter fun other => bucketEpoch bucketSeconds other = bucketEpoch bucketSeconds first).countP
        (fun e' => bucketEpoch bucketSeconds e' = bucketEpoch bucketSeconds e) =
        (found.filter fun other => bucketEpoch bucketSeconds other = bucketEpoch bucketSeconds first).length := by
      rw [List.countP_eq_length]
      intro other hother
      exact decide_eq_true ((of_decide_eq_true (List.mem_filter.1 hother).2).trans hsame)
    have hlength : (0 : ℚ) <
        (found.filter fun other => bucketEpoch bucketSeconds other = bucketEpoch bucketSeconds first).length :=
      Nat.cast_pos.2 (List.length_pos_of_ne_nil hgroup)
    rw [hall, div_self (ne_of_gt hlength)] at heq
    exact absurd heq.symm (ne_of_lt hone)
  · have hnone : (found.filter fun other => bucketEpoch bucketSeconds other = bucketEpoch bucketSeconds first).countP
        (fun e' => bucketEpoch bucketSeconds e' = bucketEpoch bucketSeconds e) = 0 := by
      rw [List.countP_eq_zero]
      intro other hother hmark
      exact hsame ((of_decide_eq_true (List.mem_filter.1 hother).2).symm.trans (of_decide_eq_true hmark))
    rw [hnone, Nat.cast_zero, zero_div] at heq
    exact absurd heq (ne_of_lt hzero)

theorem latency_taken (h : OneBucket bucketSeconds found) :
    (taken repo window bucketSeconds found).latency = latencyOf (found.map repo.durationMs) := by
  by_cases hnil : found = []
  · rw [hnil]
    exact taken_nil
  · obtain ⟨e, he, htaken⟩ := taken_of_ne_nil repo window bucketSeconds hnil
    have hall : found.filter (fun e' => bucketEpoch bucketSeconds e' = bucketEpoch bucketSeconds e) = found :=
      List.filter_eq_self.2 fun e' he' => decide_eq_true (h e' he' e he)
    rw [htaken, hall]
    rfl

/-- The latencies of the overview are those of the window, whatever the durations are, exactly when the events of the window
lie in one bucket of its length. -/
theorem overview_latency_iff (repo : MeasuredRepository) (text : TextOps) (accountId : ℕ) (window : ResolvedRange)
    (filters : Option ApiLogFilters) (metric : ApiMetric) (bucketOverride : Option ℤ) (now generatedAt : ℤ) :
    (∀ durationMs : ApiRequestEvent → ℚ,
      ((repo.withDurations durationMs).metricsMeasured text accountId window filters metric bucketOverride now
        generatedAt).map Prod.snd =
      (eventConditions text accountId window.start window.stop filters).map fun _ =>
        latencyOf ((repo.events.filter (matching text accountId window filters)).map durationMs)) ↔
      OneBucket (wholeSeconds window) (repo.events.filter (matching text accountId window filters)) := by
  have heq : ∀ durationMs, ((repo.withDurations durationMs).metricsMeasured text accountId window filters metric
      bucketOverride now generatedAt).map Prod.snd =
      (eventConditions text accountId window.start window.stop filters).map fun _ =>
        (taken (repo.withDurations durationMs) window (wholeSeconds window)
          (repo.events.filter (matching text accountId window filters))).latency :=
    fun durationMs => metricsMeasured_eq.trans overviewLatency_eq
  constructor
  · intro h e he e' he'
    by_contra hne
    obtain ⟨conditions, hconditions⟩ : ∃ conditions,
        eventConditions text accountId window.start window.stop filters = some conditions :=
      exists_conditions_of_matching (List.mem_filter.1 he).2
    have hmark := (heq (markBucket (wholeSeconds window) e)).symm.trans (h _)
    rw [hconditions, Option.map_some, Option.map_some, Option.some.injEq] at hmark
    obtain ⟨first, hfirst, htaken⟩ := taken_of_ne_nil
      (repo.withDurations (markBucket (wholeSeconds window) e)) window (wholeSeconds window) (List.ne_nil_of_mem he)
    rw [htaken] at hmark
    have haverage := congrArg Latency.avgLatencyMs hmark
    exact average_ne_of_split he he' (Ne.symm hne) hfirst haverage
  · intro h durationMs
    rw [heq, latency_taken h]
    rfl

end OneBucket

/-! ## Two minutes -/

section Concrete

open MeasuredRepository

def requestAt (id : String) (seconds : ℤ) : ApiRequestEvent :=
  ⟨id, 1, none, id, seconds * second, "GET", "/api/v1/files", 200⟩

/-- A request of no time and one of 100 ms, on both sides of a full minute. -/
def twoRequests : MeasuredRepository where
  events := [requestAt "e1" 59, requestAt "e2" 61]
  arrange := id
  arrange_perm := List.Perm.refl
  durationMs e := if e.id = "e1" then 0 else 100
  arrangeMeasured := id
  arrangeMeasured_perm := List.Perm.refl

/-- The minute from half past on touches two buckets of a minute. -/
def halfPast : ResolvedRange := ⟨30 * second, 90 * second, "1m"⟩

/-- The average of the window is that of its first half minute. -/
theorem half_minute_left_out : ¬ ∀ (repo : MeasuredRepository) (text : TextOps) (accountId : ℕ) (window : ResolvedRange)
    (filters : Option ApiLogFilters) (metric : ApiMetric) (bucketOverride : Option ℤ) (now generatedAt : ℤ),
    (repo.metricsMeasured text accountId window filters metric bucketOverride now generatedAt).map Prod.snd =
      (eventConditions text accountId window.start window.stop filters).map fun _ =>
        latencyOf ((repo.events.filter (matching text accountId window filters)).map repo.durationMs) := by
  intro h
  have hwindow := h twoRequests asciiText 1 halfPast none .p50 none 0 0
  have hanswer : ((twoRequests.metricsMeasured asciiText 1 halfPast none .p50 none 0 0).map Prod.snd).bind
      (·.avgLatencyMs) = some 0 := by decide +kernel
  rw [hwindow] at hanswer
  revert hanswer
  decide +kernel

end Concrete

end Transform.Telemetry
