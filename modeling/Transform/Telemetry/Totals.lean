import Mathlib.Data.List.Chain
import Transform.Telemetry.Metrics

/-!
# Telemetry.Totals — whether the chart counts every event

A listed bucket counts the events that lie in it (`buckets_metrics`), and what the totals count is the events in the listed
buckets (`requests_metrics`, `errors_metrics`).  The list has room for `maxBuckets` buckets, so the payload is complete
exactly if that many reach from the bucket of the window's start to its end (`metrics_complete_iff`).
-/

namespace Transform.Telemetry

open Lib

section Complete

def matching (text : TextOps) (accountId : ℕ) (window : ResolvedRange) (filters : Option ApiLogFilters)
    (e : ApiRequestEvent) : Bool :=
  decide (e.accountId = accountId ∧ window.start ≤ e.timestamp ∧ e.timestamp < window.stop) &&
    match filters with
    | some filters => (filterConditions text filters).any fun conditions => conditions.all (· e)
    | none => true

/-- The totals count every event once, and the buckets divide the window up. -/
structure Complete (events : List ApiRequestEvent) (counted : ApiRequestEvent → Bool) (payload : MetricsWindow) : Prop where
  requests : payload.overview.requests = events.countP counted
  errors : payload.overview.errors = events.countP fun e => counted e && isErrorStatus e.statusCode
  once : ∀ e ∈ events, counted e → ∃ b ∈ payload.buckets, b.holds e.timestamp ∧
    ∀ b' ∈ payload.buckets, b'.holds e.timestamp → b' = b
  counts : ∀ b ∈ payload.buckets, b.count = events.countP (fun e => counted e && b.holds e.timestamp) ∧
    b.errors = events.countP fun e => counted e && isErrorStatus e.statusCode && b.holds e.timestamp
  disjoint : payload.buckets.Pairwise fun a b => a.start + a.seconds * second ≤ b.start
  contiguous : payload.buckets.IsChain fun a b => b.start = a.start + a.seconds * second
  aligned : ∀ b ∈ payload.buckets, b.seconds * second ∣ b.start
  covered : ∀ moment, payload.start ≤ moment → moment < payload.stop → ∃ b ∈ payload.buckets, b.holds moment

/-- The most buckets of the size reach from the bucket that the window starts in to the end of the window. -/
def Fits (window : ResolvedRange) (bucketSeconds : ℤ) : Prop :=
  alignToBucket window.start bucketSeconds ≤ window.start ∧
    window.stop ≤ alignToBucket window.start bucketSeconds + bucketSeconds * second * maxBuckets

instance (window : ResolvedRange) (bucketSeconds : ℤ) : Decidable (Fits window bucketSeconds) :=
  inferInstanceAs (Decidable (_ ∧ _))

end Complete

/-! ## What a bucket counts -/

section Buckets

variable {text : TextOps} {repo : TelemetryRepository} {accountId : ℕ} {window : ResolvedRange} {metric : ApiMetric}
  {filters : Option ApiLogFilters} {bucketOverride : Option ℤ} {now generatedAt : ℤ} {payload : MetricsWindow}

theorem bucketEpoch_eq (bucketSeconds : ℤ) (e : ApiRequestEvent) :
    fromTimestamp (bucketEpoch bucketSeconds e) = alignDown (bucketSeconds * second) e.timestamp := by
  rw [alignDown_eq_mul, fromTimestamp, bucketEpoch, Int.mul_comm second bucketSeconds, Int.mul_assoc]

theorem holds_iff {start bucketSeconds moment : ℤ} (hsize : 0 < bucketSeconds) (hstart : bucketSeconds * second ∣ start)
    (count errors : ℕ) : (BucketAggregate.mk start bucketSeconds count errors).holds moment =
      decide (alignDown (bucketSeconds * second) moment = start) := by
  have hpos : 0 < bucketSeconds * second := Int.mul_pos hsize (by decide)
  rw [BucketAggregate.holds, decide_eq_decide, alignDown_eq_iff hpos hstart]

theorem eventConditions_matching {conditions : List Condition}
    (h : eventConditions text accountId window.start window.stop filters = some conditions) (e : ApiRequestEvent) :
    conditions.all (· e) = matching text accountId window filters e := by
  unfold eventConditions at h
  cases filters with
  | none =>
    cases h
    simp [matching]
  | some filters =>
    cases hasked : filterConditions text filters with
    | none => simp [hasked] at h
    | some asked =>
      simp only [hasked, Option.bind_eq_bind, Option.bind_some, Option.pure_def, Option.some.injEq] at h
      subst h
      simp [matching, hasked, Bool.and_assoc]

theorem fill_groups {bucketSeconds : ℤ} {key : ApiRequestEvent → ℤ} {found : List ApiRequestEvent} (start : ℤ) :
    (byStart (repo.arrange (groups key (bucketOf bucketSeconds) found)) start).getD
      { start := start, seconds := bucketSeconds } = bucketOf bucketSeconds start (found.filter (key · = start)) := by
  have hperm := (List.reverse_perm _).trans (repo.arrange_perm (groups key (bucketOf bucketSeconds) found))
  have hname : ∀ k es, BucketAggregate.start (bucketOf bucketSeconds k es) = k := fun _ _ => rfl
  rw [byStart, find?_groups hname hperm]
  by_cases h : start ∈ found.map key
  · rw [if_pos h, Option.getD_some]
  · have hnone : found.filter (key · = start) = [] := by
      refine List.filter_eq_nil_iff.2 fun e he hkey => h ?_
      exact List.mem_map.2 ⟨e, he, by simpa using hkey⟩
    rw [if_neg h, hnone]
    rfl

theorem buckets_metrics
    (h : metrics text repo accountId window metric filters bucketOverride now generatedAt = some payload) :
    payload.buckets = (bucketStarts window.start window.stop (bucketSecondsFor bucketOverride window.span)).map fun start =>
      bucketOf (bucketSecondsFor bucketOverride window.span) start
        ((repo.events.filter (matching text accountId window filters)).filter fun e =>
          alignDown (bucketSecondsFor bucketOverride window.span * second) e.timestamp = start) := by
  unfold metrics TelemetryRepository.aggregate at h
  cases hconditions : eventConditions text accountId window.start window.stop filters with
  | none => simp [hconditions] at h
  | some conditions =>
    simp only [hconditions, Option.bind_eq_bind, Option.bind_some, Option.pure_def, Option.some.injEq] at h
    subst h
    have hfound : (fun e => conditions.all (· e)) = matching text accountId window filters :=
      funext (eventConditions_matching hconditions)
    rw [hfound]
    refine List.map_congr_left fun start _ => ?_
    rw [fill_groups]
    simp only [bucketEpoch_eq]

theorem overview_metrics
    (h : metrics text repo accountId window metric filters bucketOverride now generatedAt = some payload) :
    payload.overview = overview repo accountId payload.buckets now ∧ payload.start = window.start ∧
      payload.stop = window.stop := by
  unfold metrics at h
  simp only [Option.bind_eq_bind, Option.bind_eq_some_iff, Option.pure_def, Option.some.injEq] at h
  obtain ⟨_, _, rfl⟩ := h
  exact ⟨rfl, rfl, rfl⟩

end Buckets

/-! ## Where the listed buckets end -/

section Listed

variable {window : ResolvedRange} {bucketSeconds moment : ℤ}

theorem listed_of_fits (hsize : 0 < bucketSeconds) (hfits : Fits window bucketSeconds) (hlow : window.start ≤ moment)
    (hhigh : moment < window.stop) :
    alignDown (bucketSeconds * second) moment ∈ bucketStarts window.start window.stop bucketSeconds := by
  have hpos : 0 < bucketSeconds * second := Int.mul_pos hsize (by decide)
  obtain ⟨n, _, heq, hend⟩ := @bucketStarts_eq window.start window.stop (by omega) bucketSeconds
  rw [heq, alignDown_mem_tiles hpos (dvd_alignToBucket _ _)]
  obtain ⟨hfirst, hlast⟩ := hfits
  rcases hend with rfl | hend
  · omega
  · omega

theorem fits_of_listed (hsize : 0 < bucketSeconds) (hspan : window.start < window.stop)
    (h : ∀ moment, window.start ≤ moment → moment < window.stop →
      alignDown (bucketSeconds * second) moment ∈ bucketStarts window.start window.stop bucketSeconds) :
    Fits window bucketSeconds := by
  have hpos : 0 < bucketSeconds * second := Int.mul_pos hsize (by decide)
  obtain ⟨n, hn, heq, _⟩ := bucketStarts_eq (Int.le_of_lt hspan) bucketSeconds
  rw [heq] at h
  have hfirst := (alignDown_mem_tiles hpos (dvd_alignToBucket _ _)).1 (h window.start (Int.le_refl _) hspan)
  have hlast := (alignDown_mem_tiles hpos (dvd_alignToBucket _ _)).1 (h (window.stop - 1) (by omega) (by omega))
  have hroom : bucketSeconds * second * (n : ℤ) ≤ bucketSeconds * second * maxBuckets :=
    Int.mul_le_mul_of_nonneg_left (by omega) (Int.le_of_lt hpos)
  exact ⟨hfirst.1, by omega⟩

theorem bucketStarts_facts (hsize : 0 < bucketSeconds) (hspan : window.start ≤ window.stop) :
    (bucketStarts window.start window.stop bucketSeconds).Nodup ∧
    (bucketStarts window.start window.stop bucketSeconds).Pairwise (fun a b => a + bucketSeconds * second ≤ b) ∧
    (bucketStarts window.start window.stop bucketSeconds).IsChain (fun a b => b = a + bucketSeconds * second) ∧
    ∀ start ∈ bucketStarts window.start window.stop bucketSeconds, bucketSeconds * second ∣ start := by
  have hpos : 0 < bucketSeconds * second := Int.mul_pos hsize (by decide)
  obtain ⟨n, _, heq, _⟩ := bucketStarts_eq hspan bucketSeconds
  rw [heq]
  exact ⟨nodup_tiles hpos, pairwise_tiles hpos, isChain_tiles, fun _ => dvd_of_mem_tiles (dvd_alignToBucket _ _)⟩

end Listed

/-! ## The windows of the presets -/

section Presets

variable {text : TextOps} {key : Option String} {maxRangeDays now : ℤ} {window : ResolvedRange}

theorem resolveRange_preset (h : resolveRange text key maxRangeDays now = .ok window) :
    ∃ seconds, (window.key, seconds) ∈ rangePresets ∧ window.span = seconds * second ∧ window.stop = now := by
  unfold resolveRange at h
  simp only at h
  split at h
  · cases h
  · rename_i seconds hseconds
    split at h
    · cases h
    · cases h
      refine ⟨seconds, ?_, ?_, rfl⟩
      · obtain ⟨_, _, hsplit, _⟩ := List.lookup_eq_some_iff.1 hseconds
        rw [hsplit]
        simp
      · simp only [ResolvedRange.span]
        omega

theorem resolveRange_span (h : resolveRange text key maxRangeDays now = .ok window) : window.start < window.stop := by
  obtain ⟨seconds, hpreset, hspan, _⟩ := resolveRange_preset h
  have hall : ∀ preset ∈ rangePresets, 0 < preset.2 := by decide
  have hpos := hall _ hpreset
  unfold ResolvedRange.span second at hspan
  omega

end Presets

/-! ## The payload -/

section Payload

variable {text : TextOps} {repo : TelemetryRepository} {accountId : ℕ} {window : ResolvedRange} {metric : ApiMetric}
  {filters : Option ApiLogFilters} {bucketOverride : Option ℤ} {now generatedAt : ℤ} {payload : MetricsWindow}

theorem exists_holds (hspan : window.start ≤ window.stop)
    (h : metrics text repo accountId window metric filters bucketOverride now generatedAt = some payload) (moment : ℤ) :
    (∃ b ∈ payload.buckets, b.holds moment) ↔
      alignDown (bucketSecondsFor bucketOverride window.span * second) moment ∈
        bucketStarts window.start window.stop (bucketSecondsFor bucketOverride window.span) := by
  have hsize := bucketSecondsFor_pos bucketOverride window.span
  obtain ⟨_, _, _, haligned⟩ := bucketStarts_facts hsize hspan
  rw [buckets_metrics h]
  constructor
  · rintro ⟨b, hb, hholds⟩
    obtain ⟨start, hstart, rfl⟩ := List.mem_map.1 hb
    rw [bucketOf, holds_iff hsize (haligned start hstart), decide_eq_true_eq] at hholds
    rwa [hholds]
  · intro hlisted
    refine ⟨_, List.mem_map.2 ⟨_, hlisted, rfl⟩, ?_⟩
    rw [bucketOf, holds_iff hsize (dvd_alignDown _ _), decide_eq_true_eq]

theorem totals_iff (hspan : window.start ≤ window.stop) (kind : ApiRequestEvent → Bool) :
    ((bucketStarts window.start window.stop (bucketSecondsFor bucketOverride window.span)).map fun start =>
        ((repo.events.filter (matching text accountId window filters)).filter fun e =>
          alignDown (bucketSecondsFor bucketOverride window.span * second) e.timestamp = start).countP kind).sum =
      repo.events.countP (fun e => matching text accountId window filters e && kind e) ↔
      ∀ e ∈ repo.events, matching text accountId window filters e → kind e →
        alignDown (bucketSecondsFor bucketOverride window.span * second) e.timestamp ∈
          bucketStarts window.start window.stop (bucketSecondsFor bucketOverride window.span) := by
  have hsize := bucketSecondsFor_pos bucketOverride window.span
  obtain ⟨hnodup, _⟩ := bucketStarts_facts hsize hspan
  have hcount : repo.events.countP (fun e => matching text accountId window filters e && kind e) =
      (repo.events.filter (matching text accountId window filters)).countP kind := by
    rw [List.countP_filter]
    exact List.countP_congr fun e _ => by simp [and_comm]
  rw [hcount, sum_countP_keys_iff hnodup kind]
  constructor
  · intro h e he hmatching hkind
    exact h e (List.mem_filter.2 ⟨he, hmatching⟩) hkind
  · intro h e he hkind
    exact h e (List.mem_filter.1 he).1 (List.mem_filter.1 he).2 hkind

theorem requests_metrics_iff (hspan : window.start ≤ window.stop)
    (h : metrics text repo accountId window metric filters bucketOverride now generatedAt = some payload) :
    payload.overview.requests = repo.events.countP (matching text accountId window filters) ↔
      ∀ e ∈ repo.events, matching text accountId window filters e → ∃ b ∈ payload.buckets, b.holds e.timestamp := by
  have htotal := @totals_iff text repo accountId _ filters bucketOverride hspan fun _ => true
  simp only [Bool.and_true, List.countP_true, forall_const] at htotal
  simp only [exists_holds hspan h, ← htotal]
  rw [(overview_metrics h).1]
  show (payload.buckets.map (·.count)).sum = _ ↔ _
  rw [buckets_metrics h, List.map_map]
  rfl

theorem errors_metrics_iff (hspan : window.start ≤ window.stop)
    (h : metrics text repo accountId window metric filters bucketOverride now generatedAt = some payload) :
    payload.overview.errors =
        repo.events.countP (fun e => matching text accountId window filters e && isErrorStatus e.statusCode) ↔
      ∀ e ∈ repo.events, matching text accountId window filters e → isErrorStatus e.statusCode →
        ∃ b ∈ payload.buckets, b.holds e.timestamp := by
  have htotal := @totals_iff text repo accountId _ filters bucketOverride hspan fun e => isErrorStatus e.statusCode
  simp only [exists_holds hspan h, ← htotal]
  rw [(overview_metrics h).1]
  show (payload.buckets.map (·.errors)).sum = _ ↔ _
  rw [buckets_metrics h, List.map_map]
  rfl

theorem counts_metrics (hspan : window.start ≤ window.stop)
    (h : metrics text repo accountId window metric filters bucketOverride now generatedAt = some payload) :
    ∀ b ∈ payload.buckets,
      b.count = repo.events.countP (fun e => matching text accountId window filters e && b.holds e.timestamp) ∧
      b.errors = repo.events.countP fun e =>
        matching text accountId window filters e && isErrorStatus e.statusCode && b.holds e.timestamp := by
  have hsize := bucketSecondsFor_pos bucketOverride window.span
  obtain ⟨_, _, _, haligned⟩ := bucketStarts_facts hsize hspan
  rw [buckets_metrics h]
  intro b hb
  obtain ⟨start, hstart, rfl⟩ := List.mem_map.1 hb
  simp only [bucketOf, holds_iff hsize (haligned start hstart)]
  constructor
  · rw [List.filter_filter, ← List.countP_eq_length_filter]
    exact List.countP_congr fun e _ => by simp [and_comm]
  · rw [List.filter_filter, List.countP_filter]
    refine List.countP_congr fun e _ => ?_
    simp only [Bool.and_eq_true]
    tauto

/-- The buckets follow one another without a gap, aligned to the epoch. -/
theorem shape_metrics (hspan : window.start ≤ window.stop)
    (h : metrics text repo accountId window metric filters bucketOverride now generatedAt = some payload) :
    payload.buckets.Pairwise (fun a b => a.start + a.seconds * second ≤ b.start) ∧
    payload.buckets.IsChain (fun a b => b.start = a.start + a.seconds * second) ∧
    ∀ b ∈ payload.buckets, b.seconds * second ∣ b.start := by
  obtain ⟨_, hpairwise, hchain, haligned⟩ := bucketStarts_facts (bucketSecondsFor_pos bucketOverride window.span) hspan
  rw [buckets_metrics h]
  refine ⟨List.pairwise_map.2 hpairwise, (List.isChain_map _).2 hchain, ?_⟩
  intro b hb
  obtain ⟨start, hstart, rfl⟩ := List.mem_map.1 hb
  exact haligned start hstart

theorem holds_unique (hspan : window.start ≤ window.stop)
    (h : metrics text repo accountId window metric filters bucketOverride now generatedAt = some payload) {moment : ℤ}
    {b b' : BucketAggregate} (hb : b ∈ payload.buckets) (hb' : b' ∈ payload.buckets) (hholds : b.holds moment)
    (hholds' : b'.holds moment) : b = b' := by
  have hsize := bucketSecondsFor_pos bucketOverride window.span
  obtain ⟨_, _, _, haligned⟩ := bucketStarts_facts hsize hspan
  rw [buckets_metrics h] at hb hb'
  obtain ⟨start, hstart, rfl⟩ := List.mem_map.1 hb
  obtain ⟨start', hstart', rfl⟩ := List.mem_map.1 hb'
  rw [bucketOf, holds_iff hsize (haligned _ hstart), decide_eq_true_eq] at hholds
  rw [bucketOf, holds_iff hsize (haligned _ hstart'), decide_eq_true_eq] at hholds'
  rw [← hholds, ← hholds']

/-- The payload counts every matching event of a preset window, each in one of the buckets that divide it up, exactly if the
buckets there is room for reach from the window's start to its end. -/
theorem metrics_complete_iff (text : TextOps) (repo : TelemetryRepository) (accountId : ℕ) (key : Option String)
    (maxRangeDays clock : ℤ) (metric : ApiMetric) (filters : Option ApiLogFilters) (bucketOverride : Option ℤ)
    (now generatedAt : ℤ) (window : ResolvedRange) (payload : MetricsWindow)
    (hwindow : resolveRange text key maxRangeDays clock = .ok window)
    (hpayload : metrics text repo accountId window metric filters bucketOverride now generatedAt = some payload) :
    Complete repo.events (matching text accountId window filters) payload ↔
      Fits window (bucketSecondsFor bucketOverride window.span) := by
  have hspan := resolveRange_span hwindow
  have hle := Int.le_of_lt hspan
  have hsize := bucketSecondsFor_pos bucketOverride window.span
  obtain ⟨_, hstart, hstop⟩ := overview_metrics hpayload
  constructor
  · intro hcomplete
    refine fits_of_listed hsize hspan fun moment hlow hhigh => (exists_holds hle hpayload moment).1 ?_
    exact hcomplete.covered moment (hstart ▸ hlow) (hstop ▸ hhigh)
  · intro hfits
    have hcovered : ∀ moment, window.start ≤ moment → moment < window.stop → ∃ b ∈ payload.buckets, b.holds moment :=
      fun moment hlow hhigh => (exists_holds hle hpayload moment).2 (listed_of_fits hsize hfits hlow hhigh)
    have hlisted : ∀ e, matching text accountId window filters e → ∃ b ∈ payload.buckets, b.holds e.timestamp := by
      intro e he
      have hin : e.accountId = accountId ∧ window.start ≤ e.timestamp ∧ e.timestamp < window.stop := by
        simpa using (Bool.and_eq_true_iff.1 he).1
      exact hcovered e.timestamp hin.2.1 hin.2.2
    obtain ⟨hdisjoint, hcontiguous, haligned⟩ := shape_metrics hle hpayload
    exact {
      requests := (requests_metrics_iff hle hpayload).2 fun e _ he => hlisted e he
      errors := (errors_metrics_iff hle hpayload).2 fun e _ he _ => hlisted e he
      once := by
        intro e _ he
        obtain ⟨b, hb, hholds⟩ := hlisted e he
        exact ⟨b, hb, hholds, fun b' hb' hholds' => holds_unique hle hpayload hb' hb hholds' hholds⟩
      counts := counts_metrics hle hpayload
      disjoint := hdisjoint
      contiguous := hcontiguous
      aligned := haligned
      covered := fun moment hlow hhigh => hcovered moment (hstart ▸ hlow) (hstop ▸ hhigh) }

end Payload

/-! ## A chart of an hour, and one of thirty days -/

section Concrete

/-- Strings of letters and digits of ASCII. -/
def asciiText : TextOps where
  repr value := match value with
    | some v => s!"'{v}'"
    | none => "None"
  upper s := String.ofList (s.toList.map Char.toUpper)
  lower s := String.ofList (s.toList.map Char.toLower)
  isDigit := Char.isDigit
  toInt s := s.toNat?.map Int.ofNat
  sqlUpper s := String.ofList (s.toList.map Char.toUpper)
  ilike value pattern := decide ("%" ++ value ++ "%" = pattern)

def hourAgo (now : ℤ) : ApiRequestEvent :=
  ⟨"e1", 1, none, "r1", now - 3600 * second, "GET", "/api/v1/files", 500⟩

def oneRequest (now : ℤ) : TelemetryRepository := ⟨[hourAgo now], id, fun found => List.Perm.refl found⟩

/-- A moment of 2027. -/
def noon : ℤ := 1800000000 * second

def chartOf (key : String) : Option MetricsWindow :=
  match resolveRange asciiText (some key) 30 noon with
  | .ok window => metrics asciiText (oneRequest noon) 1 window .count none none noon noon
  | .error _ => none

/-- The chart of the last day counts the request of an hour ago. -/
theorem metrics_complete_day :
    Complete (oneRequest noon).events (matching asciiText 1 ⟨noon - 86400 * second, noon, "24h"⟩ none)
      ((chartOf "24h").get (by decide +kernel)) :=
  (metrics_complete_iff asciiText (oneRequest noon) 1 (some "24h") 30 noon .count none none noon noon
    ⟨noon - 86400 * second, noon, "24h"⟩ _ (by decide +kernel) (by decide +kernel)).2 (by decide +kernel)

/-- The chart of the last thirty days shows no request, though there was one an hour ago. -/
theorem thirtyDays_misses_latest :
    resolveRange asciiText (some "30d") 30 noon = .ok ⟨noon - 2592000 * second, noon, "30d"⟩ ∧
    matching asciiText 1 ⟨noon - 2592000 * second, noon, "30d"⟩ none (hourAgo noon) ∧
    (∃ payload, metrics asciiText (oneRequest noon) 1 ⟨noon - 2592000 * second, noon, "30d"⟩ .count none none noon noon =
        some payload ∧ payload.overview.requests = 0 ∧ payload.overview.errors = 0 ∧
      ¬ Complete (oneRequest noon).events (matching asciiText 1 ⟨noon - 2592000 * second, noon, "30d"⟩ none) payload) := by
  refine ⟨by decide +kernel, by decide +kernel, (chartOf "30d").get (by decide +kernel), by decide +kernel, by decide +kernel,
    by decide +kernel, ?_⟩
  intro hcomplete
  have hcount := hcomplete.requests
  revert hcount
  decide +kernel

end Concrete

end Transform.Telemetry
