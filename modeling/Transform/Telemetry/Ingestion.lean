import Transform.Lib.Keyed

/-!
# Telemetry.Ingestion — the queue of the request telemetry

Recording puts an item on a bounded queue.  The collector takes items off it into a batch and writes the batch; `flush_now`
writes what it finds, and `stop` sends a sentinel through the queue and waits for the collector.  A coroutine runs without a
break from one `await` to the next, so a transition is what one of them does in between.
-/

namespace Transform.Telemetry

open Lib

inductive ItemTag
  | event
  | invocation
  deriving DecidableEq, Repr

/-- A tag and the row to write. -/
structure Item (α : Type) where
  tag : ItemTag
  payload : α
  deriving DecidableEq, Repr

/-- One number for each of the two kinds of items. -/
structure Tally where
  events : ℕ := 0
  invocations : ℕ := 0
  deriving DecidableEq, Repr

def Tally.add (t : Tally) : ItemTag → Tally
  | .event => { t with events := t.events + 1 }
  | .invocation => { t with invocations := t.invocations + 1 }

structure IngestionStats where
  enqueued : Tally := {}
  dropped : Tally := {}
  written : Tally := {}
  writeFailures : ℕ := 0
  retriedBatches : ℕ := 0
  queueDepth : ℕ := 0
  deriving DecidableEq, Repr

/-- How the sink is set up; `storage` is whether there is a session factory. -/
structure IngestionConfig where
  batchSize : ℕ := 100
  maxQueue : ℕ := 10000
  storage : Bool := true
  enabled : Bool := true

/-- What a coroutine does after a write: the collector loops, unless it has taken the sentinel; a flush returns. -/
inductive After
  | loop
  | finish
  deriving DecidableEq, Repr

/-- What a coroutine awaits: an item for the batch it collects, the storage of a batch, or the end of the collector.  A
`stop` carries what was recorded before it. -/
inductive Await (α : Type)
  | collecting (items : List (Item α))
  | writing (batch : List (Item α)) (after : After)
  | waiting (collector : ℕ) (before : List (Item α))
  deriving DecidableEq, Repr

/-- The items in the hands of a coroutine. -/
def Await.held {α : Type} : Await α → List (Item α)
  | .collecting items => items
  | .writing batch _ => batch
  | .waiting _ _ => []

/-- The batch that is collected. -/
def Await.collecting? {α : Type} : Await α → Option (List (Item α))
  | .collecting items => some items
  | _ => none

/-- The collector that a `stop` waits for, and what was recorded before. -/
def Await.waiting? {α : Type} : Await α → Option (ℕ × List (Item α))
  | .waiting collector before => some (collector, before)
  | _ => none

/-- The sink with its coroutines; `none` on the queue is the sentinel.  Beside it, the items recorded, and those counted as
written and as dropped. -/
structure Sink (α : Type) where
  queue : List (Option (Item α)) := []
  retryBuffer : List (Item α) := []
  stats : IngestionStats := {}
  dropLogged : Bool := false
  task : Option ℕ := none
  coroutines : List (ℕ × Await α) := []
  next : ℕ := 0
  recorded : List (Item α) := []
  written : List (Item α) := []
  dropped : List (Item α) := []

variable {α : Type} [DecidableEq α] (cfg : IngestionConfig)

namespace Sink

variable (s : Sink α)

/-! ## The queue -/

/-- `put_nowait`, where the queue has room. -/
def put (entry : Option (Item α)) : Option (Sink α) :=
  if s.queue.length < max 1 cfg.maxQueue then some { s with queue := s.queue ++ [entry] } else none

/-- `put_nowait` of the sentinel, with `QueueFull` suppressed. -/
def putStop : Sink α := (s.put cfg none).getD s

/-- `_enqueue`. -/
def enqueue (item : Item α) : Sink α :=
  if !cfg.enabled then s
  else match s.put cfg (some item) with
    | none => { s with
        stats := { s.stats with dropped := s.stats.dropped.add item.tag }
        dropLogged := true
        recorded := item :: s.recorded
        dropped := item :: s.dropped }
    | some s' => { s' with
        stats := { s.stats with enqueued := s.stats.enqueued.add item.tag, queueDepth := s'.queue.length }
        dropLogged := false
        recorded := item :: s.recorded }

/-- `_drain_available`: so many items off the queue, with the sentinels on the way, and what is left of it. -/
def drain : List (Option (Item α)) → ℕ → List (Item α) × List (Option (Item α))
  | [], _ => ([], [])
  | entry :: queue, 0 => ([], entry :: queue)
  | none :: queue, n + 1 => drain queue (n + 1)
  | some item :: queue, n + 1 => (item :: (drain queue n).1, (drain queue n).2)

/-! ## Writing -/

def countWritten (batch : List (Item α)) : Sink α :=
  { s with
    stats := { s.stats with written := batch.foldl (fun t item => t.add item.tag) s.stats.written }
    written := batch ++ s.written }

/-- What a coroutine awaits after a write; nothing if it has returned. -/
def resume : After → Option (Await α)
  | .loop => some (.collecting [])
  | .finish => none

/-- `_write` up to the storage: the batch is merged with the retry buffer and cut to its size. -/
def write (items : List (Item α)) (after : After) : Sink α × Option (Await α) :=
  let batch := (s.retryBuffer ++ items).take cfg.batchSize
  let s := { s with retryBuffer := [] }
  if batch = [] then (s, resume after)
  else if !cfg.storage then (s.countWritten batch, resume after)
  else (s, some (.writing batch after))

/-- The storage has failed: the batch is kept for one retry. -/
def writeFailed (batch : List (Item α)) : Sink α :=
  let stats := { s.stats with writeFailures := s.stats.writeFailures + 1 }
  if s.retryBuffer = [] then
    { s with stats := { stats with retriedBatches := stats.retriedBatches + 1 }, retryBuffer := batch.take cfg.batchSize }
  else { s with stats := stats }

/-! ## The coroutines -/

/-- `_run` with what `_collect` has returned. -/
def collected (items : List (Item α)) : Sink α × Option (Await α) :=
  if items = [] then (s, some (.collecting [])) else s.write cfg items .loop

/-- `_collect` with an item taken off the queue; `again` is whether its time is not over. -/
def collect (items : List (Item α)) (item : Item α) (again : Bool) : Sink α × Option (Await α) :=
  if (items ++ [item]).length < cfg.batchSize && again then (s, some (.collecting (items ++ [item])))
  else s.collected cfg (items ++ [item])

/-- `_run` after the sentinel: it is put back for another `stop`, and one more batch is written. -/
def finishRun : Sink α × Option (Await α) :=
  let s := s.putStop cfg
  let drained := drain s.queue cfg.batchSize
  write cfg { s with queue := drained.2 } drained.1 .finish

/-- A coroutine goes on to what it awaits next, or ends. -/
def settle (i : ℕ) (r : Sink α × Option (Await α)) : Sink α :=
  match r.2 with
  | some await => { r.1 with coroutines := mapReplace i await r.1.coroutines }
  | none => { r.1 with coroutines := r.1.coroutines.eraseP (·.1 = i) }

/-- A coroutine that is called goes on to what it awaits first, or returns at once. -/
def launch (r : Sink α × Option (Await α)) : Sink α :=
  match r.2 with
  | some await => { r.1 with coroutines := (r.1.next, await) :: r.1.coroutines, next := r.1.next + 1 }
  | none => r.1

def start : Sink α :=
  if !cfg.enabled || s.task.isSome then s else launch ({ s with task := some s.next }, some (.collecting []))

def flushNow : Sink α :=
  let drained := drain s.queue cfg.batchSize
  let s := { s with queue := drained.2 }
  if drained.1 ≠ [] ∨ s.retryBuffer ≠ [] then launch (s.write cfg drained.1 .finish) else s

def stop : Sink α :=
  match s.task with
  | none => s
  | some collector => launch (s.putStop cfg, some (.waiting collector s.recorded))

/-- `stop` after its wait. -/
def stopped (i : ℕ) : Sink α := { settle i (s, none) with task := none }

end Sink

/-! ## The sink and what happens to it -/

/-- A call; what the collector's wait for an item comes to; what the storage of a batch comes to; and the end of a `stop`,
when the collector has returned or when the time is over and it is cancelled. -/
inductive IngestionEvent (α : Type)
  | record (item : Item α)
  | start
  | flushNow
  | stop
  | got (i : ℕ) (again : Bool)
  | timedOut (i : ℕ)
  | stored (i : ℕ)
  | failed (i : ℕ)
  | returned (i : ℕ)
  | expired (i : ℕ)
  deriving DecidableEq, Repr

namespace Sink

variable (s : Sink α)

/-- The collector takes the first of the queue. -/
def got (i : ℕ) (items : List (Item α)) (again : Bool) : Option (Sink α) :=
  match s.queue with
  | [] => none
  | none :: queue => some (settle i (finishRun cfg { s with queue := queue }))
  | some item :: queue => some (settle i (collect cfg { s with queue := queue } items item again))

def step (s : Sink α) : IngestionEvent α → Option (Sink α)
  | .record item => some (s.enqueue cfg item)
  | .start => some (s.start cfg)
  | .flushNow => some (s.flushNow cfg)
  | .stop => some (s.stop cfg)
  | .got i again =>
    match mapGet s.coroutines i with
    | some (.collecting items) => if items.length < cfg.batchSize then s.got cfg i items again else none
    | _ => none
  | .timedOut i =>
    match mapGet s.coroutines i with
    | some (.collecting items) => if items.length < cfg.batchSize then some (settle i (s.collected cfg items)) else none
    | _ => none
  | .stored i =>
    match mapGet s.coroutines i with
    | some (.writing batch after) => some (settle i (s.countWritten batch, resume after))
    | _ => none
  | .failed i =>
    match mapGet s.coroutines i with
    | some (.writing batch after) => some (settle i (s.writeFailed cfg batch, resume after))
    | _ => none
  | .returned i =>
    match mapGet s.coroutines i with
    | some (.waiting collector _) => if mapGet s.coroutines collector = none then some (s.stopped i) else none
    | _ => none
  | .expired i =>
    match mapGet s.coroutines i with
    | some (.waiting collector _) =>
      if mapGet s.coroutines collector = none then none else some (stopped (settle collector (s, none)) i)
    | _ => none

end Sink

end Transform.Telemetry
