import Transform.Lib.Machine
import Transform.Web.UploadEngine

/-!
# Web.PartWorkers — the workers of a multipart upload, request by request

`runUpload` of a file in parts: the session, the pool of workers with the PUTs in flight, the sleeps between attempts and
the requests for batches of URLs, the abort of its signal, and its promise, which the first failure of a worker settles.
-/

namespace Transform.Web

open Lib Conversions

section Workers

/-- Where a worker is: about to have the URL of its part, in a PUT, in the sleep after one that failed, or ended. -/
inductive PartWorker
  | waiting (partNumber : ℕ) (cached : Bool)
  | putting (partNumber attempt : ℕ)
  | sleeping (partNumber attempt : ℕ)
  | returned
  | failed
  deriving DecidableEq, Repr

inductive BatchRequest
  | pending
  | minted
  | refused
  deriving DecidableEq, Repr

inductive RunStage
  | creating
  | transferring
  | verifying
  | settled
  deriving DecidableEq, Repr

/-- What a run does to others. -/
inductive RunCall
  | put (partNumber : ℕ)
  | mint (batchIndex : ℕ) (partNumbers : List ℕ)
  | progress (bytesDone : ℤ)
  deriving DecidableEq, Repr

/-- The variables that the workers share, with the calls so far and the claims, each a part and its worker. -/
structure PartsRun where
  stage : RunStage := .creating
  aborted : Bool := false
  nextPart : ℕ := 1
  urls : ℕ → Option String := fun _ => none
  batchRequests : ℕ → Option BatchRequest := fun _ => none
  completedBytesByPart : List (ℕ × ℤ) := []
  loadedByPart : List (ℕ × ℤ) := []
  etags : List (ℕ × String) := []
  workers : List PartWorker := []
  claims : List (ℕ × ℕ) := []
  calls : List RunCall := [.progress 0]

inductive PartsEvent
  | sessionCreated
  | sessionFailed
  | abort
  | batchAnswered (batchIndex : ℕ) (parts : Option (List (ℕ × String)))
  | resume (worker : ℕ)
  | loaded (worker : ℕ) (bytes : ℤ)
  | putOk (worker : ℕ) (etag : Option String)
  | putFailed (worker : ℕ) (isAbort : Bool)
  | wake (worker : ℕ)
  | rejectRun
  | allReturned
  | verified
  | verifyFailed

variable (plan : UploadPlan)

def UploadPlan.batchIndex (partNumber : ℕ) : ℕ := (partNumber - 1) / plan.partBatchSize

def UploadPlan.batchNumbers (batchIndex : ℕ) : List ℕ :=
  let first := batchIndex * plan.partBatchSize + 1
  let last := min plan.totalParts (first + plan.partBatchSize - 1)
  List.range' first (last + 1 - first)

def uploadBytesFromParts (completedBytes inFlightLoadedBytes size : ℤ) : ℤ :=
  max 0 (min (max 0 size) (completedBytes + inFlightLoadedBytes))

namespace PartsRun

variable (s : PartsRun)

def aggregate : ℤ :=
  uploadBytesFromParts (s.completedBytesByPart.map (·.2)).sum (s.loadedByPart.map (·.2)).sum plan.file.length

def report (bytesDone : ℤ) : PartsRun := { s with calls := .progress bytesDone :: s.calls }

/-- `onLoaded` of a part. -/
def onLoaded (partNumber : ℕ) (bytes : ℤ) : PartsRun :=
  let s := { s with loadedByPart := mapSet s.loadedByPart partNumber bytes }
  s.report (s.aggregate plan)

/-- `mintUrl` up to its first `await`; whether the URL was there. -/
def mintUrl (partNumber : ℕ) : PartsRun × Bool :=
  if (truthy (s.urls partNumber)).isSome then (s, true)
  else
    match s.batchRequests (plan.batchIndex partNumber) with
    | some _ => (s, false)
    | none =>
      ({ s with
        batchRequests := Function.update s.batchRequests (plan.batchIndex partNumber) (some .pending)
        calls := .mint (plan.batchIndex partNumber) (plan.batchNumbers (plan.batchIndex partNumber)) :: s.calls }, false)

/-- One turn of the loop of a worker, up to its first `await`. -/
def claim (worker : ℕ) : PartsRun × PartWorker :=
  if s.aborted then (s, .failed)
  else if plan.totalParts < s.nextPart then (s, .returned)
  else
    let claimed := { s with nextPart := s.nextPart + 1, claims := (s.nextPart, worker) :: s.claims }
    let (s', cached) := claimed.mintUrl plan s.nextPart
    (s', .waiting s.nextPart cached)

def setWorker (worker : ℕ) (next : PartWorker) : PartsRun := { s with workers := s.workers.set worker next }

def startWorker : PartsRun :=
  let (s', next) := s.claim plan s.workers.length
  { s' with workers := s'.workers ++ [next] }

/-- The pool of workers, started one after the other. -/
def startWorkers : ℕ → PartsRun → PartsRun
  | 0, s => s
  | n + 1, s => startWorkers n (s.startWorker plan)

/-- An attempt of `putWithRetry`. -/
def attemptPut (worker partNumber attempt : ℕ) : PartsRun :=
  if s.aborted then s.setWorker worker .failed
  else
    let s := s.onLoaded plan partNumber 0
    { s.setWorker worker (.putting partNumber attempt) with calls := .put partNumber :: s.calls }

/-- What is left of `mintUrl` after its `await`. -/
def resume (worker partNumber : ℕ) (cached : Bool) : Option PartsRun :=
  if cached then some (s.attemptPut plan worker partNumber 0)
  else
    match s.batchRequests (plan.batchIndex partNumber) with
    | some .minted =>
      if (truthy (s.urls partNumber)).isSome then some (s.attemptPut plan worker partNumber 0)
      else some (s.setWorker worker .failed)
    | some .refused => some (s.setWorker worker .failed)
    | _ => none

/-- A part is up, and its worker goes on. -/
def partDone (worker partNumber : ℕ) (etag : Option String) : PartsRun :=
  let size := min (((partNumber : ℤ) - 1) * plan.partSizeBytes + plan.partSizeBytes) plan.file.length -
    ((partNumber : ℤ) - 1) * plan.partSizeBytes
  let s := { s with
    etags := match truthy etag with
      | some etag => mapSet s.etags partNumber etag
      | none => s.etags
    loadedByPart := s.loadedByPart.filter (·.1 ≠ partNumber)
    completedBytesByPart := mapSet s.completedBytesByPart partNumber size }
  let (s, next) := (s.report (s.aggregate plan)).claim plan worker
  s.setWorker worker next

def batchAnswered (batchIndex : ℕ) : Option (List (ℕ × String)) → PartsRun
  | some parts =>
    { s with
      urls := parts.foldl (fun urls part => Function.update urls part.1 (some part.2)) s.urls
      batchRequests := Function.update s.batchRequests batchIndex (some .minted) }
  | none => { s with batchRequests := Function.update s.batchRequests batchIndex (some .refused) }

/-- A PUT whose signal is aborted rejects, with no progress before that. -/
def step (s : PartsRun) : PartsEvent → Option PartsRun
  | .sessionCreated =>
    if s.stage = .creating then
      if s.aborted then some { s with stage := .settled }
      else some (startWorkers plan plan.concurrency { s with stage := .transferring })
    else none
  | .sessionFailed => if s.stage = .creating then some { s with stage := .settled } else none
  | .abort => some { s with aborted := true }
  | .batchAnswered batchIndex parts =>
    if s.batchRequests batchIndex = some .pending then some (s.batchAnswered batchIndex parts) else none
  | .resume worker =>
    match s.workers[worker]? with
    | some (.waiting partNumber cached) => s.resume plan worker partNumber cached
    | _ => none
  | .loaded worker bytes =>
    match s.workers[worker]? with
    | some (.putting partNumber _) => if s.aborted then none else some (s.onLoaded plan partNumber bytes)
    | _ => none
  | .putOk worker etag =>
    match s.workers[worker]? with
    | some (.putting partNumber _) => if s.aborted then none else some (s.partDone plan worker partNumber etag)
    | _ => none
  | .putFailed worker isAbort =>
    match s.workers[worker]? with
    | some (.putting partNumber attempt) =>
      if isAbort || s.aborted || plan.delays.length ≤ attempt then some (s.setWorker worker .failed)
      else some (s.setWorker worker (.sleeping partNumber attempt))
    | _ => none
  | .wake worker =>
    match s.workers[worker]? with
    | some (.sleeping partNumber attempt) => some (s.attemptPut plan worker partNumber (attempt + 1))
    | _ => none
  | .rejectRun => if s.stage = .transferring ∧ .failed ∈ s.workers then some { s with stage := .settled } else none
  | .allReturned =>
    if s.stage = .transferring ∧ ∀ worker ∈ s.workers, worker = .returned then
      some { s.report plan.file.length with stage := .verifying }
    else none
  | .verified => if s.stage = .verifying then some { s with stage := .settled } else none
  | .verifyFailed => if s.stage = .verifying then some { s with stage := .settled } else none

end PartsRun

end Workers

/-! ## The property -/

section Property

variable (plan : UploadPlan)

def PartWorker.isPutting : PartWorker → Bool
  | .putting _ _ => true
  | _ => false

/-- The PUTs in flight. -/
def PartsRun.inFlight (s : PartsRun) : ℕ := s.workers.countP PartWorker.isPutting

/-- The batches that were asked for. -/
def mintedBatches (calls : List RunCall) : List ℕ :=
  calls.filterMap fun call => match call with
    | .mint batchIndex _ => some batchIndex
    | _ => none

/-- When the promise is settled nothing is called any more, whatever comes. -/
def PartsRun.Quiet (s : PartsRun) : Prop :=
  s.stage = .settled → ∀ tr, Path (PartsRun.step plan) s tr → (lastState s tr).calls = s.calls

/-- What is asked of every state of a run. -/
structure PartsRun.Sound (s : PartsRun) : Prop where
  bounded : s.inFlight ≤ plan.maxParallelParts
  claimedOnce : (s.claims.map (·.1)).Nodup
  mintedOnce : (mintedBatches s.calls).Nodup
  quiet : s.Quiet plan

/-- A worker that has a PUT in flight, a sleep before its next attempt, or a URL to use or to wait for. -/
def PartsRun.lively (s : PartsRun) : PartWorker → Bool
  | .waiting partNumber cached => cached ||
      match s.batchRequests (plan.batchIndex partNumber) with
      | some .pending => true
      | some .minted => (truthy (s.urls partNumber)).isSome
      | _ => false
  | .putting _ _ => true
  | .sleeping _ _ => true
  | .returned => false
  | .failed => false

/-- The promise is rejected for the failure of a worker only when the signal is aborted or no other worker is left that may
still call. -/
def PartsRun.Alone (s : PartsRun) : PartsEvent → Prop
  | .rejectRun => s.aborted = true ∨ ∀ worker ∈ s.workers, s.lively plan worker = false
  | _ => True

/-- The step of a worker ends in a PUT. -/
def PartsRun.Puts (s : PartsRun) : PartsEvent → Prop
  | .resume i => s.aborted = false ∧ ∃ worker, s.workers[i]? = some worker ∧ s.lively plan worker = true
  | .wake _ => s.aborted = false
  | _ => False

/-- A PUT is allowed, or the step ends in none: one worker is started in any case. -/
def PartsRun.Allowed (s : PartsRun) (e : PartsEvent) : Prop := 1 ≤ plan.maxParallelParts ∨ ¬ s.Puts plan e

end Property

end Transform.Web
