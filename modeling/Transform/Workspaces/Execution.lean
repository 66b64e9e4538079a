import Transform.Conversions.Job

/-!
# Workspaces.Execution — one submitted unit of work

The status machine of an execution and the transitions of the entity.  A transition that the table does not allow
raises and leaves the entity.
-/

namespace Transform.Workspaces

open Conversions

/-! ## Exceptions -/

section Errors

/-- A raised exception: the name of its class, whether it is a `RuntimeProviderError`, and `str(e)`. -/
structure WorkError where
  name : String
  isProvider : Bool := false
  message : String
  deriving DecidableEq, Repr

/-- `f"{exc.__class__.__name__}: {exc}"`. -/
def WorkError.text (e : WorkError) : String := s!"{e.name}: {e.message}"

/-- What a handler records of an exception. -/
def describe (e : WorkError) : String :=
  let text := if e.message = "" then e.name else e.text
  String.ofList (text.toList.take 900)

end Errors

/-! ## Statuses -/

section Status

inductive ExecutionStatus
  | queued
  | running
  | succeeded
  | failed
  | cancelled
  | timedOut
  deriving DecidableEq, Repr

namespace ExecutionStatus

def value : ExecutionStatus → String
  | .queued => "QUEUED"
  | .running => "RUNNING"
  | .succeeded => "SUCCEEDED"
  | .failed => "FAILED"
  | .cancelled => "CANCELLED"
  | .timedOut => "TIMED_OUT"

/-- `ALLOWED_EXECUTION_TRANSITIONS`. -/
def allowed : ExecutionStatus → List ExecutionStatus
  | .queued => [.running, .cancelled, .failed]
  | .running => [.succeeded, .failed, .cancelled, .timedOut]
  | .succeeded | .failed | .cancelled | .timedOut => []

def canTransition (current target : ExecutionStatus) : Bool := decide (target ∈ current.allowed)

/-- `TERMINAL_EXECUTION_STATUSES`. -/
def isTerminal (status : ExecutionStatus) : Bool :=
  decide (status ∈ [ExecutionStatus.succeeded, .failed, .timedOut, .cancelled])

end ExecutionStatus

inductive ExecutionMode
  | script
  | command
  | project
  deriving DecidableEq, Repr

end Status

/-! ## Output -/

section Output

def excerptLimitChars : ℤ := 8000

/-- The tail of a captured stream, after a notice of what was dropped, and whether anything was. -/
def boundOutput (text : String) (limit : ℤ := excerptLimitChars) : Except WorkError (String × Bool) :=
  if limit ≤ 0 then .error { name := "ValueError", message := "limit must be positive" }
  else if text.length ≤ limit then .ok (text, false)
  else
    let notice := s!"… [truncated; {text.length - limit} earlier characters omitted]\n"
    let marker := if (notice.length : ℤ) ≥ limit then "…\n" else notice
    let keep := limit - marker.length
    .ok (marker ++ String.ofList (text.toList.drop (text.length - keep).toNat), true)

structure ExecutionArtifact where
  path : String
  sizeBytes : ℤ := 0
  objectKey : Option String := none
  contentType : String := "application/octet-stream"
  deriving DecidableEq, Repr

/-- The result of running one request. -/
structure ExecutionOutcome where
  exitCode : Option ℤ
  stdout : String := ""
  stderr : String := ""
  durationMs : ℤ := 0
  timedOut : Bool := false
  memoryPeakBytes : ℤ := 0
  error : Option String := none
  deriving DecidableEq, Repr

end Output

/-! ## The entity -/

section Entity

structure Execution where
  executionId : String
  workspaceId : String
  userId : ℤ
  mode : ExecutionMode
  source : String
  status : ExecutionStatus := .queued
  runtimeId : Option String := none
  startedAt : Option ℤ := none
  completedAt : Option ℤ := none
  exitCode : Option ℤ := none
  stdoutExcerpt : String := ""
  stderrExcerpt : String := ""
  stdoutRef : Option String := none
  stderrRef : Option String := none
  stdoutTruncated : Bool := false
  stderrTruncated : Bool := false
  error : Option String := none
  artifacts : List ExecutionArtifact := []
  durationMs : ℤ := 0
  memoryPeakBytes : ℤ := 0
  idempotencyKey : Option String := none
  origin : JobOrigin := .web
  deriving DecidableEq, Repr

namespace Execution

variable (execution : Execution) (now : ℤ)

def isTerminal : Bool := execution.status.isTerminal

def transition (target : ExecutionStatus) : Except WorkError Execution :=
  if execution.status.canTransition target then .ok { execution with status := target }
  else .error {
    name := "InvalidExecutionTransition"
    message := s!"Cannot move execution {execution.executionId} from {execution.status.value} to {target.value}." }

def start (runtimeId : String) : Except WorkError Execution := do
  let execution ← execution.transition .running
  return { execution with runtimeId := some runtimeId, startedAt := some now }

def recordOutput (stdout stderr : String) : Except WorkError Execution := do
  let (stdoutExcerpt, stdoutTruncated) ← boundOutput stdout
  let (stderrExcerpt, stderrTruncated) ← boundOutput stderr
  return { execution with
    stdoutExcerpt, stdoutTruncated, stderrExcerpt, stderrTruncated, stdoutRef := none, stderrRef := none }

def finish : Execution := { execution with completedAt := some now }

def succeed (exitCode : ℤ) (stdout stderr : String) (durationMs memoryPeakBytes : ℤ)
    (artifacts : List ExecutionArtifact) : Except WorkError Execution := do
  let execution ← execution.transition .succeeded
  let execution := { execution with
    exitCode := some exitCode, durationMs := max 0 durationMs, memoryPeakBytes := max 0 memoryPeakBytes }
  let execution ← execution.recordOutput stdout stderr
  let execution := if artifacts = [] then execution else { execution with artifacts }
  return execution.finish now

def fail (error : String) (exitCode : Option ℤ := none) (stdout stderr : String := "") (durationMs : ℤ := 0) :
    Except WorkError Execution := do
  let execution ← execution.transition .failed
  let execution := { execution with error := some error, exitCode, durationMs := max 0 durationMs }
  let execution ← execution.recordOutput stdout stderr
  return execution.finish now

def timeOut (stdout stderr : String) (durationMs : ℤ) : Except WorkError Execution := do
  let execution ← execution.transition .timedOut
  let execution := { execution with
    error := some "Execution exceeded the configured time limit.", durationMs := max 0 durationMs }
  let execution ← execution.recordOutput stdout stderr
  return execution.finish now

/-- The cancelled execution; `none` where it had ended, which is no error. -/
def cancel : Except WorkError (Option Execution) :=
  if execution.isTerminal then .ok none
  else do
    let execution ← execution.transition .cancelled
    let error := match truthy execution.error with
      | some error => error
      | none => "Execution cancelled."
    return some ({ execution with error := some error }.finish now)

end Execution

/-! ### What a transition gives -/

variable {execution execution' : Execution} {now : ℤ}

theorem transition_ok {target : ExecutionStatus} (h : execution.transition target = .ok execution') :
    execution' = { execution with status := target } := by
  unfold Execution.transition at h
  split_ifs at h
  cases h
  rfl

def Execution.head (execution : Execution) : String × ExecutionStatus := (execution.executionId, execution.status)

theorem recordOutput_ok {stdout stderr : String} (h : execution.recordOutput stdout stderr = .ok execution') :
    execution'.head = execution.head := by
  unfold Execution.recordOutput at h
  obtain ⟨out, -, h⟩ := bind_ok h
  obtain ⟨err, -, h⟩ := bind_ok h
  cases h
  rfl

theorem start_ok {runtimeId : String} (h : execution.start now runtimeId = .ok execution') :
    execution'.executionId = execution.executionId := by
  unfold Execution.start at h
  obtain ⟨moved, hmoved, h⟩ := bind_ok h
  obtain rfl := transition_ok hmoved
  cases h
  rfl

def Execution.EndsAs (execution execution' : Execution) : Prop :=
  execution'.executionId = execution.executionId ∧ execution'.isTerminal = true

theorem endsAs_of_head (status : ExecutionStatus) (hs : status.isTerminal = true)
    (h : execution'.head = (execution.executionId, status)) : execution.EndsAs execution' := by
  obtain ⟨hid, hstatus⟩ := Prod.mk.inj h
  refine ⟨hid, ?_⟩
  rw [Execution.isTerminal, hstatus, hs]

theorem fail_ok {error stdout stderr : String} {exitCode : Option ℤ} {durationMs : ℤ}
    (h : execution.fail now error exitCode stdout stderr durationMs = .ok execution') : execution.EndsAs execution' := by
  unfold Execution.fail at h
  obtain ⟨moved, hmoved, h⟩ := bind_ok h
  obtain rfl := transition_ok hmoved
  obtain ⟨written, hwritten, h⟩ := bind_ok h
  have hhead := recordOutput_ok hwritten
  cases h
  exact endsAs_of_head .failed rfl hhead

theorem timeOut_ok {stdout stderr : String} {durationMs : ℤ}
    (h : execution.timeOut now stdout stderr durationMs = .ok execution') : execution.EndsAs execution' := by
  unfold Execution.timeOut at h
  obtain ⟨moved, hmoved, h⟩ := bind_ok h
  obtain rfl := transition_ok hmoved
  obtain ⟨written, hwritten, h⟩ := bind_ok h
  have hhead := recordOutput_ok hwritten
  cases h
  exact endsAs_of_head .timedOut rfl hhead

theorem succeed_ok {exitCode durationMs memoryPeakBytes : ℤ} {stdout stderr : String}
    {artifacts : List ExecutionArtifact}
    (h : execution.succeed now exitCode stdout stderr durationMs memoryPeakBytes artifacts = .ok execution') :
    execution.EndsAs execution' := by
  unfold Execution.succeed at h
  obtain ⟨moved, hmoved, h⟩ := bind_ok h
  obtain rfl := transition_ok hmoved
  obtain ⟨written, hwritten, h⟩ := bind_ok h
  have hhead := recordOutput_ok hwritten
  cases h
  refine endsAs_of_head .succeeded rfl ?_
  split_ifs
  · exact hhead
  · exact hhead

theorem cancel_ok (h : execution.cancel now = .ok (some execution')) : execution.EndsAs execution' := by
  unfold Execution.cancel at h
  split_ifs at h
  · cases h
  · obtain ⟨moved, hmoved, h⟩ := bind_ok h
    obtain rfl := transition_ok hmoved
    cases h
    exact endsAs_of_head .cancelled rfl rfl

end Entity

end Transform.Workspaces
