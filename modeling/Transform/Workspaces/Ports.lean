import Transform.Queues.WorkspaceStream
import Transform.Workspaces.Runtime

/-!
# Workspaces.Ports — what the workspace code asks of its environment

One signature for the API and the workspace worker: the tables, the queue, the provider of runtimes, the object
storage, the clock, the ids, and the client of the API, to whom a submit responds.
-/

namespace Transform.Workspaces

open Lib Conversions Queues

inductive WorkspaceOp
  | uuid4
  | now
  | getWorkspace (workspaceId : String) (userId : ℤ)
  | updateWorkspace (workspace : Workspace)
  | deleteWorkspace (workspaceId : String) (userId : ℤ)
  | getRuntime (workspaceId : String)
  | insertRuntime (runtime : WorkspaceRuntime)
  | saveRuntime (runtime : WorkspaceRuntime)
  | deleteRuntime (workspaceId : String)
  | insertExecution (execution : Execution)
  | getExecution (executionId : String)
  | getExecutionForUser (executionId : String) (userId : ℤ)
  | findExecutionByKey (workspaceId idempotencyKey : String)
  | listActiveExecutions (workspaceId : String)
  | updateExecution (execution : Execution)
  | claimExecution (executionId runtimeId : String) (startedAt : ℤ)
  | deleteExecutions (workspaceId : String)
  | insertRevision (revision : RuntimeImageRevision)
  | getRevision (revisionId workspaceId : String)
  | findReusableRevision (workspaceId configFingerprint baseImageRevision : String)
  | listRevisions (workspaceId : String) (limit : ℕ)
  | updateRevision (revision : RuntimeImageRevision)
  | deleteRevision (revisionId workspaceId : String)
  | deleteRevisions (workspaceId : String)
  | publish (message : WorkspaceWorkMessage)
  | provider (op : ProviderOp)
  | upload (objectKey : String) (payload : List UInt8)
  | respond (execution : Execution)

abbrev WorkspaceOp.Ans : WorkspaceOp → Type
  | .uuid4 => String
  | .now => ℤ
  | .getWorkspace _ _ => Option Workspace
  | .updateWorkspace _ => Bool
  | .deleteWorkspace _ _ => Bool
  | .getRuntime _ => Option WorkspaceRuntime
  | .insertRuntime _ => Unit
  | .saveRuntime _ => Unit
  | .deleteRuntime _ => Bool
  | .insertExecution _ => Unit
  | .getExecution _ => Option Execution
  | .getExecutionForUser _ _ => Option Execution
  | .findExecutionByKey _ _ => Option Execution
  | .listActiveExecutions _ => List Execution
  | .updateExecution _ => Bool
  | .claimExecution _ _ _ => Bool
  | .deleteExecutions _ => ℕ
  | .insertRevision _ => Unit
  | .getRevision _ _ => Option RuntimeImageRevision
  | .findReusableRevision _ _ _ => Option RuntimeImageRevision
  | .listRevisions _ _ => List RuntimeImageRevision
  | .updateRevision _ => Bool
  | .deleteRevision _ _ => Bool
  | .deleteRevisions _ => ℕ
  | .publish _ => Unit
  | .provider op => op.Ans
  | .upload _ _ => Unit
  | .respond _ => Unit

/-- The signature of the workspace code. -/
abbrev WorkspaceSig : Sig := ⟨WorkspaceOp, WorkspaceOp.Ans, WorkError⟩

/-- A program of the workspace code. -/
abbrev WorkspaceAct (α : Type) : Type := Act WorkspaceSig WorkError α

/-- One call of a port. -/
def port (op : WorkspaceOp) : WorkspaceAct op.Ans := @ask WorkspaceSig op

/-- What the services and the worker are wired with.  The digest of a configuration, Python's `repr` of a string and
the rendering of a size are functions here. -/
structure WorkspaceContext where
  providerName : String
  fingerprint : RuntimeConfig → String
  repr : String → String
  humanBytes : ℕ → String
  diskQuotaBytes : ℤ := 0
  hasCapacity : Bool := true
  maxActiveExecutions : ℕ := 5
  allowsPackageInstall : Bool := true
  executionTimeoutSeconds : ℕ := 300
  maxOutputBytes : ℕ
  hasStorage : Bool := true
  baseTargetKey : String
  artifactDirectory : String := "outputs"
  maxArtifactsPerExecution : ℕ := 20
  maxArtifactBytes : ℕ := 25 * 1024 * 1024
  snapshotRetention : ℕ := 5

/-- Handle a failure of the provider; any other exception goes on. -/
def catchProvider {α : Type} (p : WorkspaceAct α) (h : WorkError → WorkspaceAct α) : WorkspaceAct α :=
  p.tryCatch fun e => if e.isProvider then h e else .throw e

/-! ## A small deployment -/

section Small

def someWorkspace : Workspace where
  workspaceId := "w-1"
  userId := 7
  name := "lab"

def servingRuntime : WorkspaceRuntime where
  runtimeId := "r-1"
  workspaceId := "w-1"
  provider := "docker"
  state := .running
  providerRef := some "c-1"

/-- One execution at a time. -/
def smallContext : WorkspaceContext where
  providerName := "docker"
  fingerprint config := config.imageRef
  repr s := s
  humanBytes _ := ""
  maxActiveExecutions := 1
  maxOutputBytes := 1000
  baseTargetKey := "files"

end Small

end Transform.Workspaces
