import Transform.Workspaces.Execution

/-!
# Workspaces.Runtime — a workspace and its disposable runtime

The two entities with their state machines, and what the service and the provider say to each other about a runtime.
-/

namespace Transform.Workspaces

open Conversions

/-! ## The workspace -/

section Workspace

inductive WorkspaceState
  | active
  | archived
  | deleting
  deriving DecidableEq, Repr

namespace WorkspaceState

def value : WorkspaceState → String
  | .active => "ACTIVE"
  | .archived => "ARCHIVED"
  | .deleting => "DELETING"

/-- `ALLOWED_WORKSPACE_TRANSITIONS`. -/
def allowed : WorkspaceState → List WorkspaceState
  | .active => [.archived, .deleting]
  | .archived => [.active, .deleting]
  | .deleting => [.archived]

def canTransition (current target : WorkspaceState) : Bool := decide (target ∈ current.allowed)

end WorkspaceState

def WorkspaceState.acceptsExecutions (state : WorkspaceState) : Bool := state = .active

def invalidWorkspace (message : String) : WorkError := { name := "InvalidWorkspaceError", message }

def validateName (raw : String) : Except WorkError String :=
  let name := " ".intercalate (splitWhitespace raw)
  if name = "" then .error (invalidWorkspace "A workspace name is required.")
  else if 80 < name.length then .error (invalidWorkspace "A workspace name may be at most 80 characters.")
  else .ok name

def validateDescription (raw : String) : Except WorkError String :=
  let description := strip raw
  if 400 < description.length then
    .error (invalidWorkspace "A workspace description may be at most 400 characters.")
  else .ok description

/-- Everything that decides which environment a workspace gets. -/
structure RuntimeConfig where
  pythonVersion : String := "3.14"
  uvVersion : String := "0.11.23"
  baseImage : String := "transform-python-runtime"
  baseImageRevision : String := "1.0.0-py3.14"
  resourceProfile : String := "standard"
  configVersion : ℕ := 1
  extra : List (String × String) := []
  deriving DecidableEq, Repr

def RuntimeConfig.imageRef (config : RuntimeConfig) : String := s!"{config.baseImage}:{config.baseImageRevision}"

structure Workspace where
  workspaceId : String
  userId : ℤ
  name : String
  runtimeConfig : RuntimeConfig := {}
  description : String := ""
  state : WorkspaceState := .active
  lastActivityAt : Option ℤ := none
  executionCount : ℕ := 0
  deriving DecidableEq, Repr

namespace Workspace

def acceptsExecutions (workspace : Workspace) : Bool := workspace.state.acceptsExecutions

def transition (workspace : Workspace) (target : WorkspaceState) : Except WorkError Workspace :=
  if workspace.state.canTransition target then .ok { workspace with state := target }
  else .error (invalidWorkspace
    s!"Cannot move a workspace from {workspace.state.value} to {target.value}.")

def archive (workspace : Workspace) : Except WorkError Workspace := workspace.transition .archived

def reactivate (workspace : Workspace) : Except WorkError Workspace := workspace.transition .active

/-- Mark the workspace as being torn down. -/
def beginDelete (workspace : Workspace) : Except WorkError Workspace := workspace.transition .deleting

def rename (workspace : Workspace) (raw : String) : Except WorkError Workspace := do
  let name ← validateName raw
  return { workspace with name }

def updateDescription (workspace : Workspace) (raw : String) : Except WorkError Workspace := do
  let description ← validateDescription raw
  return { workspace with description }

def updateRuntimeConfig (workspace : Workspace) (runtimeConfig : RuntimeConfig) : Workspace :=
  { workspace with runtimeConfig }

/-- Record user-visible activity. -/
def touch (workspace : Workspace) (now : ℤ) : Workspace := { workspace with lastActivityAt := some now }

end Workspace

end Workspace

/-! ## The runtime -/

section Runtime

inductive RuntimeState
  | stopped
  | starting
  | running
  | stopping
  | failed
  deriving DecidableEq, Repr

namespace RuntimeState

def value : RuntimeState → String
  | .stopped => "STOPPED"
  | .starting => "STARTING"
  | .running => "RUNNING"
  | .stopping => "STOPPING"
  | .failed => "FAILED"

/-- `ALLOWED_RUNTIME_TRANSITIONS`. -/
def allowed : RuntimeState → List RuntimeState
  | .stopped => [.starting]
  | .starting => [.running, .stopping, .failed]
  | .running => [.stopping, .failed]
  | .stopping => [.stopped, .failed]
  | .failed => [.starting, .stopped]

def canTransition (current target : RuntimeState) : Bool := decide (target ∈ current.allowed)

/-- `_BUSY_RUNTIME_STATES`. -/
def isBusy (state : RuntimeState) : Bool := decide (state ∈ [RuntimeState.starting, .running, .stopping])

end RuntimeState

structure WorkspaceRuntime where
  runtimeId : String
  workspaceId : String
  provider : String
  state : RuntimeState := .stopped
  providerRef : Option String := none
  imageRevisionId : Option String := none
  resourceProfile : String := "standard"
  failureReason : Option String := none
  startedAt : Option ℤ := none
  stoppedAt : Option ℤ := none
  lastActivityAt : Option ℤ := none
  providerMetadata : List (String × String) := []
  deriving DecidableEq, Repr

namespace WorkspaceRuntime

variable (runtime : WorkspaceRuntime)

def transition (target : RuntimeState) : Except WorkError WorkspaceRuntime :=
  if runtime.state.canTransition target then .ok { runtime with state := target }
  else .error {
    name := "InvalidRuntimeTransition"
    message := s!"Cannot move runtime {runtime.runtimeId} from {runtime.state.value} to {target.value}." }

def beginStart : Except WorkError WorkspaceRuntime := do
  let runtime ← runtime.transition .starting
  return { runtime with failureReason := none }

def markRunning (now : ℤ) (providerRef : String) (imageRevisionId : Option String) :
    Except WorkError WorkspaceRuntime := do
  let runtime ← runtime.transition .running
  return { runtime with
    providerRef := some providerRef, imageRevisionId, startedAt := some now, lastActivityAt := some now
    failureReason := none }

/-- Ask for a stop, of a runtime that runs or starts. -/
def beginStop : Except WorkError WorkspaceRuntime := runtime.transition .stopping

/-- The runtime no longer runs; its handle is kept. -/
def markStopped (now : ℤ) : Except WorkError WorkspaceRuntime := do
  let runtime ← runtime.transition .stopped
  return { runtime with stoppedAt := some now }

/-- Record a provider or startup failure; reporting it again is no error. -/
def markFailed (reason : String) : Except WorkError WorkspaceRuntime :=
  if runtime.state = .failed then .ok { runtime with failureReason := some reason }
  else do
    let runtime ← runtime.transition .failed
    return { runtime with failureReason := some reason }

/-- True only while the runtime can accept an execution. -/
def isServing : Bool := runtime.state = .running

/-- The handle into the provider, where it is a non-empty one. -/
def handle : Option String := truthy runtime.providerRef

end WorkspaceRuntime

end Runtime

/-! ## What is asked of a provider -/

section Provider

/-- What to create; the limits are those of the named profile. -/
structure RuntimeSpec where
  workspaceId : String
  image : String
  resourceProfile : String
  labels : List (String × String) := []
  deriving DecidableEq, Repr

structure ProviderRuntimeStatus where
  providerRef : String
  state : RuntimeState
  deriving DecidableEq, Repr

/-- One bounded piece of work to run inside a runtime. -/
structure ExecutionRequest where
  mode : ExecutionMode
  source : String
  timeoutSeconds : ℕ
  maxOutputBytes : ℕ
  deriving DecidableEq, Repr

structure ProviderFileEntry where
  path : String
  isDir : Bool
  sizeBytes : ℕ := 0
  deriving DecidableEq, Repr

/-- The operations of a provider that the service and the worker ask. -/
inductive ProviderOp
  | ensureWorkspaceState (workspaceId : String)
  | createRuntime (spec : RuntimeSpec)
  | startRuntime (providerRef : String)
  | stopRuntime (providerRef : String)
  | inspectRuntime (providerRef : String)
  | deleteWorkspaceState (workspaceId : String)
  | deleteRuntime (providerRef : String)
  | execute (providerRef : String) (request : ExecutionRequest)
  | readFile (providerRef path : String)
  | listFiles (providerRef path : String)
  | measureWorkspaceUsage (providerRef : String)
  | createSnapshot (providerRef workspaceId revisionId : String)

abbrev ProviderOp.Ans : ProviderOp → Type
  | .ensureWorkspaceState _ => String
  | .createRuntime _ => ProviderRuntimeStatus
  | .startRuntime _ => ProviderRuntimeStatus
  | .stopRuntime _ => ProviderRuntimeStatus
  | .inspectRuntime _ => Option ProviderRuntimeStatus
  | .deleteWorkspaceState _ => Unit
  | .deleteRuntime _ => Unit
  | .execute _ _ => ExecutionOutcome
  | .readFile _ _ => List UInt8
  | .listFiles _ _ => List ProviderFileEntry
  | .measureWorkspaceUsage _ => ℕ
  | .createSnapshot _ _ _ => String

end Provider

end Transform.Workspaces
