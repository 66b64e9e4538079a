import Transform.Workspaces.Execution

/-!
# Workspaces.Revision — a saved environment of a workspace

The status machine of an environment snapshot and the transitions of the entity.
-/

namespace Transform.Workspaces

open Conversions

inductive ImageRevisionStatus
  | pending
  | building
  | ready
  | failed
  deriving DecidableEq, Repr

namespace ImageRevisionStatus

def value : ImageRevisionStatus → String
  | .pending => "PENDING"
  | .building => "BUILDING"
  | .ready => "READY"
  | .failed => "FAILED"

/-- `ALLOWED_IMAGE_REVISION_TRANSITIONS`. -/
def allowed : ImageRevisionStatus → List ImageRevisionStatus
  | .pending => [.building, .failed]
  | .building => [.ready, .failed]
  | .ready | .failed => []

def canTransition (current target : ImageRevisionStatus) : Bool := decide (target ∈ current.allowed)

/-- A built or failed snapshot stays so. -/
def isSettled (status : ImageRevisionStatus) : Bool := decide (status ∈ [ImageRevisionStatus.ready, .failed])

end ImageRevisionStatus

structure RuntimeImageRevision where
  revisionId : String
  workspaceId : String
  provider : String
  configFingerprint : String
  baseImageRevision : String
  status : ImageRevisionStatus := .pending
  providerSnapshotRef : Option String := none
  readyAt : Option ℤ := none
  error : Option String := none
  validationMetadata : List (String × String) := []
  deriving DecidableEq, Repr

namespace RuntimeImageRevision

variable (revision : RuntimeImageRevision)

def transition (target : ImageRevisionStatus) : Except WorkError RuntimeImageRevision :=
  if revision.status.canTransition target then .ok { revision with status := target }
  else .error {
    name := "InvalidRuntimeTransition"
    message := s!"Cannot move image revision {revision.revisionId} from {revision.status.value} to {target.value}." }

def markBuilding : Except WorkError RuntimeImageRevision := revision.transition .building

/-- A completed snapshot, which needs a provider handle. -/
def markReady (now : ℤ) (providerSnapshotRef : String) (metadata : List (String × String)) :
    Except WorkError RuntimeImageRevision :=
  if providerSnapshotRef = "" then .error {
    name := "InvalidRuntimeTransition"
    message := "A ready image revision requires a provider snapshot reference." }
  else do
    let revision ← revision.transition .ready
    return { revision with
      providerSnapshotRef := some providerSnapshotRef
      validationMetadata := metadata ++ revision.validationMetadata.filter fun field => metadata.lookup field.1 = none
      readyAt := some now }

/-- A failed snapshot; reporting the failure again is no error. -/
def markFailed (error : String) : Except WorkError RuntimeImageRevision :=
  let text := if error = "" then "Snapshot creation failed." else error
  let message := String.ofList (text.toList.take 1000)
  if revision.status = .failed then .ok { revision with error := some message }
  else do
    let revision ← revision.transition .failed
    return { revision with error := some message }

end RuntimeImageRevision

end Transform.Workspaces
