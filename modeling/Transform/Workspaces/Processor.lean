import Transform.Workspaces.Service

/-!
# Workspaces.Processor — the work itself: one execution, or one environment snapshot

The handlers of the workspace worker.  `handleExecution` reads the row, brings the runtime up, claims the row, runs the
program and writes its outcome; the row is read again before an outcome of the program, and not before a failure of the
provider.  `handleSnapshot` moves a revision through BUILDING to READY or FAILED.
-/

namespace Transform.Workspaces

open Lib Conversions Queues

variable (ctx : WorkspaceContext)

/-! ## Executions -/

section Executions

def persistFailure (execution : Execution) (error : String) : WorkspaceAct Unit := do
  let now ← port .now
  let failed ← .ofExcept (execution.fail now error)
  let _ ← port (.updateExecution failed)
  return ()

/-- `_persist_outcome`, of an execution whose run the provider could not make. -/
def persistOutcome (execution : Execution) (e : WorkError) : WorkspaceAct Unit := persistFailure execution (describe e)

def baseName (path : String) : String := String.ofList ((path.toList.splitOn '/').getLast?.getD [])

/-- `str.rstrip("/")`. -/
def rstripSlash (s : String) : String := String.ofList (s.toList.reverse.dropWhile (· = '/')).reverse

def artifactKey (workspaceId executionId path : String) : String :=
  s!"{rstripSlash ctx.baseTargetKey}/workspace/{workspaceId}/execution/{executionId}/{baseName path}"

/-- Copy one output file to the object storage; whatever fails leaves it without a key. -/
def collectArtifact (providerRef : String) (execution : Execution) (entry : ProviderFileEntry) :
    WorkspaceAct ExecutionArtifact :=
  let artifact : ExecutionArtifact := { path := entry.path, sizeBytes := entry.sizeBytes }
  let objectKey := artifactKey ctx execution.workspaceId execution.executionId entry.path
  if ctx.hasStorage = false ∨ ctx.maxArtifactBytes < entry.sizeBytes then return artifact
  else Act.tryCatch (do
    let payload ← port (.provider (.readFile providerRef entry.path))
    port (.upload objectKey payload)
    return { path := entry.path, sizeBytes := payload.length, objectKey := some objectKey }) fun _ => return artifact

def collectEach (providerRef : String) (execution : Execution) :
    List ProviderFileEntry → WorkspaceAct (List ExecutionArtifact)
  | [] => return []
  | entry :: entries => do
    let artifact ← collectArtifact ctx providerRef execution entry
    let artifacts ← collectEach providerRef execution entries
    return artifact :: artifacts

/-- `_collect_artifacts`: the first output files of a run, copied out of its runtime. -/
def collectArtifacts (providerRef : String) (execution : Execution) : WorkspaceAct (List ExecutionArtifact) := do
  let entries ← Act.tryCatch (port (.provider (.listFiles providerRef ctx.artifactDirectory))) fun _ => return []
  collectEach ctx providerRef execution ((entries.filter fun entry => !entry.isDir).take ctx.maxArtifactsPerExecution)

/-- The operations of a collection: on the files of the runtime and the object storage. -/
def IsArtifactOp : WorkspaceOp → Prop
  | .provider (.readFile _ _) | .provider (.listFiles _ _) | .upload _ _ => True
  | _ => False

theorem collectArtifacts_only {providerRef : String} {execution : Execution} :
    (collectArtifacts ctx providerRef execution).Only IsArtifactOp := by
  have heach : ∀ entries, (collectEach ctx providerRef execution entries).Only IsArtifactOp := by
    intro entries
    induction entries with
    | nil => exact only_pure
    | cons entry entries ih =>
      refine only_bind ?_ fun _ => only_bind ih fun _ => only_pure
      unfold collectArtifact
      split_ifs
      · exact only_pure
      · exact only_tryCatch (only_bind (only_ask trivial) fun _ => only_bind (only_ask trivial) fun _ => only_pure)
          fun _ => only_pure
  exact only_bind (only_tryCatch (only_ask trivial) fun _ => only_pure) fun _ => heach _

/-- The execution after its program ended. -/
def settle (execution : Execution) (providerRef : String) (outcome : ExecutionOutcome) : WorkspaceAct Execution :=
  if outcome.timedOut then do
    let now ← port .now
    .ofExcept (execution.timeOut now outcome.stdout outcome.stderr outcome.durationMs)
  else match truthy outcome.error with
    | some error => do
      let now ← port .now
      .ofExcept (execution.fail now error none outcome.stdout outcome.stderr outcome.durationMs)
    | none => do
      let artifacts ← collectArtifacts ctx providerRef execution
      let now ← port .now
      .ofExcept (execution.succeed now (outcome.exitCode.getD (-1)) outcome.stdout outcome.stderr outcome.durationMs
        outcome.memoryPeakBytes artifacts)

/-- Write the outcome of a program, unless the row has ended meanwhile. -/
def recordOutcome (execution : Execution) (providerRef : String) (outcome : ExecutionOutcome) : WorkspaceAct Unit := do
  let latest ← port (.getExecution execution.executionId)
  if latest.any Execution.isTerminal then return ()
  else do
    let settled ← settle ctx execution providerRef outcome
    let _ ← port (.updateExecution settled)
    return ()

/-- What running the program gave, or the failure of the provider. -/
def tryExecute (execution : Execution) (providerRef : String) :
    WorkspaceAct (Except WorkError ExecutionOutcome) :=
  catchProvider (do
    let outcome ← port (.provider (.execute providerRef {
      mode := execution.mode, source := execution.source, timeoutSeconds := ctx.executionTimeoutSeconds
      maxOutputBytes := ctx.maxOutputBytes }))
    return .ok outcome) fun e => return .error e

/-- Run a claimed execution. -/
def perform (execution : Execution) (providerRef : String) : WorkspaceAct Unit := do
  match ← tryExecute ctx execution providerRef with
  | .error e => persistOutcome execution e
  | .ok outcome => recordOutcome ctx execution providerRef outcome

/-- Claim an execution for a serving runtime, and run it if the claim was won. -/
def claimAndRun (execution : Execution) (runtime : WorkspaceRuntime) (providerRef : String) : WorkspaceAct Unit := do
  let now ← port .now
  let claimed ← port (.claimExecution execution.executionId runtime.runtimeId now)
  if claimed then do
    let now ← port .now
    let started ← .ofExcept (execution.start now runtime.runtimeId)
    perform ctx started providerRef
  else return ()

def servingHandle (runtime : WorkspaceRuntime) : Option String := if runtime.isServing then runtime.handle else none

def runExecution (execution : Execution) : WorkspaceAct Unit := do
  match ← port (.getWorkspace execution.workspaceId execution.userId) with
  | none => persistFailure execution "The workspace no longer exists."
  | some _ =>
    let started ← startRuntime ctx execution.workspaceId execution.userId
    match servingHandle started.runtime with
    | none => persistFailure execution s!"The runtime is {started.runtime.state.value}; nothing was run."
    | some providerRef => claimAndRun ctx execution started.runtime providerRef

/-- Run one queued execution on its workspace's runtime. -/
def handleExecution (message : WorkspaceWorkMessage) : WorkspaceAct Unit :=
  match truthy message.executionId with
  | none => .throw { name := "ValueError", message := "An execution message carried no execution_id." }
  | some executionId => do
    match ← port (.getExecution executionId) with
    | none => return ()
    | some execution => if execution.isTerminal then return () else runExecution ctx execution

end Executions

/-! ## Environment snapshots -/

section Snapshots

def persistFailedRevision (revision : RuntimeImageRevision) (error : String) : WorkspaceAct Unit := do
  let failed ← .ofExcept (revision.markFailed error)
  let _ ← port (.updateRevision failed)
  return ()

/-- Delete revisions one by one; a failure skips its own. -/
def deleteEach (workspaceId : String) : List RuntimeImageRevision → WorkspaceAct Unit
  | [] => return ()
  | stale :: rest => do
    Act.tryCatch (do
      let _ ← port (.deleteRevision stale.revisionId workspaceId)
      return ()) fun _ => return ()
    deleteEach workspaceId rest

/-- `_prune_revisions`: only the newest READY revisions are kept. -/
def pruneRevisions (workspaceId : String) : WorkspaceAct Unit := do
  let existing ← Act.tryCatch (port (.listRevisions workspaceId (ctx.snapshotRetention + 20))) fun _ => return []
  deleteEach workspaceId ((existing.filter (·.status = .ready)).drop ctx.snapshotRetention)

/-- What taking the snapshot gave, or the failure of the provider. -/
def tryCreateSnapshot (providerRef workspaceId revisionId : String) : WorkspaceAct (Except WorkError String) :=
  catchProvider (do
    let snapshotRef ← port (.provider (.createSnapshot providerRef workspaceId revisionId))
    return .ok snapshotRef) fun e => return .error e

def buildRevision (revision : RuntimeImageRevision) (workspaceId providerRef : String) : WorkspaceAct Unit := do
  let building ← .ofExcept revision.markBuilding
  let _ ← port (.updateRevision building)
  match ← tryCreateSnapshot providerRef workspaceId building.revisionId with
  | .error e => persistFailedRevision building (describe e)
  | .ok snapshotRef =>
    let now ← port .now
    let ready ← .ofExcept (building.markReady now snapshotRef [("provider", ctx.providerName)])
    let _ ← port (.updateRevision ready)
    pruneRevisions ctx workspaceId

/-- Take the snapshot of a revision that is not settled. -/
def runSnapshot (revision : RuntimeImageRevision) (workspaceId : String) : WorkspaceAct Unit := do
  match (← port (.getRuntime workspaceId)).bind servingHandle with
  | none => persistFailedRevision revision "The runtime is not running, so there is nothing to snapshot."
  | some providerRef => buildRevision ctx revision workspaceId providerRef

/-- Build one environment snapshot from the workspace's running runtime. -/
def handleSnapshot (message : WorkspaceWorkMessage) : WorkspaceAct Unit :=
  match truthy message.revisionId, truthy (some message.workspaceId) with
  | some revisionId, some workspaceId => do
    match ← port (.getRevision revisionId workspaceId) with
    | none => return ()
    | some revision => if revision.status.isSettled then return () else runSnapshot ctx revision workspaceId
  | _, _ => .throw {
      name := "ValueError", message := "A snapshot message carried no revision_id or workspace_id." }

end Snapshots

end Transform.Workspaces
