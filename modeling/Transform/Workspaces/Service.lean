import Transform.Files.Naming
import Transform.Workspaces.Ports

/-!
# Workspaces.Service — the API's side of workspaces

`WorkspaceService` brings a runtime up and saves environments; `ExecutionService` submits and cancels executions.
The row of an execution or a snapshot is committed first, then its message is published; where the publish raises, the
row is failed.
-/

namespace Transform.Workspaces

open Lib Conversions

variable (ctx : WorkspaceContext)

/-! ## The runtime of a workspace -/

section Runtime

/-- Load a workspace the caller owns. -/
def requireWorkspace (workspaceId : String) (userId : ℤ) : WorkspaceAct Workspace := do
  match ← port (.getWorkspace workspaceId userId) with
  | none => .throw { name := "WorkspaceNotFoundError", message := workspaceId }
  | some workspace => return workspace

/-- `_require_usable`. -/
def requireUsable (workspaceId : String) (userId : ℤ) : WorkspaceAct Workspace := do
  let workspace ← requireWorkspace workspaceId userId
  if workspace.acceptsExecutions then return workspace
  else .throw { name := "WorkspaceNotUsableError", message := workspaceId }

/-- Insert the runtime of a workspace; where another one won, that is the answer. -/
def insertedRuntime (candidate : WorkspaceRuntime) : WorkspaceAct WorkspaceRuntime :=
  Act.tryCatch (do
    port (.insertRuntime candidate)
    return candidate) fun e =>
    if e.name = "IntegrityError" then do
      match ← port (.getRuntime candidate.workspaceId) with
      | some winner => return winner
      | none => .throw e
    else .throw e

def getOrCreateRuntime (workspaceId resourceProfile : String) : WorkspaceAct WorkspaceRuntime := do
  match ← port (.getRuntime workspaceId) with
  | some existing => return existing
  | none =>
    let runtimeId ← port .uuid4
    insertedRuntime { runtimeId, workspaceId, provider := ctx.providerName, resourceProfile }

/-- The handle of the runtime's container, if it was built for this configuration; one that was not is deleted. -/
def reusableHandle (workspace : Workspace) (runtime : WorkspaceRuntime) : WorkspaceAct (Option String) :=
  match runtime.providerRef with
  | none => return none
  | some providerRef =>
    if runtime.providerMetadata.lookup "config_fingerprint" = some (ctx.fingerprint workspace.runtimeConfig) then
      return some providerRef
    else do
      catchProvider (port (.provider (.deleteRuntime providerRef))) fun _ => return ()
      return none

/-- The container behind a handle, up again: one that runs, or one that was stopped and starts. -/
def reuseContainer (providerRef : String) : WorkspaceAct (Option String) := do
  match ← port (.provider (.inspectRuntime providerRef)) with
  | none => return none
  | some status =>
    if status.state = .stopped then do
      let started ← port (.provider (.startRuntime providerRef))
      return if started.state = .running then some started.providerRef else none
    else return if status.state = .running then some status.providerRef else none

/-- A new container, from a compatible snapshot where there is one. -/
def createContainer (workspace : Workspace) : WorkspaceAct (String × Option String) := do
  let config := workspace.runtimeConfig
  let _ ← port (.provider (.ensureWorkspaceState workspace.workspaceId))
  let revision ← port
    (.findReusableRevision workspace.workspaceId (ctx.fingerprint config) config.baseImageRevision)
  let snapshot := revision.bind fun revision =>
    (truthy revision.providerSnapshotRef).map fun image => (image, revision.revisionId)
  let status ← port (.provider (.createRuntime {
    workspaceId := workspace.workspaceId
    image := (snapshot.map Prod.fst).getD config.imageRef
    resourceProfile := config.resourceProfile
    labels := [("transform.workspace", workspace.workspaceId)] }))
  return (status.providerRef, snapshot.map Prod.snd)

/-- `_provider_start`: reuse a container only when that is safe. -/
def providerStart (workspace : Workspace) (runtime : WorkspaceRuntime) : WorkspaceAct (String × Option String) := do
  match ← reusableHandle ctx workspace runtime with
  | none => createContainer ctx workspace
  | some providerRef =>
    match ← reuseContainer providerRef with
    | some running => return (running, runtime.imageRevisionId)
    | none => createContainer ctx workspace

/-- `_safe_provider_message`. -/
def safeProviderMessage (e : WorkError) : String :=
  String.ofList ((if e.message = "" then e.name else e.message).toList.take 480)

/-- A start or a stop that failed: the runtime is recorded as failed, and the failure goes on. -/
def recordRuntimeFailure {α : Type} (runtime : WorkspaceRuntime) (e : WorkError) : WorkspaceAct α := do
  let runtime ← .ofExcept (runtime.markFailed (safeProviderMessage e))
  port (.saveRuntime runtime)
  .throw e

def bringUp (workspace : Workspace) (runtime : WorkspaceRuntime) : WorkspaceAct WorkspaceRuntime := do
  let runtime ← .ofExcept runtime.beginStart
  port (.saveRuntime runtime)
  let (providerRef, revisionId) ← catchProvider (providerStart ctx workspace runtime) (recordRuntimeFailure runtime)
  let now ← port .now
  let runtime ← .ofExcept (runtime.markRunning now providerRef revisionId)
  let runtime := { runtime with
    providerMetadata := ("config_fingerprint", ctx.fingerprint workspace.runtimeConfig) ::
      runtime.providerMetadata.filter fun field => field.1 ≠ "config_fingerprint" }
  port (.saveRuntime runtime)
  let now ← port .now
  let _ ← port (.updateWorkspace (workspace.touch now))
  return runtime

/-- The runtime after a start, and whether this call started it. -/
structure StartedRuntime where
  runtime : WorkspaceRuntime
  changed : Bool

/-- Ensure the workspace has a running runtime; one that is up or on its way is left as it is. -/
def startRuntime (workspaceId : String) (userId : ℤ) : WorkspaceAct StartedRuntime := do
  let workspace ← requireUsable workspaceId userId
  let runtime ← getOrCreateRuntime ctx workspaceId workspace.runtimeConfig.resourceProfile
  if runtime.state.isBusy then return ⟨runtime, false⟩
  else do
    let runtime ← bringUp ctx workspace runtime
    return ⟨runtime, true⟩

/-- Refuse to stop a runtime with work in flight, unless the stop is forced. -/
def refuseActive (workspaceId : String) (force : Bool) : WorkspaceAct Unit :=
  if force then return ()
  else do
    let active ← port (.listActiveExecutions workspaceId)
    if active = [] then return ()
    else .throw {
      name := "RuntimeBusyError"
      message := s!"{active.length} execution(s) are still running. Stop them, wait, or force the stop." }

def isGone (e : WorkError) : Bool := e.isProvider && e.name == "RuntimeNotFoundError"

def stopContainer (runtime : WorkspaceRuntime) : WorkspaceAct Unit :=
  match runtime.handle with
  | none => return ()
  | some providerRef =>
    Act.tryCatch (do
      let _ ← port (.provider (.stopRuntime providerRef))
      return ()) fun e =>
      if isGone e then return ()
      else if e.isProvider then recordRuntimeFailure runtime e
      else .throw e

def takeDown (workspace : Workspace) (runtime : WorkspaceRuntime) : WorkspaceAct WorkspaceRuntime := do
  let runtime ← .ofExcept runtime.beginStop
  port (.saveRuntime runtime)
  stopContainer runtime
  let now ← port .now
  let runtime ← .ofExcept (runtime.markStopped now)
  port (.saveRuntime runtime)
  let now ← port .now
  let _ ← port (.updateWorkspace (workspace.touch now))
  return runtime

/-- Stop the runtime, and keep everything durable of the workspace. -/
def stopRuntime (workspaceId : String) (userId : ℤ) (force : Bool := false) : WorkspaceAct WorkspaceRuntime := do
  let workspace ← requireWorkspace workspaceId userId
  match (← port (.getRuntime workspaceId)).filter fun runtime => runtime.state ≠ .stopped with
  | none => .throw { name := "RuntimeNotFoundError", message := workspaceId }
  | some runtime =>
    refuseActive workspaceId force
    takeDown workspace runtime

/-! ### What a start asks -/

def IsContainerOp : WorkspaceOp → Prop
  | .uuid4 | .now | .getRuntime _ | .insertRuntime _ | .saveRuntime _ | .findReusableRevision _ _ _ => True
  | .provider (.execute _ _) => False
  | .provider _ => True
  | _ => False

/-- The operations of a start: on the workspace, its runtime and its containers, never on an execution. -/
def IsStartOp : WorkspaceOp → Prop
  | .uuid4 | .now | .getWorkspace _ _ | .updateWorkspace _ | .getRuntime _ | .insertRuntime _ | .saveRuntime _
  | .findReusableRevision _ _ _ => True
  | .provider (.execute _ _) => False
  | .provider _ => True
  | _ => False

theorem start_of_container {op : WorkspaceOp} (h : IsContainerOp op) : IsStartOp op := by
  cases op with
  | provider op =>
    cases op with
    | execute _ _ => exact h
    | _ => trivial
  | uuid4 | now | getRuntime _ | insertRuntime _ | saveRuntime _ | findReusableRevision _ _ _ => trivial
  | _ => exact h.elim

variable {ctx : WorkspaceContext} {workspace : Workspace} {runtime : WorkspaceRuntime}

theorem only_catchProvider {α : Type} {φ : WorkspaceOp → Prop} {p : WorkspaceAct α} {h : WorkError → WorkspaceAct α}
    (hp : p.Only φ) (hh : ∀ e, (h e).Only φ) : (catchProvider p h).Only φ := by
  refine only_tryCatch hp fun e => ?_
  split_ifs
  · exact hh e
  · exact only_throw

theorem requireUsable_only {workspaceId : String} {userId : ℤ} : (requireUsable workspaceId userId).Only IsStartOp := by
  refine only_bind (only_bind (only_ask trivial) fun found => ?_) fun workspace => ?_
  · rcases found with _ | workspace
    · exact only_throw
    · exact only_pure
  · split_ifs
    · exact only_pure
    · exact only_throw

theorem getOrCreateRuntime_only {workspaceId profile : String} :
    (getOrCreateRuntime ctx workspaceId profile).Only IsContainerOp := by
  refine only_bind (only_ask trivial) fun found => ?_
  rcases found with _ | existing
  · refine only_bind (only_ask trivial) fun runtimeId => ?_
    refine only_tryCatch (only_bind (only_ask trivial) fun _ => only_pure) fun e => ?_
    split_ifs
    · refine only_bind (only_ask trivial) fun winner => ?_
      rcases winner with _ | winner
      · exact only_throw
      · exact only_pure
    · exact only_throw
  · exact only_pure

theorem createContainer_only : (createContainer ctx workspace).Only IsContainerOp :=
  only_bind (only_ask trivial) fun _ => only_bind (only_ask trivial) fun _ =>
    only_bind (only_ask trivial) fun _ => only_pure

theorem providerStart_only : (providerStart ctx workspace runtime).Only IsContainerOp := by
  have hreuse : (reusableHandle ctx workspace runtime).Only IsContainerOp := by
    unfold reusableHandle
    split
    · exact only_pure
    · split_ifs
      · exact only_pure
      · exact only_bind (only_catchProvider (only_ask trivial) fun _ => only_pure) fun _ => only_pure
  refine only_bind hreuse fun handle => ?_
  rcases handle with _ | providerRef
  · exact createContainer_only
  · refine only_bind ?_ fun running => ?_
    · refine only_bind (only_ask trivial) fun status => ?_
      rcases status with _ | status
      · exact only_pure
      · dsimp only
        by_cases hs : status.state = .stopped
        · rw [if_pos hs]
          exact only_bind (only_ask trivial) fun _ => only_pure
        · rw [if_neg hs]
          exact only_pure
    · rcases running with _ | running
      · exact createContainer_only
      · exact only_pure

theorem recordRuntimeFailure_only {α : Type} {e : WorkError} :
    (recordRuntimeFailure runtime e : WorkspaceAct α).Only IsContainerOp :=
  only_bind only_ofExcept fun _ => only_bind (only_ask trivial) fun _ => only_throw

theorem stopContainer_only : (stopContainer runtime).Only IsContainerOp := by
  unfold stopContainer
  split
  · exact only_pure
  · refine only_tryCatch (only_bind (only_ask trivial) fun _ => only_pure) fun e => ?_
    split_ifs
    · exact only_pure
    · exact recordRuntimeFailure_only
    · exact only_throw

theorem bringUp_only : (bringUp ctx workspace runtime).Only IsStartOp := by
  refine only_bind only_ofExcept fun _ => only_bind (only_ask trivial) fun _ => ?_
  refine only_bind (only_mono (fun _ => start_of_container)
    (only_catchProvider providerStart_only fun _ => recordRuntimeFailure_only)) fun _ => ?_
  refine only_bind (only_ask trivial) fun _ => only_bind only_ofExcept fun _ => ?_
  exact only_bind (only_ask trivial) fun _ => only_bind (only_ask trivial) fun _ =>
    only_bind (only_ask trivial) fun _ => only_pure

theorem startRuntime_only {workspaceId : String} {userId : ℤ} :
    (startRuntime ctx workspaceId userId).Only IsStartOp := by
  refine only_bind requireUsable_only fun workspace => ?_
  refine only_bind (only_mono (fun _ => start_of_container) getOrCreateRuntime_only) fun runtime => ?_
  split_ifs
  · exact only_pure
  · exact only_bind bringUp_only fun _ => only_pure

end Runtime

/-! ## The record of a workspace -/

section Record

/-- The arguments of `update_workspace`; what is absent is left. -/
structure WorkspaceEdit where
  name : Option String := none
  description : Option String := none
  runtimeConfig : Option RuntimeConfig := none

/-- Refuse to change the configuration under a runtime that is up. -/
def refuseBusy (workspace : Workspace) (runtimeConfig : Option RuntimeConfig) : WorkspaceAct Unit :=
  match runtimeConfig.filter fun config => config ≠ workspace.runtimeConfig with
  | none => return ()
  | some _ => do
    let runtime ← port (.getRuntime workspace.workspaceId)
    if runtime.any fun runtime => runtime.state.isBusy then .throw {
      name := "RuntimeBusyError"
      message := "Stop the runtime before changing its environment configuration." }
    else return ()

def Workspace.edited (workspace : Workspace) (edit : WorkspaceEdit) : Except WorkError Workspace := do
  let workspace ← edit.name.elim (.ok workspace) workspace.rename
  let workspace ← edit.description.elim (.ok workspace) workspace.updateDescription
  return edit.runtimeConfig.elim workspace workspace.updateRuntimeConfig

def updateWorkspace (workspaceId : String) (userId : ℤ) (edit : WorkspaceEdit) : WorkspaceAct Workspace := do
  let workspace ← requireUsable workspaceId userId
  refuseBusy workspace edit.runtimeConfig
  let workspace ← .ofExcept (workspace.edited edit)
  let _ ← port (.updateWorkspace workspace)
  return workspace

def archiveWorkspace (workspaceId : String) (userId : ℤ) : WorkspaceAct Workspace := do
  let workspace ← requireWorkspace workspaceId userId
  let workspace ← .ofExcept workspace.archive
  let _ ← port (.updateWorkspace workspace)
  return workspace

def reactivateWorkspace (workspaceId : String) (userId : ℤ) : WorkspaceAct Workspace := do
  let workspace ← requireWorkspace workspaceId userId
  let workspace ← .ofExcept workspace.reactivate
  let _ ← port (.updateWorkspace workspace)
  return workspace

/-- Write that a workspace is being torn down. -/
def markDeleting (workspace : Workspace) : WorkspaceAct Unit :=
  if workspace.state = .deleting then return ()
  else do
    let workspace ← .ofExcept workspace.beginDelete
    let _ ← port (.updateWorkspace workspace)
    return ()

def deleteContainer (workspaceId : String) : WorkspaceAct Unit := do
  match (← port (.getRuntime workspaceId)).bind WorkspaceRuntime.handle with
  | none => return ()
  | some providerRef =>
    Act.tryCatch (port (.provider (.deleteRuntime providerRef))) fun e => if isGone e then return () else .throw e

/-- Tear down every provider resource, then the record. -/
def deleteWorkspace (workspaceId : String) (userId : ℤ) : WorkspaceAct Unit := do
  let workspace ← requireWorkspace workspaceId userId
  markDeleting workspace
  deleteContainer workspaceId
  catchProvider (port (.provider (.deleteWorkspaceState workspaceId))) fun _ => return ()
  let _ ← port (.deleteRevisions workspaceId)
  let _ ← port (.deleteExecutions workspaceId)
  let _ ← port (.deleteRuntime workspaceId)
  let _ ← port (.deleteWorkspace workspaceId userId)
  return ()

variable {workspace : Workspace} {workspaceId : String}

theorem refuseBusy_only {config : Option RuntimeConfig} : (refuseBusy workspace config).Only IsContainerOp := by
  unfold refuseBusy
  split
  · exact only_pure
  · refine only_bind (only_ask trivial) fun runtime => ?_
    split_ifs
    · exact only_throw
    · exact only_pure

theorem deleteContainer_only : (deleteContainer workspaceId).Only IsContainerOp := by
  unfold deleteContainer
  refine only_bind (only_ask trivial) fun runtime => ?_
  split
  · exact only_pure
  · refine only_tryCatch (only_ask trivial) fun e => ?_
    split_ifs
    · exact only_pure
    · exact only_throw

end Record

/-! ## Project operations -/

section ProjectOperation

def supportedProjectOperations : List String := ["add", "lock", "sync"]

def isAlnum (c : Char) : Bool := c.isAlpha || c.isDigit

/-- The characters of a distribution name or an extra. -/
def isNameChar (c : Char) : Bool := isAlnum c || c ∈ ['.', '_', '+', '-']

/-- The characters of a version. -/
def isVersionChar (c : Char) : Bool := isAlnum c || c ∈ ['.', '*', '+', '!', '_', '-']

/-- What follows `[extras]`, where the text begins with such a group. -/
def afterExtras (text : List Char) : Option (List Char) :=
  match text with
  | '[' :: rest =>
    match rest.dropWhile (· ≠ ']') with
    | ']' :: after =>
      let extras := (rest.takeWhile (· ≠ ']')).splitOn ','
      if extras.all fun extra => !extra.isEmpty && extra.all isNameChar then some after else none
    | _ => none
  | _ => some text

def isVersionClause : List Char → Bool
  | [] => true
  | c :: rest =>
    let version := match rest with
      | '=' :: version => version
      | version => version
    c ∈ ['<', '>', '=', '!', '~'] && !version.isEmpty && version.all isVersionChar

/-- `_PACKAGE_SPEC` matches. -/
def isPackageSpec (arg : String) : Bool :=
  match arg.toList with
  | [] => false
  | c :: rest => isAlnum c && ((afterExtras (rest.dropWhile isNameChar)).map isVersionClause).getD false

def checkPackageSpec (arg : String) : Except WorkError Unit :=
  if 128 < arg.length then .error (invalidWorkspace "A package specification is too long.")
  else if arg.startsWith "-" then
    .error (invalidWorkspace s!"Package specifications may not start with '-': {ctx.repr arg}.")
  else if isPackageSpec arg then .ok ()
  else .error (invalidWorkspace s!"{ctx.repr arg} is not a valid package specification.")

/-- `parse_project_operation`: the operation and its arguments. -/
def parseProjectOperation (source : String) : Except WorkError (String × List String) :=
  match splitWhitespace source with
  | [] => .error (invalidWorkspace "A project operation is required.")
  | first :: args =>
    let name := Files.lower first
    let supported := ", ".intercalate supportedProjectOperations
    if name ∉ supportedProjectOperations then
      .error (invalidWorkspace s!"Unsupported project operation {ctx.repr first}; supported: {supported}.")
    else if name ∈ ["sync", "lock"] then
      if args = [] then .ok (name, [])
      else .error (invalidWorkspace s!"Project operation {ctx.repr name} takes no arguments.")
    else if args = [] then .error (invalidWorkspace "Project operation 'add' requires a package name.")
    else if 20 < args.length then
      .error (invalidWorkspace "Project operation 'add' accepts at most 20 packages.")
    else do
      args.forM (checkPackageSpec ctx)
      return (name, args)

end ProjectOperation

/-! ## Executions -/

section Executions

/-- The arguments of `submit`. -/
structure SubmitRequest where
  workspaceId : String
  userId : ℤ
  mode : ExecutionMode
  source : String
  timeoutSeconds : ℤ := 300
  idempotencyKey : Option String := none
  origin : JobOrigin := .web

def SubmitRequest.key (req : SubmitRequest) : Option String := truthy (some (strip (req.idempotencyKey.getD "")))

def invalidRequest (message : String) : WorkError := { name := "InvalidExecutionRequestError", message }

/-- `_validate_request`: the normalised source. -/
def validateRequest (mode : ExecutionMode) (source : String) (timeoutSeconds : ℤ) : Except WorkError String :=
  if strip source = "" then .error (invalidRequest "An execution requires a non-empty source.")
  else if '\x00' ∈ source.toList then .error (invalidRequest "The source may not contain NUL bytes.")
  else if ¬ (1 ≤ timeoutSeconds ∧ timeoutSeconds ≤ 3600) then
    .error (invalidRequest "timeout_seconds must be between 1 and 3600.")
  else match mode with
    | .project =>
      match parseProjectOperation ctx source with
      | .ok _ => .ok (strip source)
      | .error e => .error (invalidRequest e.message)
    | .command =>
      if 8000 < source.length then .error (invalidRequest "A command may be at most 8000 characters.")
      else .ok source
    | .script =>
      if 200000 < source.length then .error (invalidRequest "A script may be at most 200000 characters.")
      else .ok source

def packageInstallNotPermitted : WorkError where
  name := "PackageInstallNotPermittedError"
  message := "This deployment runs code with no outbound network access, so dependencies cannot be installed or " ++
    "re-resolved. 'uv' project operations need to reach a package index. Enabling them is a deployment setting, not " ++
    "something you can change here — ask the operator to allow package egress, or use a SCRIPT run with the packages " ++
    "already saved in the workspace environment."

/-- The workspace's usage, or 0 when it cannot be measured. -/
def usedBytes (providerRef : String) : WorkspaceAct ℕ :=
  catchProvider (port (.provider (.measureWorkspaceUsage providerRef))) fun _ => return 0

def overQuota (used : ℕ) : WorkError where
  name := "WorkspaceQuotaExceededError"
  message := s!"This workspace has used its whole disk allowance ({ctx.humanBytes used} of " ++
    s!"{ctx.humanBytes ctx.diskQuotaBytes.toNat}). Delete some files before running anything else."

/-- Refuse new work when the workspace is already over its budget. -/
def ensureCapacity (workspaceId : String) : WorkspaceAct Unit :=
  if ctx.diskQuotaBytes ≤ 0 then return ()
  else do
    match (← port (.getRuntime workspaceId)).bind WorkspaceRuntime.handle with
    | none => return ()
    | some providerRef =>
      let used ← usedBytes providerRef
      if ctx.diskQuotaBytes < used then .throw (overQuota ctx used) else return ()

/-- The policy checks of a submit, before a row is written. -/
def checkPolicy (req : SubmitRequest) : WorkspaceAct Unit :=
  if req.mode = .project ∧ ctx.allowsPackageInstall = false then .throw packageInstallNotPermitted
  else if ctx.hasCapacity then ensureCapacity ctx req.workspaceId
  else return ()

/-- `create_execution`: the row inserted, or the one that has its idempotency key. -/
def createExecution (execution : Execution) : WorkspaceAct Execution :=
  Act.tryCatch (do
    port (.insertExecution execution)
    return execution) fun e =>
    match execution.idempotencyKey with
    | none => .throw e
    | some key =>
      if e.name = "IntegrityError" then do
        match ← port (.findExecutionByKey execution.workspaceId key) with
        | some existing => return existing
        | none => .throw e
      else .throw e

/-- A publish that raised: the row is failed, and the caller is told. -/
def failUnqueued (execution : Execution) : WorkspaceAct Unit := do
  let now ← port .now
  let failed ← .ofExcept (execution.fail now "Could not queue the execution for a worker.")
  let _ ← port (.updateExecution failed)
  .throw (invalidRequest "The execution could not be queued. Please try again.")

def enqueue (workspace : Workspace) (execution : Execution) : WorkspaceAct Execution := do
  let now ← port .now
  let _ ← port (.updateWorkspace ({ workspace with executionCount := workspace.executionCount + 1 }.touch now))
  Act.tryCatch (port (.publish (Queues.executionMessage execution))) fun _ => failUnqueued execution
  return execution

/-- Submit a run that no earlier one stands for. -/
def submitNew (req : SubmitRequest) (workspace : Workspace) (source : String) (key : Option String) :
    WorkspaceAct Execution := do
  let active ← port (.listActiveExecutions req.workspaceId)
  if ctx.maxActiveExecutions ≤ active.length then .throw {
    name := "TooManyActiveExecutionsError"
    message := s!"This workspace already has {active.length} executions in flight." }
  else do
    let executionId ← port .uuid4
    let execution : Execution := {
      executionId, workspaceId := req.workspaceId, userId := req.userId, mode := req.mode, source
      idempotencyKey := key, origin := req.origin }
    let stored ← createExecution execution
    if stored.executionId ≠ execution.executionId then return stored else enqueue workspace execution

def submit (req : SubmitRequest) : WorkspaceAct Execution := do
  let workspace ← requireUsable req.workspaceId req.userId
  let source ← .ofExcept (validateRequest ctx req.mode req.source req.timeoutSeconds)
  checkPolicy ctx req
  match req.key with
  | none => submitNew ctx req workspace source none
  | some key =>
    match ← port (.findExecutionByKey req.workspaceId key) with
    | some existing => return existing
    | none => submitNew ctx req workspace source (some key)

def submitRoute (req : SubmitRequest) : WorkspaceAct Unit := do
  let execution ← submit ctx req
  port (.respond execution)

/-- Cancel an execution; one that has ended is left as it is. -/
def cancel (executionId : String) (userId : ℤ) : WorkspaceAct Execution := do
  match ← port (.getExecutionForUser executionId userId) with
  | none => .throw { name := "ExecutionNotFoundError", message := executionId }
  | some execution =>
    let now ← port .now
    match ← .ofExcept (execution.cancel now) with
    | none => return execution
    | some cancelled =>
      let _ ← port (.updateExecution cancelled)
      return cancelled

variable {ctx : WorkspaceContext}

theorem checkPolicy_only {req : SubmitRequest} : (checkPolicy ctx req).Only IsContainerOp := by
  unfold checkPolicy
  split_ifs
  · exact only_throw
  · unfold ensureCapacity
    split_ifs
    · exact only_pure
    · refine only_bind (only_ask trivial) fun runtime => ?_
      split
      · exact only_pure
      · refine only_bind (only_catchProvider (only_ask trivial) fun _ => only_pure) fun used => ?_
        split_ifs
        · exact only_throw
        · exact only_pure
  · exact only_pure

end Executions

/-! ## Saved environments -/

section Environments

end Environments

end Transform.Workspaces
