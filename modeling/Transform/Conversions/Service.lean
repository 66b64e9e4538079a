import Transform.Conversions.Ports

/-!
# Conversions.Service — the API's side of a conversion

`ConversionService`: creating a job, pushing it to the queue, converting a library file, retrying, and the batch
that does so per item and stamps the grouping columns afterwards.  `verifyUploadSession` is the finalize endpoint
of an upload, which re-points and pushes the job that waits for it.
-/

namespace Transform.Conversions

open Lib Billing

/-- What the service is wired with. -/
structure ServiceContext where
  supported : List ConversionType
  dispatcher : Bool
  streamPrefix : String

section Service

variable (ctx : ServiceContext)

/-! ## One job -/

def streamForTier : SubscriptionTier → String
  | .guest => s!"{ctx.streamPrefix}conversion_jobs:low"
  | .free => s!"{ctx.streamPrefix}conversion_jobs:normal"
  | .premium => s!"{ctx.streamPrefix}conversion_jobs:high"
  | .pro => s!"{ctx.streamPrefix}conversion_jobs:high"
  | .proPlus => s!"{ctx.streamPrefix}conversion_jobs:high"
  | .enterprise => s!"{ctx.streamPrefix}conversion_jobs:high"

/-- Publish a job on the stream of its tier, or on the base stream where no dispatcher is wired. -/
def publishJob (job : ConversionJob) (tier : SubscriptionTier) : Py Unit := do
  let message ← .ofExcept (ConversionJobMessage.fromConversionJob job)
  call (.publishJob (if ctx.dispatcher then streamForTier ctx tier else s!"{ctx.streamPrefix}conversion_jobs")
    message.toDict)

/-- Insert the row; `created_at` is the column's default. -/
def saveConversionJob (job : ConversionJob) : Py Unit := do
  let now ← call .utcNow
  call (.insertJob { job with createdAt := some now })

/-- Validate the conversion type, assign an id, and persist the job. -/
def createConversionJob (job : ConversionJob) : Py ConversionJob := do
  .ofExcept (isSupported job.conversion ctx.supported)
  let jobId ← call .uuid4
  saveConversionJob { job with jobId }
  return { job with jobId }

def leaveAwaitingUpload (job : ConversionJob) : Py ConversionJob :=
  if job.status = .awaitingUpload then do
    let job ← .ofExcept job.pendingProcessing
    call (.updateJob job)
    return job
  else pure job

/-- Enqueue an already-persisted job for processing. -/
def pushConversionJob (job : ConversionJob) (tier : SubscriptionTier := .free) : Py ConversionJob :=
  if job.jobId = "" then
    .throw ⟨.invalidConversionJob, "Job ID must be set before pushing the job to the queue."⟩
  else do
    .ofExcept (isSupported job.conversion ctx.supported)
    let job ← leaveAwaitingUpload job
    publishJob ctx job tier
    return job

def convertLibraryFile (fileName sourceFormat targetFormat objectKey : String) (userId : ℤ)
    (tier : SubscriptionTier) (origin : JobOrigin) : Py ConversionJob := do
  let job ← createConversionJob ctx {
    jobId := "", conversion := ⟨sourceFormat, targetFormat⟩, inputFile := fileName, objectKey
    userId := some userId, origin }
  pushConversionJob ctx job tier

/-- Re-enqueue a failed job without a new upload. -/
def retryConversionJob (jobId : String) (userId : Option ℤ) (tier : SubscriptionTier) : Py ConversionJob := do
  let row ← call (.getJob jobId)
  match row.filter fun job => isJobOwner (some job) userId with
  | none => .throw ⟨.invalidConversionJob, "Job not found"⟩
  | some job =>
    let job ← .ofExcept job.retry
    call (.updateJob job)
    publishJob ctx job tier
    return job

/-! ## Batches -/

/-- One file to convert, resolved and authorized by the caller. -/
structure BatchItemRequest where
  fileId : String
  fileName : String
  objectKey : String
  sourceFormat : String
  targetFormat : String

/-- What happened to one item: a job, or the reason there is none. -/
structure BatchItemOutcome where
  fileId : String
  fileName : String
  job : Option ConversionJob := none
  error : Option String := none

structure BatchOutcome where
  batchId : String
  outcomes : List BatchItemOutcome
  workflowId : Option String

namespace BatchOutcome

def createdCount (b : BatchOutcome) : ℕ := (b.outcomes.filter (·.job.isSome)).length

def failedCount (b : BatchOutcome) : ℕ := b.outcomes.length - b.createdCount

/-- The batch's own outcome, derived from its items. -/
def status (b : BatchOutcome) : String :=
  if b.failedCount = 0 then "success" else if b.createdCount = 0 then "failed" else "partial"

end BatchOutcome

/-- The arguments of `create_batch`. -/
structure BatchRequest where
  items : List BatchItemRequest
  userId : ℤ
  tier : SubscriptionTier
  batchId : Option String
  workflowId : Option String
  origin : JobOrigin

/-- The reason shown against an item; a driver's own text is never shown. -/
def itemError (e : PyError) : String :=
  if e.cls = .invalidConversion ∨ e.cls = .invalidConversionJob then e.message
  else "Could not start this conversion. Please try again."

/-- Create one item's job, then stamp the grouping columns on its row. -/
def createBatchItem (req : BatchRequest) (batchId : String) (item : BatchItemRequest) : Py BatchItemOutcome := do
  let created ← Act.tryCatch (do
      let job ← convertLibraryFile ctx item.fileName item.sourceFormat item.targetFormat item.objectKey
        req.userId req.tier req.origin
      return Except.ok job)
    fun e => return Except.error e
  match created with
  | .error e => return { fileId := item.fileId, fileName := item.fileName, error := some (itemError e) }
  | .ok job =>
    let job := { job with batchId := some batchId, workflowId := req.workflowId }
    call (.updateJob job)
    return { fileId := item.fileId, fileName := item.fileName, job := some job }

/-- The items one after the other. -/
def createBatchItems (req : BatchRequest) (batchId : String) : List BatchItemRequest → Py (List BatchItemOutcome)
  | [] => return []
  | item :: items => do
    let outcome ← createBatchItem ctx req batchId item
    let outcomes ← createBatchItems req batchId items
    return outcome :: outcomes

def effectiveBatchId (req : BatchRequest) : Py String :=
  match truthy req.batchId with
  | some batchId => pure batchId
  | none => call .uuid4

/-- Create and enqueue one conversion job per item. -/
def createBatch (req : BatchRequest) : Py BatchOutcome := do
  let batchId ← effectiveBatchId req
  let outcomes ← createBatchItems ctx req batchId req.items
  return { batchId, outcomes, workflowId := req.workflowId }

/-! ## Finalizing an upload -/

/-- Complete a multipart upload, check that the object exists, and mark the session completed. -/
def verifyUploadCompletion (uploadId : String) (parts : List (ℕ × String)) : Py UploadSession := do
  match ← call (.uploads (.getSession uploadId)) with
  | none => .throw ⟨.uploadSessionNotFound, s!"Session {uploadId} invalid or expired"⟩
  | some session =>
    let session ← completeMultipart session
    if ← call (.uploads (.objectExists session.objectKey)) then
      let session := { session with status := "completed" }
      call (.uploads (.setSession session))
      return session
    else .throw ⟨.uploadVerification, s!"Upload for session {uploadId} is not complete or failed."⟩
where
  /-- The provider assembles the object from the parts in ascending order. -/
  completeMultipart (session : UploadSession) : Py UploadSession :=
    match session.uploadMode, session.multipartUploadId with
    | "multipart", some multipartId =>
      if parts = [] then
        .throw ⟨.missingUploadParts, "A multipart upload must be finalized with its part list."⟩
      else do
        call (.uploads (.completeMultipartUpload session.objectKey multipartId
          (parts.mergeSort fun a b => a.1 ≤ b.1)))
        return { session with multipartUploadId := none }
    | _, _ => pure session

/-- The arguments of the finalize endpoint. -/
structure VerifyRequest where
  uploadId : String
  userId : ℤ
  parts : List (ℕ × String)
  jobId : Option String

def pushUploadedJob (userId : ℤ) (session : UploadSession) (jobId : String) : Py Unit := do
  match ← call (.getJob jobId) with
  | none => return ()
  | some job =>
    if isJobOwner (some job) (some userId) then
      let job := { job with objectKey := session.objectKey }
      call (.updateJob job)
      let _ ← pushConversionJob ctx job
      return ()
    else .throw ⟨.http 404, "Job not found"⟩

/-- The status an exception of the endpoint is answered with; any other class passes through. -/
def toHttp (e : PyError) : PyError :=
  match e.cls with
  | .uploadSessionNotFound => ⟨.http 404, e.message⟩
  | .missingUploadParts => ⟨.http 422, e.message⟩
  | .invalidPartNumber => ⟨.http 422, e.message⟩
  | .uploadVerification => ⟨.http 409, e.message⟩
  | .uploadNotMultipart => ⟨.http 409, e.message⟩
  | .fileSystem statusCode => ⟨.http statusCode, e.message⟩
  | _ => e

/-- The body of the endpoint: verify, check the owner, record the file, push the job. -/
def finalizeUpload (req : VerifyRequest) : Py UploadSession := do
  let session ← verifyUploadCompletion req.uploadId req.parts
  if session.userId ≠ none ∧ session.userId ≠ some req.userId.repr then
    .throw ⟨.uploadSessionNotFound, "Upload session not found"⟩
  else
    let fileId ← call (.uploads (.completeUpload req.userId session))
    let session := { session with fileId := some fileId }
    match req.jobId with
    | none => return session
    | some jobId =>
      pushUploadedJob ctx req.userId session jobId
      return session

def verifyUploadSession (req : VerifyRequest) : Py UploadSession := (finalizeUpload ctx req).mapError toHttp

end Service

end Transform.Conversions
