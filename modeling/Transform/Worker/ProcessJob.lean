import Transform.Worker.Paths

/-!
# Worker.ProcessJob — one delivered job, from download to charge

`process_job` with its helpers: the idempotency guard, the best-effort persistence of every phase, the credit
pre-check, download, conversion, pricing, upload, charge, and the outer handler that forces the job FAILED.  The
entity and the event are local variables (`Locals`); an exception leaves them as the raising statement had them,
which is what the handler persists.
-/

namespace Transform.Worker

open Lib Billing Conversions

/-! ## Progress events -/

section Events

structure EventContext where
  jobId : String
  progress : ℤ := 0
  status : JobStatus := .pending
  message : Option String := none
  computeDurationMs : ℤ := 0
  creditsUsed : ℤ := 0
  inputSizeBytes : ℤ := 0
  outputSizeBytes : ℤ := 0
  outputFile : Option String := none
  deriving DecidableEq, Repr

namespace EventContext

def downloading (event : EventContext) : EventContext :=
  { event with status := .processing, progress := 25, message := some "downloading file" }

def processing (event : EventContext) : EventContext :=
  { event with status := .processing, progress := 50, message := some "converting file" }

def uploading (event : EventContext) : EventContext :=
  { event with status := .processing, progress := 75, message := some "uploading file" }

def completed (computeDurationMs creditsUsed inputSizeBytes outputSizeBytes : ℤ) (outputFile : String)
    (event : EventContext) : EventContext :=
  { event with
    status := .completed, progress := 100, message := some "conversion completed"
    computeDurationMs, creditsUsed, inputSizeBytes, outputSizeBytes, outputFile := some outputFile }

def failed (errorMessage : String) (event : EventContext) : EventContext :=
  { event with status := .failed, message := some errorMessage }

def toDict (event : EventContext) : JobEvent where
  jobId := event.jobId
  status := event.status
  progress := event.progress
  message := event.message
  computeDurationMs := some event.computeDurationMs
  creditsUsed := some event.creditsUsed
  inputSizeBytes := some event.inputSizeBytes
  outputSizeBytes := some event.outputSizeBytes
  outputFile := event.outputFile

end EventContext

end Events

/-! ## Retries -/

section Retries

/-- Run `p`, and again after an exception while attempts are left. -/
def attempts {α : Type} (p : Py α) : ℕ → Py α
  | 0 => p
  | n + 1 => p.tryCatch fun _ => attempts p n

/-- The retry decorator of the storage and conversion stages. -/
def retryOnException {α : Type} (p : Py α) (maxRetries : ℕ := 3) : Py α := attempts p (max 1 maxRetries - 1)

/-- A repository call of the worker: once more on a fresh session where the connection was dropped. -/
def onFreshSession {α : Type} (p : Py α) : Py α :=
  p.tryCatch fun e => if e.cls.retryable then p else .throw e

end Retries

/-! ## The stages -/

section Stages

variable (ctx : WorkerContext) (job : ConversionJob)

/-- Whether the object is one the browser encrypted. -/
def isFencr (inputDest : WorkPath) : Py Bool :=
  if job.clientEncrypted then call (.file (.isFencrFile inputDest)) else pure false

def decryptFencr (inputDest plainInput : WorkPath) : Py WorkPath :=
  match truthy job.dataKeyWrapped with
  | none => .throw ⟨.valueError, s!"Job {job.jobId} is client-encrypted but has no wrapped data key"⟩
  | some wrapped => do
    let dataKey ← call (.file (.decryptKey wrapped (actorKey job)))
    call (.file (.decryptFencrFile inputDest plainInput dataKey))
    return plainInput

/-- Decrypt an input encrypted at rest; a plaintext object passes through. -/
def decryptAtRest (inputDest plainInput : WorkPath) : Py WorkPath := do
  if ← call (.file (.isEncryptedFile inputDest)) then
    call (.file (.decryptFileTo inputDest plainInput (actorKey job)))
    return plainInput
  else return inputDest

/-- The plaintext file of a downloaded input. -/
def decryptInput (inputDest : WorkPath) : Py WorkPath := do
  let plainInput : WorkPath := { inputDest with name := s!"plain_{inputDest.name}" }
  if ← isFencr job inputDest then decryptFencr job inputDest plainInput
  else decryptAtRest job inputDest plainInput

def downloadInputFile (inputDest : WorkPath) : Py WorkPath :=
  retryOnException do
    call (.file (.download job.objectKey inputDest))
    if ctx.encryptionService then decryptInput job inputDest else return inputDest

/-- Run the converter and return the elapsed milliseconds; it must have written a non-empty output. -/
def convertFile (inputFile outputFile : WorkPath) : Py ℕ :=
  retryOnException do
    if job.conversion ∉ ctx.converters then
      .throw ⟨.runtimeError, s!"No converter found for conversion type {job.conversion.repr}"⟩
    else
      let elapsedMs ← call (.file (.convert job.conversion inputFile outputFile))
      if ← call (.file (.hasOutput outputFile)) then return elapsedMs
      else .throw ⟨.runtimeError,
        s!"Converter produced no output file at {outputFile.directory}/{outputFile.name} for job {job.jobId}"⟩

/-- Upload the output, encrypted where encryption at rest is on, and return its object key. -/
def uploadOutputFile (outputFile : WorkPath) : Py String :=
  retryOnException do
    let outputDest := outputKey ctx job outputFile
    let encryptedFile : WorkPath := { outputFile with name := s!"{outputFile.name}.enc" }
    if ctx.encryptionService then
      call (.file (.encryptFileTo outputFile encryptedFile (actorKey job)))
      call (.file (.upload outputDest encryptedFile))
      return outputDest
    else
      call (.file (.upload outputDest outputFile))
      return outputDest

/-- The size of a file, 0 where it cannot be measured. -/
def measure (path : WorkPath) : Py ℕ := (call (.file (.fileSize path))).tryCatch fun _ => pure 0

def measureFileSizes (inputFile outputFile : WorkPath) : Py (ℕ × ℕ) := do
  let inputSize ← measure inputFile
  let outputSize ← measure outputFile
  return (inputSize, outputSize)

def calculateCredits (computeDurationMs : ℕ) (conversion : ConversionType) (tier : SubscriptionTier) : ℤ :=
  max 1 (ctx.price computeDurationMs conversion tier)

/-- Force the job into FAILED regardless of the transition rules. -/
def markFailed (message : String) (job : ConversionJob) : ConversionJob :=
  match job.fail message with
  | .ok failed => failed
  | .error _ => { job with status := .failed, errorMessage := some message }

end Stages

/-! ## The job -/

section Job

/-- The local variables of `process_job` that it assigns. -/
structure Locals where
  job : ConversionJob
  event : EventContext

/-- A statement of `process_job`. -/
abbrev Body (α : Type) : Type := Stm JobSig Locals PyError α

def assignJob (f : ConversionJob → ConversionJob) : Body Unit := .modify fun l => { l with job := f l.job }

/-- A transition of the entity, which may raise. -/
def transition (f : ConversionJob → Except PyError ConversionJob) : Body Unit :=
  .tryModify fun l => (f l.job).map fun job => { l with job }

/-- Move the event to its next phase and publish it. -/
def publish (phase : EventContext → EventContext) : Body Unit := do
  .modify fun l => { l with event := phase l.event }
  let l ← .get
  .act (call (.publishEvent l.event.toDict))

/-- `job.progress = event.progress`. -/
def recordProgress : Body Unit := .modify fun l => { l with job := { l.job with progress := l.event.progress } }

variable (ctx : WorkerContext) (periodKey : String)

/-- Write the row, up to `n` times; a failure is never the job's. -/
def updateAttempts (job : ConversionJob) : ℕ → Py Unit
  | 0 => pure ()
  | n + 1 => (onFreshSession (call (.updateJob job))).tryCatch fun _ => updateAttempts job n

/-- Persist the entity as it is: one attempt, two for the final write of a finished job. -/
def persist (terminal : Bool) : Body Unit := do
  let l ← .get
  .act (if ctx.jobRepository then updateAttempts l.job (if terminal then 2 else 1) else pure ())

/-- The stored row of the job; a read failure only disables the idempotency guard. -/
def loadPersistedJob (jobId : String) : Py (Option ConversionJob) :=
  if ctx.jobRepository then (onFreshSession (call (.getJob jobId))).tryCatch fun _ => pure none
  else pure none

def isFinished (row : ConversionJob) : Bool := row.status = .completed ∧ truthy row.outputFile ≠ none

def exhaustedMessage : String :=
  "Conversion credits exhausted. Upgrade your plan or purchase more credits."

def userFacingFailureMessage : String := "Conversion failed. Please try again later."

/-- The credit pre-check: the tier to price at, or `none` where the wallet is empty and the job is over.  Any
exception, that of the refusal's own event included, lets the job go on at the free tier. -/
def creditPreCheck : Body (Option SubscriptionTier) := do
  let l ← .get
  match l.job.userId with
  | none => return some .free
  | some userId =>
    if ctx.creditPort = false then return some .free
    Stm.tryCatch (do
      let available ← .act (call (.getAvailableTotal userId periodKey))
      let tier ← .act (call (.getTier userId))
      if available.any (· ≤ 0) then
        assignJob (markFailed exhaustedMessage)
        assignJob fun job => { job with progress := 100 }
        persist ctx true
        .act (call (.publishEvent {
          jobId := l.job.jobId, status := .failed, progress := 100
          message := some "conversion credits exhausted", creditsRemaining := some 0 }))
        return none
      else return some tier) fun _ => return some .free

/-- Charge the wallet; a failure is not the job's, whose output exists. -/
def consume (job : ConversionJob) (units : ℤ) : Py (Option ℤ) :=
  match job.userId with
  | none => pure none
  | some userId =>
    if ctx.creditPort = false then pure none
    else Act.tryCatch (do
      let remaining ← call (.consume userId periodKey units job.origin)
      return some remaining) fun _ => pure none

/-- What a conversion produced and what it costs. -/
structure Converted where
  outputFile : WorkPath
  computeDurationMs : ℤ
  creditsUsed : ℤ
  inputSizeBytes : ℤ
  outputSizeBytes : ℤ

/-- Download and convert, and record on the entity what the conversion costs. -/
def convert (job : ConversionJob) (tier : SubscriptionTier) : Body Converted := do
  publish .downloading
  recordProgress
  persist ctx false
  let plainInput ← .act (downloadInputFile ctx job (resolveInputPath job.inputFile))
  let outputFile ← .act (resolveOutputPath ctx job.inputFile job.conversion plainInput)
  publish .processing
  recordProgress
  persist ctx false
  let computeDurationMs ← .act (convertFile ctx job plainInput outputFile)
  let creditsUsed := calculateCredits ctx computeDurationMs job.conversion tier
  let (inputSizeBytes, outputSizeBytes) ← .act (measureFileSizes plainInput outputFile)
  transition (·.setComputeResult computeDurationMs creditsUsed inputSizeBytes outputSizeBytes)
  return { outputFile, computeDurationMs, creditsUsed, inputSizeBytes, outputSizeBytes }

/-- Upload, complete, charge, persist and announce. -/
def deliver (job : ConversionJob) (result : Converted) : Body Unit := do
  publish .uploading
  recordProgress
  persist ctx false
  let outputDest ← .act (uploadOutputFile ctx job result.outputFile)
  transition (·.complete outputDest)
  let creditsRemaining ← .act (consume ctx periodKey job result.creditsUsed)
  .modify fun l => { l with
    event := l.event.completed result.computeDurationMs result.creditsUsed result.inputSizeBytes
      result.outputSizeBytes outputDest }
  assignJob fun job => { job with progress := 100 }
  persist ctx true
  let l ← .get
  .act (call (.publishEvent { l.event.toDict with creditsRemaining }))

/-- The body of the outer `try`.  `job` is the delivered entity, for the fields no statement assigns. -/
def attempt (job : ConversionJob) : Body Unit := do
  transition (·.startProcessing)
  persist ctx false
  match ← creditPreCheck ctx periodKey with
  | none => return ()
  | some tier =>
    let result ← convert ctx job tier
    deliver ctx periodKey job result

/-- The outer handler: whatever was raised, the job is FAILED. -/
def giveUp (e : PyError) : Body Unit := do
  assignJob (markFailed e.message)
  recordProgress
  persist ctx true
  publish (.failed userFacingFailureMessage)
  .throw ⟨.runtimeError, e.message⟩

/-- Process one delivered job in the credit period `periodKey`. -/
def processJob (job : ConversionJob) : Py Unit := do
  match (← loadPersistedJob ctx job.jobId).filter isFinished with
  | some row =>
    call (.publishEvent {
      jobId := job.jobId, status := .completed, progress := 100, message := some "conversion completed"
      computeDurationMs := some row.computeDurationMs, creditsUsed := some row.creditsUsed
      inputSizeBytes := some row.inputSizeBytes, outputSizeBytes := some row.outputSizeBytes
      outputFile := row.outputFile })
  | none =>
    Stm.exec ((attempt ctx periodKey job).tryCatch (giveUp ctx)) ⟨job, { jobId := job.jobId }⟩

end Job

end Transform.Worker
