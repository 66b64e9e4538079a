import Mathlib.Data.Int.Notation
import Mathlib.Tactic.Common

/-!
# Conversions.Job — the conversion job and its state machine

`ConversionJob` with the transitions of the source: each checks the status it starts from and raises
`InvalidStateTransition` otherwise.  Instants are microseconds since the epoch, in UTC.
-/

namespace Transform.Conversions

/-- Microseconds since the epoch. -/
abbrev Instant := ℤ

inductive JobStatus
  | awaitingUpload
  | pending
  | processing
  | completed
  | failed
  deriving DecidableEq, Repr

/-- The stored spelling of a status. -/
def JobStatus.value : JobStatus → String
  | .awaitingUpload => "AWAITING_UPLOAD"
  | .pending => "PENDING"
  | .processing => "PROCESSING"
  | .completed => "COMPLETED"
  | .failed => "FAILED"

/-- Where a job was submitted from. -/
inductive JobOrigin
  | web
  | api
  | mcp
  | guest
  deriving DecidableEq, Repr

def JobOrigin.value : JobOrigin → String
  | .web => "WEB"
  | .api => "API"
  | .mcp => "MCP"
  | .guest => "GUEST"

/-- The characters `str.strip` removes. -/
def isStripped (c : Char) : Bool :=
  c.toNat ∈ [0x9, 0xA, 0xB, 0xC, 0xD, 0x1C, 0x1D, 0x1E, 0x1F, 0x20, 0x85, 0xA0, 0x1680, 0x2000, 0x2001, 0x2002,
    0x2003, 0x2004, 0x2005, 0x2006, 0x2007, 0x2008, 0x2009, 0x200A, 0x2028, 0x2029, 0x202F, 0x205F, 0x3000]

/-- `str.strip`. -/
def strip (s : String) : String :=
  String.ofList ((s.toList.dropWhile isStripped).reverse.dropWhile isStripped).reverse

/-- `str.split()`. -/
def splitWhitespace (s : String) : List String :=
  ((s.toList.splitOnP isStripped).filter (· ≠ [])).map String.ofList

/-- `str.upper`, on the letters that can spell an origin. -/
def upper (s : String) : String :=
  String.ofList (s.toList.flatMap fun c => match c with
    | 'ı' => ['I']
    | 'ſ' => ['S']
    | 'ﬅ' => ['S', 'T']
    | 'ﬆ' => ['S', 'T']
    | c => [c.toUpper])

/-- Best-effort parse of a persisted or transported origin; anything unrecognised is `web`. -/
def coerceJobOrigin : Option String → JobOrigin
  | none => .web
  | some s =>
    match upper (strip s) with
    | "API" => .api
    | "MCP" => .mcp
    | "GUEST" => .guest
    | _ => .web

structure ConversionType where
  sourceFormat : String
  targetFormat : String
  deriving DecidableEq, Repr

/-- `repr` of a printable string: double quotes only around a text with single quotes and no double ones. -/
def pyRepr (s : String) : String :=
  let q := if s.contains '\'' && !s.contains '"' then '"' else '\''
  let esc := s.toList.flatMap fun c => if c = q || c = '\\' then ['\\', c] else [c]
  String.ofList (q :: esc ++ [q])

/-- `str` of the dataclass. -/
def ConversionType.repr (c : ConversionType) : String :=
  s!"ConversionType(source_format={pyRepr c.sourceFormat}, target_format={pyRepr c.targetFormat})"

/-- The classes of exception that the code raises, or handles by name. -/
inductive ErrorClass
  | invalidStateTransition
  | invalidConversion
  | invalidConversionJob
  | valueError
  | keyError
  | runtimeError
  | uploadSessionNotFound
  | missingUploadParts
  | invalidPartNumber
  | uploadVerification
  | uploadNotMultipart
  | fileSystem (statusCode : ℕ)
  | http (statusCode : ℕ)
  | guestTierHasNoPersistentCredits
  | integrityError
  | droppedConnection
  | other
  deriving DecidableEq, Repr

/-- The database errors a worker retries on a fresh session; a broken constraint is one of them. -/
def ErrorClass.retryable : ErrorClass → Bool
  | .integrityError => true
  | .droppedConnection => true
  | _ => false

/-- A raised exception: its class and `str(e)`.  `droppedConnection` stands for `OperationalError`,
`ConnectionError`, `OSError` and the other errors of the database driver. -/
structure PyError where
  cls : ErrorClass
  message : String
  deriving DecidableEq, Repr

/-- `value if value else None`. -/
def truthy (value : Option String) : Option String := value.filter (· ≠ "")

/-- `int(text)`, on the decimal texts that `str` of an integer writes. -/
def pyInt (text : String) : Except PyError ℤ :=
  match (strip text).toInt? with
  | some n => .ok n
  | none => .error ⟨.valueError, s!"invalid literal for int() with base 10: {pyRepr text}"⟩

structure ConversionJob where
  jobId : String
  conversion : ConversionType
  inputFile : String
  outputFile : Option String := none
  objectKey : String := ""
  status : JobStatus := .awaitingUpload
  errorMessage : Option String := none
  computeDurationMs : ℤ := 0
  creditsUsed : ℤ := 0
  userId : Option ℤ := none
  dataKeyWrapped : Option String := none
  clientEncrypted : Bool := false
  createdAt : Option Instant := none
  inputSizeBytes : ℤ := 0
  outputSizeBytes : ℤ := 0
  origin : JobOrigin := .web
  progress : ℤ := 0
  batchId : Option String := none
  workflowId : Option String := none
  deriving DecidableEq, Repr

namespace ConversionJob

def pendingProcessing (job : ConversionJob) : Except PyError ConversionJob :=
  if job.status ≠ .awaitingUpload then
    .error ⟨.invalidStateTransition, s!"Cannot transition to pending processing from status {job.status.value}"⟩
  else .ok { job with status := .pending }

def startProcessing (job : ConversionJob) : Except PyError ConversionJob :=
  if job.status ≠ .pending then
    .error ⟨.invalidStateTransition, s!"Cannot start processing from status {job.status.value}"⟩
  else if job.objectKey = "" then
    .error ⟨.invalidStateTransition, "Cannot start processing without an object_key set"⟩
  else .ok { job with status := .processing }

def complete (job : ConversionJob) (outputFile : String) : Except PyError ConversionJob :=
  if job.status ≠ .processing then
    .error ⟨.invalidStateTransition, s!"Cannot complete job from status {job.status.value}"⟩
  else .ok { job with outputFile := some outputFile, status := .completed }

def fail (job : ConversionJob) (errorMessage : String) : Except PyError ConversionJob :=
  if job.status ≠ .pending ∧ job.status ≠ .processing then
    .error ⟨.invalidStateTransition, s!"Cannot fail job from status {job.status.value}"⟩
  else .ok { job with errorMessage := some errorMessage, status := .failed }

/-- Re-enqueue a failed job: back to PENDING, the previous attempt's results cleared. -/
def retry (job : ConversionJob) : Except PyError ConversionJob :=
  if job.status ≠ .failed then
    .error ⟨.invalidStateTransition, s!"Cannot retry job from status {job.status.value}"⟩
  else if job.objectKey = "" then
    .error ⟨.invalidStateTransition, "Cannot retry a job without an object_key set"⟩
  else .ok { job with
    status := .pending, errorMessage := none, outputFile := none, computeDurationMs := 0, creditsUsed := 0,
    inputSizeBytes := 0, outputSizeBytes := 0 }

/-- Record the compute time, the credits charged and the bytes moved. -/
def setComputeResult (job : ConversionJob) (durationMs credits inputSizeBytes outputSizeBytes : ℤ) :
    Except PyError ConversionJob :=
  if durationMs < 0 then .error ⟨.valueError, "compute_duration_ms cannot be negative"⟩
  else if credits < 0 then .error ⟨.valueError, "credits_used cannot be negative"⟩
  else if inputSizeBytes < 0 then .error ⟨.valueError, "input_size_bytes cannot be negative"⟩
  else if outputSizeBytes < 0 then .error ⟨.valueError, "output_size_bytes cannot be negative"⟩
  else .ok { job with
    computeDurationMs := durationMs, creditsUsed := credits, inputSizeBytes := inputSizeBytes,
    outputSizeBytes := outputSizeBytes }

end ConversionJob

/-- A guest job is never owned by an authenticated caller. -/
def isJobOwner (job : Option ConversionJob) (userId : Option ℤ) : Bool :=
  match job, userId with
  | some job, some u => job.userId = some u
  | _, _ => false

/-- Raise unless the conversion is a registered one. -/
def isSupported (conversion : ConversionType) (supported : List ConversionType) : Except PyError Unit :=
  if conversion ∈ supported then .ok ()
  else .error ⟨.invalidConversion, s!"Conversion type {conversion.repr} is not supported"⟩

section Transitions

variable {job job' : ConversionJob}

/-! ## Steps that may raise -/

theorem ok_bind {ε α β : Type} (a : α) (f : α → Except ε β) : (Except.ok a >>= f) = f a := rfl

/-- What ran before a step that returned has returned. -/
theorem bind_ok {ε α β : Type} {x : Except ε α} {f : α → Except ε β} {b : β} (h : (x >>= f) = .ok b) :
    ∃ a, x = .ok a ∧ f a = .ok b := by
  rcases x with e | a
  · cases h
  · exact ⟨a, rfl, h⟩

/-! ## What each transition leaves of a job -/

theorem pendingProcessing_ok (h : job.pendingProcessing = .ok job') :
    job.status = .awaitingUpload ∧ job' = { job with status := .pending } := by
  unfold ConversionJob.pendingProcessing at h
  split_ifs at h with hs
  cases h
  exact ⟨by simpa using hs, rfl⟩

theorem startProcessing_ok (h : job.startProcessing = .ok job') :
    job.status = .pending ∧ job.objectKey ≠ "" ∧ job' = { job with status := .processing } := by
  unfold ConversionJob.startProcessing at h
  split_ifs at h with hs hk
  cases h
  exact ⟨by simpa using hs, hk, rfl⟩

theorem complete_ok {o : String} (h : job.complete o = .ok job') :
    job.status = .processing ∧ job' = { job with outputFile := some o, status := .completed } := by
  unfold ConversionJob.complete at h
  split_ifs at h with hs
  cases h
  exact ⟨by simpa using hs, rfl⟩

theorem retry_ok (h : job.retry = .ok job') : job'.status = .pending := by
  unfold ConversionJob.retry at h
  split_ifs at h
  cases h
  rfl

theorem setComputeResult_ok {d c i o : ℤ} (h : job.setComputeResult d c i o = .ok job') :
    0 ≤ c ∧ job' = { job with
      computeDurationMs := d, creditsUsed := c, inputSizeBytes := i, outputSizeBytes := o } := by
  unfold ConversionJob.setComputeResult at h
  split_ifs at h with hd hc hi ho
  cases h
  exact ⟨by omega, rfl⟩

end Transitions

end Transform.Conversions
