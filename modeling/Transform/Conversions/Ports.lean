import Transform.Lib.Stm
import Transform.Billing.Tier
import Transform.Conversions.Message

/-!
# Conversions.Ports — what the conversion code asks of its environment

One signature for the API and the worker: the database, the job streams, the event stream, the credit port, the
upload sessions, and the file work (object storage, encryption, the converter, the local disk).
-/

namespace Transform.Conversions

open Lib Billing

structure JobEvent where
  jobId : String
  status : JobStatus
  progress : ℤ
  message : Option String
  computeDurationMs : Option ℤ := none
  creditsUsed : Option ℤ := none
  inputSizeBytes : Option ℤ := none
  outputSizeBytes : Option ℤ := none
  outputFile : Option String := none
  creditsRemaining : Option ℤ := none
  deriving DecidableEq, Repr

/-- The cached state of one upload. -/
structure UploadSession where
  uploadId : String
  objectKey : String
  status : String := "pending"
  fileName : Option String := none
  fileExtension : Option String := none
  folderId : Option String := none
  userId : Option String := none
  fileId : Option String := none
  uploadMode : String := "single"
  multipartUploadId : Option String := none
  deriving DecidableEq, Repr

/-- A file of the worker's temporary directory. -/
structure WorkPath where
  directory : String
  name : String
  deriving DecidableEq, Repr

/-- Object storage, encryption, the converter and the local disk. -/
inductive FileOp
  | download (objectKey : String) (path : WorkPath)
  | upload (objectKey : String) (path : WorkPath)
  | isFencrFile (path : WorkPath)
  | decryptKey (wrapped actor : String)
  | decryptFencrFile (source target : WorkPath) (key : String)
  | isEncryptedFile (path : WorkPath)
  | decryptFileTo (source target : WorkPath) (actor : String)
  | encryptFileTo (source target : WorkPath) (actor : String)
  | outputExtension (conversion : ConversionType) (path : WorkPath)
  | convert (conversion : ConversionType) (input output : WorkPath)
  | hasOutput (path : WorkPath)
  | fileSize (path : WorkPath)

abbrev FileOp.Ans : FileOp → Type
  | .isFencrFile _ => Bool
  | .decryptKey _ _ => String
  | .isEncryptedFile _ => Bool
  | .outputExtension _ _ => Option String
  | .convert _ _ _ => ℕ
  | .hasOutput _ => Bool
  | .fileSize _ => ℕ
  | _ => Unit

/-- The upload sessions and the library they finish in. -/
inductive UploadOp
  | getSession (uploadId : String)
  | setSession (session : UploadSession)
  | completeMultipartUpload (objectKey multipartUploadId : String) (parts : List (ℕ × String))
  | objectExists (objectKey : String)
  | completeUpload (userId : ℤ) (session : UploadSession)

abbrev UploadOp.Ans : UploadOp → Type
  | .getSession _ => Option UploadSession
  | .objectExists _ => Bool
  | .completeUpload _ _ => String
  | _ => Unit

inductive JobOp
  | uuid4
  | utcNow
  | insertJob (row : ConversionJob)
  | updateJob (job : ConversionJob)
  | getJob (jobId : String)
  | publishJob (stream : String) (message : Fields)
  | publishEvent (event : JobEvent)
  | getAvailableTotal (userId : ℤ) (periodKey : String)
  | getTier (userId : ℤ)
  | consume (userId : ℤ) (periodKey : String) (units : ℤ) (origin : JobOrigin)
  | file (op : FileOp)
  | uploads (op : UploadOp)

abbrev JobOp.Ans : JobOp → Type
  | .uuid4 => String
  | .utcNow => Instant
  | .getJob _ => Option ConversionJob
  | .getAvailableTotal _ _ => Option ℤ
  | .getTier _ => SubscriptionTier
  | .consume _ _ _ _ => ℤ
  | .file op => op.Ans
  | .uploads op => op.Ans
  | _ => Unit

/-- The signature of the conversion code. -/
abbrev JobSig : Sig := ⟨JobOp, JobOp.Ans, PyError⟩

/-- A program of the conversion code. -/
abbrev Py (α : Type) : Type := Act JobSig PyError α

/-- One call of a port. -/
def call (op : JobOp) : Py op.Ans := ask (S := JobSig) op

end Transform.Conversions
