import Transform.Lib.Proc
import Transform.Conversions.Message

/-!
# Cleanup.Cycle — one cycle of the cleanup worker

Guest jobs, expired files, stale temp objects, old job records, telemetry: each phase reads the rows that are due,
passes their object keys to storage, and deletes the rows in one commit.  A failure of storage is only logged; a
failure of the database ends the cycle.
-/

namespace Transform.Cleanup

open Lib Conversions

/-! ## What a cycle works on -/

/-- A row of `user_files`. -/
structure UserFile where
  id : String
  fileKey : String
  createdAt : Instant
  expiresAt : Option Instant
  deriving DecidableEq, Repr

/-- An object as storage lists it. -/
structure StoredObject where
  objectName : String
  lastModified : Option Instant
  deriving DecidableEq, Repr

inductive CleanupOp
  | utcNow
  | selectGuestJobs (cutoff : Instant)
  | selectExpiredFiles (now cutoff : Instant)
  | selectOldJobs (cutoff : Instant)
  | commitJobs (deleted : List ConversionJob)
  | commitFiles (deleted : List UserFile)
  | deleteTelemetry (cutoff : Instant)
  | listObjects (keyPrefix : String)
  | removeObject (key : String)

abbrev CleanupOp.Ans : CleanupOp → Type
  | .utcNow => Instant
  | .selectGuestJobs _ => List ConversionJob
  | .selectExpiredFiles _ _ => List UserFile
  | .selectOldJobs _ => List ConversionJob
  | .deleteTelemetry _ => ℕ
  | .listObjects _ => List StoredObject
  | _ => Unit

abbrev CleanupSig : Sig := ⟨CleanupOp, CleanupOp.Ans, PyError⟩

abbrev CleanupM (α : Type) : Type := Act CleanupSig PyError α

def call (op : CleanupOp) : CleanupM op.Ans := ask (S := CleanupSig) op

/-- The retention windows. -/
structure CleanupConfig where
  guestJobRetention : ℤ
  guestFileRetention : ℤ
  tempRetention : ℤ
  archiveAfter : ℤ
  telemetryRetention : ℤ

/-! ## The cycle -/

section Cycle

/-- The object key of a job's input; rows older than `object_key` have it in `input_file`. -/
def inputObjectKey (row : ConversionJob) : String := if row.objectKey = "" then row.inputFile else row.objectKey

/-- Delete one object, tolerating a missing key and a failure. -/
def deleteObject (key : Option String) : CleanupM Unit :=
  match truthy key with
  | none => pure ()
  | some key => (call (.removeObject key)).tryCatch fun _ => pure ()

def deleteObjects : List (Option String) → CleanupM Unit
  | [] => pure ()
  | key :: keys => do
    deleteObject key
    deleteObjects keys

def deleteJobObjects : List ConversionJob → CleanupM Unit
  | [] => pure ()
  | row :: rows => do
    deleteObjects [some (inputObjectKey row), row.outputFile]
    deleteJobObjects rows

def deleteFileObjects : List UserFile → CleanupM Unit
  | [] => pure ()
  | row :: rows => do
    deleteObjects [some row.fileKey]
    deleteFileObjects rows

def commitJobs (rows : List ConversionJob) : CleanupM Unit :=
  if rows = [] then pure () else call (.commitJobs rows)

def commitFiles (rows : List UserFile) : CleanupM Unit :=
  if rows = [] then pure () else call (.commitFiles rows)

variable (cfg : CleanupConfig)

/-- Remove ownerless jobs past the retention window. -/
def cleanupGuestJobs : CleanupM ℕ := do
  let now ← call .utcNow
  let rows ← call (.selectGuestJobs (now - cfg.guestJobRetention))
  deleteJobObjects rows
  commitJobs rows
  return rows.length

/-- Remove files whose expiry has passed. -/
def cleanupExpiredFiles : CleanupM ℕ := do
  let now ← call .utcNow
  let rows ← call (.selectExpiredFiles now (now - cfg.guestFileRetention))
  deleteFileObjects rows
  commitFiles rows
  return rows.length

/-- Last modified before `cutoff`; an object without a date is kept. -/
def StoredObject.stale (cutoff : Instant) (obj : StoredObject) : Bool := obj.lastModified.any (· < cutoff)

/-- Remove an object that has gone stale; whether it was removed. -/
def removeStale (cutoff : Instant) (obj : StoredObject) : CleanupM ℕ :=
  if obj.stale cutoff then
    Act.tryCatch (do
      call (.removeObject obj.objectName)
      return 1) fun _ => pure 0
  else pure 0

def removeStaleObjects (cutoff : Instant) : List StoredObject → CleanupM ℕ
  | [] => pure 0
  | obj :: objects => do
    let removed ← removeStale cutoff obj
    let rest ← removeStaleObjects cutoff objects
    return removed + rest

/-- Remove temporary objects past the retention window. -/
def cleanupTempFiles : CleanupM ℕ := do
  let now ← call .utcNow
  let objects ← (call (.listObjects "temp/")).tryCatch fun _ => pure []
  removeStaleObjects (now - cfg.tempRetention) objects

/-- Remove COMPLETED and FAILED jobs older than the archive window. -/
def archiveOldJobs : CleanupM ℕ := do
  let now ← call .utcNow
  let rows ← call (.selectOldJobs (now - cfg.archiveAfter))
  deleteJobObjects rows
  commitJobs rows
  return rows.length

def cleanupTelemetry : CleanupM ℕ := do
  let now ← call .utcNow
  call (.deleteTelemetry (now - cfg.telemetryRetention))

def runCleanupCycle : CleanupM Unit := do
  let _ ← cleanupGuestJobs cfg
  let _ ← cleanupExpiredFiles cfg
  let _ ← cleanupTempFiles cfg
  let _ ← archiveOldJobs cfg
  let _ ← cleanupTelemetry cfg
  return ()

end Cycle

end Transform.Cleanup
