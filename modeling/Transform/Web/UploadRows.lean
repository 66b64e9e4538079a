import Mathlib.Algebra.GroupWithZero.Nat
import Mathlib.Data.Int.Notation
import Mathlib.Logic.Function.Basic
import Transform.Lib.Machine

/-!
# Web.UploadRows — the rows of the upload dock and the runs behind them

The list of the uploads with the files, the controllers and the running set, and one step for each action of the user, each
effect of a render and each callback of a run of the engine.
-/

namespace Transform.Web

open Lib

/-! ## The list -/

section Rows

inductive UploadStatus
  | queued
  | uploading
  | verifying
  | done
  | failed
  | canceled
  | interrupted
  deriving DecidableEq, Repr

def isUploadActive (status : UploadStatus) : Bool := status = .queued || status = .uploading || status = .verifying

def isUploadRunning (status : UploadStatus) : Bool := status = .uploading || status = .verifying

/-- The record of an upload, without its file. -/
structure UiUpload where
  id : String
  fileName : String
  size : ℤ
  status : UploadStatus
  bytesDone : ℤ := 0
  folderId : Option String := none
  createdAt : String
  error : Option String := none
  retryable : Bool := false
  etaSeconds : Option ℤ := none
  uploadId : Option String := none
  uploadMode : Option String := none
  partSizeBytes : Option ℤ := none
  partCount : Option ℤ := none
  verified : Bool := false
  deriving DecidableEq, Repr

def patchRows (id : String) (update : UiUpload → UiUpload) (uploads : List UiUpload) : List UiUpload :=
  uploads.map fun upload => if upload.id = id then update upload else upload

def applyProgress (bytesDone : ℤ) (etaSeconds : Option ℤ) (upload : UiUpload) : UiUpload :=
  { upload with bytesDone := max 0 (min upload.size bytesDone), etaSeconds }

def progressTick (uploads : List UiUpload) (id : String) (bytesDone : ℤ) (etaSeconds : Option ℤ) : List UiUpload :=
  patchRows id (applyProgress bytesDone etaSeconds) uploads

def succeeded (upload : UiUpload) : UiUpload :=
  { upload with
    status := .done, bytesDone := upload.size, etaSeconds := none, error := none, retryable := false, verified := true }

def succeedUpload (uploads : List UiUpload) (id : String) : List UiUpload := patchRows id succeeded uploads

def failedWith (message : String) (retryable : Bool) (upload : UiUpload) : UiUpload :=
  { upload with status := .failed, etaSeconds := none, error := some message, retryable }

def failUpload (uploads : List UiUpload) (id message : String) (retryable : Bool) : List UiUpload :=
  patchRows id (failedWith message retryable) uploads

def canceledRow (upload : UiUpload) : UiUpload :=
  { upload with status := .canceled, etaSeconds := none, error := none, retryable := false }

def cancelUpload (uploads : List UiUpload) (id : String) : List UiUpload := patchRows id canceledRow uploads

def uploadingRow (upload : UiUpload) : UiUpload := { upload with status := .uploading, error := none }

def verifyingRow (upload : UiUpload) : UiUpload := { upload with status := .verifying }

def requeued (upload : UiUpload) : UiUpload :=
  { upload with
    status := .queued, bytesDone := 0, etaSeconds := none, error := none, retryable := false, verified := false }

def requeueUpload (uploads : List UiUpload) (id : String) : List UiUpload := patchRows id requeued uploads

def dismissUpload (uploads : List UiUpload) (id : String) : List UiUpload := uploads.filter (·.id ≠ id)

def enqueueUploads (uploads incoming : List UiUpload) : List UiUpload := incoming ++ uploads

def pickQueued (running : String → Bool) : (capacity : ℕ) → List UiUpload → List String
  | 0, _ => []
  | _, [] => []
  | capacity + 1, upload :: rest =>
    if upload.status ≠ .queued || running upload.id then pickQueued running (capacity + 1) rest
    else upload.id :: pickQueued running capacity rest

def nextUploadsToStart (uploads : List UiUpload) (running : String → Bool) (maxConcurrent : ℕ) : List String :=
  pickQueued running (maxConcurrent - uploads.countP fun upload => isUploadRunning upload.status) uploads.reverse

end Rows

/-! ## The store and its runs -/

section Store

/-- What the callbacks ask of a failure. -/
structure RunError where
  message : String
  abort : Bool := false
  retryable : Bool := true
  deriving DecidableEq, Repr

/-- Where a run of the engine is; it ends with its `finally`. -/
inductive RunPhase
  | creating
  | transferring
  | verifying
  | resolving
  | rejecting (error : RunError)
  | settled
  | finished
  deriving DecidableEq, Repr

structure EngineRun where
  id : String
  aborted : Bool := false
  phase : RunPhase := .creating
  deriving DecidableEq, Repr

/-- Its promise has not been seen to settle. -/
def EngineRun.Going (run : EngineRun) : Prop := run.phase ≠ .settled ∧ run.phase ≠ .finished

def EngineRun.Unfinished (run : EngineRun) : Prop := run.phase ≠ .finished

structure SessionInfo where
  uploadId : String
  mode : String
  partSizeBytes : Option ℤ
  partCount : Option ℤ
  deriving DecidableEq, Repr

def withSession (session : SessionInfo) (upload : UiUpload) : UiUpload :=
  { upload with
    uploadId := some session.uploadId
    uploadMode := some session.mode
    partSizeBytes := session.partSizeBytes
    partCount := session.partCount }

structure PickedFile where
  id : String
  fileName : String
  size : ℤ
  refusal : Option String
  deriving DecidableEq, Repr

def PickedFile.row (folderId : Option String) (createdAt : String) (file : PickedFile) : UiUpload where
  id := file.id
  fileName := file.fileName
  size := file.size
  status := if file.refusal.isSome then .failed else .queued
  folderId := folderId
  createdAt := createdAt
  error := file.refusal

/-- The refs of the store by id.  `rendered` is the list of the render whose effects are still to run, `known` are the ids so
far, `dropped` the sessions that the server was told to drop. -/
structure UploadsStore where
  uploads : List UiUpload
  rendered : Option (List UiUpload) := none
  uploadsRef : List UiUpload
  files : String → Bool := fun _ => false
  controllers : String → Option ℕ := fun _ => none
  running : String → Bool := fun _ => false
  runs : ℕ → Option EngineRun := fun _ => none
  nextRun : ℕ := 0
  mounted : Bool := true
  known : List String
  dropped : List String := []

inductive RowAction
  | addFiles (picked : List PickedFile) (folderId : Option String) (createdAt : String)
  | render
  | effects
  | cancel (id : String)
  | retry (id : String)
  | dismiss (id : String)
  | unmount
  | onSession (run : ℕ) (session : SessionInfo)
  | onProgress (run : ℕ) (bytesDone : ℤ) (etaSeconds : Option ℤ)
  | onVerifying (run : ℕ)
  | onVerified (run : ℕ)
  | onFailure (run : ℕ) (error : RunError)
  | thenRun (run : ℕ)
  | catchRun (run : ℕ)
  | finallyRun (run : ℕ)
  deriving DecidableEq

def maxConcurrentFileUploads : ℕ := 2

def noLongerAvailable : String := "This file is no longer available in the browser. Select it again to upload."

namespace UploadsStore

variable (s : UploadsStore)

/-- An update of the list; after the unmount it changes nothing. -/
def setUploads (update : List UiUpload → List UiUpload) : UploadsStore :=
  if s.mounted then { s with uploads := update s.uploads } else s

def patch (id : String) (update : UiUpload → UiUpload) : UploadsStore := s.setUploads (patchRows id update)

def setRun (number : ℕ) (run : EngineRun) : UploadsStore :=
  { s with runs := Function.update s.runs number (some run) }

def abort (controller : Option ℕ) : ℕ → Option EngineRun := fun number =>
  if controller = some number then (s.runs number).map fun run => { run with aborted := true } else s.runs number

/-- `start`, up to the first request of the engine. -/
def start (id : String) : UploadsStore :=
  if s.files id = false then s.patch id (failedWith noLongerAvailable false)
  else if s.running id then s
  else
    { s.patch id uploadingRow with
      running := Function.update s.running id true
      controllers := Function.update s.controllers id (some s.nextRun)
      runs := Function.update s.runs s.nextRun (some { id })
      nextRun := s.nextRun + 1 }

/-- The rows that the pump of a render starts. -/
def picks (rendered : List UiUpload) : List String := nextUploadsToStart rendered s.running maxConcurrentFileUploads

/-- The effects of a render: the ref follows its list, and the queue is pumped with it. -/
def effects (rendered : List UiUpload) : UploadsStore :=
  (s.picks rendered).foldl start { s with uploadsRef := rendered, rendered := none }

def addFiles (picked : List PickedFile) (folderId : Option String) (createdAt : String) : UploadsStore :=
  { s with
    uploads := enqueueUploads s.uploads (picked.map (·.row folderId createdAt))
    files := fun id => s.files id || picked.any fun file => file.id = id && file.refusal.isNone
    known := picked.map (·.id) ++ s.known }

def cancel (id : String) : UploadsStore :=
  { s with
    uploads := cancelUpload s.uploads id
    runs := s.abort (s.controllers id)
    files := Function.update s.files id false
    dropped := (((s.uploadsRef.find? (·.id = id)).bind (·.uploadId)).filter (· ≠ "")).toList ++ s.dropped }

def retry (id : String) : UploadsStore :=
  if s.files id = false then s.patch id (failedWith noLongerAvailable false)
  else s.setUploads fun uploads => requeueUpload uploads id

def dismiss (id : String) : UploadsStore :=
  { s with
    uploads := dismissUpload s.uploads id
    runs := s.abort (s.controllers id)
    controllers := Function.update s.controllers id none
    files := Function.update s.files id false }

def unmount : UploadsStore :=
  { s with
    mounted := false
    runs := fun number => (s.runs number).map fun run =>
      if s.controllers run.id = some number then { run with aborted := true } else run
    controllers := fun _ => none
    files := fun _ => false }

/-- The session exists; then the signal is asked. -/
def onSession (number : ℕ) (run : EngineRun) (session : SessionInfo) : UploadsStore :=
  let phase := if run.aborted then .rejecting { message := "Upload aborted", abort := true } else .transferring
  (s.setRun number { run with phase }).patch run.id (withSession session)

/-- The `then` of a run. -/
def resolved (number : ℕ) (run : EngineRun) : UploadsStore :=
  let s := s.setRun number { run with phase := .settled }
  if s.mounted then
    { s with uploads := succeedUpload s.uploads run.id, files := Function.update s.files run.id false }
  else s

/-- The `catch` of a run. -/
def rejected (number : ℕ) (run : EngineRun) (error : RunError) : UploadsStore :=
  let s := s.setRun number { run with phase := .settled }
  if s.mounted then
    if error.abort || run.aborted then { s with uploads := cancelUpload s.uploads run.id }
    else { s with uploads := failUpload s.uploads run.id error.message error.retryable }
  else s

/-- The `finally` of a run. -/
def finish (number : ℕ) (run : EngineRun) : UploadsStore :=
  { s.setRun number { run with phase := .finished } with
    running := Function.update s.running run.id false
    controllers := Function.update s.controllers run.id none }

/-- The ids of picked files are new.  The effects of a render run before the next one, and not always before what the user does
next.  A transfer that was aborted does not end well: its PUTs reject and its loops ask the
signal.  A run reports progress at any time, also through workers that are left when it has ended. -/
def step (s : UploadsStore) : RowAction → Option UploadsStore
  | .addFiles picked folderId createdAt =>
    if s.mounted ∧ (picked.map (·.id)).Nodup ∧ ∀ file ∈ picked, file.id ∉ s.known then
      some (s.addFiles picked folderId createdAt)
    else none
  | .render => if s.mounted ∧ s.rendered = none then some { s with rendered := some s.uploads } else none
  | .effects => do
    let rendered ← s.rendered
    if s.mounted then some (s.effects rendered) else none
  | .cancel id => if s.mounted then some (s.cancel id) else none
  | .retry id => if s.mounted then some (s.retry id) else none
  | .dismiss id => if s.mounted then some (s.dismiss id) else none
  | .unmount => if s.mounted then some s.unmount else none
  | .onSession number session => do
    let run ← s.runs number
    if run.phase = .creating then some (s.onSession number run session) else none
  | .onProgress number bytesDone etaSeconds => do
    let run ← s.runs number
    some (s.setUploads fun uploads => progressTick uploads run.id bytesDone etaSeconds)
  | .onVerifying number => do
    let run ← s.runs number
    if run.phase = .transferring ∧ run.aborted = false then
      some ((s.setRun number { run with phase := .verifying }).patch run.id verifyingRow)
    else none
  | .onVerified number => do
    let run ← s.runs number
    if run.phase = .verifying then some (s.setRun number { run with phase := .resolving }) else none
  | .onFailure number error => do
    let run ← s.runs number
    if run.phase = .creating ∨ run.phase = .transferring ∨ run.phase = .verifying then
      some (s.setRun number { run with phase := .rejecting error })
    else none
  | .thenRun number => do
    let run ← s.runs number
    if run.phase = .resolving then some (s.resolved number run) else none
  | .catchRun number => do
    let run ← s.runs number
    match run.phase with
    | .rejecting error => some (s.rejected number run error)
    | _ => none
  | .finallyRun number => do
    let run ← s.runs number
    if run.phase = .settled then some (s.finish number run) else none

end UploadsStore

/-- A store over the rows that were stored; what was active then was interrupted. -/
def openedRows (stored : List UiUpload) : UploadsStore :=
  { uploads := stored, uploadsRef := stored, known := stored.map (·.id) }

end Store

/-! ## The property -/

section Property

/-- An outcome that a row has in a session of the page. -/
def isOutcome (status : UploadStatus) : Bool := status = .done || status = .failed || status = .canceled

/-- A row that has an outcome keeps it, a retry apart. -/
def Kept (s : UploadsStore) (action : RowAction) (s' : UploadsStore) : Prop :=
  ∀ row ∈ s.uploads, isOutcome row.status = true → action ≠ .retry row.id →
    ∀ row' ∈ s'.uploads, row'.id = row.id → row'.status = row.status

def StaysGone (s s' : UploadsStore) : Prop :=
  ∀ id ∈ s.known, (∀ row ∈ s.uploads, row.id ≠ id) → ∀ row ∈ s'.uploads, row.id ≠ id

/-- No two runs that have not finished are of one row. -/
def OneRun (s : UploadsStore) : Prop :=
  ∀ number run number' run', s.runs number = some run → s.runs number' = some run' → run.Unfinished → run'.Unfinished →
    run.id = run'.id → number = number'

/-- What is asked of a step: rows keep their outcome and do not come back, and no row has two runs. -/
def Sound (s : UploadsStore) (action : RowAction) (s' : UploadsStore) : Prop :=
  Kept s action s' ∧ StaysGone s s' ∧ OneRun s'

/-- What goes wrong nowhere: the effects of a render start no row that has an outcome since, but for one that failed and has
no file; a row that has failed or is done is not canceled, the `then` of a run that was aborted finds no row, and its `catch`
finds none that a retry has failed. -/
def Orderly (s : UploadsStore) : RowAction → Prop
  | .effects => ∀ rendered, s.rendered = some rendered → ∀ row ∈ s.uploads, row.id ∈ s.picks rendered →
      isOutcome row.status = true → row.status = .failed ∧ s.files row.id = false
  | .cancel id => ∀ row ∈ s.uploads, row.id = id → row.status ≠ .failed ∧ row.status ≠ .done
  | .thenRun number => s.mounted = true → ∀ run, s.runs number = some run → run.aborted = true →
      ∀ row ∈ s.uploads, row.id ≠ run.id
  | .catchRun number => s.mounted = true → ∀ run, s.runs number = some run → run.aborted = true →
      ∀ row ∈ s.uploads, row.id = run.id → row.status ≠ .failed
  | _ => True

end Property

end Transform.Web
