import Mathlib.Data.List.Sort
import Transform.Conversions.Service
import Transform.Lib.Bytes
import Transform.Lib.Interleave
import Transform.Lib.Keyed
import Transform.Lib.Slices

/-!
# Web.UploadEngine — a file uploaded in parts

`runMultipart` of the browser, with the calls of the server that it makes: a pool of workers claims the parts of a file
from a shared counter, asks for their URLs in batches, and PUTs each slice, with retries; then the list of the ETags is
sent to the server, which has the store assemble the object (`verifyUploadCompletion`).

The loop of a worker takes a number of rounds; a worker that would need more ends with `unfinished`.
-/

namespace Transform.Web

open Lib Conversions

/-! ## The plan -/

section Plan

/-- `plan_multipart`: the number of parts and their size. -/
def planMultipart (fileSize partSize : ℕ) : Except PyError (ℕ × ℕ) :=
  if fileSize = 0 then .error ⟨.valueError, "file_size must be positive for a multipart upload."⟩
  else if partSize = 0 then .error ⟨.valueError, "part_size must be positive."⟩
  else .ok ((fileSize + partSize - 1) / partSize, partSize)

/-- The cached state of an upload with its plan. -/
structure PlannedSession extends UploadSession where
  partSizeBytes : Option ℕ := none
  partCount : Option ℕ := none

/-- A presigned URL to PUT a part. -/
structure PartUrl where
  objectKey : String
  partNumber : ℕ
  multipartUploadId : String
  deriving DecidableEq

/-- `generate_part_urls`. -/
def generatePartUrls (session : PlannedSession) (partNumbers : List ℕ) : Except PyError (List (ℕ × PartUrl)) :=
  match session.uploadMode, session.multipartUploadId with
  | "multipart", some multipartId =>
    let partCount := session.partCount.getD 0
    let requested := partNumbers.dedup.insertionSort (· ≤ ·)
    match requested.find? fun number => number < 1 || partCount < number with
    | some number => .error ⟨.invalidPartNumber, s!"Part {number} is outside the valid range 1..{partCount}."⟩
    | none => .ok (requested.map fun number => (number, ⟨session.objectKey, number, multipartId⟩))
  | _, _ => .error ⟨.uploadNotMultipart,
      "This upload session does not use multipart upload; PUT the file to the session's upload_url instead."⟩

/-- What an upload is run with. -/
structure UploadPlan where
  file : Bytes
  uploadId : String
  partSizeBytes : ℕ
  partCount : Option ℕ := none
  delays : List ℕ := [500, 1500, 4000]
  maxParallelParts : ℕ := 3
  partBatchSize : ℕ := 20

namespace UploadPlan

variable (plan : UploadPlan)

def totalParts : ℕ :=
  match plan.partCount with
  | some count => if 0 < count then count else fallback
  | none => fallback
where
  fallback : ℕ := max 1 ((plan.file.length + plan.partSizeBytes - 1) / plan.partSizeBytes)

/-- `file.slice(start, end)` of a part. -/
def slice (partNumber : ℕ) : Bytes :=
  let start := (partNumber - 1) * plan.partSizeBytes
  let stop := min (start + plan.partSizeBytes) plan.file.length
  (plan.file.drop start).take (stop - start)

def concurrency : ℕ := max 1 (min plan.maxParallelParts plan.totalParts)

end UploadPlan

end Plan

/-! ## The engine -/

section Engine

/-- What a PUT answers: the ETag of the part, and whether the browser may read it. -/
structure PutAnswer where
  etag : String
  exposed : Bool

/-- `PutResult.etag`. -/
def PutAnswer.result (answer : PutAnswer) : Option String := if answer.exposed then some answer.etag else none

inductive EngineError
  | abort
  | flow (message : String)
  | transport (message : String)
  | server (e : PyError)
  | unfinished
  deriving DecidableEq

/-- What the engine asks of the browser and of the server, and the steps on what its workers share. -/
inductive EngineOp
  | aborted
  | claimPart (totalParts : ℕ)
  | urlOf (partNumber : ℕ)
  | awaitBatch (batchIndex : ℕ) (partNumbers : List ℕ)
  | put (url : PartUrl) (blob : Bytes)
  | sleep (ms : ℕ)
  | setEtag (partNumber : ℕ) (etag : String)
  | completePart (partNumber : ℕ) (bytes : ℕ)
  | workerReturned
  | etagEntries
  | server (op : UploadOp)
  | resolved

abbrev EngineOp.Ans : EngineOp → Type
  | .aborted => Bool
  | .claimPart _ => ℕ
  | .urlOf _ => Option PartUrl
  | .put _ _ => PutAnswer
  | .etagEntries => List (ℕ × String)
  | .server op => op.Ans
  | _ => Unit

abbrev EngineSig : Sig := ⟨EngineOp, EngineOp.Ans, EngineError⟩

abbrev EngineM (α : Type) : Type := Act EngineSig EngineError α

def onEngine (op : EngineOp) : EngineM op.Ans := ask (S := EngineSig) op

variable (plan : UploadPlan)

def throwIfAborted : EngineM Unit := do
  if ← onEngine .aborted then .throw .abort else pure ()

/-- The URL of a part, with a request for its batch where it is not there yet; the workers share that request. -/
def mintUrl (partNumber : ℕ) : EngineM PartUrl := do
  match ← onEngine (.urlOf partNumber) with
  | some url => pure url
  | none =>
    let batchIndex := (partNumber - 1) / plan.partBatchSize
    let first := batchIndex * plan.partBatchSize + 1
    let last := min plan.totalParts (first + plan.partBatchSize - 1)
    onEngine (.awaitBatch batchIndex (List.range' first (last + 1 - first)))
    match ← onEngine (.urlOf partNumber) with
    | some url => pure url
    | none => .throw (.flow s!"The server did not return an upload URL for part {partNumber}.")

/-- One PUT of a blob; `again` is what is done about a failure. -/
def putOnce (url : PartUrl) (blob : Bytes) (again : EngineError → EngineM (Option String)) : EngineM (Option String) := do
  throwIfAborted
  (onEngine (.put url blob) >>= fun answer => pure answer.result).tryCatch fun error => do
    if error = .abort then .throw .abort
    else if ← onEngine .aborted then .throw .abort
    else again error

/-- `putWithRetry`: one attempt more than there are delays. -/
def putWithRetry (url : PartUrl) (blob : Bytes) : List ℕ → EngineM (Option String)
  | [] => putOnce url blob .throw
  | ms :: delays => putOnce url blob fun _ => do
    onEngine (.sleep ms)
    putWithRetry url blob delays

/-- What a worker does with a part that it has claimed. -/
def uploadPart (partNumber : ℕ) : EngineM Unit := do
  let url ← mintUrl plan partNumber
  let etag ← putWithRetry url (plan.slice partNumber) plan.delays
  match truthy etag with
  | some etag => onEngine (.setEtag partNumber etag)
  | none => pure ()
  onEngine (.completePart partNumber (plan.slice partNumber).length)

def worker : ℕ → EngineM Unit
  | 0 => .throw .unfinished
  | rounds + 1 => do
    throwIfAborted
    let partNumber ← onEngine (.claimPart plan.totalParts)
    if plan.totalParts < partNumber then pure ()
    else do
      uploadPart plan partNumber
      worker rounds

/-- A worker, whose promise is then fulfilled. -/
def workerThread (rounds : ℕ) : EngineM Unit := do
  worker plan rounds
  onEngine .workerReturned

def EngineError.toPy : EngineError → PyError
  | .server e => e
  | _ => ⟨.other, ""⟩

/-- A statement of the server, carried out for the engine. -/
def onServer : (op : JobOp) → Act EngineSig PyError op.Ans
  | .uploads op => (onEngine (.server op)).mapError EngineError.toPy
  | _ => .throw ⟨.other, ""⟩

/-- `verify_upload_completion`, called by the engine. -/
def verifyUpload (uploadId : String) (parts : List (ℕ × String)) : EngineM UploadSession :=
  ((verifyUploadCompletion uploadId parts).subst (T := EngineSig) onServer).mapError .server

/-- What follows on the workers: the list of the parts is sent to be verified.  What the endpoint checks after that may
still fail the upload. -/
def verifyParts : EngineM Unit := do
  let entries ← onEngine .etagEntries
  let _ ← verifyUpload plan.uploadId (entries.insertionSort fun a b => a.1 ≤ b.1)
  onEngine .resolved

end Engine

/-! ## The server and its store -/

section Store

/-- A part that the store keeps, with the ETag that it gave it, where that was answered. -/
structure StoredPart where
  etag : Option String
  bytes : Bytes

structure StoreState where
  session : Option PlannedSession := none
  stored : ℕ → Option StoredPart := fun _ => none
  object : Option Bytes := none
  listed : Option (List (ℕ × String)) := none

abbrev UploadSig (ε : Type) : Sig := ⟨UploadOp, UploadOp.Ans, ε⟩

namespace StoreState

variable (s : StoreState) {ε : Type}

/-- The store assembles an object from parts that it keeps, listed by ascending numbers with their ETags. -/
def Accepts (parts : List (ℕ × String)) : Prop :=
  parts.Pairwise (fun a b => a.1 < b.1) ∧
    ∀ listed ∈ parts, ∃ part ∈ s.stored listed.1, ∀ etag ∈ part.etag, etag = listed.2

/-- The object is the listed parts one after the other. -/
def assemble (parts : List (ℕ × String)) : Bytes :=
  parts.flatMap fun listed => ((s.stored listed.1).map (·.bytes)).getD []

def serve : Event (UploadSig ε) → StoreState
  | ⟨.setSession session, _, true, _⟩ =>
    { s with session := s.session.map fun planned => { planned with toUploadSession := session } }
  | ⟨.completeMultipartUpload _ _ parts, _, true, _⟩ => { s with object := some (s.assemble parts), listed := some parts }
  | _ => s

def Permits : Event (UploadSig ε) → Prop
  | ⟨.getSession uploadId, .ok session, _, _⟩ =>
    session = (s.session.filter (·.uploadId = uploadId)).map (·.toUploadSession)
  | ⟨.completeMultipartUpload _ _ parts, _, took, _⟩ => took = true → s.Accepts parts
  | ⟨.objectExists _, .ok found, _, _⟩ => found = s.object.isSome
  | _ => True

end StoreState

/-- A statement of the server as an exchange with the store. -/
def storeEvent : Event JobSig → Option (Event (UploadSig PyError))
  | ⟨.uploads op, out, took, h⟩ => some ⟨op, out, took, h⟩
  | _ => none

/-- One call of the server that runs by itself. -/
def serverAlone : Monitor JobSig StoreState where
  pre _ op := ∃ upload, op = .uploads upload
  rely s ev := ∀ up ∈ storeEvent ev, s.Permits up
  step s ev := match storeEvent ev with
    | some up => s.serve up
    | none => s

end Store

/-! ## The page and its workers -/

section System

/-- What the workers share, with the server behind.  `claimedBy` tells which thread has claimed a part and `answered`
what the PUT of a part that succeeded gave as its ETag. -/
structure UploadState extends StoreState where
  nextPart : ℕ := 1
  urls : ℕ → Option PartUrl := fun _ => none
  batchRequests : ℕ → Option Bool := fun _ => none
  etags : List (ℕ × String) := []
  completed : ℕ → Bool := fun _ => false
  started : List ℕ := []
  returned : List ℕ := []
  verifying : Option ℕ := none
  resolved : Bool := false
  claimedBy : ℕ → Option ℕ := fun _ => none
  answered : ℕ → Option (Option String) := fun _ => none

inductive UploadThread
  | worker
  | verify
  deriving DecidableEq

namespace UploadState

variable (w : UploadState)

/-- The URLs of a batch as the server mints them. -/
def mint (partNumbers : List ℕ) : Option (List (ℕ × PartUrl)) :=
  match w.session with
  | some session => (generatePartUrls session partNumbers).toOption
  | none => none

def withUrls (minted : List (ℕ × PartUrl)) : ℕ → Option PartUrl :=
  minted.foldl (fun urls part => Function.update urls part.1 (some part.2)) w.urls

def apply (i : ℕ) : Event EngineSig → UploadState
  | ⟨.claimPart totalParts, .ok partNumber, _, _⟩ =>
    if totalParts < partNumber then w
    else { w with nextPart := partNumber + 1, claimedBy := Function.update w.claimedBy partNumber (some i) }
  | ⟨.awaitBatch batchIndex partNumbers, .ok _, _, _⟩ =>
    if w.batchRequests batchIndex = none then
      { w with
        batchRequests := Function.update w.batchRequests batchIndex (some true)
        urls := w.withUrls ((w.mint partNumbers).getD []) }
    else w
  | ⟨.awaitBatch batchIndex _, .error _, _, _⟩ =>
    if w.batchRequests batchIndex = none then
      { w with batchRequests := Function.update w.batchRequests batchIndex (some false) }
    else w
  | ⟨.put url blob, .ok answer, _, _⟩ =>
    { w with
      stored := Function.update w.stored url.partNumber (some ⟨some answer.etag, blob⟩)
      answered := Function.update w.answered url.partNumber (some answer.result) }
  | ⟨.put url blob, .error _, true, _⟩ =>
    { w with stored := Function.update w.stored url.partNumber (some ⟨none, blob⟩) }
  | ⟨.setEtag partNumber etag, .ok _, _, _⟩ => { w with etags := mapSet w.etags partNumber etag }
  | ⟨.completePart partNumber _, .ok _, _, _⟩ => { w with completed := Function.update w.completed partNumber true }
  | ⟨.workerReturned, .ok _, _, _⟩ => { w with returned := i :: w.returned }
  | ⟨.server op, out, took, h⟩ => { w with toStoreState := w.toStoreState.serve ⟨op, out, took, h⟩ }
  | ⟨.resolved, .ok _, _, _⟩ => { w with resolved := true }
  | _ => w

/-- The steps on what is shared do not fail. -/
def Allowed : Event EngineSig → Prop
  | ⟨.claimPart _, out, _, _⟩ => out = .ok w.nextPart
  | ⟨.urlOf partNumber, out, _, _⟩ => out = .ok (w.urls partNumber)
  | ⟨.awaitBatch batchIndex partNumbers, .ok _, _, _⟩ =>
    w.batchRequests batchIndex = some true ∨ w.batchRequests batchIndex = none ∧ (w.mint partNumbers).isSome = true
  | ⟨.awaitBatch batchIndex _, .error _, _, _⟩ => w.batchRequests batchIndex ≠ some true
  | ⟨.setEtag _ _, out, _, _⟩ => out = .ok ()
  | ⟨.completePart _ _, out, _, _⟩ => out = .ok ()
  | ⟨.workerReturned, out, _, _⟩ => out = .ok ()
  | ⟨.etagEntries, out, _, _⟩ => out = .ok w.etags
  | ⟨.server op, out, took, h⟩ => w.toStoreState.Permits (⟨op, out, took, h⟩ : Event (UploadSig EngineError))
  | _ => True

end UploadState

variable (plan : UploadPlan)

/-- The workers of one upload, each started once; when all have returned the list is sent. -/
def uploadEngine : Sys EngineSig where
  World := UploadState
  Tag := UploadThread
  spawn w i thread p w' := match thread with
    | .worker => i < plan.concurrency ∧ i ∉ w.started ∧ w' = { w with started := i :: w.started } ∧
        ∃ rounds, p = Lib.thread (workerThread plan rounds)
    | .verify => (∀ j, j < plan.concurrency → j ∈ w.returned) ∧ w.verifying = none ∧ w' = { w with verifying := some i } ∧
        p = Lib.thread (verifyParts plan)
  Allowed w _ _ ev := w.Allowed ev
  apply w i _ ev := w.apply i ev

/-- The session has just been created. -/
def opened (session : PlannedSession) : (uploadEngine plan).Config := ⟨{ session := some session }, fun _ => none⟩

end System

end Transform.Web
