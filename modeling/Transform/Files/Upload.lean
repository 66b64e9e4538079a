import Transform.Lib.Proc
import Transform.Billing.Tier
import Transform.Conversions.Ports
import Transform.Files.Naming

/-!
# Files.Upload — finalizing an upload

`completeUpload` measures the stored object, checks it against the tier, its claimed type and its folder, looks for a
row of its key, and only then takes the row lock of the user, reads the usage and inserts the row.
-/

namespace Transform.Files

open Lib Conversions Billing

/-! ## Rows and errors -/

section Rows

/-- A row of `user_files`. -/
structure UserFile where
  id : String
  userId : ℤ
  folderId : Option String
  fileKey : String
  fileName : String
  fileExtension : String
  fileSizeBytes : ℤ
  mimeType : String
  isFavorite : Bool := false
  createdAt : Instant
  expiresAt : Option Instant := none
  deriving DecidableEq, Repr

/-- A row of `user_folders`. -/
structure UserFolder where
  id : String
  userId : ℤ
  parentId : Option String
  name : String
  deriving DecidableEq, Repr

/-- What storage reports of an object. -/
structure ObjectStat where
  size : ℤ
  contentType : Option String
  deriving DecidableEq, Repr

/-- What a finalize call raises. -/
inductive UploadError
  | fileSizeLimitExceeded (message : String) (maxFileSizeBytes fileSize : ℤ)
  | fileTypeMismatch (message : String)
  | folderNotFound (message : String)
  | storageQuotaExceeded (message : String) (limitBytes usedBytes availableBytes fileSize : ℤ)
  | raised (e : PyError)
  deriving DecidableEq, Repr

/-- The rows of a user with an object key. -/
def UserFile.hasKey (userId : ℤ) (fileKey : String) (file : UserFile) : Prop :=
  file.userId = userId ∧ file.fileKey = fileKey

instance (userId : ℤ) (fileKey : String) (file : UserFile) : Decidable (file.hasKey userId fileKey) :=
  inferInstanceAs (Decidable (file.userId = userId ∧ file.fileKey = fileKey))

/-- `SUM(file_size_bytes)` over the files of a user. -/
def storageUsed (userId : ℤ) (files : List UserFile) : ℤ :=
  ((files.filter (·.userId = userId)).map (·.fileSizeBytes)).sum

theorem storageUsed_cons (userId : ℤ) (file : UserFile) (files : List UserFile) :
    storageUsed userId (file :: files) =
      (if file.userId = userId then file.fileSizeBytes else 0) + storageUsed userId files := by
  unfold storageUsed
  by_cases h : file.userId = userId <;> simp [h]

end Rows

/-! ## The storage quota -/

section Quota

/-- The outcome of one upload against one quota, in bytes. -/
structure StorageQuotaDecision where
  limitBytes : ℤ
  usedBytes : ℤ
  fileSize : ℤ
  deriving DecidableEq, Repr

/-- What is left, never less than zero. -/
def StorageQuotaDecision.availableBytes (d : StorageQuotaDecision) : ℤ := max 0 (d.limitBytes - d.usedBytes)

def StorageQuotaDecision.allowed (d : StorageQuotaDecision) : Bool := d.fileSize ≤ d.availableBytes

def evaluateStorageQuota (limitBytes usedBytes fileSize : ℤ) : Except PyError StorageQuotaDecision :=
  if limitBytes < 0 then .error ⟨.valueError, "limit_bytes cannot be negative."⟩
  else if usedBytes < 0 then .error ⟨.valueError, "used_bytes cannot be negative."⟩
  else if fileSize < 0 then .error ⟨.valueError, "file_size cannot be negative."⟩
  else .ok ⟨limitBytes, usedBytes, fileSize⟩

theorem evaluateStorageQuota_ok {limitBytes usedBytes fileSize : ℤ} {d : StorageQuotaDecision}
    (h : evaluateStorageQuota limitBytes usedBytes fileSize = .ok d) :
    0 ≤ fileSize ∧ d = ⟨limitBytes, usedBytes, fileSize⟩ := by
  unfold evaluateStorageQuota at h
  split_ifs at h with hlimit hused hsize
  cases h
  exact ⟨by omega, rfl⟩

theorem add_le_of_allowed {d : StorageQuotaDecision} (h : d.allowed = true) :
    d.usedBytes + d.fileSize ≤ max d.usedBytes d.limitBytes := by
  have hle : d.fileSize ≤ d.availableBytes := of_decide_eq_true h
  unfold StorageQuotaDecision.availableBytes at hle
  omega

end Quota

/-! ## The program -/

section Program

inductive FileOp
  | statObject (objectKey : String)
  | readObjectHead (objectKey : String)
  | removeObject (objectKey : String)
  | getTierForUser (userId : ℤ)
  | getFolder (folderId : String)
  | findByKey (userId : ℤ) (fileKey : String)
  | lockUserForUpdate (userId : ℤ)
  | getUserStorageUsed (userId : ℤ)
  | uuid4
  | utcNow
  | commit (row : UserFile)

abbrev FileOp.Ans : FileOp → Type
  | .statObject _ => Option ObjectStat
  | .readObjectHead _ => Bytes
  | .removeObject _ => Unit
  | .getTierForUser _ => SubscriptionTier
  | .getFolder _ => Option UserFolder
  | .findByKey _ _ => Option UserFile
  | .lockUserForUpdate _ => Unit
  | .getUserStorageUsed _ => ℤ
  | .uuid4 => String
  | .utcNow => Instant
  | .commit _ => Unit

abbrev FileSig : Sig := ⟨FileOp, FileOp.Ans, PyError⟩

abbrev FileM (α : Type) : Type := Act FileSig UploadError α

def call (op : FileOp) : FileM op.Ans := (ask (S := FileSig) op).mapError .raised

/-- The per-file caps. -/
structure UploadContext where
  sizeLimits : SubscriptionTier → ℤ

/-- The object of a rejected upload is removed first. -/
def reject (objectKey : String) (e : UploadError) : FileM Unit := do
  call (.removeObject objectKey)
  .throw e

variable (ctx : UploadContext) (userId : ℤ) (session : UploadSession)

def checkFileSize (tier : SubscriptionTier) (size : ℤ) : FileM Unit :=
  let maxSize := ctx.sizeLimits tier
  if maxSize < size then
    reject session.objectKey (.fileSizeLimitExceeded
      s!"File exceeds the maximum size for your tier ({maxSize / (1024 * 1024)} MB)." maxSize size)
  else pure ()

/-- The leading bytes must not contradict the name; an unreadable object passes. -/
def checkSignature : FileM Unit := do
  let ext := extensionFromFilename ((truthy session.fileName).getD session.objectKey)
  let head ← (call (.readObjectHead session.objectKey)).tryCatch fun _ => pure []
  if head ≠ [] ∧ validateUploadSignature head ext = false then
    reject session.objectKey (.fileTypeMismatch s!"Uploaded content does not match the claimed .{ext} type.")
  else pure ()

def getFolder (folderId : String) : FileM UserFolder := do
  match ← call (.getFolder folderId) with
  | none => .throw (.folderNotFound "Folder not found")
  | some folder => if folder.userId = userId then pure folder else .throw (.folderNotFound "Folder not found")

def checkFolder : FileM Unit :=
  match session.folderId with
  | none => pure ()
  | some folderId => (do let _ ← getFolder userId folderId).tryCatch fun
    | .folderNotFound message => reject session.objectKey (.folderNotFound message)
    | e => .throw e

def checkQuota (tier : SubscriptionTier) (size : ℤ) : FileM Unit := do
  call (.lockUserForUpdate userId)
  let used ← call (.getUserStorageUsed userId)
  let decision ← (Act.ofExcept (evaluateStorageQuota (TierPolicy.forTier tier).storageQuotaBytes used size)).mapError
    .raised
  if decision.allowed then pure ()
  else reject session.objectKey (.storageQuotaExceeded "Not enough storage left for this file." decision.limitBytes
    decision.usedBytes decision.availableBytes decision.fileSize)

/-- `save`: one row, committed. -/
def save (fileKey fileName fileExtension : String) (fileSizeBytes : ℤ) (mimeType : String) (folderId : Option String) :
    FileM String := do
  let id ← call .uuid4
  let now ← call .utcNow
  call (.commit
    { id, userId, folderId, fileKey, fileName, fileSizeBytes, mimeType,
      fileExtension := normalizeExtension (some fileExtension)
      createdAt := now })
  pure id

/-- The row of a measured upload. -/
def saveUpload (size : ℤ) (contentType : Option String) : FileM String :=
  let fileName := (truthy session.fileName).getD (pathName session.objectKey)
  let fileExtension := (truthy (some (normalizeExtension session.fileExtension))).getD (extensionFromFilename fileName)
  save userId session.objectKey fileName fileExtension size (resolveMimeType fileName fileExtension contentType)
    session.folderId

/-- The row of an upload that has none yet. -/
def insertUpload (tier : SubscriptionTier) (size : ℤ) (contentType : Option String) : FileM String := do
  checkQuota userId session tier size
  saveUpload userId session size contentType

/-- `complete_upload`. -/
def completeUpload : FileM String := do
  let stats ← call (.statObject session.objectKey)
  let size := stats.elim 0 (·.size)
  let tier ← call (.getTierForUser userId)
  checkFileSize ctx session tier size
  checkSignature session
  checkFolder userId session
  match ← call (.findByKey userId session.objectKey) with
  | some existing => pure existing.id
  | none => insertUpload userId session tier size (stats.bind (·.contentType))

end Program

end Transform.Files
