import Transform.Access.Records
import Transform.Assistant.Message
import Transform.Billing.Tier
import Transform.Conversions.Ports
import Transform.Files.Folders
import Transform.Files.Naming
import Transform.Lib.Base64
import Transform.Lib.Proc

/-!
# Mcp.Ports — what the tools of an agent ask of the services

The calls of the file, conversion, transfer, copier, object store and credit ports, the exceptions they raise by class,
and the identity and authority behind a tool call.
-/

namespace Transform.Mcp

open Lib Conversions Files Access Assistant Billing

/-! ## Exceptions -/

section Errors

/-- The classes of exception that the tools tell apart. -/
inductive PortErrorClass
  | folderNotFound
  | fileRecordNotFound
  | folderNameConflict
  | fileSystem
  | osError
  | valueError
  | other
  deriving DecidableEq, Repr

structure PortError where
  cls : PortErrorClass
  message : String
  deriving DecidableEq, Repr

/-- `isinstance(exc, FileSystemError)`. -/
def PortErrorClass.isFileSystem : PortErrorClass → Bool
  | .folderNotFound | .fileRecordNotFound | .folderNameConflict | .fileSystem => true
  | .osError | .valueError | .other => false

end Errors

/-! ## Calls -/

section Calls

structure CreditBalance where
  balance : ℤ
  resetsAt : Option Instant
  deriving DecidableEq, Repr

inductive PortOp
  | getFile (userId : ℤ) (fileId : String)
  | listFiles (userId : ℤ) (folderId : Option String) (offset limit : ℤ) (extensions : Option (List String))
  | listAllFiles (userId : ℤ) (offset limit : ℤ) (extensions : Option (List String))
  | searchFiles (userId : ℤ) (query : String) (offset limit : ℤ) (extensions folderIds : Option (List String))
  | deleteFile (userId : ℤ) (fileId : String)
  | completeUpload (userId : ℤ) (session : UploadSession)
  | listRootFolders (userId : ℤ) (offset limit : ℤ)
  | getFolderContents (userId : ℤ) (folderId : String) (offset limit : ℤ)
  | createFolder (userId : ℤ) (name : String) (parentId : Option String)
  | resolveFolderScope (userId : ℤ) (folderId : String)
  | authorizeUploadSize (userId : ℤ) (declaredSize : ℤ)
  | convertLibraryFile (fileName sourceFormat targetFormat objectKey : String) (userId : ℤ) (tier : SubscriptionTier)
      (origin : JobOrigin)
  | getConversionJob (jobId : String)
  | listHistory (userId : ℤ) (offset limit : ℤ) (origin : Option JobOrigin)
  | createUpload (fileExtension userId fileName : String) (folderId : Option String)
  | verifyUploadCompletion (uploadId : String)
  | deleteUploadSession (uploadId : String)
  | copyObject (sourceKey targetKey : String)
  | putObject (objectKey : String) (data : Bytes)
  | readObject (objectKey : String) (maxBytes : ℤ) (userId : String)
  | getBalance (userId : ℤ)
  | resolveTier

abbrev PortOp.Ans : PortOp → Type
  | .getFile _ _ => UserFile
  | .listFiles _ _ _ _ _ => List UserFile × ℤ
  | .listAllFiles _ _ _ _ => List UserFile × ℤ
  | .searchFiles _ _ _ _ _ _ => List UserFile × ℤ
  | .deleteFile _ _ => Unit
  | .completeUpload _ _ => String
  | .listRootFolders _ _ _ => List FolderRow × ℤ
  | .getFolderContents _ _ _ _ => FolderRow × List FolderRow × ℤ × List UserFile × ℤ
  | .createFolder _ _ _ => FolderRow
  | .resolveFolderScope _ _ => Option (List String)
  | .authorizeUploadSize _ _ => ℤ
  | .convertLibraryFile _ _ _ _ _ _ _ => ConversionJob
  | .getConversionJob _ => Option ConversionJob
  | .listHistory _ _ _ _ => List ConversionJob × ℤ
  | .createUpload _ _ _ _ => UploadSession
  | .verifyUploadCompletion _ => UploadSession
  | .deleteUploadSession _ => Unit
  | .copyObject _ _ => ℤ
  | .putObject _ _ => Unit
  | .readObject _ _ _ => Bytes
  | .getBalance _ => CreditBalance
  | .resolveTier => SubscriptionTier

abbrev PortSig : Sig := ⟨PortOp, PortOp.Ans, PortError⟩

abbrev ToolM (α : Type) : Type := Act PortSig PortError α

def call (op : PortOp) : ToolM op.Ans := ask (S := PortSig) op

end Calls

/-! ## The caller -/

section Caller

/-- The verified identity and authority behind one tool call. -/
structure MCPToolContext where
  userId : ℤ
  scopes : List AgentScope
  tier : SubscriptionTier := .free
  /-- Whether the plan is read when it is needed. -/
  tierResolver : Bool := false
  folderAccess : FolderAccess := .all
  folderId : Option String := none
  historyScope : HistoryScope := .agent

def MCPToolContext.allows (ctx : MCPToolContext) (scope : AgentScope) : Bool := ctx.scopes.contains scope

def MCPToolContext.resolveTier (ctx : MCPToolContext) : ToolM SubscriptionTier :=
  if ctx.tierResolver then call .resolveTier else pure ctx.tier

/-- What a toolbox is made with, and the texts that Python's own functions make. -/
structure MCPToolBox where
  maxListLimit : ℤ := 50
  conversionMap : List (String × List String)
  /-- `datetime.isoformat`. -/
  isoformat : Instant → String
  /-- `repr` of a text. -/
  repr : String → String
  /-- The integer that a float or a text spells. -/
  looseInt : Json → Option ℤ

end Caller

end Transform.Mcp
