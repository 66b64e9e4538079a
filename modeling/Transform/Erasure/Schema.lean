import Transform.Lib.Relational
import Transform.Conversions.Job
import Transform.Files.Upload

/-!
# Erasure.Schema — the tables, and what refers to what

A row of each table with its primary key, the columns that name a user and the columns that name another row, with or
without a foreign key; the other columns of a row go with it as they are.
-/

namespace Transform.Erasure

open Lib Conversions

/-! ## Tables and rows -/

section Tables

inductive Table
  | users
  | apiKeys
  | aiConversations
  | aiMessages
  | conversionJobs
  | monthlyCredits
  | creditTransactions
  | userFiles
  | userFolders
  | mcpOauthClients
  | mcpAgentGrants
  | mcpOauthCodes
  | mcpOauthTokens
  | userSubscriptions
  | apiRequestEvents
  | mcpToolInvocations
  | savedWorkflows
  | workspaces
  | workspaceRuntimes
  | executions
  | runtimeImageRevisions
  deriving DecidableEq, Repr

inductive KeyValue
  | number (n : ℤ)
  | text (s : String)
  deriving DecidableEq, Repr

structure RowKey where
  table : Table
  value : KeyValue
  deriving DecidableEq, Repr

inductive Column
  | userId
  | accountId
  | conversationId
  | folderId
  | parentId
  | apiKeyId
  | workspaceId
  deriving DecidableEq, Repr

inductive Row
  | user (id : ℤ) (defaultSaveFolderId : Option String)
  | apiKey (id : String) (userId : ℤ)
  | conversation (id : String) (userId : ℤ)
  | message (id conversationId : String)
  | job (row : ConversionJob)
  | monthlyCredit (id : ℤ) (ownerId : String)
  | creditTransaction (id : String) (userId : ℤ)
  | file (row : Files.UserFile)
  | folder (row : Files.UserFolder)
  | oauthClient (clientId : String)
  | agentGrant (id : String) (userId : ℤ) (folderId : Option String)
  | oauthCode (codeHash grantId subject : String)
  | oauthToken (tokenHash grantId subject : String)
  | subscription (actorKey : String) (userId : Option ℤ)
  | requestEvent (id : String) (accountId : ℤ) (apiKeyId : Option String)
  | toolInvocation (id : String) (accountId : ℤ) (grantId : String)
  | savedWorkflow (workflowId : String) (userId : ℤ)
  | workspace (workspaceId : String) (userId : ℤ)
  | workspaceRuntime (runtimeId workspaceId : String) (imageRevisionId : Option String)
  | execution (executionId workspaceId : String) (userId : ℤ) (runtimeId : Option String)
  | imageRevision (revisionId workspaceId : String)
  deriving Repr

/-- What a column that names a user holds: the id, or its text. -/
inductive Holder
  | id (userId : ℤ)
  | text (subject : String)
  deriving DecidableEq, Repr

/-- The column names the user. -/
def Holder.isUser (userId : ℤ) : Holder → Bool
  | .id n => n = userId
  | .text subject => subject = toString userId

end Tables

/-! ## Keys and references -/

namespace Row

def key : Row → RowKey
  | .user id _ => ⟨.users, .number id⟩
  | .apiKey id _ => ⟨.apiKeys, .text id⟩
  | .conversation id _ => ⟨.aiConversations, .text id⟩
  | .message id _ => ⟨.aiMessages, .text id⟩
  | .job row => ⟨.conversionJobs, .text row.jobId⟩
  | .monthlyCredit id _ => ⟨.monthlyCredits, .number id⟩
  | .creditTransaction id _ => ⟨.creditTransactions, .text id⟩
  | .file row => ⟨.userFiles, .text row.id⟩
  | .folder row => ⟨.userFolders, .text row.id⟩
  | .oauthClient clientId => ⟨.mcpOauthClients, .text clientId⟩
  | .agentGrant id _ _ => ⟨.mcpAgentGrants, .text id⟩
  | .oauthCode codeHash _ _ => ⟨.mcpOauthCodes, .text codeHash⟩
  | .oauthToken tokenHash _ _ => ⟨.mcpOauthTokens, .text tokenHash⟩
  | .subscription actorKey _ => ⟨.userSubscriptions, .text actorKey⟩
  | .requestEvent id _ _ => ⟨.apiRequestEvents, .text id⟩
  | .toolInvocation id _ _ => ⟨.mcpToolInvocations, .text id⟩
  | .savedWorkflow workflowId _ => ⟨.savedWorkflows, .text workflowId⟩
  | .workspace workspaceId _ => ⟨.workspaces, .text workspaceId⟩
  | .workspaceRuntime runtimeId _ _ => ⟨.workspaceRuntimes, .text runtimeId⟩
  | .execution executionId _ _ _ => ⟨.executions, .text executionId⟩
  | .imageRevision revisionId _ => ⟨.runtimeImageRevisions, .text revisionId⟩

/-- What the row holds in `user_id`, `account_id`, `owner_id` or `subject`; a user's own row, its id. -/
def holder : Row → Option Holder
  | .user id _ => some (.id id)
  | .apiKey _ userId | .conversation _ userId | .creditTransaction _ userId | .agentGrant _ userId _
  | .savedWorkflow _ userId | .workspace _ userId | .execution _ _ userId _ => some (.id userId)
  | .requestEvent _ accountId _ | .toolInvocation _ accountId _ => some (.id accountId)
  | .job row => row.userId.map .id
  | .subscription _ userId => userId.map .id
  | .file row => some (.id row.userId)
  | .folder row => some (.id row.userId)
  | .monthlyCredit _ ownerId => some (.text ownerId)
  | .oauthCode _ _ subject | .oauthToken _ _ subject => some (.text subject)
  | .message _ _ | .oauthClient _ | .workspaceRuntime _ _ _ | .imageRevision _ _ => none

def names (userId : ℤ) (r : Row) : Bool := r.holder.any (Holder.isUser userId)

end Row

section References

def toUser (column : Column) (userId : ℤ) : Link Column RowKey := ⟨column, ⟨.users, .number userId⟩, .cascade⟩

def toWorkspace (workspaceId : String) : Link Column RowKey :=
  ⟨.workspaceId, ⟨.workspaces, .text workspaceId⟩, .cascade⟩

namespace Row

/-- The foreign keys of the row that are not NULL. -/
def links : Row → List (Link Column RowKey)
  | .apiKey _ userId | .conversation _ userId | .creditTransaction _ userId | .agentGrant _ userId _
  | .savedWorkflow _ userId | .workspace _ userId => [toUser .userId userId]
  | .subscription _ userId => userId.toList.map (toUser .userId)
  | .message _ conversationId => [⟨.conversationId, ⟨.aiConversations, .text conversationId⟩, .cascade⟩]
  | .file row => toUser .userId row.userId ::
      row.folderId.toList.map fun folderId => ⟨.folderId, ⟨.userFolders, .text folderId⟩, .setNull⟩
  | .folder row => toUser .userId row.userId ::
      row.parentId.toList.map fun parentId => ⟨.parentId, ⟨.userFolders, .text parentId⟩, .cascade⟩
  | .requestEvent _ accountId apiKeyId => toUser .accountId accountId ::
      apiKeyId.toList.map fun keyId => ⟨.apiKeyId, ⟨.apiKeys, .text keyId⟩, .setNull⟩
  | .toolInvocation _ accountId _ => [toUser .accountId accountId]
  | .workspaceRuntime _ workspaceId _ | .imageRevision _ workspaceId => [toWorkspace workspaceId]
  | .execution _ workspaceId userId _ => [toWorkspace workspaceId, toUser .userId userId]
  | .user _ _ | .job _ | .monthlyCredit _ _ | .oauthClient _ | .oauthCode _ _ _ | .oauthToken _ _ _ => []

/-- The rows that the row names in columns without a foreign key. -/
def looseReferences : Row → List RowKey
  | .user _ folderId | .agentGrant _ _ folderId => folderId.toList.map fun id => ⟨.userFolders, .text id⟩
  | .job row => row.workflowId.toList.map fun id => ⟨.savedWorkflows, .text id⟩
  | .oauthCode _ grantId _ | .oauthToken _ grantId _ | .toolInvocation _ _ grantId => [⟨.mcpAgentGrants, .text grantId⟩]
  | .workspaceRuntime _ _ revisionId => revisionId.toList.map fun id => ⟨.runtimeImageRevisions, .text id⟩
  | .execution _ _ _ runtimeId => runtimeId.toList.map fun id => ⟨.workspaceRuntimes, .text id⟩
  | _ => []

/-- The row with columns set to NULL, where their foreign key has `SET NULL`. -/
def clear (cs : Column → Bool) : Row → Row
  | .file row => .file { row with folderId := if cs .folderId then none else row.folderId }
  | .requestEvent id accountId apiKeyId => .requestEvent id accountId (if cs .apiKeyId then none else apiKeyId)
  | r => r

end Row

end References

/-! ## The schema -/

section Schema

/-- A row with its other columns. -/
structure Entry (D : Type) where
  row : Row
  rest : D

variable {D : Type}

theorem key_clear (r : Row) (cs : Column → Bool) : (r.clear cs).key = r.key := by cases r <;> rfl

theorem holder_clear (r : Row) (cs : Column → Bool) : (r.clear cs).holder = r.holder := by cases r <;> rfl

theorem looseReferences_clear (r : Row) (cs : Column → Bool) : (r.clear cs).looseReferences = r.looseReferences := by
  cases r <;> rfl

theorem links_clear (r : Row) (cs : Column → Bool) :
    (r.clear cs).links = r.links.filter fun l => !(decide (l.onDelete = .setNull) && cs l.column) := by
  cases r with
  | file file =>
    rcases hf : file.folderId with _ | folderId <;> rcases hc : cs .folderId with _ | _ <;>
      simp [Row.clear, Row.links, toUser, hf, hc]
  | folder folder =>
    rcases hf : folder.parentId with _ | parentId <;> simp [Row.clear, Row.links, toUser, hf]
  | requestEvent id accountId apiKeyId =>
    rcases apiKeyId with _ | keyId <;> rcases hc : cs .apiKeyId with _ | _ <;>
      simp [Row.clear, Row.links, toUser, hc]
  | subscription actorKey userId =>
    rcases userId with _ | userId <;> simp [Row.clear, Row.links, toUser]
  | _ => simp [Row.clear, Row.links, toUser, toWorkspace]

theorem clear_clear (r : Row) (cs cs' : Column → Bool) : (r.clear cs).clear cs' = r.clear fun c => cs c || cs' c := by
  cases r with
  | file file =>
    rcases hc : cs .folderId with _ | _ <;> simp [Row.clear, hc]
  | requestEvent id accountId apiKeyId =>
    rcases hc : cs .apiKeyId with _ | _ <;> simp [Row.clear, hc]
  | _ => rfl

theorem clear_none (r : Row) : r.clear (fun _ => false) = r := by cases r <;> rfl

/-- The tables with their declared foreign keys. -/
def schema (D : Type) : Schema (Entry D) RowKey Column where
  key e := e.row.key
  links e := e.row.links
  clear e cs := { e with row := e.row.clear cs }
  key_clear e cs := key_clear e.row cs
  links_clear e cs := links_clear e.row cs
  clear_clear e cs cs' := by rw [clear_clear]
  clear_none e := by rw [clear_none]

abbrev Database (D : Type) : Type := Store (schema D)

end Schema

end Transform.Erasure
