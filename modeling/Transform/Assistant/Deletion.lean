import Transform.Assistant.Message
import Transform.Files.Upload
import Transform.Lib.Interleave

/-!
# Assistant.Deletion — the second half of a proposed deletion

`resolve_deletion`: a click confirms or cancels a deletion that the assistant has proposed.  The call reads the messages,
deletes the file, and overwrites the `meta` of the message, in statements of their own.
-/

namespace Transform.Assistant

open Lib
open Files (UserFile)

inductive AssistantError
  | conversationNotFound
  | deletionNotFound
  | fileRecordNotFound
  | driver (message : String)
  deriving DecidableEq, Repr

inductive DeletionOp
  | getConversation (conversationId : String) (userId : ℤ)
  | listMessages (conversationId : String) (limit : ℕ)
  | getFile (fileId : String)
  | removeObject (objectKey : String)
  | deleteFile (fileId : String)
  | updateMessageMeta (messageId : String) (metadata : Option String)

abbrev DeletionOp.Ans : DeletionOp → Type
  | .getConversation _ _ => Option Conversation
  | .listMessages _ _ => List AiMessageRow
  | .getFile _ => Option UserFile
  | .removeObject _ => Bool
  | .deleteFile _ => Bool
  | .updateMessageMeta _ _ => Bool

abbrev DeletionSig : Sig := ⟨DeletionOp, DeletionOp.Ans, AssistantError⟩

abbrev DeletionM (α : Type) : Type := Act DeletionSig AssistantError α

def onTable (op : DeletionOp) : DeletionM op.Ans := ask (S := DeletionSig) op

/-- A click on a proposal. -/
structure DeletionCall where
  userId : ℤ
  conversationId : String
  fileId : String
  approve : Bool

structure DeletionOutcome where
  fileId : String
  fileName : String
  state : String

/-! ## The calls -/

section Calls

/-- `FileService.get_file`. -/
def getFile (userId : ℤ) (fileId : String) : DeletionM UserFile := do
  match ← onTable (.getFile fileId) with
  | some row => if row.userId = userId then pure row else .throw .fileRecordNotFound
  | none => .throw .fileRecordNotFound

/-- `FileService.delete_file`. -/
def deleteFile (userId : ℤ) (fileId : String) : DeletionM Unit := do
  let row ← getFile userId fileId
  let _ ← onTable (.removeObject row.fileKey)
  let _ ← onTable (.deleteFile row.id)

/-- `delete_owned_file`. -/
def deleteOwnedFile (userId : ℤ) (fileId : String) : DeletionM String := do
  let row ← getFile userId fileId
  deleteFile userId fileId
  return row.fileName

/-- `list_messages` with its default limit. -/
def listMessages (conversationId : String) : DeletionM (List Message) := do
  let rows ← onTable (.listMessages conversationId 100)
  return rows.map toMessage

/-- The file of a proposal, deleted or kept: its name, and the state to record. -/
def carryOut (call : DeletionCall) (artifact : Artifact) : DeletionM (String × String) :=
  if call.approve then
    (deleteOwnedFile call.userId call.fileId >>= fun fileName => pure (fileName, "deleted")).tryCatch fun e =>
      match e with
      | .fileRecordNotFound => pure (artifact.name, "failed")
      | e => .throw e
  else pure (artifact.name, "cancelled")

def resolveDeletion (call : DeletionCall) : DeletionM DeletionOutcome := do
  match ← onTable (.getConversation call.conversationId call.userId) with
  | none => .throw .conversationNotFound
  | some conversation =>
    match pendingDeletion (← listMessages conversation.id) call.fileId with
    | none => .throw .deletionNotFound
    | some (message, artifact) =>
      let (fileName, state) ← carryOut call artifact
      let _ ← onTable (.updateMessageMeta message.id
        (dumpsMeta (some (withDeletionState message.metadata call.fileId state))))
      return ⟨call.fileId, fileName, state⟩

end Calls

/-! ## The tables -/

section Tables

/-- A proposal: its message and its file. -/
abbrev Proposal := String × String

/-- What a call has done: the message that it found, whether its `delete_owned_file` has deleted the row, and the proposal
whose file it has removed and not recorded. -/
structure CallView where
  found : Option Message := none
  deletedRow : Bool := false
  holding : Option Proposal := none

/-- The tables.  `resolved` lists the proposals in the order in which calls recorded a state for them, `deleted` those
whose file a call removed. -/
structure DeletionWorld where
  conversations : List Conversation := []
  messages : List AiMessageRow := []
  files : List UserFile := []
  calls : ℕ → CallView := fun _ => {}
  resolved : List Proposal := []
  deleted : List Proposal := []

/-- A call, a message stored by a turn of the assistant, or a file deleted elsewhere. -/
inductive DeletionTag
  | resolve (call : DeletionCall)
  | record (row : AiMessageRow)
  | discard (fileId : String)

namespace DeletionWorld

variable (w : DeletionWorld)

def hasFile (fileId : String) : Prop := ∃ file ∈ w.files, file.id = fileId

instance (fileId : String) : Decidable (w.hasFile fileId) := inferInstanceAs (Decidable (∃ file ∈ w.files, file.id = fileId))

def setMeta (messageId : String) (metadata : Option String) : List AiMessageRow :=
  w.messages.map fun row => if row.id = messageId then { row with metadata } else row

def apply (i : ℕ) (call : DeletionCall) : Event DeletionSig → DeletionWorld
  | ⟨.listMessages _ _, .ok rows, _, _⟩ =>
    let found := (pendingDeletion (rows.map toMessage) call.fileId).map (·.1)
    { w with calls := Function.update w.calls i { w.calls i with found } }
  | ⟨.deleteFile fileId, out, true, _⟩ =>
    let removed := if w.hasFile fileId then (w.calls i).found.map fun message => (message.id, fileId) else none
    { w with
      files := w.files.filter (·.id ≠ fileId)
      calls := Function.update w.calls i { w.calls i with deletedRow := out.toOption.isSome, holding := removed }
      deleted := removed.toList ++ w.deleted }
  | ⟨.updateMessageMeta messageId metadata, _, true, _⟩ =>
    { w with
      messages := w.setMeta messageId metadata
      resolved := (messageId, call.fileId) :: w.resolved }
  | _ => w

/-- A failing statement raises an error of the driver. -/
def Allowed : Event DeletionSig → Prop
  | ⟨_, .error e, _, _⟩ => ∃ message, e = .driver message
  | ⟨.getConversation conversationId userId, .ok conversation, _, _⟩ =>
    conversation = w.conversations.find? fun row => row.id = conversationId ∧ row.userId = userId
  | ⟨.listMessages conversationId limit, .ok rows, _, _⟩ => Listed w.messages conversationId limit rows
  | ⟨.getFile fileId, .ok row, _, _⟩ => row = w.files.find? (·.id = fileId)
  | ⟨.deleteFile fileId, .ok found, _, _⟩ => found = true ↔ w.hasFile fileId
  | ⟨.updateMessageMeta messageId _, .ok found, _, _⟩ => found = true ↔ ∃ row ∈ w.messages, row.id = messageId
  | _ => True

/-- The text is one that `json.dumps` has written of a `meta`. -/
def Stored (text : Option String) : Prop :=
  text = none ∨ ∃ metadata : Dict, (Json.obj metadata).Distinct ∧ metadata ≠ [] ∧ text = dumpsMeta (some metadata)

def Proposes (row : AiMessageRow) : Prop :=
  Stored row.metadata ∧ ∀ proposal ∈ deletions (toMessage row).metadata, Pending proposal.2

end DeletionWorld

/-- Clicks, new messages and deletions elsewhere. -/
def deletionSystem : Sys DeletionSig where
  World := DeletionWorld
  Tag := DeletionTag
  spawn w i tag p w' := match tag with
    | .resolve call => p = thread (resolveDeletion call) ∧ w' = { w with calls := Function.update w.calls i {} }
    | .record row => p = .ret () ∧ row.id ∉ w.messages.map (·.id) ∧ DeletionWorld.Proposes row ∧
        w' = { w with messages := w.messages ++ [row] }
    | .discard fileId => p = .ret () ∧ w' = { w with files := w.files.filter (·.id ≠ fileId) }
  Allowed w _ _ ev := w.Allowed ev
  apply w i tag ev := match tag with
    | .resolve call => w.apply i call ev
    | _ => w

end Tables

end Transform.Assistant
