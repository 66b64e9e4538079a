import Transform.Assistant.History
import Transform.Billing.Tier
import Transform.Lib.Proc

/-!
# Assistant.Turn — a turn of the assistant

`stream_chat`: the request of the user is checked and paid for, its message is stored, the history is replayed to the model,
and the tools that the model asks for are run and their results sent back to it, until it answers or its rounds run out.
Whatever the turn asks of the tables, of the model and of the tools may fail, and so may an event that it yields, where the
client has gone.
-/

namespace Transform.Assistant

open Lib Conversions
open Billing (SubscriptionTier)

/-! ## Entitlements of a tier -/

section Policy

/-- `AI_REQUESTS_PER_HOUR`. -/
def hourlyQuota : SubscriptionTier → ℕ
  | .guest => 0
  | .free => 20
  | .premium => 60
  | .pro => 60
  | .proPlus => 120
  | .enterprise => 600

def canUseAssistant (tier : SubscriptionTier) : Bool := 0 < hourlyQuota tier

def maxAttachmentsForTier : SubscriptionTier → ℕ
  | .guest => 0
  | .free => 1
  | .premium => 3
  | .pro => 3
  | .proPlus => 5
  | .enterprise => 5

def maxToolIterationsForTier : SubscriptionTier → ℕ
  | .guest => 0
  | .free => 4
  | .premium => 6
  | .pro => 6
  | .proPlus => 8
  | .enterprise => 8

end Policy

/-! ## Operations -/

section Operations

structure LlmToolSpec where
  name : String
  description : String
  parameters : Dict
  deriving DecidableEq

structure WorkspaceTurnContext where
  workspaceId : Option String := none
  source : String := "none"
  deriving DecidableEq

inductive ToolStatus
  | running
  | done
  deriving DecidableEq, Repr

def ToolStatus.value : ToolStatus → String
  | .running => "running"
  | .done => "done"

/-- What `stream_chat` yields. -/
inductive AssistantEvent
  | textDelta (text : String)
  | tool (name label : String) (status : ToolStatus) (summary : String) (artifacts : List Artifact)
  | done (conversationId messageId content : String) (artifacts : List Artifact) (userMessageId : String)
  deriving DecidableEq

inductive TurnError
  | disabled
  | attachmentLimitExceeded (message : String)
  | quotaExceeded
  | attachmentNotFound
  | conversationNotFound
  | llmUnavailable
  | closed
  | driver (message : String)
  deriving DecidableEq

/-- What a model streams: chunks, and the error that cut them off, if one did. -/
structure Completion where
  chunks : List LlmStreamChunk
  failure : Option TurnError := none

structure ToolRequest where
  call : LlmToolCall
  userId : ℤ
  tier : SubscriptionTier
  artifacts : List Artifact
  conversationId : String
  origin : JobOrigin
  workspaceContext : WorkspaceTurnContext

inductive TurnOp
  | consume (userId : ℤ) (limit : ℕ)
  | resolveAttachments (userId : ℤ) (fileIds : List String)
  | getConversation (conversationId : String) (userId : ℤ)
  | createConversation (userId : ℤ) (title : String)
  | listMessages (conversationId : String) (limit : ℕ)
  | resolveWorkspaceContext (userId : ℤ) (workspaceId : Option String) (source : String)
  | uuid4
  | addMessage (message : Message)
  | stream (tier : SubscriptionTier) (messages : List LlmMessage) (tools : List LlmToolSpec)
  | execute (request : ToolRequest)
  | yield (event : AssistantEvent)

abbrev TurnOp.Ans : TurnOp → Type
  | .consume _ _ => Unit
  | .resolveAttachments _ _ => List AttachmentRef
  | .getConversation _ _ => Option Conversation
  | .createConversation _ _ => Conversation
  | .listMessages _ _ => List Message
  | .resolveWorkspaceContext _ _ _ => WorkspaceTurnContext × Option Dict
  | .uuid4 => String
  | .addMessage _ => Message
  | .stream _ _ _ => Completion
  | .execute _ => Dict × List Artifact
  | .yield _ => Unit

abbrev TurnSig : Sig := ⟨TurnOp, TurnOp.Ans, TurnError⟩

abbrev TurnM (α : Type) : Type := Act TurnSig TurnError α

def askTurn (op : TurnOp) : TurnM op.Ans := ask (S := TurnSig) op

end Operations

/-! ## The turn -/

section Turn

structure TurnTexts where
  specs : List LlmToolSpec
  labelFor : (name : String) → String
  describe : (name : String) → (result : Dict) → String
  systemPrompt : String
  buildAttachmentContext : (attachments : List AttachmentRef) → (context : Option String) →
    (earlier : List AttachmentRef) → String
  buildWorkspaceContext : WorkspaceTurnContext → (summary : Option Dict) → String

/-- The settings of the service. -/
structure AssistantService where
  texts : TurnTexts
  maxToolIterations : ℕ := 6
  maxHistoryMessages : ℕ := 20

/-- The arguments of `stream_chat`. -/
structure TurnRequest where
  userId : ℤ
  tier : SubscriptionTier
  message : String
  conversationId : Option String := none
  fileIds : List String := []
  context : Option String := none
  origin : JobOrigin := .web
  workspaceId : Option String := none

/-- What is stored of a message, without its id and its place. -/
structure Entry where
  role : MessageRole
  content : String
  toolName : Option String := none
  metadata : Dict
  deriving DecidableEq

def Entry.message (entry : Entry) (messageId conversationId : String) : Message where
  id := messageId
  conversationId := conversationId
  role := entry.role
  content := entry.content
  toolName := entry.toolName
  metadata := some entry.metadata

def maxTitleChars : ℕ := 80

/-- `_auto_title`. -/
def autoTitle (firstMessage : String) : String :=
  let collapsed := [' '].intercalate ((firstMessage.toList.splitOnP isStripped).filter (· ≠ []))
  if collapsed = [] then "New chat" else String.ofList (collapsed.take maxTitleChars)

def exhaustedMessage : String :=
  "I reached this turn's limit on tool calls before I could sum up, so I " ++
    "stopped here rather than guess. The steps above did run — ask me to " ++
    "continue and I will pick it up from there."

/-- `_append_message`. -/
def appendMessage (conversationId : String) (entry : Entry) : TurnM Message := do
  let messageId ← askTurn .uuid4
  askTurn (.addMessage (entry.message messageId conversationId))

/-- The chunks of a completion: deltas go out as they come, and what the response says stands. -/
def readChunks (text : String) (calls : List LlmToolCall) : List LlmStreamChunk → TurnM (String × List LlmToolCall)
  | [] => pure (text, calls)
  | .text delta :: chunks =>
    if delta ≠ "" then do
      let _ ← askTurn (.yield (.textDelta delta))
      readChunks (text ++ delta) calls chunks
    else readChunks text calls chunks
  | .done response :: chunks =>
    readChunks (if response.content ≠ "" then response.content else text) response.toolCalls chunks

def complete (tier : SubscriptionTier) (messages : List LlmMessage) (tools : List LlmToolSpec) :
    TurnM (String × List LlmToolCall) := do
  let completion ← askTurn (.stream tier messages tools)
  let answer ← readChunks "" [] completion.chunks
  match completion.failure with
  | none => pure answer
  | some e => .throw e

def userEntry (message : String) (attachments : List AttachmentRef) (context : WorkspaceTurnContext) : Entry where
  role := .user
  content := message
  metadata := [
    ("attachments", .arr (attachments.map fun item =>
      .obj [("id", .str item.fileId), ("name", .str item.fileName), ("extension", .str item.extension)])),
    ("workspace_id", (context.workspaceId.map Json.str).getD .null)]

/-- `_record_tool_request`. -/
def requestEntry (content : String) (calls : List LlmToolCall) : Entry where
  role := .assistant
  content := content
  metadata := [("tool_calls", .arr (calls.map toolCallToMeta))]

def answerEntry (content : String) (collected : List Artifact) : Entry where
  role := .assistant
  content := content
  metadata := [("artifacts", .arr (collected.map Artifact.toDict))]

/-- What runs a turn: its texts, its request, and what was resolved of it. -/
structure TurnScope where
  texts : TurnTexts
  request : TurnRequest
  conversationId : String
  userMessageId : String
  workspaceContext : WorkspaceTurnContext

namespace TurnScope

variable (scope : TurnScope)

def resultEntry (call : LlmToolCall) (result : Dict) (produced : List Artifact) : Entry where
  role := .tool
  content := (Json.obj result).dumps
  toolName := some call.name
  metadata := [
    ("tool_call_id", .str call.id),
    ("label", .str (scope.texts.labelFor call.name)),
    ("summary", .str (scope.texts.describe call.name result)),
    ("artifacts", .arr (produced.map Artifact.toDict))]

def resultMessage (call : LlmToolCall) (result : Dict) : LlmMessage where
  role := .tool
  content := (Json.obj result).dumps
  toolCallId := some call.id
  name := some call.name

def toolRequest (call : LlmToolCall) (artifacts : List Artifact) : ToolRequest where
  call := call
  userId := scope.request.userId
  tier := scope.request.tier
  artifacts := artifacts
  conversationId := scope.conversationId
  origin := scope.request.origin
  workspaceContext := scope.workspaceContext

/-- What the loop keeps: the messages to the model, and the artifacts of the turn. -/
structure State where
  llmMessages : List LlmMessage
  artifacts : List Artifact := []
  collected : List Artifact := []

def runCalls (s : State) : List LlmToolCall → TurnM State
  | [] => pure s
  | call :: calls => do
    let label := scope.texts.labelFor call.name
    let _ ← askTurn (.yield (.tool call.name label .running "" []))
    let (result, produced) ← askTurn (.execute (scope.toolRequest call s.artifacts))
    let summary := scope.texts.describe call.name result
    let _ ← askTurn (.yield (.tool call.name label .done summary produced))
    let _ ← appendMessage scope.conversationId (scope.resultEntry call result produced)
    runCalls {
      llmMessages := s.llmMessages ++ [resultMessage call result]
      artifacts := s.artifacts ++ produced
      collected := s.collected ++ produced } calls

/-- The answer is stored, and then announced. -/
def answer (content : String) (collected : List Artifact) : TurnM Unit := do
  let persisted ← appendMessage scope.conversationId (answerEntry content collected)
  askTurn (.yield (.done scope.conversationId persisted.id content collected scope.userMessageId))

/-- The rounds that are left; after the last of them the model answers without tools. -/
def runRounds (s : State) : ℕ → TurnM Unit
  | 0 => do
    let (text, _) ← complete scope.request.tier s.llmMessages []
    scope.answer (if strip text ≠ "" then strip text else exhaustedMessage) s.collected
  | n + 1 => do
    let (text, calls) ← complete scope.request.tier s.llmMessages scope.texts.specs
    if calls = [] then scope.answer text s.collected
    else do
      let _ ← appendMessage scope.conversationId (requestEntry text calls)
      let s' ← scope.runCalls
        { s with llmMessages := s.llmMessages ++ [{ role := .assistant, content := text, toolCalls := calls }] } calls
      runRounds s' n

end TurnScope

/-- The rounds that a tier may use. -/
def AssistantService.maxIterations (service : AssistantService) (tier : SubscriptionTier) : ℕ :=
  max 1 (min service.maxToolIterations (maxToolIterationsForTier tier))

/-- `_load_or_create_conversation`. -/
def loadOrCreateConversation (request : TurnRequest) : TurnM Conversation :=
  match truthy request.conversationId with
  | some conversationId => do
    match ← askTurn (.getConversation conversationId request.userId) with
    | some conversation => pure conversation
    | none => .throw .conversationNotFound
  | none => askTurn (.createConversation request.userId (autoTitle request.message))

def attachmentLimitMessage (limit : ℕ) : String :=
  let noun := if limit = 1 then "attachment" else "attachments"
  s!"Your plan allows up to {limit} {noun} per message."

namespace AssistantService

variable (service : AssistantService)

/-- The workspace of the request, or the one that the conversation was about. -/
def recallWorkspace (request : TurnRequest) (conversationId : String) : TurnM (Option String) :=
  match truthy request.workspaceId with
  | some workspaceId => pure (some workspaceId)
  | none => do
    let messages ← askTurn (.listMessages conversationId service.maxHistoryMessages)
    pure (recallWorkspaceId messages)

/-- The one message that the server writes. -/
def systemMessage (attachments earlier : List AttachmentRef) (context : Option String)
    (workspace : WorkspaceTurnContext × Option Dict) : LlmMessage where
  role := .system
  content := "\n\n".intercalate ([service.texts.systemPrompt,
    service.texts.buildAttachmentContext attachments context earlier,
    service.texts.buildWorkspaceContext workspace.1 workspace.2].filter (· ≠ ""))

def openingMessages (request : TurnRequest) (attachments : List AttachmentRef)
    (workspace : WorkspaceTurnContext × Option Dict) (history : List Message) : List LlmMessage :=
  service.systemMessage attachments (recalledAttachments history (attachments.map (·.fileId))) request.context workspace ::
    buildBoundedHistory history service.maxHistoryMessages

def streamChat (request : TurnRequest) : TurnM Unit := do
  if canUseAssistant request.tier = false then .throw .disabled
  else if maxAttachmentsForTier request.tier < request.fileIds.length then
    .throw (.attachmentLimitExceeded (attachmentLimitMessage (maxAttachmentsForTier request.tier)))
  else do
    -- Paid for before any work: a turn that fails has cost the provider too.
    let _ ← askTurn (.consume request.userId (hourlyQuota request.tier))
    let attachments ← askTurn (.resolveAttachments request.userId request.fileIds)
    let conversation ← loadOrCreateConversation request
    let recalled ← service.recallWorkspace request conversation.id
    let workspace ← askTurn (.resolveWorkspaceContext request.userId recalled
      (if truthy request.workspaceId = none then "conversation" else "selected"))
    let userMessage ← appendMessage conversation.id (userEntry request.message attachments workspace.1)
    let history ← askTurn (.listMessages conversation.id service.maxHistoryMessages)
    let scope : TurnScope := ⟨service.texts, request, conversation.id, userMessage.id, workspace.1⟩
    scope.runRounds ⟨service.openingMessages request attachments workspace history, [], []⟩
      (service.maxIterations request.tier)

end AssistantService

end Turn

end Transform.Assistant
