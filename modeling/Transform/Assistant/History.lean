import Mathlib.Data.List.TakeWhile
import Transform.Assistant.ModelStream
import Transform.Lib.Newest

/-!
# Assistant.History — the transcript as it is replayed to the model

`build_bounded_history` takes the stored messages of a conversation in groups: a request for tools together with the tool
messages after it, any other message by itself.  A group that does not answer all of its calls is dropped, a tool message
without a request too, and of the groups the newest are replayed that fit a window.

* `replay_buildBoundedHistory`: whatever is stored, every request that is replayed is followed by tool messages that answer
  all of its calls, and by nothing else before the next message that is not one.
-/

namespace Transform.Assistant

open Lib Conversions

/-! ## Stored tool calls -/

section Stored

/-- `_tool_call_to_meta`. -/
def toolCallToMeta (call : LlmToolCall) : Json :=
  .obj ([("id", .str call.id), ("name", .str call.name), ("arguments", .obj call.arguments)] ++
    ((truthy call.thoughtSignature).map fun signature => ("thought_signature", Json.str signature)).toList)

/-- A tool call as it is stored; an entry without the texts of an id and a name is none. -/
def toolCallOf : Json → Option LlmToolCall
  | .obj entry => do
    let callId ← (mapGet entry "id").bind Json.str?
    let name ← (mapGet entry "name").bind Json.str?
    some {
      id := callId
      name := name
      arguments := dictOf (mapGet entry "arguments")
      thoughtSignature := truthy ((mapGet entry "thought_signature").bind Json.str?) }
  | _ => none

/-- `_tool_calls_of`. -/
def toolCallsOf (message : Message) : List LlmToolCall :=
  (((mapGet (message.metadata.getD []) "tool_calls").bind Json.arr?).getD []).filterMap toolCallOf

/-- `_tool_call_id_of`. -/
def toolCallIdOf (message : Message) : Option String :=
  (mapGet (message.metadata.getD []) "tool_call_id").bind Json.str?

/-- `_to_llm_message`. -/
def toLlmMessage (message : Message) : LlmMessage :=
  match message.role with
  | .tool => {
      role := .tool
      content := message.content
      toolCallId := toolCallIdOf message
      name := message.toolName }
  | .assistant => { role := .assistant, content := message.content, toolCalls := toolCallsOf message }
  | .user => { role := .user, content := message.content }

theorem toolCallOf_toMeta {call : LlmToolCall} (h : call.thoughtSignature ≠ some "") :
    toolCallOf (toolCallToMeta call) = some call := by
  obtain ⟨callId, name, arguments, signature⟩ := call
  rcases signature with _ | signature
  · rfl
  · have htruthy : truthy (some signature) = some signature := by simpa [truthy] using h
    simp [toolCallToMeta, toolCallOf, mapGet, dictOf, Json.str?, Json.obj?, htruthy]

end Stored

/-! ## Groups -/

section Groups

/-- The calls that a message asks for; only the assistant asks. -/
def requestedCalls (message : Message) : List LlmToolCall :=
  if message.role = .assistant then toolCallsOf message else []

def isTool (message : Message) : Bool := message.role = .tool

def answersAll (calls : List LlmToolCall) (results : List Message) : Bool :=
  calls.all fun call => call.id ∈ results.filterMap toolCallIdOf

/-- The groups of a transcript: a request with its tool messages, or a message by itself. -/
def groupsOf : List Message → List (List Message)
  | [] => []
  | current :: rest =>
    if requestedCalls current ≠ [] then
      if answersAll (requestedCalls current) (rest.takeWhile isTool) then
        (current :: rest.takeWhile isTool) :: groupsOf (rest.dropWhile isTool)
      else groupsOf (rest.dropWhile isTool)
    else if current.role = .tool then groupsOf rest
    else [current] :: groupsOf rest
termination_by messages => messages.length
decreasing_by
  all_goals simp only [List.length_cons]
  · exact Nat.lt_succ_of_le (List.length_dropWhile_le isTool rest)
  · exact Nat.lt_succ_of_le (List.length_dropWhile_le isTool rest)
  · exact Nat.lt_succ_self _
  · exact Nat.lt_succ_self _

/-- `build_bounded_history`. -/
def buildBoundedHistory (messages : List Message) (maxMessages : ℕ) : List LlmMessage :=
  (newestWithin List.length maxMessages (groupsOf messages)).flatten.map toLlmMessage

/-- A message that is not part of an exchange. -/
def Spoken (message : Message) : Prop := message.role ≠ .tool ∧ requestedCalls message = []

/-- A message by itself, or a request with tool messages that answer its calls. -/
inductive Group : List Message → Prop
  | spoken {message : Message} (h : Spoken message) : Group [message]
  | exchange {request : Message} {results : List Message} (hcalls : requestedCalls request ≠ [])
      (htool : ∀ result ∈ results, isTool result = true)
      (hanswers : answersAll (requestedCalls request) results = true) : Group (request :: results)

variable {messages rest results : List Message} {request message : Message}

theorem isTool_of_mem_takeWhile (h : message ∈ rest.takeWhile isTool) : isTool message = true :=
  List.mem_takeWhile_imp h

theorem group_groupsOf : ∀ group ∈ groupsOf messages, Group group := by
  fun_induction groupsOf messages with
  | case1 => simp
  | case2 current rest hcalls hall ih =>
    intro group hgroup
    rcases List.mem_cons.1 hgroup with rfl | hgroup
    · exact .exchange hcalls (fun _ => isTool_of_mem_takeWhile) hall
    · exact ih group hgroup
  | case3 current rest hcalls hall ih => exact ih
  | case4 current rest hcalls htool ih => exact ih
  | case5 current rest hcalls htool ih =>
    intro group hgroup
    rcases List.mem_cons.1 hgroup with rfl | hgroup
    · exact .spoken ⟨htool, not_not.1 hcalls⟩
    · exact ih group hgroup

theorem flatten_groupsOf_sublist : (groupsOf messages).flatten.Sublist messages := by
  fun_induction groupsOf messages with
  | case1 => exact .slnil
  | case2 current rest hcalls hall ih =>
    rw [List.flatten_cons, List.cons_append]
    refine List.Sublist.cons_cons current ?_
    conv_rhs => rw [← List.takeWhile_append_dropWhile (p := isTool) (l := rest)]
    exact ih.append_left _
  | case3 current rest hcalls hall ih => exact (ih.trans (List.dropWhile_sublist isTool)).cons current
  | case4 current rest hcalls htool ih => exact ih.cons current
  | case5 current rest hcalls htool ih => exact ih.cons_cons current

def Begins (messages : List Message) : Prop := ∀ message ∈ messages.head?, isTool message = false

theorem takeWhile_append_begins (rest : List Message) {later : List Message} (h : Begins later) :
    (rest ++ later).takeWhile isTool = rest.takeWhile isTool ∧
      (rest ++ later).dropWhile isTool = rest.dropWhile isTool ++ later := by
  induction rest with
  | nil =>
    rcases later with _ | ⟨message, later⟩
    · exact ⟨rfl, rfl⟩
    · have hhead : isTool message = false := h message rfl
      simp [hhead]
  | cons message rest ih =>
    rcases htool : isTool message
    · simp [htool]
    · simpa [htool] using ih

theorem groupsOf_append {later : List Message} (h : Begins later) :
    groupsOf (messages ++ later) = groupsOf messages ++ groupsOf later := by
  fun_induction groupsOf messages with
  | case1 => rfl
  | case2 current rest hcalls hall ih =>
    obtain ⟨htake, hdrop⟩ := takeWhile_append_begins rest h
    rw [List.cons_append, groupsOf, if_pos hcalls, htake, hdrop, if_pos hall, ih]
    rfl
  | case3 current rest hcalls hall ih =>
    obtain ⟨htake, hdrop⟩ := takeWhile_append_begins rest h
    rw [List.cons_append, groupsOf, if_pos hcalls, htake, hdrop, if_neg hall, ih]
  | case4 current rest hcalls htool ih => rw [List.cons_append, groupsOf, if_neg hcalls, if_pos htool, ih]
  | case5 current rest hcalls htool ih =>
    rw [List.cons_append, groupsOf, if_neg hcalls, if_neg htool, ih]
    rfl

theorem groupsOf_spoken (h : Spoken message) : groupsOf (message :: rest) = [message] :: groupsOf rest := by
  rw [groupsOf, if_neg (not_not.2 h.2), if_neg h.1]

end Groups

/-! ## Replays -/

section Replays

def Covers (calls : List LlmToolCall) (results : List LlmMessage) : Prop :=
  ∀ call ∈ calls, ∃ result ∈ results, result.toolCallId = some call.id

/-- A history that a provider takes: a request for tools is followed by its tool messages, and there are no others. -/
inductive Replay : List LlmMessage → Prop
  | nil : Replay []
  | spoken {message : LlmMessage} {rest : List LlmMessage} (hrole : message.role = .user ∨ message.role = .assistant)
      (hcalls : message.toolCalls = []) (hrest : Replay rest) : Replay (message :: rest)
  | exchange {request : LlmMessage} {results rest : List LlmMessage} (hrole : request.role = .assistant)
      (hcalls : request.toolCalls ≠ []) (htool : ∀ result ∈ results, result.role = .tool)
      (hcovers : Covers request.toolCalls results) (hrest : Replay rest) : Replay (request :: (results ++ rest))

theorem Replay.append {history later : List LlmMessage} (h : Replay history) (hlater : Replay later) :
    Replay (history ++ later) := by
  induction h with
  | nil => exact hlater
  | spoken hrole hcalls _ ih => exact .spoken hrole hcalls ih
  | exchange hrole hcalls htool hcovers _ ih =>
    rw [List.cons_append, List.append_assoc]
    exact .exchange hrole hcalls htool hcovers ih

theorem toLlmMessage_toolCalls (message : Message) : (toLlmMessage message).toolCalls = requestedCalls message := by
  unfold toLlmMessage requestedCalls
  cases message.role <;> rfl

theorem toLlmMessage_of_isTool {message : Message} (h : isTool message = true) :
    (toLlmMessage message).role = .tool ∧ (toLlmMessage message).toolCallId = toolCallIdOf message ∧
      (toLlmMessage message).name = message.toolName := by
  have hrole : message.role = .tool := by simpa [isTool] using h
  simp [toLlmMessage, hrole]

theorem toLlmMessage_role_of_requestedCalls {message : Message} (h : requestedCalls message ≠ []) :
    (toLlmMessage message).role = .assistant := by
  unfold requestedCalls at h
  have hrole : message.role = .assistant := by
    by_contra hrole
    exact h (if_neg hrole)
  simp [toLlmMessage, hrole]

theorem covers_of_answersAll {calls : List LlmToolCall} {results : List Message}
    (htool : ∀ result ∈ results, isTool result = true) (h : answersAll calls results = true) :
    Covers calls (results.map toLlmMessage) := by
  intro call hcall
  have hid := List.all_eq_true.1 h call hcall
  obtain ⟨result, hresult, hcallId⟩ := List.mem_filterMap.1 (of_decide_eq_true hid)
  exact ⟨toLlmMessage result, List.mem_map_of_mem hresult, (toLlmMessage_of_isTool (htool result hresult)).2.1.trans hcallId⟩

theorem replay_flatten {groups : List (List Message)} (h : ∀ group ∈ groups, Group group) :
    Replay (groups.flatten.map toLlmMessage) := by
  induction groups with
  | nil => exact .nil
  | cons group groups ih =>
    have hrest := ih fun other hother => h other (List.mem_cons_of_mem group hother)
    rw [List.flatten_cons, List.map_append]
    cases h group (List.mem_cons_self ..) with
    | @spoken message hspoken =>
      refine .spoken ?_ ((toLlmMessage_toolCalls message).trans hspoken.2) hrest
      have htool := hspoken.1
      rcases hrole : message.role
      · exact .inl (by simp [toLlmMessage, hrole])
      · exact .inr (by simp [toLlmMessage, hrole])
      · exact absurd hrole htool
    | @exchange request results hcalls htool hanswers =>
      refine .exchange (toLlmMessage_role_of_requestedCalls hcalls) ?_ ?_ ?_ hrest
      · rwa [toLlmMessage_toolCalls]
      · intro result hresult
        obtain ⟨message, hmessage, rfl⟩ := List.mem_map.1 hresult
        exact (toLlmMessage_of_isTool (htool message hmessage)).1
      · rw [toLlmMessage_toolCalls]
        exact covers_of_answersAll htool hanswers

theorem replay_history (messages : List Message) (maxMessages : ℕ) : Replay (buildBoundedHistory messages maxMessages) :=
  replay_flatten fun group hgroup => group_groupsOf group (newestWithin_suffix.subset hgroup)

/-- **The replay of a transcript**, whatever is stored: a valid history, of the newest whole groups that fit the window,
in their order; a message that closes the transcript and is no part of an exchange is the last of it. -/
theorem replay_buildBoundedHistory (messages : List Message) (maxMessages : ℕ) :
    Replay (buildBoundedHistory messages maxMessages) ∧
      (∃ groups, buildBoundedHistory messages maxMessages = groups.flatten.map toLlmMessage ∧
        groups.flatten.Sublist messages ∧
        IsLongestSuffix (fun taken => taken.length ≤ 1 ∨ taken.flatten.length ≤ maxMessages) (groupsOf messages) groups) ∧
      ∀ front message, messages = front ++ [message] → Spoken message →
        (buildBoundedHistory messages maxMessages).getLast? = some (toLlmMessage message) := by
  have hlongest : IsLongestSuffix (FitsBudget List.length maxMessages) (groupsOf messages)
    (newestWithin List.length maxMessages (groupsOf messages)) := isLongestSuffix_newestWithin
  refine ⟨replay_history messages maxMessages, ⟨_, rfl, ?_, ?_⟩, ?_⟩
  · obtain ⟨older, holder⟩ := hlongest.suffix
    have hflatten := congrArg List.flatten holder
    rw [List.flatten_append] at hflatten
    exact (hflatten ▸ List.sublist_append_right ..).trans flatten_groupsOf_sublist
  · have hfits : FitsBudget List.length maxMessages =
        fun taken : List (List Message) => taken.length ≤ 1 ∨ taken.flatten.length ≤ maxMessages := by
      funext taken
      simp [FitsBudget, totalWeight, List.length_flatten]
    rwa [hfits] at hlongest
  · rintro front message rfl hspoken
    have hbegins : Begins [message] := by
      rintro _ ⟨⟩
      simpa [isTool] using hspoken.1
    have hnil : groupsOf [message] = [[message]] := by rw [groupsOf_spoken hspoken, groupsOf]
    have hlast : [message] ∈ (newestWithin List.length maxMessages (groupsOf front ++ [[message]])).getLast? :=
      getLast_mem_newestWithin
    obtain ⟨before, hbefore⟩ := List.getLast?_eq_some_iff.1 hlast
    rw [buildBoundedHistory, groupsOf_append hbegins, hnil, hbefore]
    simp

end Replays

/-! ## Transcripts that are replayed whole -/

section Whole

def Whole (messages : List Message) : Prop := (groupsOf messages).flatten = messages

variable {messages later results : List Message} {request message : Message}

theorem whole_append (hbegins : Begins later) (h : Whole messages) (hlater : Whole later) : Whole (messages ++ later) := by
  unfold Whole
  rw [groupsOf_append hbegins, List.flatten_append, h, hlater]

theorem whole_spoken (h : Spoken message) : Whole [message] := by
  rw [Whole, groupsOf_spoken h, groupsOf]
  rfl

theorem whole_exchange (hcalls : requestedCalls request ≠ []) (htool : ∀ result ∈ results, isTool result = true)
    (hanswers : answersAll (requestedCalls request) results = true) : Whole (request :: results) := by
  have htake : results.takeWhile isTool = results := List.takeWhile_eq_self_iff.2 htool
  have hdrop : results.dropWhile isTool = [] := List.dropWhile_eq_nil_iff.2 htool
  rw [Whole, groupsOf, if_pos hcalls, htake, if_pos hanswers, hdrop, groupsOf, List.flatten_singleton]

/-- Where the window has room, all of it is replayed. -/
theorem buildBoundedHistory_whole {maxMessages : ℕ} (h : Whole messages) (hroom : messages.length ≤ maxMessages) :
    buildBoundedHistory messages maxMessages = messages.map toLlmMessage := by
  have hweight : totalWeight List.length (groupsOf messages) ≤ maxMessages := by
    rwa [totalWeight, ← List.length_flatten, h]
  rw [buildBoundedHistory, newestWithin_eq_self hweight, h]

end Whole

/-! ## What is recalled -/

section Recalled

/-- A file attached to a message. -/
structure AttachmentRef where
  fileId : String
  fileName : String
  extension : String
  sizeBytes : ℕ
  deriving DecidableEq, Repr

/-- `_MAX_RECALLED_ATTACHMENTS`. -/
def maxRecalledAttachments : ℕ := 8

/-- `_recall_workspace_id`: the workspace of the newest message that has one. -/
def recallWorkspaceId (messages : List Message) : Option String :=
  messages.reverse.findSome? fun message => truthy ((mapGet (message.metadata.getD []) "workspace_id").bind Json.str?)

/-- An attachment as it is stored, without its size; an entry without an id is none. -/
def storedAttachment : Json → Option AttachmentRef
  | .obj entry => (truthy ((mapGet entry "id").bind Json.str?)).map fun fileId => {
      fileId := fileId
      fileName := (truthy ((mapGet entry "name").bind Json.str?)).getD "Attachment"
      extension := textOf (mapGet entry "extension")
      sizeBytes := 0 }
  | _ => none

def attachmentsOf (message : Message) : List AttachmentRef :=
  if message.role = .user then
    (((mapGet (message.metadata.getD []) "attachments").bind Json.arr?).getD []).filterMap storedAttachment
  else []

def recallLoop (seen : List String) (recalled : List AttachmentRef) : List AttachmentRef → List AttachmentRef
  | [] => recalled
  | item :: rest =>
    if item.fileId ∈ seen then recallLoop seen recalled rest
    else if maxRecalledAttachments ≤ (recalled ++ [item]).length then recalled ++ [item]
    else recallLoop (item.fileId :: seen) (recalled ++ [item]) rest

/-- `_recalled_attachments`, the newest message first. -/
def recalledAttachments (messages : List Message) (exclude : List String) : List AttachmentRef :=
  recallLoop exclude [] (messages.reverse.flatMap attachmentsOf)

end Recalled

end Transform.Assistant
