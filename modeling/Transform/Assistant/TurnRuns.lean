import Transform.Assistant.Turn

/-!
# Assistant.TurnRuns — what a turn sends to the model, and what it leaves

A run of `stream_chat` is seen by what it charges, what it sends to the model, what it stores and the answers it announces
(`TurnSight`).  `Rounds` is what holds between two rounds of its loop: of the prompts, whatever is stored and answered, and
of the messages that the turn has stored, as far as what is answered can be stored.

* `streamChat_requests`: wherever a turn stops, the model has been sent one system message and a valid history, every time
  the last one and more, and tools in no more rounds than the tier may use.
* `streamChat_transcript`: the messages of a full turn, read again, are replayed as what the model was sent, and the answer.
-/

namespace Transform.Assistant

open Lib Conversions

/-! ## What is seen -/

section Sight

/-- What is charged, what the model is sent, what is stored, and the answers that are announced. -/
structure TurnSight where
  charges : List ℕ := []
  requests : List (List LlmMessage × List LlmToolSpec) := []
  stored : List Message := []
  announced : List String := []

namespace TurnSight

variable (g : TurnSight)

def send (messages : List LlmMessage) (tools : List LlmToolSpec) : TurnSight :=
  { g with requests := g.requests ++ [(messages, tools)] }

def store (messages : List Message) : TurnSight := { g with stored := g.stored ++ messages }

/-- What is seen of an exchange: a question to the model at once, an effect where it was taken. -/
def see : Event TurnSig → TurnSight
  | ⟨.consume _ limit, _, true, _⟩ => { g with charges := g.charges ++ [limit] }
  | ⟨.stream _ messages tools, _, _, _⟩ => g.send messages tools
  | ⟨.addMessage message, _, true, _⟩ => g.store [message]
  | ⟨.yield (.done _ _ content _ _), _, true, _⟩ => { g with announced := g.announced ++ [content] }
  | _ => g

def prompts : List (List LlmMessage) := g.requests.map (·.1)

theorem prompts_send (messages : List LlmMessage) (tools : List LlmToolSpec) :
    (g.send messages tools).prompts = g.prompts ++ [messages] := by
  simp [prompts, send]

theorem store_nil : g.store [] = g := by simp [store]

theorem store_store (front back : List Message) : (g.store front).store back = g.store (front ++ back) := by simp [store]

end TurnSight

/-- What is seen of a run. -/
def sightOf (tr : List (Event TurnSig)) : TurnSight := tr.foldl TurnSight.see {}

/-- A call that can be stored: its arguments have their keys once, and a signature is not empty. -/
structure LlmToolCall.Storable (call : LlmToolCall) : Prop where
  arguments : (Json.obj call.arguments).Distinct
  signature : call.thoughtSignature ≠ some ""

def Artifact.Storable (artifact : Artifact) : Prop := (Json.obj artifact.metadata).Distinct

/-- An answer whose calls and artifacts can be stored. -/
def StorableAnswer : Event TurnSig → Prop
  | ⟨.stream _ _ _, .ok completion, _, _⟩ =>
    ∀ response, .done response ∈ completion.chunks → ∀ call ∈ response.toolCalls, call.Storable
  | ⟨.execute _, .ok answer, _, _⟩ => ∀ artifact ∈ answer.2, artifact.Storable
  | _ => True

/-- The monitor that keeps what is seen.  Where it is strict, the answers can be stored. -/
def turnMonitor (strict : Prop) : Monitor TurnSig TurnSight :=
  ⟨fun _ _ => True, fun _ ev => strict → StorableAnswer ev, TurnSight.see⟩

theorem relied_turnMonitor {strict : Prop} {tr : List (Event TurnSig)} (h : ∀ ev ∈ tr, strict → StorableAnswer ev)
    (g : TurnSight) : (turnMonitor strict).Relied g tr := by
  induction tr generalizing g with
  | nil => trivial
  | cons ev tr ih => exact ⟨h ev (List.mem_cons_self ..), ih (fun other hother => h other (List.mem_cons_of_mem ev hother)) _⟩

end Sight

/-! ## Rules -/

section Rules

variable {strict : Prop} {g : TurnSight} {E : TurnError → TurnSight → Prop}

theorem wpe_askTurn {op : TurnOp} {Q : op.Ans → TurnSight → Prop}
    (hQ : ∀ a, (strict → StorableAnswer (.done op (.ok a))) → Q a (g.see (.done op (.ok a))))
    (hE : ∀ e took h, E e (g.see ⟨op, .error e, took, h⟩)) : wpe (turnMonitor strict) (askTurn op) Q E g :=
  wpe_ask.2 ⟨trivial, hQ, fun e took h _ => hE e took h⟩

/-- Nothing is seen of it. -/
def TurnOp.isSilent : TurnOp → Bool
  | .consume _ _ | .stream _ _ _ | .addMessage _ | .yield (.done _ _ _ _ _) => false
  | _ => true

theorem see_silent {ev : Event TurnSig} (h : ev.op.isSilent = true) : g.see ev = g := by
  obtain ⟨op, out, took, hok⟩ := ev
  cases op with
  | yield event => cases event <;> first | rfl | cases h
  | _ => first | rfl | cases h

theorem wpe_silent {op : TurnOp} {Q : op.Ans → TurnSight → Prop} (hop : op.isSilent = true)
    (hQ : ∀ a, (strict → StorableAnswer (.done op (.ok a))) → Q a g) (hE : ∀ e, E e g) :
    wpe (turnMonitor strict) (askTurn op) Q E g := by
  refine wpe_askTurn (fun a ha => ?_) fun e took h => ?_
  · rw [see_silent hop]
    exact hQ a ha
  · rw [see_silent hop]
    exact hE e

theorem wpe_appendMessage {conversationId : String} {entry : Entry} {Q : Message → TurnSight → Prop}
    (hQ : ∀ messageId persisted, Q persisted (g.store [entry.message messageId conversationId]))
    (hE : ∀ e messages, E e (g.store messages)) :
    wpe (turnMonitor strict) (appendMessage conversationId entry) Q E g := by
  have hnone : ∀ e, E e g := fun e => g.store_nil ▸ hE e []
  unfold appendMessage
  rw [wpe_bind]
  refine wpe_silent rfl (fun messageId _ => ?_) hnone
  refine wpe_askTurn (fun persisted _ => hQ messageId persisted) fun e took h => ?_
  cases took
  · exact hnone e
  · exact hE e _

theorem wpe_readChunks {chunks : List LlmStreamChunk} {text : String} {calls : List LlmToolCall}
    {Q : String × List LlmToolCall → TurnSight → Prop} (hcalls : strict → ∀ call ∈ calls, call.Storable)
    (hchunks : strict → ∀ response, .done response ∈ chunks → ∀ call ∈ response.toolCalls, call.Storable)
    (hQ : ∀ text calls, (strict → ∀ call ∈ calls, call.Storable) → Q (text, calls) g) (hE : ∀ e, E e g) :
    wpe (turnMonitor strict) (readChunks text calls chunks) Q E g := by
  induction chunks generalizing text calls with
  | nil => exact hQ text calls hcalls
  | cons chunk chunks ih =>
    have hlater := fun hs response hmem => hchunks hs response (List.mem_cons_of_mem chunk hmem)
    cases chunk with
    | text delta =>
      rw [readChunks]
      split_ifs
      · rw [wpe_bind]
        exact wpe_silent rfl (fun _ _ => ih hcalls hlater) hE
      · exact ih hcalls hlater
    | done response => exact ih (fun hs => hchunks hs response (List.mem_cons_self ..)) hlater

theorem wpe_complete {tier : Billing.SubscriptionTier} {messages : List LlmMessage} {tools : List LlmToolSpec}
    {Q : String × List LlmToolCall → TurnSight → Prop}
    (hQ : ∀ text calls, (strict → ∀ call ∈ calls, call.Storable) → Q (text, calls) (g.send messages tools))
    (hE : ∀ e, E e (g.send messages tools)) : wpe (turnMonitor strict) (complete tier messages tools) Q E g := by
  unfold complete
  rw [wpe_bind]
  refine wpe_askTurn (fun completion hrely => ?_) fun e _ _ => hE e
  rw [wpe_bind]
  refine wpe_readChunks (by simp) hrely (fun text calls hcalls => ?_) hE
  rcases completion.failure with _ | e
  · exact hQ text calls hcalls
  · exact hE e

end Rules

/-! ## What is read again -/

section Reading

def Message.entry (message : Message) : Entry where
  role := message.role
  content := message.content
  toolName := message.toolName
  metadata := message.metadata.getD []

/-- A call that was carried out. -/
structure CallLog where
  call : LlmToolCall
  result : Dict
  produced : List Artifact

def TurnScope.roundEntries (scope : TurnScope) (text : String) (logs : List CallLog) : List Entry :=
  requestEntry text (logs.map (·.call)) :: logs.map fun log => scope.resultEntry log.call log.result log.produced

/-- What a round adds to the prompt. -/
def roundMessages (text : String) (logs : List CallLog) : List LlmMessage :=
  { role := .assistant, content := text, toolCalls := logs.map (·.call) } ::
    logs.map fun log => TurnScope.resultMessage log.call log.result

/-- The entries are loaded again as they were, and messages with them are replayed as what was sent. -/
structure Legible (entries : List Entry) (sent : List LlmMessage) : Prop where
  distinct : ∀ entry ∈ entries, (Json.obj entry.metadata).Distinct
  whole : ∀ messages : List Message, messages.map Message.entry = entries →
    Whole messages ∧ messages.map toLlmMessage = sent

variable {entries later : List Entry} {sent more : List LlmMessage} {text : String} {logs : List CallLog}
  {scope : TurnScope} {messages : List Message} {artifacts : List Artifact}

theorem Legible.append (h : Legible entries sent) (hlater : Legible later more)
    (hbegins : ∀ entry ∈ later.head?, entry.role ≠ .tool) : Legible (entries ++ later) (sent ++ more) := by
  refine ⟨List.forall_mem_append.2 ⟨h.distinct, hlater.distinct⟩, fun messages hmessages => ?_⟩
  obtain ⟨front, back, rfl, hfront, hback⟩ := List.map_eq_append_iff.1 hmessages
  obtain ⟨hwhole, hsent⟩ := h.whole front hfront
  obtain ⟨hwhole', hmore⟩ := hlater.whole back hback
  have hback' : Begins back := by
    intro message hmessage
    refine decide_eq_false (hbegins message.entry ?_)
    rw [← hback, List.head?_map]
    exact Option.mem_map_of_mem _ hmessage
  exact ⟨whole_append hback' hwhole hwhole', by rw [List.map_append, hsent, hmore]⟩

theorem distinct_toDicts (h : ∀ artifact ∈ artifacts, artifact.Storable) :
    (Json.arr (artifacts.map Artifact.toDict)).Distinct := by
  refine distinctItems_iff.2 fun item hitem => ?_
  obtain ⟨artifact, hartifact, rfl⟩ := List.mem_map.1 hitem
  exact distinct_obj.2 ⟨by simp, by simpa [Json.Distinct, Artifact.Storable] using h artifact hartifact⟩

theorem distinct_toolCallToMeta {call : LlmToolCall} (h : call.Storable) : (toolCallToMeta call).Distinct := by
  refine distinct_obj.2 ?_
  rcases truthy call.thoughtSignature with _ | signature
  · exact ⟨by simp, by simpa [Json.Distinct] using h.arguments⟩
  · exact ⟨by simp, by simpa [Json.Distinct] using h.arguments⟩

theorem legible_user (text : String) (attachments : List AttachmentRef) (context : WorkspaceTurnContext) :
    Legible [userEntry text attachments context] [{ role := .user, content := text }] := by
  refine ⟨List.forall_mem_singleton.2 (distinct_obj.2 ⟨by simp [userEntry], ?_⟩), fun messages hmessages => ?_⟩
  · refine List.forall_mem_cons.2 ⟨distinctItems_iff.2 fun item hitem => ?_, List.forall_mem_singleton.2 ?_⟩
    · obtain ⟨attachment, -, rfl⟩ := List.mem_map.1 hitem
      simp [Json.Distinct, DistinctEntries, DistinctEntry]
    · rcases context.workspaceId with _ | workspaceId <;> simp [Json.Distinct]
  · obtain ⟨message, rfl, hentry⟩ := List.map_eq_singleton_iff.1 hmessages
    have hrole : message.role = .user := congrArg Entry.role hentry
    have hcontent : message.content = text := congrArg Entry.content hentry
    exact ⟨whole_spoken ⟨by simp [hrole], by simp [requestedCalls, hrole]⟩, by simp [toLlmMessage, hrole, hcontent]⟩

theorem legible_answer (content : String) (h : ∀ artifact ∈ artifacts, artifact.Storable) :
    Legible [answerEntry content artifacts] [{ role := .assistant, content := content }] := by
  refine ⟨List.forall_mem_singleton.2 (distinct_obj.2 ⟨by simp [answerEntry], ?_⟩), fun messages hmessages => ?_⟩
  · exact List.forall_mem_singleton.2 (distinct_toDicts h)
  · obtain ⟨message, rfl, hentry⟩ := List.map_eq_singleton_iff.1 hmessages
    have hrole : message.role = .assistant := congrArg Entry.role hentry
    have hcontent : message.content = content := congrArg Entry.content hentry
    have hmetadata : message.metadata.getD [] = _ := congrArg Entry.metadata hentry
    have hcalls : toolCallsOf message = [] := by simp [toolCallsOf, hmetadata, answerEntry, mapGet]
    exact ⟨whole_spoken ⟨by simp [hrole], by simp [requestedCalls, hcalls]⟩, by simp [toLlmMessage, hrole, hcontent, hcalls]⟩

theorem read_request {message : Message} {calls : List LlmToolCall} (hcalls : ∀ call ∈ calls, call.Storable)
    (hentry : message.entry = requestEntry text calls) : requestedCalls message = calls ∧
      toLlmMessage message = { role := .assistant, content := text, toolCalls := calls } := by
  have hrole : message.role = .assistant := congrArg Entry.role hentry
  have hcontent : message.content = text := congrArg Entry.content hentry
  have hmetadata : message.metadata.getD [] = _ := congrArg Entry.metadata hentry
  have hread : (calls.map toolCallToMeta).filterMap toolCallOf = calls := by
    rw [List.filterMap_map]
    refine (List.filterMap_congr fun call hcall => ?_).trans List.filterMap_some
    exact toolCallOf_toMeta (hcalls call hcall).signature
  have hrequested : toolCallsOf message = calls := by simpa [toolCallsOf, hmetadata, requestEntry, mapGet, Json.arr?] using hread
  simp [requestedCalls, toLlmMessage, hrole, hcontent, hrequested]

theorem read_results (h : messages.map Message.entry =
      logs.map fun log => scope.resultEntry log.call log.result log.produced) :
    (∀ message ∈ messages, isTool message = true) ∧
      messages.filterMap toolCallIdOf = logs.map (fun log => log.call.id) ∧
      messages.map toLlmMessage = logs.map fun log => TurnScope.resultMessage log.call log.result := by
  induction logs generalizing messages with
  | nil =>
    obtain rfl := List.map_eq_nil_iff.1 h
    exact ⟨by simp, rfl, rfl⟩
  | cons log logs ih =>
    obtain ⟨message, rest, rfl, hentry, hrest⟩ := List.map_eq_cons_iff.1 h
    obtain ⟨htool, hids, hsent⟩ := ih hrest
    have hrole : message.role = .tool := congrArg Entry.role hentry
    have hcontent : message.content = (Json.obj log.result).dumps := congrArg Entry.content hentry
    have hname : message.toolName = some log.call.name := congrArg Entry.toolName hentry
    have hmetadata : message.metadata.getD [] = _ := congrArg Entry.metadata hentry
    have hid : toolCallIdOf message = some log.call.id := by
      simp [toolCallIdOf, hmetadata, TurnScope.resultEntry, mapGet, Json.str?]
    refine ⟨List.forall_mem_cons.2 ⟨decide_eq_true hrole, htool⟩, ?_, ?_⟩
    · rw [List.filterMap_cons_some hid, hids, List.map_cons]
    · rw [List.map_cons, hsent, List.map_cons]
      simp [toLlmMessage, TurnScope.resultMessage, hrole, hcontent, hname, hid]

theorem legible_round (hcalls : ∀ log ∈ logs, log.call.Storable) (hsome : logs ≠ [])
    (hproduced : ∀ log ∈ logs, ∀ artifact ∈ log.produced, artifact.Storable) :
    Legible (scope.roundEntries text logs) (roundMessages text logs) := by
  have hcalls' : ∀ call ∈ logs.map (·.call), call.Storable := List.forall_mem_map.2 hcalls
  refine ⟨List.forall_mem_cons.2 ⟨?_, List.forall_mem_map.2 fun log hlog => ?_⟩, fun messages hmessages => ?_⟩
  · refine distinct_obj.2 ⟨by simp [requestEntry], List.forall_mem_singleton.2 (distinctItems_iff.2 fun item hitem => ?_)⟩
    obtain ⟨call, hcall, rfl⟩ := List.mem_map.1 hitem
    exact distinct_toolCallToMeta (hcalls' call hcall)
  · refine distinct_obj.2 ⟨by simp [TurnScope.resultEntry], ?_⟩
    simpa [TurnScope.resultEntry, Json.Distinct] using distinct_toDicts (hproduced log hlog)
  · obtain ⟨request, results, rfl, hrequest, hresults⟩ := List.map_eq_cons_iff.1 hmessages
    obtain ⟨hrequested, hmessage⟩ := read_request hcalls' hrequest
    obtain ⟨htool, hids, hsent⟩ := read_results hresults
    refine ⟨whole_exchange ?_ htool ?_, by rw [List.map_cons, hmessage, hsent]; rfl⟩
    · rwa [hrequested, Ne, List.map_eq_nil_iff]
    · rw [hrequested, answersAll, hids]
      refine List.all_eq_true.2 (List.forall_mem_map.2 fun log hlog => decide_eq_true ?_)
      exact List.mem_map_of_mem hlog

theorem replay_round (hsome : logs ≠ []) : Replay (roundMessages text logs) := by
  rw [roundMessages, ← List.append_nil (logs.map fun log => TurnScope.resultMessage log.call log.result)]
  refine .exchange rfl (by simpa using hsome) (List.forall_mem_map.2 fun _ _ => rfl) ?_ .nil
  exact List.forall_mem_map.2 fun log hlog => ⟨_, List.mem_map_of_mem hlog, rfl⟩

/-- The rows of messages, at some places. -/
def RowsOf (messages : List Message) (rows : List AiMessageRow) : Prop :=
  List.Forall₂ (fun message row => ∃ position, row = AiMessageRow.ofMessage message position) messages rows

theorem entry_toMessage {message : Message} (h : (Json.obj message.entry.metadata).Distinct) (position : ℕ) :
    (toMessage (AiMessageRow.ofMessage message position)).entry = message.entry := by
  have hdistinct : (Json.obj (message.metadata.getD [])).Distinct := h
  have hmetadata : (loadsMeta (dumpsMeta message.metadata)).getD [] = message.metadata.getD [] := by
    rcases hmeta : message.metadata with _ | _ | ⟨item, items⟩
    · rfl
    · rfl
    · rw [hmeta, Option.getD_some] at hdistinct
      rw [loads_dumpsMeta hdistinct (List.cons_ne_nil item items)]
  simp [Message.entry, toMessage, AiMessageRow.ofMessage, hmetadata]

theorem entries_of_rows {rows : List AiMessageRow} (hrows : RowsOf messages rows)
    (h : ∀ entry ∈ messages.map Message.entry, (Json.obj entry.metadata).Distinct) :
    (rows.map toMessage).map Message.entry = messages.map Message.entry := by
  induction hrows with
  | nil => rfl
  | cons hrow _ ih =>
    obtain ⟨position, rfl⟩ := hrow
    rw [List.map_cons, List.forall_mem_cons] at h
    rw [List.map_cons, List.map_cons, List.map_cons, ih h.2, entry_toMessage h.1]

end Reading

/-! ## The loop -/

section Loop

def IsPrompt (messages : List LlmMessage) : Prop :=
  ∃ system history, messages = system :: history ∧ system.role = .system ∧ Replay history

/-- The tools of the rounds, and none after them. -/
def Offers (specs : List LlmToolSpec) (maxIterations : ℕ) (offered : List (List LlmToolSpec)) : Prop :=
  offered <+: List.replicate maxIterations specs ++ [[]]

/-- What a turn that is paid for has sent, wherever it stops. -/
structure Sends (texts : TurnTexts) (request : TurnRequest) (maxIterations : ℕ) (g : TurnSight) : Prop where
  charged : g.charges = [hourlyQuota request.tier]
  valid : ∀ prompt ∈ g.prompts, IsPrompt prompt
  grows : g.prompts.Pairwise (· <+: ·)
  tools : Offers texts.specs maxIterations (g.requests.map (·.2))

structure Filed (conversationId : String) (entries : List Entry) (messages : List Message) : Prop where
  conversation : ∀ message ∈ messages, message.conversationId = conversationId
  entries : messages.map Message.entry = entries

variable (scope : TurnScope) (strict : Prop)

/-- What is stored is the message of the user, and what the model was sent during the turn. -/
structure Keeps (stored : List Message) (sent : List LlmMessage) : Prop where
  conversation : ∀ message ∈ stored, message.conversationId = scope.conversationId
  legible : Legible (stored.map Message.entry) ({ role := .user, content := scope.request.message } :: sent)

/-- A turn between two rounds, of which there were `used`; the first of its prompts is `opening`. -/
structure Rounds (opening : List LlmMessage) (used : ℕ) (s : TurnScope.State) (g : TurnSight) : Prop where
  charged : g.charges = [hourlyQuota scope.request.tier]
  valid : ∀ prompt ∈ g.prompts ++ [s.llmMessages], IsPrompt prompt
  grows : (g.prompts ++ [s.llmMessages]).Pairwise (· <+: ·)
  first : (g.prompts ++ [s.llmMessages]).head? = some opening
  tools : g.requests.map (·.2) = List.replicate used scope.texts.specs
  unannounced : g.announced = []
  kept : strict → (∀ artifact ∈ s.collected, artifact.Storable) ∧
    ∃ sent, s.llmMessages = opening ++ sent ∧ Keeps scope g.stored sent

/-- A full turn has announced one answer, and left what was sent during the turn and the answer. -/
def Leaves (g : TurnSight) : Prop :=
  strict → ∃ opening sent content, g.prompts.head? = some opening ∧ g.prompts.getLast? = some (opening ++ sent) ∧
    g.announced = [content] ∧ Keeps scope g.stored (sent ++ [{ role := .assistant, content := content }])

variable {scope strict} {opening sent more : List LlmMessage} {used maxIterations : ℕ} {s s' : TurnScope.State} {g : TurnSight}
  {stored messages : List Message} {entries : List Entry} {tools : List LlmToolSpec} {text : String} {logs : List CallLog}

theorem filed_cons {conversationId : String} {entry : Entry} (messageId : String) (h : Filed conversationId entries messages) :
    Filed conversationId (entry :: entries) (entry.message messageId conversationId :: messages) :=
  ⟨List.forall_mem_cons.2 ⟨rfl, h.conversation⟩, congrArg (List.cons entry) h.entries⟩

theorem Keeps.append (h : Keeps scope stored sent) (hmessages : Filed scope.conversationId entries messages)
    (hentries : Legible entries more) (hbegins : ∀ entry ∈ entries.head?, entry.role ≠ .tool) :
    Keeps scope (stored ++ messages) (sent ++ more) := by
  refine ⟨List.forall_mem_append.2 ⟨h.conversation, hmessages.conversation⟩, ?_⟩
  rw [List.map_append, hmessages.entries]
  exact h.legible.append hentries hbegins

theorem pairwise_concat_of_prefix {prompts : List (List LlmMessage)} {last next : List LlmMessage}
    (h : (prompts ++ [last]).Pairwise (· <+: ·)) (hnext : last <+: next) :
    (prompts ++ [last] ++ [next]).Pairwise (· <+: ·) := by
  refine List.pairwise_append.2 ⟨h, List.pairwise_singleton .., fun prompt hprompt other hother => ?_⟩
  obtain rfl := List.mem_singleton.1 hother
  rcases List.mem_append.1 hprompt with hprompt | hprompt
  · exact ((List.pairwise_append.1 h).2.2 prompt hprompt last (List.mem_singleton_self last)).trans hnext
  · obtain rfl := List.mem_singleton.1 hprompt
    exact hnext

theorem offers_round {specs : List LlmToolSpec} (h : used + 1 ≤ maxIterations) :
    Offers specs maxIterations (List.replicate used specs ++ [specs]) := by
  obtain ⟨more, rfl⟩ := Nat.exists_eq_add_of_le h
  have hsplit : List.replicate (used + 1 + more) specs = List.replicate (used + 1) specs ++ List.replicate more specs :=
    List.replicate_add ..
  rw [Offers, ← List.replicate_succ', hsplit, List.append_assoc]
  exact List.prefix_append ..

theorem Rounds.sends (h : Rounds scope strict opening used s g)
    (htools : Offers scope.texts.specs maxIterations (List.replicate used scope.texts.specs ++ [tools])) :
    Sends scope.texts scope.request maxIterations (g.send s.llmMessages tools) := by
  refine ⟨h.charged, ?_, ?_, ?_⟩
  · rw [TurnSight.prompts_send]
    exact h.valid
  · rw [TurnSight.prompts_send]
    exact h.grows
  · rwa [TurnSight.send, List.map_append, h.tools]

/-- **A round** of tools that were all run. -/
theorem Rounds.next (h : Rounds scope strict opening used s g) (hsome : logs ≠ [])
    (hstorable : strict → (∀ log ∈ logs, log.call.Storable) ∧ ∀ log ∈ logs, ∀ artifact ∈ log.produced, artifact.Storable)
    (hmessages : Filed scope.conversationId (scope.roundEntries text logs) messages)
    (hprompt : s'.llmMessages = s.llmMessages ++ roundMessages text logs)
    (hcollected : s'.collected = s.collected ++ logs.flatMap (·.produced)) :
    Rounds scope strict opening (used + 1) s' ((g.send s.llmMessages scope.texts.specs).store messages) := by
  have hprompts : ((g.send s.llmMessages scope.texts.specs).store messages).prompts = g.prompts ++ [s.llmMessages] :=
    g.prompts_send s.llmMessages scope.texts.specs
  refine ⟨h.charged, ?_, ?_, ?_, ?_, h.unannounced, fun hs => ?_⟩
  · rw [hprompts]
    refine List.forall_mem_append.2 ⟨h.valid, List.forall_mem_singleton.2 ?_⟩
    obtain ⟨system, history, hlast, hsystem, hhistory⟩ := h.valid s.llmMessages (List.mem_append_right _ (List.mem_singleton_self _))
    exact ⟨system, history ++ roundMessages text logs, by rw [hprompt, hlast, List.cons_append], hsystem,
      hhistory.append (replay_round hsome)⟩
  · rw [hprompts]
    exact pairwise_concat_of_prefix h.grows (hprompt ▸ List.prefix_append ..)
  · rw [hprompts, List.head?_append, h.first]
    rfl
  · show (g.requests ++ [(s.llmMessages, scope.texts.specs)]).map (·.2) = _
    rw [List.map_append, h.tools, List.replicate_succ']
    rfl
  · obtain ⟨hcalls, hproduced⟩ := hstorable hs
    obtain ⟨hstored, sent, hsent, hkept⟩ := h.kept hs
    refine ⟨?_, sent ++ roundMessages text logs, by rw [hprompt, hsent, List.append_assoc],
      hkept.append hmessages (legible_round hcalls hsome hproduced) ?_⟩
    · rw [hcollected]
      refine List.forall_mem_append.2 ⟨hstored, fun artifact hartifact => ?_⟩
      obtain ⟨log, hlog, hartifact⟩ := List.mem_flatMap.1 hartifact
      exact hproduced log hlog artifact hartifact
    · rintro _ ⟨⟩
      exact nofun

theorem wpe_runCalls {calls : List LlmToolCall} {Q : TurnScope.State → TurnSight → Prop} {E : TurnError → TurnSight → Prop}
    (hQ : ∀ (logs : List CallLog) (s' : TurnScope.State) (messages : List Message), logs.map (·.call) = calls →
      (strict → ∀ log ∈ logs, ∀ artifact ∈ log.produced, artifact.Storable) →
      Filed scope.conversationId (logs.map fun log => scope.resultEntry log.call log.result log.produced) messages →
      s'.llmMessages = s.llmMessages ++ logs.map (fun log => TurnScope.resultMessage log.call log.result) →
      s'.collected = s.collected ++ logs.flatMap (·.produced) → Q s' (g.store messages))
    (hE : ∀ e messages, E e (g.store messages)) : wpe (turnMonitor strict) (scope.runCalls s calls) Q E g := by
  induction calls generalizing s g with
  | nil =>
    have hdone := hQ [] s [] rfl (by simp) ⟨by simp, rfl⟩ (by simp) (by simp)
    rwa [TurnSight.store_nil] at hdone
  | cons call calls ih =>
    have hE' : ∀ e, E e g := fun e => g.store_nil ▸ hE e []
    rw [TurnScope.runCalls, wpe_bind]
    refine wpe_silent rfl (fun _ _ => ?_) hE'
    rw [wpe_bind]
    refine wpe_silent rfl (fun answer hproduced => ?_) hE'
    obtain ⟨result, produced⟩ := answer
    rw [wpe_bind]
    refine wpe_silent rfl (fun _ _ => ?_) hE'
    rw [wpe_bind]
    refine wpe_appendMessage (fun messageId _ => ?_) hE
    refine ih (fun logs s' messages hlogs hstorable hmessages hprompt hcollected => ?_) fun e messages => ?_
    · rw [TurnSight.store_store]
      refine hQ (⟨call, result, produced⟩ :: logs) s' _ (congrArg (List.cons call) hlogs)
        (fun hs => List.forall_mem_cons.2 ⟨hproduced hs, hstorable hs⟩) (filed_cons messageId hmessages) ?_ ?_
      · rw [hprompt, List.append_assoc]
        rfl
      · rw [hcollected, List.append_assoc]
        rfl
    · rw [TurnSight.store_store]
      exact hE e _

theorem wpe_answer {content : String} (h : Rounds scope strict opening used s g)
    (htools : Offers scope.texts.specs maxIterations (List.replicate used scope.texts.specs ++ [tools])) :
    wpe (turnMonitor strict) (scope.answer content s.collected)
      (fun _ g' => Sends scope.texts scope.request maxIterations g' ∧ Leaves scope strict g')
      (fun _ => Sends scope.texts scope.request maxIterations) (g.send s.llmMessages tools) := by
  have hsends := h.sends htools
  have hstored : ∀ messages announced, Sends scope.texts scope.request maxIterations
      { (g.send s.llmMessages tools).store messages with announced } :=
    fun _ _ => ⟨hsends.charged, hsends.valid, hsends.grows, hsends.tools⟩
  unfold TurnScope.answer
  rw [wpe_bind]
  refine wpe_appendMessage (fun messageId persisted => ?_) fun e messages => hstored messages _
  refine wpe_askTurn (fun _ _ => ⟨hstored _ _, fun hs => ?_⟩) fun e took hok => ?_
  · obtain ⟨hstorable, sent, hsent, hkept⟩ := h.kept hs
    refine ⟨opening, sent, content, ?_, ?_, congrArg (· ++ [content]) h.unannounced,
      hkept.append (filed_cons messageId ⟨by simp, rfl⟩) (legible_answer content hstorable) ?_⟩
    · exact (congrArg List.head? (g.prompts_send ..)).trans h.first
    · refine (congrArg List.getLast? (g.prompts_send ..)).trans ?_
      rw [List.getLast?_concat, hsent]
    · rintro _ ⟨⟩
      exact nofun
  · cases took
    · exact hstored _ _
    · exact hstored _ _

theorem wpe_runRounds {left : ℕ} (h : Rounds scope strict opening used s g) (hused : used + left = maxIterations) :
    wpe (turnMonitor strict) (scope.runRounds s left)
      (fun _ g' => Sends scope.texts scope.request maxIterations g' ∧ Leaves scope strict g')
      (fun _ => Sends scope.texts scope.request maxIterations) g := by
  induction left generalizing s g used with
  | zero =>
    have htools : Offers scope.texts.specs maxIterations (List.replicate used scope.texts.specs ++ [[]]) :=
      hused ▸ List.prefix_refl _
    rw [TurnScope.runRounds, wpe_bind]
    exact wpe_complete (fun _ _ _ => wpe_answer h htools) fun _ => h.sends htools
  | succ left ih =>
    have htools := @offers_round used maxIterations scope.texts.specs (by omega)
    have hsends := h.sends htools
    have hstored : ∀ messages, Sends scope.texts scope.request maxIterations
        ((g.send s.llmMessages scope.texts.specs).store messages) :=
      fun _ => ⟨hsends.charged, hsends.valid, hsends.grows, hsends.tools⟩
    rw [TurnScope.runRounds, wpe_bind]
    refine wpe_complete (fun text calls hcalls => ?_) fun _ => hsends
    dsimp only
    split_ifs with hnone
    · exact wpe_answer h htools
    · rw [wpe_bind]
      refine wpe_appendMessage (fun messageId _ => ?_) fun _ => hstored
      rw [wpe_bind]
      refine wpe_runCalls (fun logs s' messages hlogs hproduced hmessages hprompt hcollected => ?_) fun _ messages => ?_
      · subst hlogs
        have hsome : logs ≠ [] := by simpa using hnone
        have hround := h.next hsome (fun hs => ⟨List.forall_mem_map.1 (hcalls hs), hproduced hs⟩)
          (filed_cons messageId hmessages) (hprompt.trans (List.append_assoc ..)) hcollected
        rw [TurnSight.store_store]
        exact ih hround (by omega)
      · rw [TurnSight.store_store]
        exact hstored _

end Loop

/-! ## Turns -/

section Turns

variable {strict : Prop} {service : AssistantService} {request : TurnRequest} {g : TurnSight}
  {E : TurnError → TurnSight → Prop}

theorem wpe_loadOrCreateConversation {Q : Conversation → TurnSight → Prop} (hQ : ∀ conversation, Q conversation g)
    (hE : ∀ e, E e g) : wpe (turnMonitor strict) (loadOrCreateConversation request) Q E g := by
  unfold loadOrCreateConversation
  split
  · rw [wpe_bind]
    refine wpe_silent rfl (fun found _ => ?_) hE
    rcases found with _ | conversation
    · exact hE _
    · exact hQ conversation
  · exact wpe_silent rfl (fun conversation _ => hQ conversation) hE

theorem wpe_recallWorkspace {conversationId : String} {Q : Option String → TurnSight → Prop} (hQ : ∀ recalled, Q recalled g)
    (hE : ∀ e, E e g) : wpe (turnMonitor strict) (service.recallWorkspace request conversationId) Q E g := by
  unfold AssistantService.recallWorkspace
  split
  · exact hQ _
  · rw [wpe_bind]
    exact wpe_silent rfl (fun _ _ => hQ _) hE

theorem sends_nothing {texts : TurnTexts} {maxIterations : ℕ} (stored : List Message) :
    Sends texts request maxIterations { charges := [hourlyQuota request.tier], stored } :=
  ⟨rfl, List.forall_mem_nil _, .nil, List.nil_prefix⟩

theorem wpe_streamChat : wpe (turnMonitor strict) (service.streamChat request)
    (fun _ g => Sends service.texts request (service.maxIterations request.tier) g ∧
      ∃ scope : TurnScope, scope.request = request ∧ Leaves scope strict g)
    (fun _ g => g = {} ∨ Sends service.texts request (service.maxIterations request.tier) g) {} := by
  unfold AssistantService.streamChat
  split
  · exact .inl rfl
  split
  · exact .inl rfl
  · rw [wpe_bind]
    refine wpe_askTurn (fun _ _ => ?_) fun e took _ => ?_
    · have hstored := @sends_nothing request service.texts (service.maxIterations request.tier)
      rw [wpe_bind]
      refine wpe_silent rfl (fun attachments _ => ?_) fun _ => .inr (hstored [])
      rw [wpe_bind]
      refine wpe_loadOrCreateConversation (fun conversation => ?_) fun _ => .inr (hstored [])
      rw [wpe_bind]
      refine wpe_recallWorkspace (fun recalled => ?_) fun _ => .inr (hstored [])
      rw [wpe_bind]
      refine wpe_silent rfl (fun workspace _ => ?_) fun _ => .inr (hstored [])
      rw [wpe_bind]
      refine wpe_appendMessage (fun messageId persisted => ?_) fun _ messages => .inr (hstored messages)
      rw [wpe_bind]
      refine wpe_silent rfl (fun history _ => ?_) fun _ => .inr (hstored _)
      dsimp only
      have hprompt : IsPrompt (service.openingMessages request attachments workspace history) :=
        ⟨_, _, rfl, rfl, replay_history history service.maxHistoryMessages⟩
      refine wpe_mono (wpe_runRounds ⟨rfl, List.forall_mem_singleton.2 hprompt, List.pairwise_singleton .., rfl, rfl, rfl,
        fun _ => ⟨by simp, [], (List.append_nil _).symm, ?_⟩⟩ (Nat.zero_add _)) ?_ fun _ _ h => .inr h
      · exact ⟨List.forall_mem_singleton.2 rfl, legible_user request.message attachments workspace.1⟩
      · exact fun _ _ h => ⟨h.1, _, rfl, h.2⟩
    · cases took
      · exact .inl rfl
      · exact .inr (sends_nothing [])

end Turns

/-! ## A turn -/

section Sample

def sampleService : AssistantService where
  texts := {
    specs := [⟨"list_files", "List the files of the user.", []⟩]
    labelFor := fun _ => "Looking through your files"
    describe := fun _ _ => "Found 0 matching file(s)"
    systemPrompt := "You help with files."
    buildAttachmentContext := fun _ _ _ => ""
    buildWorkspaceContext := fun _ _ => "" }

def sampleRequest : TurnRequest := { userId := 1, tier := .free, message := "Which files do I have?" }

/-- A model that looks for files once, and a table. -/
def sampleWorld : Env TurnSig (ℕ × List Message) where
  reply w
    | .consume _ _ | .yield _ => .ok ()
    | .resolveAttachments _ _ => .ok []
    | .getConversation _ _ => .ok none
    | .createConversation userId title => .ok ⟨"c", userId, title⟩
    | .listMessages conversationId limit => .ok (((w.2.filter (·.conversationId = conversationId)).reverse.take limit).reverse)
    | .resolveWorkspaceContext _ _ _ => .ok ({}, none)
    | .uuid4 => .ok "m"
    | .addMessage message => .ok message
    | .stream _ _ _ =>
      .ok ⟨if w.1 = 0 then [.done ⟨"", [⟨"call_0", "list_files", [], none⟩], none⟩] else [.text "You have none."], none⟩
    | .execute _ => .ok ([("count", .int 0)], [])
  effect w
    | ⟨.stream _ _ _, _, _, _⟩ => (w.1 + 1, w.2)
    | ⟨.addMessage message, _, true, _⟩ => (w.1, w.2 ++ [message])
    | _ => w

def sampleTurn : List (Event TurnSig) × Except TurnError Unit :=
  (sampleService.streamChat sampleRequest).run.play sampleWorld (0, [])

theorem run_sampleTurn : Run (sampleService.streamChat sampleRequest).run sampleTurn.1 sampleTurn.2 := run_play ..

theorem storable_sampleTurn : ∀ ev ∈ sampleTurn.1, StorableAnswer ev := by
  refine forall_play (fun w op => ?_) _ _
  cases op with
  | stream tier messages tools =>
    show ∀ response, LlmStreamChunk.done response ∈ (if w.1 = 0 then _ else _) → _
    split_ifs
    · intro response hmem
      obtain rfl := LlmStreamChunk.done.inj (List.mem_singleton.1 hmem)
      exact List.forall_mem_singleton.2 ⟨by simp [Json.Distinct, DistinctEntries], by simp⟩
    · intro response hmem
      cases List.mem_singleton.1 hmem
  | execute request => exact List.forall_mem_nil _
  | _ => trivial

end Sample

/-! ## What is sent and what is left -/

section Results

variable {service : AssistantService} {request : TurnRequest}

/-- **What the model is sent**, whatever is stored and answered, and wherever the turn stops: where anything is seen
of it, it is charged once; every prompt is one system message and a valid history, and the one before it and more; tools
are offered in no more rounds than the tier may use. -/
theorem streamChat_requests {tr : List (Event TurnSig)} {r : Except TurnError Unit}
    (h : Run (service.streamChat request).run tr r) :
    sightOf tr = {} ∨ Sends service.texts request (service.maxIterations request.tier) (sightOf tr) := by
  have hrun := wp_run (@wpe_streamChat False service request) h (relied_turnMonitor (fun _ _ => False.elim) {})
  rcases r with e | a
  · exact hrun
  · exact .inr hrun.1

/-- The model is asked twice. -/
theorem streamChat_requests_sample : (sightOf sampleTurn.1).prompts.length = 2 ∧
    (sightOf sampleTurn.1 = {} ∨ Sends sampleService.texts sampleRequest 4 (sightOf sampleTurn.1)) :=
  ⟨rfl, streamChat_requests run_sampleTurn⟩

/-- **What a full turn leaves**, its rows read again: the message of the user, what the model was sent during the turn after
its first prompt, in its order, and the answer that was announced. -/
theorem streamChat_transcript {tr : List (Event TurnSig)} (h : Run (service.streamChat request).run tr (.ok ()))
    (hrely : ∀ ev ∈ tr, StorableAnswer ev) {rows : List AiMessageRow} (hrows : RowsOf (sightOf tr).stored rows)
    {maxMessages : ℕ} (hwindow : rows.length ≤ maxMessages) :
    ∃ conversationId opening sent content,
      (∀ message ∈ (sightOf tr).stored, message.conversationId = conversationId) ∧
      (sightOf tr).prompts.head? = some opening ∧ (sightOf tr).prompts.getLast? = some (opening ++ sent) ∧
      (sightOf tr).announced = [content] ∧
      buildBoundedHistory (rows.map toMessage) maxMessages =
        { role := .user, content := request.message } :: (sent ++ [{ role := .assistant, content := content }]) := by
  have hrun := wp_run (@wpe_streamChat True service request) h (relied_turnMonitor (fun ev hev _ => hrely ev hev) {})
  obtain ⟨-, scope, rfl, hleaves⟩ := hrun
  obtain ⟨opening, sent, content, hfirst, hlast, hannounced, hkept⟩ := hleaves trivial
  refine ⟨scope.conversationId, opening, sent, content, hkept.conversation, hfirst, hlast, hannounced, ?_⟩
  obtain ⟨hwhole, hsent⟩ := hkept.legible.whole _ (entries_of_rows hrows hkept.legible.distinct)
  rw [buildBoundedHistory_whole hwhole (by rwa [List.length_map]), hsent]

/-- The rows of four messages. -/
theorem streamChat_transcript_sample : ∃ conversationId opening sent content,
    (∀ message ∈ (sightOf sampleTurn.1).stored, message.conversationId = conversationId) ∧
    (sightOf sampleTurn.1).prompts.head? = some opening ∧
    (sightOf sampleTurn.1).prompts.getLast? = some (opening ++ sent) ∧ (sightOf sampleTurn.1).announced = [content] ∧
    buildBoundedHistory (((sightOf sampleTurn.1).stored.map fun message => AiMessageRow.ofMessage message 0).map toMessage) 4 =
      { role := .user, content := "Which files do I have?" } :: (sent ++ [{ role := .assistant, content := content }]) := by
  have hrows : RowsOf (sightOf sampleTurn.1).stored
      ((sightOf sampleTurn.1).stored.map fun message => AiMessageRow.ofMessage message 0) := by
    rw [RowsOf, List.forall₂_map_right_iff, List.forall₂_same]
    exact fun message _ => ⟨0, rfl⟩
  exact streamChat_transcript run_sampleTurn storable_sampleTurn hrows le_rfl

end Results

end Transform.Assistant
