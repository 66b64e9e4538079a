import Transform.Assistant.Message

/-!
# Assistant.ModelStream — a completion as the provider streams it

The adapter of the OpenAI-compatible providers reads the lines of a response: text deltas go out as they come, and the
fragments of the tool calls are merged by index.  A call goes back to the provider with its arguments as JSON text.
`Streams` says what lines a provider may send for a text and tool calls, `aiterLines` what the HTTP client makes of them.
-/

namespace Transform.Assistant

open Lib Conversions

/-! ## Messages of a chat -/

section Chat

structure LlmToolCall where
  id : String
  name : String
  arguments : Dict := []
  thoughtSignature : Option String := none
  deriving DecidableEq

inductive LlmRole
  | system
  | user
  | assistant
  | tool
  deriving DecidableEq, Repr

def LlmRole.value : LlmRole → String
  | .system => "system"
  | .user => "user"
  | .assistant => "assistant"
  | .tool => "tool"

structure LlmMessage where
  role : LlmRole
  content : String
  toolCalls : List LlmToolCall := []
  toolCallId : Option String := none
  name : Option String := none
  deriving DecidableEq

structure LlmResponse where
  content : String
  toolCalls : List LlmToolCall := []
  finishReason : Option String := none
  deriving DecidableEq

inductive LlmStreamChunk
  | text (text : String)
  | done (response : LlmResponse)
  deriving DecidableEq

end Chat

/-! ## Tool calls in fragments -/

section ToolCalls

/-- What has come of a tool call, with its index as it is printed. -/
structure PartialCall where
  label : String
  id : String := ""
  name : String := ""
  arguments : String := ""
  thoughtSignature : String := ""
  deriving DecidableEq, Repr

abbrev Partials := List (ℤ × PartialCall)

/-- The text of a field; a value of another type is none. -/
def textOf (value : Option Json) : String := (value.bind Json.str?).getD ""

/-- A field that is an object; a value of another type has no entries. -/
def dictOf (value : Option Json) : Dict := (value.bind Json.obj?).getD []

/-- The index of a fragment, and how it is printed.  A bool is an `int`; without one the position counts. -/
def callIndex (position : ℕ) (raw : Dict) : ℤ × String :=
  match mapGet raw "index" with
  | some (.int n) => (n, String.ofList (writeInt n))
  | some (.bool true) => (1, "True")
  | some (.bool false) => (0, "False")
  | _ => (position, String.ofList (writeInt position))

/-- A text that is not empty, or the one there is. -/
def textOr (current : String) (value : Option Json) : String := (truthy (value.bind Json.str?)).getD current

def PartialCall.merge (entry : PartialCall) (raw : Dict) : PartialCall :=
  let google := dictOf (mapGet (dictOf (mapGet raw "extra_content")) "google")
  let entry := {
    entry with
    id := textOr entry.id (mapGet raw "id")
    thoughtSignature := textOr entry.thoughtSignature (mapGet google "thought_signature") }
  match (mapGet raw "function").bind Json.obj? with
  | none => entry
  | some function => {
      entry with
      name := textOr entry.name (mapGet function "name")
      arguments := entry.arguments ++ textOf (mapGet function "arguments") }

def accumulateToolCall (partials : Partials) (raw : Json × ℕ) : Partials :=
  match raw.1 with
  | .obj fields =>
    let (index, label) := callIndex raw.2 fields
    mapSet partials index (((mapGet partials index).getD { label := label }).merge fields)
  | _ => partials

/-- `_accumulate_tool_calls`. -/
def accumulateToolCalls (rawCalls : Option Json) (partials : Partials) : Partials :=
  match rawCalls with
  | some (.arr raws) => raws.zipIdx.foldl accumulateToolCall partials
  | _ => partials

/-- Arguments that cannot be decoded are none. -/
def decodeArguments (text : String) : Dict :=
  if strip text = "" then [] else ((Json.loads (strip text)).bind Json.obj?).getD []

/-- `_finalise_tool_call`. -/
def finaliseToolCall (entry : ℤ × PartialCall) : LlmToolCall where
  id := if entry.2.id = "" then "call_" ++ entry.2.label else entry.2.id
  name := entry.2.name
  arguments := decodeArguments entry.2.arguments
  thoughtSignature := truthy (some entry.2.thoughtSignature)

/-- `_tool_call_to_wire`. -/
def toolCallToWire (call : LlmToolCall) : Json :=
  .obj ([("id", .str call.id), ("type", .str "function"),
      ("function", .obj [("name", .str call.name), ("arguments", .str (Json.obj call.arguments).dumps)])] ++
    ((truthy call.thoughtSignature).map fun signature =>
      ("extra_content", Json.obj [("google", .obj [("thought_signature", .str signature)])])).toList)

/-- `_to_wire_message`. -/
def toWireMessage (message : LlmMessage) : Dict :=
  let wire : Dict := [("role", .str message.role.value), ("content", .str message.content)]
  if message.role = .assistant ∧ message.toolCalls ≠ [] then
    wire ++ [("tool_calls", .arr (message.toolCalls.map toolCallToWire))]
  else if message.role = .tool then
    wire ++ (message.toolCallId.map fun callId => ("tool_call_id", Json.str callId)).toList ++
      ((truthy message.name).map fun name => ("name", Json.str name)).toList
  else wire

end ToolCalls

/-! ## Reading a stream -/

section Stream

/-- The characters that `str.splitlines` cuts at. -/
def lineBoundary (c : Char) : Bool := c.toNat ∈ [0xA, 0xB, 0xC, 0xD, 0x1C, 0x1D, 0x1E, 0x85, 0x2028, 0x2029]

/-- `response.aiter_lines()`: a line that the provider has ended is cut again wherever `str.splitlines` cuts.  One at the end
of the body may lack its last piece, which is empty. -/
def aiterLines (lines : List String) : List String :=
  lines.flatMap fun line => (line.toList.splitOnP lineBoundary).map String.ofList

def hasPrefix (start text : String) : Bool := start.toList.isPrefixOf text.toList

/-- `_sse_payload`: the payload of a data line; none of another line. -/
def ssePayload (line : String) : Option String :=
  if strip line = "" ∨ hasPrefix ":" (strip line) then none
  else if hasPrefix "data:" (strip line) then some (strip (String.ofList ((strip line).toList.drop 5)))
  else none

def firstChoice (data : String) : Option Dict := do
  let chunk ← (Json.loads data).bind Json.obj?
  let choices ← (mapGet chunk "choices").bind Json.arr?
  let choice ← choices.head?
  choice.obj?

structure ReadState where
  content : String := ""
  finishReason : Option String := none
  partials : Partials := []

def ReadState.readDelta (s : ReadState) (delta : Dict) : ReadState × List LlmStreamChunk :=
  let partials := accumulateToolCalls (mapGet delta "tool_calls") s.partials
  match truthy ((mapGet delta "content").bind Json.str?) with
  | some text => ({ s with content := s.content ++ text, partials := partials }, [.text text])
  | none => ({ s with partials := partials }, [])

def ReadState.readChoice (s : ReadState) (choice : Dict) : ReadState × List LlmStreamChunk :=
  let s := match (mapGet choice "finish_reason").bind Json.str? with
    | some reason => { s with finishReason := some reason }
    | none => s
  match (mapGet choice "delta").bind Json.obj? with
  | some delta => s.readDelta delta
  | none => (s, [])

def ReadState.response (s : ReadState) : LlmResponse where
  content := s.content
  toolCalls := (s.partials.mergeSort fun entry entry' => entry.1 ≤ entry'.1).map finaliseToolCall
  finishReason := s.finishReason

def readLines (s : ReadState) : List String → List LlmStreamChunk
  | [] => [.done s.response]
  | line :: lines =>
    match ssePayload line with
    | none => readLines s lines
    | some data =>
      if data = "[DONE]" then [.done s.response]
      else
        match firstChoice data with
        | none => readLines s lines
        | some choice => (s.readChoice choice).2 ++ readLines (s.readChoice choice).1 lines

/-- `_read_stream`: what is yielded for the lines that `response.aiter_lines()` gives. -/
def readStream (lines : List String) : List LlmStreamChunk := readLines {} lines

end Stream

/-! ## What a provider streams -/

section Provider

/-- What one fragment says of a tool call; a text is empty where the fragment leaves the field out. -/
structure Fragment where
  index : ℤ
  label : String
  id : String
  name : String
  arguments : String
  signature : String
  deriving DecidableEq, Repr

def Fragment.of (position : ℕ) (raw : Dict) : Fragment where
  index := (callIndex position raw).1
  label := (callIndex position raw).2
  id := textOf (mapGet raw "id")
  name := textOf (mapGet (dictOf (mapGet raw "function")) "name")
  arguments := textOf (mapGet (dictOf (mapGet raw "function")) "arguments")
  signature := textOf (mapGet (dictOf (mapGet (dictOf (mapGet raw "extra_content")) "google")) "thought_signature")

def fragmentsOf (rawCalls : Option Json) : List Fragment :=
  ((rawCalls.bind Json.arr?).getD []).zipIdx.filterMap fun raw => raw.1.obj?.map (Fragment.of raw.2)

structure Delta where
  content : String
  fragments : List Fragment

def Delta.of (delta : Dict) : Delta := ⟨textOf (mapGet delta "content"), fragmentsOf (mapGet delta "tool_calls")⟩

inductive ChunkOf : Json → Delta → Prop
  | delta {chunk choice delta : Dict} {more : List Json}
      (choices : mapGet chunk "choices" = some (.arr (.obj choice :: more)))
      (inner : mapGet choice "delta" = some (.obj delta)) : ChunkOf (.obj chunk) (Delta.of delta)
  | bare {chunk : Dict} (choices : ((mapGet chunk "choices").bind Json.arr?).getD [] = []) :
      ChunkOf (.obj chunk) ⟨"", []⟩

def Blank (text : List Char) : Prop := ∀ c ∈ text, isStripped c = true

inductive Noise (line : String) : Prop
  | blank (h : Blank line.toList)
  | comment {before rest : List Char} (h : Blank before) (hline : line.toList = before ++ ':' :: rest)

structure DataLine (payload line : String) : Prop where
  trimmed : strip payload = payload
  nonempty : payload ≠ ""
  spelled : ∃ before between after, Blank before ∧ Blank between ∧ Blank after ∧
    line.toList = before ++ "data:".toList ++ (between ++ payload.toList) ++ after

/-- The lines of a response, each ended by a line feed or a carriage return, that carry these deltas.  What follows `[DONE]` is not read. -/
inductive Provides : List String → List Delta → Prop
  | closed : Provides [] []
  | done {line : String} {rest : List String} (h : DataLine "[DONE]" line) : Provides (line :: rest) []
  | noise {line : String} {lines : List String} {deltas : List Delta} (h : Noise line)
      (hlines : Provides lines deltas) : Provides (line :: lines) deltas
  | data {line payload : String} {lines : List String} {chunk : Json} {delta : Delta} {deltas : List Delta}
      (h : DataLine payload line) (hload : Json.loads payload = some chunk) (hchunk : ChunkOf chunk delta)
      (hlines : Provides lines deltas) : Provides (line :: lines) (delta :: deltas)

/-- A line that is still one when it is cut: there is no boundary in it, or it is noise and so are its pieces. -/
def StaysWhole (line : String) : Prop :=
  (∀ c ∈ (strip line).toList, lineBoundary c = false) ∨
    ssePayload line = none ∧ ∀ piece ∈ aiterLines [line], ssePayload piece = none

/-- No line is cut up to the end of the stream. -/
def Uncut : List String → Prop
  | [] => True
  | line :: lines => StaysWhole line ∧ (ssePayload line = some "[DONE]" ∨ Uncut lines)

instance (line : String) : Decidable (StaysWhole line) :=
  @instDecidableOr _ _ (List.decidableBAll _ _) inferInstance

instance decidableUncut : ∀ lines : List String, Decidable (Uncut lines)
  | [] => isTrue trivial
  | line :: lines =>
    haveI := decidableUncut lines
    inferInstanceAs (Decidable (StaysWhole line ∧ (ssePayload line = some "[DONE]" ∨ Uncut lines)))

/-- A tool call in the texts that a provider streams. -/
structure CallText where
  id : String
  name : String
  arguments : String
  signature : String

def Fragment.callText (f : Fragment) : CallText := ⟨f.id, f.name, f.arguments, f.signature⟩

/-- A field is given, and every fragment gives it or leaves it out. -/
def Gives (texts : List String) (value : String) : Prop := value ∈ texts ∧ ∀ text ∈ texts, text = "" ∨ text = value

/-- The fragments of one index, in the order in which they come. -/
def ownOf (fragments : List Fragment) (index : ℤ) : List Fragment := fragments.filter (·.index = index)

structure SplitOf (fragments : List Fragment) (index : ℤ) (call : CallText) : Prop where
  id : Gives ((ownOf fragments index).map (·.id)) call.id
  name : Gives ((ownOf fragments index).map (·.name)) call.name
  arguments : String.join ((ownOf fragments index).map (·.arguments)) = call.arguments
  signature : Gives ((ownOf fragments index).map (·.signature)) call.signature

/-- The fragments, interleaved, are these calls in the order of their indexes. -/
def Splits (fragments : List Fragment) (calls : List CallText) : Prop :=
  ∃ indexes : List ℤ, indexes.Pairwise (· < ·) ∧ (∀ f ∈ fragments, f.index ∈ indexes) ∧
    List.Forall₂ (SplitOf fragments) indexes calls

def Streams (lines : List String) (text : String) (calls : List CallText) : Prop :=
  ∃ deltas, Provides lines deltas ∧ String.join (deltas.map (·.content)) = text ∧
    Splits (deltas.flatMap (·.fragments)) calls

/-- The texts of a call: its arguments as the JSON of an object, or nothing where there are none. -/
structure Spells (spelled : CallText) (call : LlmToolCall) : Prop where
  id : spelled.id = call.id
  name : spelled.name = call.name
  arguments : Json.loads (strip spelled.arguments) = some (.obj call.arguments) ∨
    strip spelled.arguments = "" ∧ call.arguments = []
  signature : spelled.signature = call.thoughtSignature.getD ""

def Yields (chunks : List LlmStreamChunk) (text : String) (calls : List LlmToolCall) : Prop :=
  ∃ texts response, chunks = texts.map .text ++ [.done response] ∧ String.join texts = text ∧
    response.content = text ∧ response.toolCalls = calls

def wireCalls (message : Dict) : List CallText := (fragmentsOf (mapGet message "tool_calls")).map Fragment.callText

end Provider

end Transform.Assistant
