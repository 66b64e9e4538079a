import Transform.Assistant.Message
import Transform.Assistant.Redaction
import Transform.Lib.TextCodecs

/-!
# Assistant.WorkspaceFiles — reading a file of a workspace

`read_workspace_file` cuts the bytes of a file at 64 KiB and decodes what is left; a cut inside a character leaves no UTF-8.

* `readFile_iff`: the files for which it answers as it should.
-/

namespace Transform.Assistant

open Lib Conversions

/-! ## The tool -/

section Tool

def maxReadBytes : ℕ := 64 * 1024

/-- What the calls of a turn to the workspace service answer or raise. -/
structure WorkspaceAnswers where
  /-- The ids and names of the workspaces of the user, and how many there are. -/
  listWorkspaces : Except String (List (String × String) × ℕ)
  startRuntime : (workspaceId : String) → Except String Unit
  readWorkspaceFile : (workspaceId path : String) → Except String Bytes

/-- What a tool answers: an error, with the workspaces there are, or the text of a file. -/
inductive ToolResult
  | error (message : String) (available : List (String × String))
  | file (path : String) (charCount : ℕ) (content : String)
  deriving DecidableEq, Repr

/-- `_as_str`. -/
def asStr (arguments : Dict) (key : String) : Option String :=
  ((mapGet arguments key).bind Json.str?).bind fun value =>
    let cleaned := strip value
    if cleaned = "" then none else some cleaned

/-- A workspace in a list that is offered. -/
def offered (item : String × String) : String := s!"{item.2} ({item.1})"

variable (words : WordTable) (answers : WorkspaceAnswers) (arguments : Dict) (selected : Option String)

/-- `_require_workspace_id`: the workspace of the argument or of the turn, or an error for the model. -/
def requireWorkspaceId : Except String (Except ToolResult String) :=
  match ((asStr arguments "workspace_id").or selected).filter fun requested => requested ≠ "" with
  | some requested => .ok (.ok requested)
  | none =>
    answers.listWorkspaces.map fun (workspaces, total) =>
      if total = 0 then
        .error (.error ("You have no cloud workspaces yet. Ask the user whether you should create one " ++
          "(create_workspace), or which existing workspace to use.") [])
      else
        .error (.error ("No workspace is selected for this conversation. Ask the user which one to use; available: " ++
          ", ".intercalate ((workspaces.take 5).map offered) ++ ".") (workspaces.take 5))

def notText (path : String) : ToolResult :=
  .error s!"{path} is not a text file, so it cannot be read here. It is still in the workspace." []

/-- The end of `_read_file`, from the bytes of the file on. -/
def fileResult (path : String) (data : Bytes) : ToolResult :=
  let data := if maxReadBytes < data.length then data.take maxReadBytes else data
  match decodeUtf8Strict data with
  | none => notText path
  | some text =>
    let text := redactSecrets words text.toList
    .file path text.length (String.ofList text)

/-- The artifact of a file that has been read. -/
def fileArtifact (workspaceId path : String) : Artifact :=
  { type := "workspace_file"
    id := workspaceId ++ ":" ++ path
    name := String.ofList (path.toList.reverse.takeWhile (· ≠ '/')).reverse
    metadata := [("workspace_id", .str workspaceId), ("path", .str path)] }

/-- `_read_file`, with the artifacts of the turn. -/
def readFile (artifacts : List Artifact) : Except String (ToolResult × List Artifact) :=
  (requireWorkspaceId answers arguments selected).bind fun
    | .error result => .ok (result, artifacts)
    | .ok workspaceId =>
      match asStr arguments "path" with
      | none => .ok (.error "A file path is required." [], artifacts)
      | some path =>
        match answers.startRuntime workspaceId with
        | .error exc =>
          .ok (.error s!"This workspace's runtime could not be started, so nothing was changed: {exc}" [], artifacts)
        | .ok () =>
          (answers.readWorkspaceFile workspaceId path).map fun data =>
            match fileResult words path data with
            | .file path charCount content =>
              (.file path charCount content, artifacts ++ [fileArtifact workspaceId path])
            | result => (result, artifacts)

/-- `execute` of `read_workspace_file`. -/
def executeReadFile (artifacts : List Artifact) : ToolResult × List Artifact :=
  match readFile words answers arguments selected artifacts with
  | .ok result => result
  | .error exc => (.error s!"That workspace action could not be completed: {exc}" [], artifacts)

end Tool

/-! ## Files -/

section Files

variable {words : WordTable} {answers : WorkspaceAnswers} {arguments : Dict} {selected : Option String}
  {artifacts : List Artifact} {workspaceId path : String} {data : Bytes}

/-- A call that reads bytes: a workspace and a path are known, the runtime starts, and the file is read. -/
structure FileRead (answers : WorkspaceAnswers) (arguments : Dict) (selected : Option String) (workspaceId path : String)
    (data : Bytes) : Prop where
  workspace : requireWorkspaceId answers arguments selected = .ok (.ok workspaceId)
  named : asStr arguments "path" = some path
  started : answers.startRuntime workspaceId = .ok ()
  read : answers.readWorkspaceFile workspaceId path = .ok data

/-- The bytes of the first 64 KiB begin no text. -/
def NoText (data : Bytes) : Prop := ∀ s, ¬ data.take maxReadBytes <+: utf8 s

/-- What reading a file should answer: of a text, the longest run of whole characters within 64 KiB, redacted; of what is no
text there, the error. -/
structure ReadsAsText (words : WordTable) (path : String) (data : Bytes) (result : ToolResult) : Prop where
  text : ∀ s, data = utf8 s →
    let content := redactSecrets words (wholeChars maxReadBytes s.toList)
    result = .file path content.length (String.ofList content)
  noText : NoText data → result = notText path

theorem executeReadFile_fst (h : FileRead answers arguments selected workspaceId path data) :
    (executeReadFile words answers arguments selected artifacts).1 = fileResult words path data := by
  rw [executeReadFile, readFile, h.workspace]
  simp only [Except.bind]
  rw [h.named]
  simp only
  rw [h.started]
  simp only
  rw [h.read]
  simp only [Except.map]
  cases fileResult words path data <;> rfl

/-- The cut is made whether the file is longer or not. -/
theorem fileResult_eq : fileResult words path data = match decodeUtf8Strict (data.take maxReadBytes) with
    | none => notText path
    | some text =>
      .file path (redactSecrets words text.toList).length (String.ofList (redactSecrets words text.toList)) := by
  have hcut : (if maxReadBytes < data.length then data.take maxReadBytes else data) = data.take maxReadBytes := by
    split_ifs with h
    · rfl
    · exact (List.take_of_length_le (Nat.not_lt.mp h)).symm
  rw [fileResult]
  simp only [hcut]

theorem fileResult_of_none (h : decodeUtf8Strict (data.take maxReadBytes) = none) :
    fileResult words path data = notText path := by
  rw [fileResult_eq, h]

theorem fileResult_of_some {s : String} (h : decodeUtf8Strict (data.take maxReadBytes) = some s) :
    fileResult words path data =
      .file path (redactSecrets words s.toList).length (String.ofList (redactSecrets words s.toList)) := by
  rw [fileResult_eq, h]

theorem decode_take_utf8 {s : String} (h : AtBoundary maxReadBytes (utf8 s)) :
    decodeUtf8Strict ((utf8 s).take maxReadBytes) = some (String.ofList (wholeChars maxReadBytes s.toList)) := by
  rw [decodeUtf8Strict_eq_some, utf8_ofList]
  exact take_utf8_iff.mpr ⟨rfl, h⟩

theorem decode_take_utf8_eq_none {s : String} (h : ¬ AtBoundary maxReadBytes (utf8 s)) :
    decodeUtf8Strict ((utf8 s).take maxReadBytes) = none := by
  rw [decodeUtf8Strict_eq_none]
  intro t ht
  exact h (take_utf8_iff.mp ht).2

/-- **A file is answered as it should be** exactly if it is no UTF-8, or is cut between two characters. -/
theorem readFile_iff (h : FileRead answers arguments selected workspaceId path data) :
    ReadsAsText words path data (executeReadFile words answers arguments selected artifacts).1 ↔
      ((∃ s, data = utf8 s) → AtBoundary maxReadBytes data) := by
  rw [executeReadFile_fst h]
  constructor
  · rintro hreads ⟨s, rfl⟩
    by_contra hcut
    have hresult := hreads.text s rfl
    rw [fileResult_of_none (decode_take_utf8_eq_none hcut)] at hresult
    cases hresult
  · intro hcut
    constructor
    · rintro s rfl
      rw [fileResult_of_some (decode_take_utf8 (hcut ⟨s, rfl⟩)), String.toList_ofList]
    · intro hno
      refine fileResult_of_none ?_
      rw [decodeUtf8Strict_eq_none]
      intro s hs
      exact hno s (hs ▸ List.prefix_rfl)

def answersOf (data : Bytes) : WorkspaceAnswers where
  listWorkspaces := .ok ([], 0)
  startRuntime _ := .ok ()
  readWorkspaceFile _ _ := .ok data

def notesArguments : Dict := [("path", .str "notes.txt")]

theorem fileRead_notes (data : Bytes) : FileRead (answersOf data) notesArguments (some "ws") "ws" "notes.txt" data :=
  ⟨rfl, by decide +kernel, rfl, rfl⟩

theorem readFile_short : ReadsAsText asciiWords "notes.txt" (utf8 "token: é")
    (executeReadFile asciiWords (answersOf (utf8 "token: é")) notesArguments (some "ws") []).1 := by
  refine (readFile_iff (fileRead_notes _)).mpr fun _ => ?_
  rw [AtBoundary, List.getElem?_eq_none (by decide)]
  nofun

/-- A text of which the byte at `n + 1` is the second of two. -/
def straddling (n : ℕ) : String := String.ofList (List.replicate n 'a' ++ ['é'])

theorem not_atBoundary_straddling (n : ℕ) : ¬ AtBoundary (n + 1) (utf8 (straddling n)) := by
  have hlength : ((List.replicate n 'a').flatMap String.utf8EncodeChar).length = n := by
    induction n with
    | zero => rfl
    | succ n ih =>
      rw [List.replicate_succ, List.flatMap_cons, List.length_append, ih]
      exact Nat.add_comm 1 n
  have hbyte : (utf8 (straddling n))[n + 1]? = some 0xA9 := by
    rw [straddling, utf8_ofList, List.flatMap_append, List.getElem?_append_right (by omega), hlength,
      Nat.add_sub_cancel_left]
    decide
  intro h
  exact absurd (h _ hbyte) (by decide)

theorem readFile_straddling : ¬ ∀ (words : WordTable) (answers : WorkspaceAnswers) (arguments : Dict)
    (selected : Option String) (artifacts : List Artifact) (workspaceId path : String) (data : Bytes),
    FileRead answers arguments selected workspaceId path data →
      ReadsAsText words path data (executeReadFile words answers arguments selected artifacts).1 := by
  intro h
  have hcut : ¬ AtBoundary maxReadBytes (utf8 (straddling 65535)) := not_atBoundary_straddling 65535
  have hreads := h asciiWords _ _ _ [] _ _ _ (fileRead_notes (utf8 (straddling 65535)))
  have hresult := hreads.text (straddling 65535) rfl
  rw [executeReadFile_fst (fileRead_notes _), fileResult_of_none (decode_take_utf8_eq_none hcut)] at hresult
  cases hresult

end Files

end Transform.Assistant
