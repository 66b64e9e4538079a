import Transform.Mcp.Ports

/-!
# Mcp.ToolBox — the tools that an agent calls

The thirteen tools of the toolbox.  Each checks the scope it needs and the folder that the grant is confined to, and
answers with a payload; what a port raises is a payload too where the tool handles it, and goes through where it does not.
-/

namespace Transform.Mcp

open Lib Conversions Files Access Assistant

/-! ## Payloads -/

section Payloads

def failure (error : String) : Dict := [("ok", .bool false), ("error", .str error)]

def textOrNull (text : Option String) : Json := (text.map Json.str).getD .null

def maxExtensionFilters : ℕ := 8

def maxTargetFormatsReported : ℕ := 40

def maxUploadBytes : ℕ := 25 * 1024 * 1024

def maxDownloadBytes : ℤ := 25 * 1024 * 1024

def downloadChunkBytes : ℤ := 128 * 1024

def fileNotFoundError : String := "No such file was found in your Drive."

def folderUnavailableError : String := "That folder is not available to this connection."

variable (box : MCPToolBox)

def MCPToolBox.iso (value : Option Instant) : Json := textOrNull (value.map box.isoformat)

def MCPToolBox.filePayload (row : UserFile) : Dict :=
  [("file_id", .str row.id), ("file_name", .str row.fileName), ("extension", .str row.fileExtension),
    ("size_bytes", .int row.fileSizeBytes), ("folder_id", textOrNull row.folderId),
    ("created_at", box.iso (some row.createdAt))]

def MCPToolBox.jobPayload (job : ConversionJob) : Dict :=
  [("job_id", .str job.jobId), ("status", .str job.status.value), ("source_format", .str job.conversion.sourceFormat),
    ("target_format", .str job.conversion.targetFormat), ("input_file", .str job.inputFile),
    ("output_file", textOrNull job.outputFile), ("progress", .int job.progress), ("created_at", box.iso job.createdAt),
    ("error_message", textOrNull job.errorMessage), ("download_available", .bool (job.status = .completed))]

def MCPToolBox.historyItem (job : ConversionJob) : Dict :=
  [("job_id", .str job.jobId), ("status", .str job.status.value), ("source_format", .str job.conversion.sourceFormat),
    ("target_format", .str job.conversion.targetFormat), ("input_file", .str job.inputFile),
    ("output_file", textOrNull job.outputFile), ("created_at", box.iso job.createdAt),
    ("credits_used", .int job.creditsUsed)]

def MCPToolBox.folderPayload (row : FolderRow) : Dict :=
  [("folder_id", .str row.id), ("name", .str row.name), ("created_at", box.iso (some row.createdAt))]

end Payloads

/-! ## Arguments -/

section Arguments

/-- `extension`: one extension, or a list of them. -/
inductive ExtensionArg
  | one (value : String)
  | many (values : List String)

def ExtensionArg.values : ExtensionArg → List String
  | .one value => [value]
  | .many values => values

/-- `_normalize_extension_filter`: different extensions, in order. -/
def normalizeExtensionFilter (extension : Option ExtensionArg) : List String :=
  let normalized := ((extension.map ExtensionArg.values).getD []).map fun value => normalizeExtension (some value)
  ((normalized.filter (· ≠ "")).eraseDups.mergeSort fun a b => a ≤ b).take maxExtensionFilters

/-- A filter that is passed on: none where it is empty. -/
def givenExtensions (extensions : List String) : Option (List String) := if extensions = [] then none else some extensions

/-- `_as_int`. -/
def MCPToolBox.asInt (box : MCPToolBox) (value : Json) (default : Option ℤ) : Option ℤ :=
  match value with
  | .int n => some n
  | .float f => (box.looseInt (.float f)).or default
  | .str text => (box.looseInt (.str text)).or default
  | _ => default

/-- `_clamp_limit`. -/
def MCPToolBox.clampLimit (box : MCPToolBox) (limit : Json) : ℤ :=
  max 1 (min ((box.asInt limit (some 20)).getD 20) box.maxListLimit)

/-- The size of a page that a model wrote: at most the chunk, which it is where none is written. -/
def MCPToolBox.chunkOf (box : MCPToolBox) (maxBytes : Json) : ℤ :=
  match box.asInt maxBytes none with
  | some requested => if 0 < requested then min requested downloadChunkBytes else downloadChunkBytes
  | none => downloadChunkBytes

/-- An offset that a model wrote: the start, where it is none or before it. -/
def MCPToolBox.startOf (box : MCPToolBox) (offset : Json) : ℤ := max 0 ((box.asInt offset (some 0)).getD 0)

end Arguments

/-! ## The guards -/

section Guards

variable (box : MCPToolBox) (ctx : MCPToolContext)

/-- `_FolderResolution`: the folders that can be reached, all of them where there is no subtree, or a refusal. -/
structure FolderResolution where
  subtree : Option (List String) := none
  denial : Option Dict := none

def FolderResolution.allows (folder : FolderResolution) (folderId : Option String) : Bool :=
  match folder.subtree with
  | none => true
  | some subtree => folderId.any subtree.contains

def folderUnavailable : Dict := failure folderUnavailableError

/-- `_require`: a refusal where the scope was not granted. -/
def MCPToolBox.require (scope : AgentScope) (tool : String) : Option Dict :=
  if ctx.allows scope then none
  else some [("ok", .bool false), ("error", .str (s!"This application was not granted the {box.repr scope.value} " ++
      s!"permission, so {tool} is not available. Ask the user to reconnect and allow it.")),
    ("required_scope", .str scope.value)]

/-- `_resolve_folder`. -/
def resolveFolder : ToolM FolderResolution :=
  match ctx.folderAccess with
  | .all => pure {}
  | .folder =>
    match truthy ctx.folderId with
    | none => pure { denial := some folderUnavailable }
    | some folderId => do
      match ← call (.resolveFolderScope ctx.userId folderId) with
      | none => pure { denial := some folderUnavailable }
      | some subtree => pure { subtree := some subtree }

/-- A tool behind its two guards. -/
def MCPToolBox.guarded (scope : AgentScope) (tool : String) (body : FolderResolution → ToolM Dict) : ToolM Dict :=
  match box.require ctx scope tool with
  | some denied => pure denied
  | none => do
    let folder ← resolveFolder ctx
    match folder.denial with
    | some denial => pure denial
    | none => body folder

/-- `_owned_file`. -/
def ownedFile (fileId : String) : ToolM (Except Dict UserFile) :=
  Act.tryCatch (do pure (.ok (← call (.getFile ctx.userId fileId)))) fun e =>
    if e.cls = .fileRecordNotFound then pure (.error (failure fileNotFoundError)) else .throw e

/-- `_owned_file_in_scope`. -/
def ownedFileInScope (fileId : String) (folder : FolderResolution) : ToolM (Except Dict UserFile) := do
  match ← ownedFile ctx fileId with
  | .error refusal => pure (.error refusal)
  | .ok row =>
    if folder.allows row.folderId then pure (.ok row) else pure (.error (failure fileNotFoundError))

/-- A folder that a confined grant falls back on: its own; the root for another. -/
def defaultFolder (folder : FolderResolution) (folderId : Option String) : Option String :=
  if folderId = none ∧ folder.subtree ≠ none then ctx.folderId else folderId

/-- A `FolderNotFoundError` becomes a payload. -/
def orNotFound {α : Type} (p : ToolM α) (payload : Dict) : ToolM (Except Dict α) :=
  Act.tryCatch (do pure (.ok (← p))) fun e =>
    if e.cls = .folderNotFound then pure (.error payload) else .throw e

end Guards

theorem wpe_guarded {ctx : MCPToolContext} {box : MCPToolBox} {G : Type} {M : Monitor PortSig G} {scope : AgentScope}
    {tool : String} {body : FolderResolution → ToolM Dict} {Q : Dict → G → Prop} {E : PortError → G → Prop} {g : G}
    (hdenied : ctx.allows scope = false → ∀ error,
      Q [("ok", .bool false), ("error", .str error), ("required_scope", .str scope.value)] g)
    (h : ctx.allows scope = true → wpe M (resolveFolder ctx) (fun folder g =>
      (∀ denial, folder.denial = some denial → Q denial g) ∧ (folder.denial = none → wpe M (body folder) Q E g)) E g) :
    wpe M (box.guarded ctx scope tool body) Q E g := by
  unfold MCPToolBox.guarded MCPToolBox.require
  rcases hscope : ctx.allows scope with _ | _
  · exact hdenied hscope _
  · rw [if_pos rfl]
    dsimp only
    rw [wpe_bind]
    refine wpe_mono (h hscope) (fun folder g hfolder => ?_) fun e g he => he
    rcases hdenial : folder.denial with _ | denial
    · exact hfolder.2 hdenial
    · exact hfolder.1 denial hdenial

/-! ## Tools that read -/

section Reading

variable (box : MCPToolBox) (ctx : MCPToolContext)

def MCPToolBox.getSupportedConversions (sourceFormat : Option String) : ToolM Dict :=
  box.guarded ctx .documentsRead "get_supported_conversions" fun _ =>
    let source := normalizeExtension sourceFormat
    if source = "" then
      pure [("ok", .bool true),
        ("conversions", .obj (box.conversionMap.map fun entry => (entry.1, .arr (entry.2.map .str)))),
        ("source_format_count", .int box.conversionMap.length),
        ("target_format_count", .int (box.conversionMap.flatMap (·.2)).eraseDups.length)]
    else
      let targets := (mapGet box.conversionMap source).getD []
      if targets = [] then
        pure [("ok", .bool false), ("error", .str s!"{box.repr source} is not a supported input format."),
          ("hint", .str "Call get_supported_conversions without a source_format to list them all.")]
      else pure [("ok", .bool true), ("source_format", .str source), ("target_formats", .arr (targets.map .str))]

/-- The answer of `list_files` for the rows that were found. -/
def MCPToolBox.filesPayload (rows : List UserFile) (total : ℤ) (query : Option String) (extensions : List String) : Dict :=
  let note : Option String :=
    if rows = [] ∧ query ≠ none then some "No file names matched that search."
    else if rows = [] ∧ extensions ≠ [] then
      some ("No files had any of those extensions. If you filtered by a category word, try the concrete extensions " ++
        "for it.")
    else none
  [("ok", .bool true), ("files", .arr (rows.map fun row => .obj (box.filePayload row))), ("total", .int total),
      ("returned", .int rows.length)] ++
    (if extensions = [] then [] else [("filtered_by_extension", .arr (extensions.map .str))]) ++
    (note.map fun note => ("note", Json.str note)).toList

def MCPToolBox.listFiles (query : Option String) (extension : Option ExtensionArg) (folderId : Option String)
    (limit offset : ℤ) : ToolM Dict :=
  box.guarded ctx .documentsRead "list_files" fun folder => do
    let limit := box.clampLimit (.int limit)
    let offset := max 0 offset
    let extensions := normalizeExtensionFilter extension
    match truthy query, folderId with
    | some query, _ => do
      let (rows, total) ← call (.searchFiles ctx.userId query offset limit (givenExtensions extensions) folder.subtree)
      pure (box.filesPayload rows total (some query) extensions)
    | none, some folderId =>
      if folder.allows (some folderId) then do
        let listed := call (.listFiles ctx.userId (some folderId) offset limit (givenExtensions extensions))
        match ← orNotFound listed (failure "That folder was not found.") with
        | .ok (rows, total) => pure (box.filesPayload rows total none extensions)
        | .error payload => pure payload
      else pure folderUnavailable
    | none, none =>
      if folder.subtree ≠ none then do
        let listed := call (.listFiles ctx.userId ctx.folderId offset limit (givenExtensions extensions))
        match ← orNotFound listed folderUnavailable with
        | .ok (rows, total) => pure (box.filesPayload rows total none extensions)
        | .error payload => pure payload
      else do
        let (rows, total) ← call (.listAllFiles ctx.userId offset limit (givenExtensions extensions))
        pure (box.filesPayload rows total none extensions)

/-- The answer of `list_folders` for the rows of a page: those that can be reached, and how many. -/
def MCPToolBox.foldersPayload (folder : FolderResolution) (rows : List FolderRow) (total : ℤ)
    (targetParent : Option String) : Dict :=
  let visible := rows.filter fun row => folder.allows (some row.id)
  let total := if folder.subtree = none then total else visible.length
  [("ok", .bool true), ("folders", .arr (visible.map fun row => .obj (box.folderPayload row))), ("total", .int total),
      ("returned", .int visible.length)] ++
    (targetParent.map fun parentId => ("parent_id", Json.str parentId)).toList ++
    if visible = [] then
      [("note", .str ("No folders here. `list_files` without a folder_id still lists every file in the Drive, " ++
        "whichever folder it is in."))]
    else []

def MCPToolBox.listFolders (parentId : Option String) (limit offset : Json) : ToolM Dict :=
  box.guarded ctx .documentsRead "list_folders" fun folder =>
    if parentId ≠ none ∧ folder.allows parentId = false then pure folderUnavailable
    else
      let bounded := box.clampLimit limit
      let start := box.startOf offset
      match defaultFolder ctx folder parentId with
      | none => do
        let (rows, total) ← call (.listRootFolders ctx.userId start bounded)
        pure (box.foldersPayload folder rows total none)
      | some targetParent => do
        match ← orNotFound (call (.getFolderContents ctx.userId targetParent start bounded)) folderUnavailable with
        | .ok (_, rows, total, _, _) => pure (box.foldersPayload folder rows total (some targetParent))
        | .error payload => pure payload

def MCPToolBox.getFile (fileId : String) : ToolM Dict :=
  box.guarded ctx .documentsRead "get_file" fun folder => do
    match ← ownedFileInScope ctx fileId folder with
    | .error refusal => pure refusal
    | .ok row => pure [("ok", .bool true), ("file", .obj (box.filePayload row))]

def MCPToolBox.getConversionStatus (jobId : String) : ToolM Dict :=
  box.guarded ctx .documentsRead "get_conversion_status" fun _ => do
    match (← call (.getConversionJob jobId)).filter fun job => isJobOwner (some job) (some ctx.userId) with
    | none => pure (failure "No such conversion was found.")
    | some job => pure [("ok", .bool true), ("job", .obj (box.jobPayload job))]

def HistoryScope.value : HistoryScope → String
  | .agent => "AGENT"
  | .all => "ALL"

def MCPToolBox.getConversionHistory (limit offset : ℤ) : ToolM Dict :=
  box.guarded ctx .documentsRead "get_conversion_history" fun _ => do
    let origin := if ctx.historyScope = .agent then some JobOrigin.mcp else none
    let (jobs, total) ← call (.listHistory ctx.userId (max 0 offset) (box.clampLimit (.int limit)) origin)
    pure [("ok", .bool true), ("items", .arr (jobs.map fun job => .obj (box.historyItem job))), ("total", .int total),
      ("returned", .int jobs.length), ("scope", .str (HistoryScope.value ctx.historyScope))]

def MCPToolBox.getCredits : ToolM Dict :=
  box.guarded ctx .documentsRead "get_credits" fun _ => do
    let balance ← call (.getBalance ctx.userId)
    pure [("ok", .bool true), ("balance", .int balance.balance), ("resets_at", box.iso balance.resetsAt)]

def pagePayload (row : UserFile) (start total : ℤ) (window : Bytes) (hasMore : Bool) : Dict :=
  let stop := start + window.length
  [("ok", .bool true), ("file_name", .str row.fileName), ("extension", .str row.fileExtension),
      ("size_bytes", .int total), ("offset", .int start), ("bytes_returned", .int window.length),
      ("has_more", .bool hasMore), ("content_base64", .str (b64encode window))] ++
    if hasMore then
      [("next_offset", .int stop),
        ("note", .str (s!"This is bytes {start}-{stop} of {total}. Call download_file again with offset={stop} for " ++
          "the next part; the content only decodes correctly once every part has been concatenated in order."))]
    else if 0 < start then [("note", .str s!"This is the final part (bytes {start}-{stop} of {total}).")]
    else []

def oversized : Dict :=
  failure ("This file is larger than the 25 MB limit for returning content to the model. Open it in the Transform web " ++
    "app to download or convert it instead.")

/-- The page that a read gives; `readLimit` is the bound of the read. -/
def pageOf (row : UserFile) (start chunk readLimit : ℤ) (data : Bytes) : Dict :=
  let measured : ℤ := data.length
  if maxDownloadBytes < measured then oversized
  else if measured ≤ start ∧ 0 < measured then
    failure s!"offset {start} is past the end of this file, which is {measured} bytes." ++
      [("size_bytes", .int measured)]
  else
    let window := (data.drop start.toNat).take chunk.toNat
    let stop := start + window.length
    if measured < readLimit then pagePayload row start measured window false
    else pagePayload row start (max row.fileSizeBytes measured) window (stop < measured || stop < row.fileSizeBytes)

def MCPToolBox.downloadFile (fileId : String) (offset maxBytes : Json) : ToolM Dict :=
  box.guarded ctx .documentsRead "download_file" fun folder => do
    match ← ownedFileInScope ctx fileId folder with
    | .error refusal => pure refusal
    | .ok row =>
      if maxDownloadBytes < row.fileSizeBytes then pure oversized
      else
        let start := box.startOf offset
        let chunk := box.chunkOf maxBytes
        let readLimit := min maxDownloadBytes (start + chunk + 1)
        Act.tryCatch (do pure (pageOf row start chunk readLimit
            (← call (.readObject row.fileKey readLimit ctx.userId.repr)))) fun _ =>
          pure (failure "The file could not be read from storage.")

end Reading

/-! ## Tools that change something -/

section Changing

variable (box : MCPToolBox) (ctx : MCPToolContext)

def MCPToolBox.createFolder (name : String) (parentId : Option String) : ToolM Dict :=
  box.guarded ctx .documentsWrite "create_folder" fun folder =>
    let cleaned := strip name
    if cleaned = "" then pure (failure "A folder name is required.")
    else if 255 < cleaned.length then pure (failure "That folder name is too long (255 characters max).")
    else if parentId ≠ none ∧ folder.allows parentId = false then pure folderUnavailable
    else
      Act.tryCatch (do
        let created ← call (.createFolder ctx.userId cleaned (defaultFolder ctx folder parentId))
        pure [("ok", .bool true), ("folder", .obj (box.folderPayload created))]) fun e =>
        if e.cls = .folderNotFound then pure folderUnavailable
        else if e.cls = .folderNameConflict then
          pure (failure s!"A folder named {box.repr cleaned} already exists in that location.")
        else .throw e

def MCPToolBox.convertFile (fileId targetFormat : String) : ToolM Dict :=
  box.guarded ctx .documentsConvert "convert_file" fun folder => do
    match ← ownedFileInScope ctx fileId folder with
    | .error refusal => pure refusal
    | .ok row =>
      let source := if normalizeExtension (some row.fileExtension) = "" then extensionFromFilename row.fileName
        else normalizeExtension (some row.fileExtension)
      let target := normalizeExtension (some targetFormat)
      let supported := (mapGet box.conversionMap source).getD []
      if target = "" then pure (failure "target_format must be a file extension such as 'pdf'.")
      else if target ∉ supported then
        let named := if source = "" then "that file" else source
        pure [("ok", .bool false), ("error", .str s!"Cannot convert {named} to {target}."),
          ("source_format", .str source),
          ("target_formats", .arr ((supported.take maxTargetFormatsReported).map .str)),
          ("hint", .str ("Pick one of target_formats, or call get_supported_conversions with " ++
            s!"source_format={box.repr source} for the same list."))]
      else do
        let tier ← ctx.resolveTier
        let job ← call (.convertLibraryFile row.fileName source target row.fileKey ctx.userId tier .mcp)
        pure [("ok", .bool true), ("job", .obj (box.jobPayload job)),
          ("note", .str ("The conversion is running in the background. Poll get_conversion_status with this job_id. " ++
            "The original file is unchanged."))]

/-- `_default_output_name`. -/
def defaultOutputName (job : ConversionJob) : String :=
  match truthy job.outputFile with
  | some outputFile => String.ofList (outputFile.toList.reverse.takeWhile (· ≠ '/')).reverse
  | none => s!"converted.{job.conversion.targetFormat}"

/-- The bytes of a session are written and the upload is completed; on any exception the session is discarded. -/
def storeUpload (session : UploadSession) (write : ToolM Unit) (verb : String) : ToolM (Except Dict String) :=
  Act.tryCatch (do
    write
    let upload ← call (.verifyUploadCompletion session.uploadId)
    pure (.ok (← call (.completeUpload ctx.userId upload)))) fun e => do
    call (.deleteUploadSession session.uploadId)
    if e.cls.isFileSystem ∨ e.cls = .osError then pure (.error (failure s!"The file could not be {verb}: {e.message}"))
    else pure (.error (failure s!"The file could not be {verb} because storage was unavailable."))

/-- What is said of a file that was stored: its id, whatever its row is. -/
def storedFile (fileId : String) : ToolM Json := do
  let _ ← ownedFile ctx fileId
  pure (.obj [("file_id", .str fileId)])

/-- Where a new file goes: the named folder, where it can be reached, or the one that a grant falls back on. -/
def destinationOf (folder : FolderResolution) (folderId : Option String) (store : Option String → ToolM Dict) :
    ToolM Dict :=
  if folderId ≠ none ∧ folder.allows folderId = false then pure folderUnavailable
  else store (defaultFolder ctx folder folderId)

/-- The output of a completed job is copied into the library. -/
def saveOutput (job : ConversionJob) (destination fileName : Option String) : ToolM Dict :=
  let outputName := (truthy fileName).getD (defaultOutputName job)
  let extension := extensionFromFilename outputName
  if extension = "" then pure (failure "A file name with an extension is required.")
  else
    match truthy job.outputFile with
    | none => pure (failure "That conversion produced no output to save.")
    | some outputFile => do
      let session ← call (.createUpload extension ctx.userId.repr outputName destination)
      let copy := do
        let _ ← call (.copyObject outputFile session.objectKey)
      match ← storeUpload ctx session copy "saved" with
      | .error payload => pure payload
      | .ok fileId => do
        let file ← storedFile ctx fileId
        pure [("ok", .bool true), ("file", file),
          ("note", .str "Saved to your Drive. The original conversion output is still available for download.")]

def MCPToolBox.saveFile (jobId : String) (folderId fileName : Option String) : ToolM Dict :=
  box.guarded ctx .documentsWrite "save_file" fun folder =>
    destinationOf ctx folder folderId fun destination => do
      match (← call (.getConversionJob jobId)).filter fun job => isJobOwner (some job) (some ctx.userId) with
      | none => pure (failure "No such conversion was found.")
      | some job =>
        if job.status ≠ .completed then
          let status := lower job.status.value
          pure (failure s!"That conversion is {status}; only a completed conversion can be saved." ++
            [("job", .obj (box.jobPayload job))])
        else if job.clientEncrypted ∨ (truthy job.dataKeyWrapped).isSome then
          pure (failure ("That conversion's output is encrypted with a key only your browser holds, so it cannot be " ++
            "saved to your Drive from here."))
        else saveOutput ctx job destination fileName

def tooLargeToUpload : Dict :=
  failure ("Content larger than 25 MB cannot be uploaded through this tool. Ask the user to upload it in the Transform " ++
    "web app instead.")

/-- The bytes that an agent sent, as a new file. -/
def uploadBytes (fileName : String) (data : Bytes) (destination : Option String) : ToolM Dict :=
  let extension := extensionFromFilename fileName
  if extension = "" then pure (failure "file_name must include a file extension such as 'pdf'.")
  else do
    let authorized ← Act.tryCatch (do
      let _ ← call (.authorizeUploadSize ctx.userId data.length)
      pure (Except.ok ())) fun e =>
      if e.cls.isFileSystem then pure (.error (failure e.message)) else .throw e
    match authorized with
    | .error payload => pure payload
    | .ok () => do
      let created ← Act.tryCatch
        (do pure (Except.ok (← call (.createUpload extension ctx.userId.repr fileName destination)))) fun e =>
        if e.cls.isFileSystem ∨ e.cls = .valueError ∨ e.cls = .osError then
          pure (.error (failure s!"The file could not be uploaded: {e.message}"))
        else .throw e
      match created with
      | .error payload => pure payload
      | .ok session => do
        match ← storeUpload ctx session (call (.putObject session.objectKey data)) "uploaded" with
        | .error payload => pure payload
        | .ok fileId => do
          let file ← storedFile ctx fileId
          pure [("ok", .bool true), ("file", file)]

def MCPToolBox.uploadFile (fileName contentBase64 : String) (folderId : Option String) : ToolM Dict :=
  box.guarded ctx .documentsWrite "upload_file" fun folder =>
    destinationOf ctx folder folderId fun destination =>
      if 4 * ((maxUploadBytes + 2) / 3) < contentBase64.length then pure tooLargeToUpload
      else
        match b64decode contentBase64 with
        | none => pure (failure "content_base64 is not valid base64-encoded data.")
        | some data =>
          if data = [] then pure (failure "The uploaded content was empty.")
          else if maxUploadBytes < data.length then pure tooLargeToUpload
          else uploadBytes ctx fileName data destination

def MCPToolBox.deleteFile (fileId : String) : ToolM Dict :=
  box.guarded ctx .documentsDelete "delete_file" fun folder => do
    match ← ownedFileInScope ctx fileId folder with
    | .error refusal => pure refusal
    | .ok row => do
      call (.deleteFile ctx.userId fileId)
      pure [("ok", .bool true), ("deleted_file_id", .str fileId), ("file_name", .str row.fileName)]

end Changing

/-! ## The tools -/

section Tools

/-- A tool and its arguments. -/
inductive ToolCall
  | getSupportedConversions (sourceFormat : Option String)
  | listFiles (query : Option String) (extension : Option ExtensionArg) (folderId : Option String) (limit offset : ℤ)
  | listFolders (parentId : Option String) (limit offset : Json)
  | createFolder (name : String) (parentId : Option String)
  | getFile (fileId : String)
  | getConversionStatus (jobId : String)
  | getConversionHistory (limit offset : ℤ)
  | getCredits
  | downloadFile (fileId : String) (offset maxBytes : Json)
  | convertFile (fileId targetFormat : String)
  | saveFile (jobId : String) (folderId fileName : Option String)
  | uploadFile (fileName contentBase64 : String) (folderId : Option String)
  | deleteFile (fileId : String)

def ToolCall.program (box : MCPToolBox) (ctx : MCPToolContext) : ToolCall → ToolM Dict
  | .getSupportedConversions sourceFormat => box.getSupportedConversions ctx sourceFormat
  | .listFiles query extension folderId limit offset => box.listFiles ctx query extension folderId limit offset
  | .listFolders parentId limit offset => box.listFolders ctx parentId limit offset
  | .createFolder name parentId => box.createFolder ctx name parentId
  | .getFile fileId => box.getFile ctx fileId
  | .getConversionStatus jobId => box.getConversionStatus ctx jobId
  | .getConversionHistory limit offset => box.getConversionHistory ctx limit offset
  | .getCredits => box.getCredits ctx
  | .downloadFile fileId offset maxBytes => box.downloadFile ctx fileId offset maxBytes
  | .convertFile fileId targetFormat => box.convertFile ctx fileId targetFormat
  | .saveFile jobId folderId fileName => box.saveFile ctx jobId folderId fileName
  | .uploadFile fileName contentBase64 folderId => box.uploadFile ctx fileName contentBase64 folderId
  | .deleteFile fileId => box.deleteFile ctx fileId

/-! A box and a caller that runs on fixed inputs are shown with. -/

def quietBox : MCPToolBox where
  conversionMap := [("docx", ["pdf"])]
  isoformat _ := ""
  repr text := text
  looseInt _ := none

def readerContext : MCPToolContext := { userId := 1, scopes := [.documentsRead] }

end Tools

end Transform.Mcp
