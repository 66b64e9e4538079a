import Transform.Mcp.ToolBox

/-!
# Mcp.Failures — what a tool does when a port raises

Each call of a port stands where the tool handles some classes of exception, or none (`handles`).  A run of a tool
answers with a payload, and leaves no upload session behind a refusal, exactly when every exception in it is one that is
handled where it is raised (`settles_iff_handled`).
-/

namespace Transform.Mcp

open Lib Conversions Files Access Assistant

/-! ## What is handled where -/

section Handling

/-- Whether a tool handles an exception of a call.  Only `upload_file` handles one of `create_upload`. -/
def handles (uploads : Bool) (op : PortOp) (e : PortError) : Bool :=
  match op with
  | .getFile _ _ => e.cls = .fileRecordNotFound
  | .listFiles _ _ _ _ _ | .getFolderContents _ _ _ _ => e.cls = .folderNotFound
  | .createFolder _ _ _ => e.cls = .folderNotFound || e.cls = .folderNameConflict
  | .authorizeUploadSize _ _ => e.cls.isFileSystem
  | .createUpload _ _ _ _ => uploads && (e.cls.isFileSystem || e.cls = .valueError || e.cls = .osError)
  | .readObject _ _ _ | .copyObject _ _ | .putObject _ _ | .verifyUploadCompletion _ | .completeUpload _ _ => true
  | _ => false

def handled (uploads : Bool) (ev : Event PortSig) : Bool :=
  match ev.out with
  | .ok _ => true
  | .error e => handles uploads ev.op e

def created (ev : Event PortSig) : Option String :=
  match ev with
  | ⟨.createUpload _ _ _ _, .ok session, _, _⟩ => some session.uploadId
  | _ => none

def discarded (ev : Event PortSig) : Option String :=
  match ev with
  | ⟨.deleteUploadSession uploadId, .ok _, _, _⟩ => some uploadId
  | _ => none

def ToolCall.uploads : ToolCall → Bool
  | .uploadFile _ _ _ => true
  | _ => false

/-- A run ends with a payload that says whether it is a success; behind a refusal, every upload session that was created
has been discarded. -/
def Settles (tr : List (Event PortSig)) (r : Except PortError Dict) : Prop :=
  ∃ payload ok, r = .ok payload ∧ mapGet payload "ok" = some (.bool ok) ∧
    (ok = false → ∀ before ev after uploadId, tr = before ++ ev :: after → created ev = some uploadId →
      ∃ ev' ∈ after, discarded ev' = some uploadId)

end Handling

/-! ## The ledger of a run -/

section Ledger

def onSession : PortOp → Bool
  | .createUpload _ _ _ _ | .deleteUploadSession _ => true
  | _ => false

/-- Whether all that was raised was handled, and the upload sessions that are there. -/
structure Ledger where
  clean : Bool := true
  held : List String := []

def Ledger.step (uploads : Bool) (g : Ledger) (ev : Event PortSig) : Ledger where
  clean := g.clean && handled uploads ev
  held := (g.held.filter fun uploadId => discarded ev ≠ some uploadId) ++ (created ev).toList

variable {uploads : Bool} {tr : List (Event PortSig)} {g : Ledger} {uploadId : String}

theorem step_plain {ev : Event PortSig} (hop : onSession ev.op = false) :
    Ledger.step uploads g ev = { g with clean := g.clean && handled uploads ev } := by
  obtain ⟨op, out, took, h⟩ := ev
  have hnone : created ⟨op, out, took, h⟩ = none ∧ discarded ⟨op, out, took, h⟩ = none := by
    cases op with
    | createUpload => cases hop
    | deleteUploadSession => cases hop
    | _ => exact ⟨rfl, rfl⟩
  have hheld : (g.held.filter fun uploadId => discarded ⟨op, out, took, h⟩ ≠ some uploadId) = g.held := by
    rw [hnone.2]
    exact List.filter_eq_self.2 fun _ _ => rfl
  rw [Ledger.step, hheld, hnone.1, Option.toList_none, List.append_nil]

theorem handled_ok {op : PortOp} {a : op.Ans} : handled uploads (.done op (.ok a)) = true := rfl

theorem handled_error {op : PortOp} {e : PortError} {took : Bool} {h : ∀ a, Except.error e = .ok a → took = true} :
    handled uploads ⟨op, .error e, took, h⟩ = handles uploads op e := rfl

theorem clean_foldl : (tr.foldl (Ledger.step uploads) g).clean = true ↔
    g.clean = true ∧ ∀ ev ∈ tr, handled uploads ev = true := by
  induction tr generalizing g with
  | nil => simp
  | cons ev tr ih =>
    rw [List.foldl_cons, ih, List.forall_mem_cons, ← and_assoc]
    exact and_congr_left fun _ => Bool.and_eq_true_iff

theorem held_foldl (hheld : uploadId ∈ g.held) (hkeep : ∀ ev ∈ tr, discarded ev ≠ some uploadId) :
    uploadId ∈ (tr.foldl (Ledger.step uploads) g).held := by
  induction tr generalizing g with
  | nil => exact hheld
  | cons ev tr ih =>
    refine ih (List.mem_append_left _ (List.mem_filter.2 ⟨hheld, ?_⟩)) fun ev' hev' =>
      hkeep ev' (List.mem_cons_of_mem _ hev')
    exact decide_eq_true (hkeep ev (List.mem_cons_self ..))

theorem discarded_of_held (h : (tr.foldl (Ledger.step uploads) g).held = []) {before after : List (Event PortSig)}
    {ev : Event PortSig} (htr : tr = before ++ ev :: after) (hcreated : created ev = some uploadId) :
    ∃ ev' ∈ after, discarded ev' = some uploadId := by
  by_contra hnot
  have hkeep : ∀ ev' ∈ after, discarded ev' ≠ some uploadId := fun ev' hev' hdiscarded =>
    hnot ⟨ev', hev', hdiscarded⟩
  rw [htr, List.foldl_append, List.foldl_cons] at h
  have hheld : uploadId ∈ (Ledger.step uploads (before.foldl (Ledger.step uploads) g) ev).held := by
    refine List.mem_append_right _ ?_
    rw [hcreated]
    exact List.mem_singleton_self _
  have hmem : uploadId ∈ (after.foldl (Ledger.step uploads) _).held := held_foldl hheld hkeep
  rw [h] at hmem
  cases hmem

end Ledger

/-! ## The tools against the ledger -/

section Tools

def HasOk (payload : Dict) : Prop := ∃ ok rest, payload = ("ok", .bool ok) :: rest

/-- A payload, after nothing but what is handled; behind a refusal no session is held. -/
def Answered (payload : Dict) (g : Ledger) : Prop :=
  g.clean = true ∧ ∃ ok rest, payload = ("ok", .bool ok) :: rest ∧ (ok = false → g.held = [])

/-- An exception goes through only where one was not handled. -/
def Missed (_ : PortError) (g : Ledger) : Prop := g.clean = false

abbrev ledger (uploads : Bool) : Monitor PortSig Ledger := .observe (Ledger.step uploads)

/-- A program that answers, where so far all was handled and no session is there. -/
structure Answers (uploads : Bool) (p : ToolM Dict) : Prop where
  wpe : wpe (ledger uploads) p Answered Missed {}

variable {uploads : Bool} {ctx : MCPToolContext} {α : Type}

theorem answers_pure {payload : Dict} (h : HasOk payload) : Answers uploads (pure payload) := by
  obtain ⟨ok, rest, hpayload⟩ := h
  exact ⟨⟨rfl, ok, rest, hpayload, fun _ => rfl⟩⟩

theorem answers_ite {c : Prop} [Decidable c] {p q : ToolM Dict} (hp : Answers uploads p) (hq : Answers uploads q) :
    Answers uploads (if c then p else q) := by
  split
  · exact hp
  · exact hq

theorem wpe_port {op : PortOp} {Q : op.Ans → Ledger → Prop} {E : PortError → Ledger → Prop} {g : Ledger}
    (hop : onSession op = false) (hok : ∀ a, Q a g) (hcaught : ∀ e, handles uploads op e = true → E e g)
    (hmissed : ∀ e, handles uploads op e = false → E e { g with clean := false }) :
    wpe (ledger uploads) (call op) Q E g := by
  refine wpe_ask.2 ⟨trivial, fun a _ => ?_, fun e took h _ => ?_⟩
  · have hstep : Ledger.step uploads g (.done op (.ok a)) = g := by
      rw [step_plain hop, handled_ok, Bool.and_true]
    show Q a (Ledger.step uploads g (.done op (.ok a)))
    rw [hstep]
    exact hok a
  · show E e (Ledger.step uploads g ⟨op, .error e, took, h⟩)
    rw [step_plain hop, handled_error]
    rcases hh : handles uploads op e with _ | _
    · rw [Bool.and_false]
      exact hmissed e hh
    · rw [Bool.and_true]
      exact hcaught e hh

/-- A call outside every `try`, of which nothing is handled. -/
theorem wpe_bare {op : PortOp} {Q : op.Ans → Ledger → Prop} {g : Ledger} (hop : onSession op = false)
    (hnone : ∀ e, handles uploads op e = false) (hok : ∀ a, Q a g) : wpe (ledger uploads) (call op) Q Missed g :=
  wpe_port hop hok (fun e he => absurd he (by rw [hnone e]; exact Bool.false_ne_true)) fun _ _ => rfl

theorem wpe_ownedFile {fileId : String} {Q : Except Dict UserFile → Ledger → Prop} {g : Ledger}
    (hok : ∀ row, Q (.ok row) g) (hno : Q (.error (failure fileNotFoundError)) g) :
    wpe (ledger uploads) (ownedFile ctx fileId) Q Missed g := by
  unfold ownedFile
  simp only [wpe_tryCatch, wpe_bind, wpe_pure]
  refine wpe_port rfl hok (fun e he => ?_) fun e he => ?_
  · rw [if_pos (of_decide_eq_true he)]
    exact hno
  · rw [if_neg (of_decide_eq_false he)]
    rfl

theorem wpe_ownedFileInScope {fileId : String} {folder : FolderResolution} {Q : Except Dict UserFile → Ledger → Prop}
    {g : Ledger} (hok : ∀ row, Q (.ok row) g) (hno : Q (.error (failure fileNotFoundError)) g) :
    wpe (ledger uploads) (ownedFileInScope ctx fileId folder) Q Missed g := by
  unfold ownedFileInScope
  rw [wpe_bind]
  refine wpe_ownedFile (fun row => ?_) hno
  dsimp only
  split_ifs
  · exact hok row
  · exact hno

theorem wpe_orNotFound {op : PortOp} {payload : Dict} {Q : Except Dict op.Ans → Ledger → Prop} {g : Ledger}
    (hop : onSession op = false) (hhandles : ∀ e, handles uploads op e = decide (e.cls = .folderNotFound))
    (hok : ∀ a, Q (.ok a) g) (hno : Q (.error payload) g) :
    wpe (ledger uploads) (orNotFound (call op) payload) Q Missed g := by
  unfold orNotFound
  simp only [wpe_tryCatch, wpe_bind, wpe_pure]
  refine wpe_port hop hok (fun e he => ?_) fun e he => ?_
  · rw [hhandles] at he
    rw [if_pos (of_decide_eq_true he)]
    exact hno
  · rw [hhandles] at he
    rw [if_neg (of_decide_eq_false he)]
    rfl

theorem answers_guarded {box : MCPToolBox} {scope : AgentScope} {tool : String} {body : FolderResolution → ToolM Dict}
    (h : ∀ folder, Answers uploads (body folder)) : Answers uploads (box.guarded ctx scope tool body) := by
  have hdenied : Answered folderUnavailable {} := ⟨rfl, _, _, rfl, fun _ => rfl⟩
  refine ⟨wpe_guarded (fun _ error => ⟨rfl, _, _, rfl, fun _ => rfl⟩) fun _ => ?_⟩
  unfold resolveFolder
  split
  · exact ⟨fun denial hdenial => (by cases hdenial), fun _ => (h {}).wpe⟩
  · split
    · exact ⟨fun denial hdenial => Option.some.inj hdenial ▸ hdenied, fun hopen => by cases hopen⟩
    · rw [wpe_bind]
      refine wpe_bare rfl (fun _ => rfl) fun subtree => ?_
      rcases subtree with _ | subtree
      · exact ⟨fun denial hdenial => Option.some.inj hdenial ▸ hdenied, fun hopen => by cases hopen⟩
      · exact ⟨fun denial hdenial => (by cases hdenial), fun _ => (h { subtree := some subtree }).wpe⟩

variable {box : MCPToolBox}

theorem answers_getSupportedConversions {sourceFormat : Option String} :
    Answers uploads (box.getSupportedConversions ctx sourceFormat) := by
  unfold MCPToolBox.getSupportedConversions
  refine answers_guarded fun folder => ?_
  dsimp only
  generalize normalizeExtension sourceFormat = source
  split_ifs
  · exact answers_pure ⟨_, _, rfl⟩
  · exact answers_pure ⟨_, _, rfl⟩
  · exact answers_pure ⟨_, _, rfl⟩

theorem answers_listFiles {query : Option String} {extension : Option ExtensionArg} {folderId : Option String}
    {limit offset : ℤ} : Answers uploads (box.listFiles ctx query extension folderId limit offset) := by
  have hrows : ∀ rows total query extensions,
      Answered (box.filesPayload rows total query extensions) {} := fun _ _ _ _ => ⟨rfl, _, _, rfl, fun _ => rfl⟩
  have hrefusal : ∀ error, Answered (failure error) {} := fun _ => ⟨rfl, _, _, rfl, fun _ => rfl⟩
  unfold MCPToolBox.listFiles
  refine answers_guarded fun folder => ?_
  dsimp only
  split
  · constructor
    rw [wpe_bind]
    exact wpe_bare rfl (fun _ => rfl) fun found => hrows ..
  · split_ifs
    · constructor
      rw [wpe_bind]
      exact wpe_orNotFound rfl (fun _ => rfl) (fun found => hrows ..) (hrefusal _)
    · exact answers_pure ⟨_, _, rfl⟩
  · split_ifs
    · constructor
      rw [wpe_bind]
      exact wpe_orNotFound rfl (fun _ => rfl) (fun found => hrows ..) (hrefusal _)
    · constructor
      rw [wpe_bind]
      exact wpe_bare rfl (fun _ => rfl) fun found => hrows ..

theorem answers_listFolders {parentId : Option String} {limit offset : Json} :
    Answers uploads (box.listFolders ctx parentId limit offset) := by
  have hrows : ∀ folder rows total parent,
      Answered (box.foldersPayload folder rows total parent) {} := fun _ _ _ _ => ⟨rfl, _, _, rfl, fun _ => rfl⟩
  have hrefusal : Answered folderUnavailable {} := ⟨rfl, _, _, rfl, fun _ => rfl⟩
  unfold MCPToolBox.listFolders
  refine answers_guarded fun folder => ?_
  dsimp only
  split_ifs
  · exact answers_pure ⟨_, _, rfl⟩
  · split
    · constructor
      rw [wpe_bind]
      exact wpe_bare rfl (fun _ => rfl) fun found => hrows ..
    · constructor
      rw [wpe_bind]
      exact wpe_orNotFound rfl (fun _ => rfl) (fun found => hrows ..) hrefusal

theorem answers_getFile {fileId : String} : Answers uploads (box.getFile ctx fileId) := by
  unfold MCPToolBox.getFile
  refine answers_guarded fun folder => ?_
  constructor
  rw [wpe_bind]
  exact wpe_ownedFileInScope (fun row => ⟨rfl, _, _, rfl, fun _ => rfl⟩) ⟨rfl, _, _, rfl, fun _ => rfl⟩

theorem answers_getConversionStatus {jobId : String} : Answers uploads (box.getConversionStatus ctx jobId) := by
  unfold MCPToolBox.getConversionStatus
  refine answers_guarded fun folder => ?_
  constructor
  rw [wpe_bind]
  refine wpe_bare rfl (fun _ => rfl) fun job => ?_
  split
  · exact ⟨rfl, _, _, rfl, fun _ => rfl⟩
  · exact ⟨rfl, _, _, rfl, fun _ => rfl⟩

theorem answers_getConversionHistory {limit offset : ℤ} :
    Answers uploads (box.getConversionHistory ctx limit offset) := by
  unfold MCPToolBox.getConversionHistory
  refine answers_guarded fun folder => ?_
  constructor
  rw [wpe_bind]
  exact wpe_bare rfl (fun _ => rfl) fun found => ⟨rfl, _, _, rfl, fun _ => rfl⟩

theorem answers_getCredits : Answers uploads (box.getCredits ctx) := by
  unfold MCPToolBox.getCredits
  refine answers_guarded fun folder => ?_
  constructor
  rw [wpe_bind]
  exact wpe_bare rfl (fun _ => rfl) fun balance => ⟨rfl, _, _, rfl, fun _ => rfl⟩

theorem hasOk_pageOf (row : UserFile) (start chunk readLimit : ℤ) (data : Bytes) :
    HasOk (pageOf row start chunk readLimit data) := by
  unfold pageOf
  dsimp only
  split_ifs
  · exact ⟨_, _, rfl⟩
  · exact ⟨_, _, rfl⟩
  · exact ⟨_, _, rfl⟩
  · exact ⟨_, _, rfl⟩

theorem answers_downloadFile {fileId : String} {offset maxBytes : Json} :
    Answers uploads (box.downloadFile ctx fileId offset maxBytes) := by
  unfold MCPToolBox.downloadFile
  refine answers_guarded fun folder => ?_
  constructor
  rw [wpe_bind]
  refine wpe_ownedFileInScope (fun row => ?_) ⟨rfl, _, _, rfl, fun _ => rfl⟩
  dsimp only
  split_ifs
  · exact ⟨rfl, _, _, rfl, fun _ => rfl⟩
  · rw [wpe_tryCatch, wpe_bind]
    refine wpe_port rfl (fun data => ?_) (fun e _ => ⟨rfl, _, _, rfl, fun _ => rfl⟩) fun e he => by cases he
    obtain ⟨ok, rest, hpage⟩ := hasOk_pageOf row _ _ _ data
    exact ⟨rfl, ok, rest, hpage, fun _ => rfl⟩

theorem answers_createFolder {name : String} {parentId : Option String} :
    Answers uploads (box.createFolder ctx name parentId) := by
  unfold MCPToolBox.createFolder
  refine answers_guarded fun folder => ?_
  dsimp only
  generalize strip name = cleaned
  split_ifs
  · exact answers_pure ⟨_, _, rfl⟩
  · exact answers_pure ⟨_, _, rfl⟩
  · exact answers_pure ⟨_, _, rfl⟩
  · constructor
    rw [wpe_tryCatch, wpe_bind]
    refine wpe_port rfl (fun row => ⟨rfl, _, _, rfl, fun _ => rfl⟩) (fun e he => ?_) fun e he => ?_
    · split_ifs with hmissing hconflict
      · exact ⟨rfl, _, _, rfl, fun _ => rfl⟩
      · exact ⟨rfl, _, _, rfl, fun _ => rfl⟩
      · have hnone : handles uploads (.createFolder ctx.userId cleaned (defaultFolder ctx folder parentId)) e =
            false := by simp [handles, hmissing, hconflict]
        rw [hnone] at he
        cases he
    · obtain ⟨hmissing, hconflict⟩ := Bool.or_eq_false_iff.1 he
      rw [if_neg (of_decide_eq_false hmissing), if_neg (of_decide_eq_false hconflict)]
      rfl

theorem answers_convertFile {fileId targetFormat : String} :
    Answers uploads (box.convertFile ctx fileId targetFormat) := by
  unfold MCPToolBox.convertFile
  refine answers_guarded fun folder => ?_
  constructor
  rw [wpe_bind]
  refine wpe_ownedFileInScope (fun row => ?_) ⟨rfl, _, _, rfl, fun _ => rfl⟩
  dsimp only
  generalize normalizeExtension (some targetFormat) = target
  generalize (if normalizeExtension (some row.fileExtension) = "" then extensionFromFilename row.fileName
    else normalizeExtension (some row.fileExtension)) = source
  generalize (if source = "" then "that file" else source) = named
  have htier : ∀ {Q : Billing.SubscriptionTier → Ledger → Prop}, (∀ tier, Q tier {}) →
      wpe (ledger uploads) ctx.resolveTier Q Missed {} := by
    intro Q hQ
    unfold MCPToolContext.resolveTier
    split_ifs
    · exact wpe_bare rfl (fun _ => rfl) hQ
    · exact hQ _
  split_ifs
  · exact ⟨rfl, _, _, rfl, fun _ => rfl⟩
  · rw [wpe_bind]
    refine htier fun tier => ?_
    rw [wpe_bind]
    exact wpe_bare rfl (fun _ => rfl) fun job => ⟨rfl, _, _, rfl, fun _ => rfl⟩
  · exact ⟨rfl, _, _, rfl, fun _ => rfl⟩

theorem answers_deleteFile {fileId : String} : Answers uploads (box.deleteFile ctx fileId) := by
  unfold MCPToolBox.deleteFile
  refine answers_guarded fun folder => ?_
  constructor
  rw [wpe_bind]
  refine wpe_ownedFileInScope (fun row => ?_) ⟨rfl, _, _, rfl, fun _ => rfl⟩
  rw [wpe_bind]
  exact wpe_bare rfl (fun _ => rfl) fun _ => ⟨rfl, _, _, rfl, fun _ => rfl⟩

end Tools

/-! ## The tools that store a file -/

section Storing

variable {uploads : Bool} {ctx : MCPToolContext} {box : MCPToolBox}

/-- A session is created; what is raised is handled by `upload_file`. -/
theorem wpe_createUpload {extension userId fileName : String} {folderId : Option String}
    {Q : UploadSession → Ledger → Prop} {E : PortError → Ledger → Prop}
    (hok : ∀ session, Q session { held := [session.uploadId] })
    (hcaught : ∀ e, handles uploads (.createUpload extension userId fileName folderId) e = true → E e {})
    (hmissed : ∀ e, handles uploads (.createUpload extension userId fileName folderId) e = false →
      E e { clean := false }) :
    wpe (ledger uploads) (call (.createUpload extension userId fileName folderId)) Q E {} := by
  refine wpe_ask.2 ⟨trivial, fun session _ => hok session, fun e took h _ => ?_⟩
  rcases hh : handles uploads (.createUpload extension userId fileName folderId) e with _ | _
  · have hstep : Ledger.step uploads {} ⟨.createUpload extension userId fileName folderId, .error e, took, h⟩ =
        { clean := false } := congrArg (Ledger.mk · []) hh
    show E e (Ledger.step uploads {} _)
    rw [hstep]
    exact hmissed e hh
  · have hstep : Ledger.step uploads {} ⟨.createUpload extension userId fileName folderId, .error e, took, h⟩ =
        {} := congrArg (Ledger.mk · []) hh
    show E e (Ledger.step uploads {} _)
    rw [hstep]
    exact hcaught e hh

theorem wpe_deleteUploadSession {uploadId : String} {Q : Unit → Ledger → Prop} (hok : Q () {}) :
    wpe (ledger uploads) (call (.deleteUploadSession uploadId)) Q Missed { held := [uploadId] } := by
  refine wpe_ask.2 ⟨trivial, fun _ _ => ?_, fun e took h _ => rfl⟩
  have hnone : ([uploadId].filter fun other => (some uploadId : Option String) ≠ some other) ++ [] = [] := by simp
  have hstep : Ledger.step uploads { held := [uploadId] } (.done (.deleteUploadSession uploadId) (.ok ())) = {} :=
    congrArg (Ledger.mk true ·) hnone
  show Q () (Ledger.step uploads { held := [uploadId] } (.done (.deleteUploadSession uploadId) (.ok ())))
  rw [hstep]
  exact hok

theorem wpe_storeUpload {session : UploadSession} {write : ToolM Unit} {verb : String}
    {Q : Except Dict String → Ledger → Prop}
    (hwrite : ∀ {Q : Unit → Ledger → Prop} {E : PortError → Ledger → Prop}, Q () { held := [session.uploadId] } →
      (∀ e, E e { held := [session.uploadId] }) → wpe (ledger uploads) write Q E { held := [session.uploadId] })
    (hok : ∀ fileId, Q (.ok fileId) { held := [session.uploadId] }) (hno : ∀ error, Q (.error (failure error)) {}) :
    wpe (ledger uploads) (storeUpload ctx session write verb) Q Missed { held := [session.uploadId] } := by
  have hcleanup : ∀ e : PortError, wpe (ledger uploads) (do
      call (.deleteUploadSession session.uploadId)
      if e.cls.isFileSystem ∨ e.cls = .osError then
        pure (.error (failure s!"The file could not be {verb}: {e.message}"))
      else pure (.error (failure s!"The file could not be {verb} because storage was unavailable.")))
      Q Missed { held := [session.uploadId] } := by
    intro e
    rw [wpe_bind]
    refine wpe_deleteUploadSession ?_
    split_ifs
    · exact hno _
    · exact hno _
  unfold storeUpload
  rw [wpe_tryCatch, wpe_bind]
  refine hwrite ?_ hcleanup
  rw [wpe_bind]
  refine wpe_port rfl (fun upload => ?_) (fun e _ => hcleanup e) fun e he => by cases he
  rw [wpe_bind]
  exact wpe_port rfl (fun fileId => hok fileId) (fun e _ => hcleanup e) fun e he => by cases he

theorem wpe_storedFile {fileId : String} {g : Ledger} {Q : Json → Ledger → Prop} (hok : ∀ file, Q file g) :
    wpe (ledger uploads) (storedFile ctx fileId) Q Missed g := by
  unfold storedFile
  rw [wpe_bind]
  exact wpe_ownedFile (fun _ => hok _) (hok _)

theorem answers_destinationOf {folder : FolderResolution} {folderId : Option String}
    {store : Option String → ToolM Dict} (h : ∀ destination, Answers uploads (store destination)) :
    Answers uploads (destinationOf ctx folder folderId store) := by
  unfold destinationOf
  split_ifs
  · exact answers_pure ⟨_, _, rfl⟩
  · exact h _

theorem answers_saveOutput {job : ConversionJob} {destination fileName : Option String} :
    Answers false (saveOutput ctx job destination fileName) := by
  unfold saveOutput
  dsimp only
  generalize (truthy fileName).getD (defaultOutputName job) = outputName
  generalize extensionFromFilename outputName = extension
  split_ifs
  · exact answers_pure ⟨_, _, rfl⟩
  · split
    · exact answers_pure ⟨_, _, rfl⟩
    · constructor
      rw [wpe_bind]
      refine wpe_createUpload (fun session => ?_) (fun e he => by cases he) fun e _ => rfl
      rw [wpe_bind]
      refine wpe_storeUpload (fun hok hno => ?_) (fun fileId => ?_) fun error => ⟨rfl, _, _, rfl, fun _ => rfl⟩
      · rw [wpe_bind]
        exact wpe_port rfl (fun _ => hok) (fun e _ => hno e) fun e he => by cases he
      · dsimp only
        rw [wpe_bind]
        exact wpe_storedFile fun file => ⟨rfl, _, _, rfl, fun hok => by cases hok⟩

theorem answers_saveFile {jobId : String} {folderId fileName : Option String} :
    Answers false (box.saveFile ctx jobId folderId fileName) := by
  have hsave : ∀ job destination, Answers false (saveOutput ctx job destination fileName) := fun _ _ => answers_saveOutput
  unfold MCPToolBox.saveFile
  -- What `saveOutput` is does not matter from here on.
  generalize saveOutput ctx = save at hsave ⊢
  refine answers_guarded fun folder => answers_destinationOf fun destination => ?_
  constructor
  rw [wpe_bind]
  refine wpe_bare rfl (fun _ => rfl) fun job => ?_
  split
  · exact ⟨rfl, _, _, rfl, fun _ => rfl⟩
  · split_ifs
    · exact ⟨rfl, _, _, rfl, fun _ => rfl⟩
    · exact ⟨rfl, _, _, rfl, fun _ => rfl⟩
    · exact (hsave _ _).wpe

theorem answers_uploadBytes {fileName : String} {data : Bytes} {destination : Option String} :
    Answers true (uploadBytes ctx fileName data destination) := by
  unfold uploadBytes
  dsimp only
  generalize extensionFromFilename fileName = extension
  split_ifs
  · exact answers_pure ⟨_, _, rfl⟩
  · constructor
    simp only [wpe_bind, wpe_tryCatch, wpe_pure]
    refine wpe_port rfl (fun _ => ?_) (fun e he => ?_) fun e he => ?_
    · refine wpe_createUpload (fun session => ?_) (fun e he => ?_) fun e he => ?_
      · refine wpe_storeUpload (fun hok hno => ?_) (fun fileId => ?_) fun error => ⟨rfl, _, _, rfl, fun _ => rfl⟩
        · exact wpe_port rfl (fun _ => hok) (fun e _ => hno e) fun e he => by cases he
        · show wpe (ledger true) (storedFile ctx fileId >>= _) Answered Missed _
          rw [wpe_bind]
          exact wpe_storedFile fun file => ⟨rfl, _, _, rfl, fun hok => by cases hok⟩
      · have hcaught : e.cls.isFileSystem = true ∨ e.cls = .valueError ∨ e.cls = .osError := by
          simpa [handles, or_assoc] using he
        rw [if_pos hcaught]
        exact ⟨rfl, _, _, rfl, fun _ => rfl⟩
      · have hmissed : ¬(e.cls.isFileSystem = true ∨ e.cls = .valueError ∨ e.cls = .osError) := by
          simpa [handles, and_assoc] using he
        rw [if_neg hmissed]
        rfl
    · have hcaught : e.cls.isFileSystem = true := he
      rw [if_pos hcaught]
      exact ⟨rfl, _, _, rfl, fun _ => rfl⟩
    · have hmissed : ¬e.cls.isFileSystem = true := fun htrue => by
        rw [handles, htrue] at he
        cases he
      rw [if_neg hmissed]
      rfl

theorem answers_uploadFile {fileName contentBase64 : String} {folderId : Option String} :
    Answers true (box.uploadFile ctx fileName contentBase64 folderId) := by
  unfold MCPToolBox.uploadFile
  refine answers_guarded fun folder => answers_destinationOf fun destination => ?_
  refine answers_ite (answers_pure ⟨_, _, rfl⟩) ?_
  rcases b64decode contentBase64 with _ | data
  · exact answers_pure ⟨_, _, rfl⟩
  · refine answers_ite (answers_pure ⟨_, _, rfl⟩) (answers_ite (answers_pure ⟨_, _, rfl⟩) ?_)
    exact answers_uploadBytes

end Storing

/-! ## Failures as values -/

section Main

variable {box : MCPToolBox} {ctx : MCPToolContext} {tool : ToolCall}

theorem program_answers (box : MCPToolBox) (ctx : MCPToolContext) (tool : ToolCall) :
    Answers tool.uploads (tool.program box ctx) := by
  cases tool with
  | getSupportedConversions => exact answers_getSupportedConversions
  | listFiles => exact answers_listFiles
  | listFolders => exact answers_listFolders
  | createFolder => exact answers_createFolder
  | getFile => exact answers_getFile
  | getConversionStatus => exact answers_getConversionStatus
  | getConversionHistory => exact answers_getConversionHistory
  | getCredits => exact answers_getCredits
  | downloadFile => exact answers_downloadFile
  | convertFile => exact answers_convertFile
  | saveFile => exact answers_saveFile
  | uploadFile => exact answers_uploadFile
  | deleteFile => exact answers_deleteFile

/-- A tool answers, and leaves no session behind a refusal, exactly when all that is raised in its run is handled. -/
theorem settles_iff_handled {tr : List (Event PortSig)} {r : Except PortError Dict}
    (h : Run (tool.program box ctx).run tr r) : Settles tr r ↔ ∀ ev ∈ tr, handled tool.uploads ev = true := by
  have hrun := wp_observe_run (program_answers box ctx tool).wpe h
  rcases r with e | payload
  · have hmissed : (tr.foldl (Ledger.step tool.uploads) {}).clean = false := hrun
    refine ⟨fun ⟨_, _, hr, _⟩ => (by cases hr), fun hall => ?_⟩
    rw [clean_foldl.2 ⟨rfl, hall⟩] at hmissed
    cases hmissed
  · obtain ⟨hclean, ok, rest, hpayload, hheld⟩ : Answered payload (tr.foldl (Ledger.step tool.uploads) {}) := hrun
    refine ⟨fun _ => (clean_foldl.1 hclean).2, fun _ => ⟨payload, ok, rfl, ?_, ?_⟩⟩
    · rw [hpayload]
      simp [mapGet]
    · intro hok before ev after uploadId
      exact discarded_of_held (hheld hok)

def refusingStorage : Env PortSig Unit where
  reply _
    | .authorizeUploadSize _ declaredSize => .ok declaredSize
    | .createUpload _ _ fileName _ => .ok { uploadId := "upload-1", objectKey := "uploads/1/a.pdf", fileName := some fileName }
    | .putObject _ _ => .error ⟨.osError, "connection reset"⟩
    | .deleteUploadSession _ => .ok ()
    | _ => .error ⟨.other, "not asked by an upload"⟩
  effect _ _ := ()

def refusedUpload : List (Event PortSig) × Except PortError Dict :=
  ((ToolCall.uploadFile "a.pdf" "YWI=" none).program quietBox { userId := 1, scopes := [.documentsWrite] }).run.play
    refusingStorage ()

/-- An upload whose bytes cannot be stored is refused, and its session discarded. -/
theorem uploadFile_settles : Settles refusedUpload.1 refusedUpload.2 ∧ refusedUpload.1.filterMap created = ["upload-1"] ∧
    refusedUpload.1.filterMap discarded = ["upload-1"] :=
  ⟨(settles_iff_handled (run_play refusingStorage _ ())).2 (by decide +kernel), by decide +kernel, by decide +kernel⟩

def balanceLost : Event PortSig := .lost (.getBalance 1) ⟨.other, "connection refused"⟩

/-- The exception of a balance that cannot be read goes through the tool. -/
theorem getCredits_raises :
    Run ((ToolCall.getCredits).program quietBox readerContext).run [balanceLost] (.error ⟨.other, "connection refused"⟩) ∧
      ¬ Settles [balanceLost] (.error ⟨.other, "connection refused"⟩) := by
  refine ⟨⟨_, _, _, [], rfl, rfl, rfl⟩, ?_⟩
  rintro ⟨payload, ok, hr, -⟩
  cases hr

end Main

end Transform.Mcp
