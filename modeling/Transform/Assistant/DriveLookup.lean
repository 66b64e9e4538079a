import Transform.Files.FolderListing
import Transform.Lib.QueueSearch

/-!
# Assistant.DriveLookup — folders and files by name

The tools of the assistant look a folder up among the pages of the levels of the tree, and filter the first page of a
folder's files.  A page has 200 rows; what lies behind it is not seen.

* `lookups_iff`: when a folder is found by its name, and when the files of a name are counted.
-/

namespace Transform.Assistant

open Lib Conversions Files

/-! ## Tools -/

section Tools

/-- What the tools use of Python and of the database: `str.casefold`, `repr`, the order of names, and `ILIKE '%…%'`. -/
structure DriveContext where
  casefold : String → String
  repr : String → String
  before : Collation
  ilike : String → String → Bool

def maxListLimit : ℕ := 50

def queryScanLimit : ℕ := 200

def maxArtifactsPerTool : ℕ := 5

/-- `_as_limit` for an argument that is a number or is not. -/
def asLimit (raw : Option ℤ) (default : ℕ) : ℕ :=
  match raw with
  | none => default
  | some value => (max 1 (min value maxListLimit)).toNat

/-- `needle in text`. -/
def isIn (needle text : String) : Bool := decide (needle.toList <:+: text.toList)

variable (ctx : DriveContext) (w : FolderWorld) (userId : ℤ)

/-- The page of a level that `_all_folders` asks for. -/
def folderPage (parentId : Option String) : List FolderRow :=
  (w.listByParent ctx.before userId parentId 0 queryScanLimit).1

/-- `_all_folders`, with a number of rounds for its loop. -/
def allFolders (rounds : ℕ) : Option (List FolderRow) :=
  search (fun row : FolderRow => some row.id) (folderPage ctx w userId) rounds [none] [none] []

def onlyId : List FolderRow → Option String
  | [folder] => some folder.id
  | _ => none

/-- `_resolve_folder_id`. -/
def resolveFolderId (rounds : ℕ) (reference : String) : Option (Option String) :=
  match w.ownFolder userId reference with
  | some direct => some (some direct.id)
  | none => do
    let folders ← allFolders ctx w userId rounds
    return onlyId (folders.filter fun folder => ctx.casefold folder.name = ctx.casefold reference)

def formatList (items : List String) (limit : ℕ) : String :=
  let shown := String.intercalate ", " (items.take limit)
  if limit < items.length then shown ++ s!", … ({items.length - limit} more)" else shown

/-- `_folder_argument_error`. -/
def folderArgumentError (rounds : ℕ) (reference : String) : Option String := do
  let folders ← allFolders ctx w userId rounds
  let names := (folders.map (·.name)).dedup.mergeSort fun a b => a ≤ b
  if names.isEmpty then
    return s!"There is no folder called {ctx.repr reference} — this account has no folders yet. " ++
      "Ask the user whether to create it."
  else
    return s!"I could not tell which folder {ctx.repr reference} means. Existing folders: {formatList names 12}. " ++
      "Ask the user to pick one, or use the folder's id."

end Tools

/-! ## Files -/

section FileTools

/-- Newest first, then by id. -/
def newerFile (a b : UserFile) : Bool := b.createdAt < a.createdAt || a.createdAt = b.createdAt && a.id ≤ b.id

/-- `_with_extension`. -/
def withExtension (extensions : Option (List String)) (file : UserFile) : Bool :=
  match extensions with
  | none => true
  | some [] => true
  | some extensions => file.fileExtension ∈ extensions

def orderedFiles (w : FolderWorld) (extensions : Option (List String)) (p : UserFile → Bool) : List UserFile :=
  (w.files.filter fun file => p file && withExtension extensions file).mergeSort newerFile

/-- A listing of the repository: a page from the start, and how many rows there are. -/
def selectFiles (w : FolderWorld) (extensions : Option (List String)) (limit : ℕ) (p : UserFile → Bool) :
    List UserFile × ℕ :=
  let rows := orderedFiles w extensions p
  (rows.take limit, rows.length)

def inFolder (userId : ℤ) (folderId : Option String) (file : UserFile) : Bool :=
  file.userId = userId && file.folderId = folderId

inductive ListScope
  | folder
  | allFolders
  | root
  deriving DecidableEq, Repr

/-- The arguments of `list_files` after `_as_str` and `_as_extensions`. -/
structure ListArguments where
  limit : Option ℤ
  query : Option String
  folder : Option String
  extensions : Option (List String)
  deriving DecidableEq, Repr

structure FileListing where
  files : List UserFile
  count : ℕ
  total : ℕ
  scope : ListScope
  extension : Option (List String)
  note : Option String
  artifacts : List UserFile
  deriving DecidableEq, Repr

inductive ListReply
  | error (message : String)
  | listed (listing : FileListing)
  deriving DecidableEq, Repr

variable (ctx : DriveContext) (w : FolderWorld) (userId : ℤ)

def listNote (args : ListArguments) (matched : ℕ) : Option String :=
  if matched ≠ 0 then none
  else
    match args.query, args.extensions with
    | some query, _ => some s!"No file name contains {ctx.repr query}. Try listing without a query."
    | none, some extensions =>
      some ("No file in the drive has any of: " ++ ", ".intercalate extensions ++ ". " ++
        "If that was a category word (for example 'spreadsheets'), retry with the real extensions it covers " ++
        "(xlsx, csv, ods). Only if it was already a real extension should you tell the user they have no such files.")
    | none, none => none

def listing (args : ListArguments) (rows : List UserFile) (matched total : ℕ) (scope : ListScope) : FileListing where
  files := rows
  count := matched
  total := total
  scope := scope
  extension := args.extensions
  note := listNote ctx args matched
  artifacts := rows.take maxArtifactsPerTool

/-- The names that hold a query up to case. -/
def named (query : String) (file : UserFile) : Bool := isIn (ctx.casefold query) (ctx.casefold file.fileName)

/-- The branch of `_list_files` for a folder that was resolved. -/
def listFolder (args : ListArguments) (folderId : String) : FileListing :=
  let limit := asLimit args.limit 20
  let scan := if args.query = none then limit else queryScanLimit
  let (rows, total) := selectFiles w args.extensions scan (inFolder userId (some folderId))
  let rows := match args.query with
    | none => rows
    | some query => rows.filter (named ctx query)
  listing ctx args (rows.take limit) rows.length total .folder

/-- `_list_files`. -/
def listFiles (rounds : ℕ) (args : ListArguments) : Option ListReply :=
  let limit := asLimit args.limit 20
  match args.folder, args.query, args.extensions with
  | some folderRef, _, _ => do
    match ← resolveFolderId ctx w userId rounds folderRef with
    | none => return .error (← folderArgumentError ctx w userId rounds folderRef)
    | some folderId => return .listed (listFolder ctx w userId args folderId)
  | none, some query, extensions =>
    let (rows, total) := selectFiles w extensions limit fun file => file.userId = userId && ctx.ilike file.fileName query
    some (.listed (listing ctx args rows total total .allFolders))
  | none, none, some extensions =>
    let (rows, total) := selectFiles w (some extensions) limit fun file => file.userId = userId
    some (.listed (listing ctx args rows rows.length total .allFolders))
  | none, none, none =>
    let (rows, total) := selectFiles w none limit (inFolder userId none)
    some (.listed (listing ctx args rows rows.length total .root))

end FileTools

/-! ## Folders by name -/

section Names

variable {ctx : DriveContext} {w : FolderWorld} {userId : ℤ} {rounds : ℕ} {reference : String} {row other : FolderRow}

/-- On every level down to a folder, it or its ancestor is on the page of its parent. -/
abbrev Shown (ctx : DriveContext) (w : FolderWorld) (userId : ℤ) (row : FolderRow) : Prop :=
  Reached (fun row : FolderRow => some row.id) (folderPage ctx w userId) none row

/-- A folder of the user that has a name up to case. -/
def Named (ctx : DriveContext) (w : FolderWorld) (userId : ℤ) (name : String) (row : FolderRow) : Prop :=
  row ∈ w.folders ∧ row.userId = userId ∧ ctx.casefold row.name = ctx.casefold name

/-- The id that a reference means: that of the user's folder with this id, or of the only one with this name. -/
def Means (ctx : DriveContext) (w : FolderWorld) (userId : ℤ) (reference id : String) : Prop :=
  match w.ownFolder userId reference with
  | some direct => direct.id = id
  | none =>
    ∃ row, Named ctx w userId reference row ∧ row.id = id ∧ ∀ other, Named ctx w userId reference other → other = row

/-- One of several folders of the name is shown alone, or the only one is not shown. -/
def Hidden (ctx : DriveContext) (w : FolderWorld) (userId : ℤ) (name : String) : Prop :=
  ∃ hidden, Named ctx w userId name hidden ∧ ¬ Shown ctx w userId hidden ∧
    ((∀ other, Named ctx w userId name other → other = hidden) ∨
      ∃ row, Named ctx w userId name row ∧ Shown ctx w userId row ∧
        ∀ other, Named ctx w userId name other → Shown ctx w userId other → other = row)

theorem mem_folderPage {parentId : Option String} (h : row ∈ folderPage ctx w userId parentId) :
    row ∈ w.folders ∧ row.userId = userId ∧ row.parentId = parentId := by
  have hmem := List.mem_mergeSort.mp (List.mem_of_mem_drop (List.mem_of_mem_take h))
  obtain ⟨hrow, hboth⟩ := List.mem_filter.mp hmem
  exact ⟨hrow, of_decide_eq_true hboth⟩

theorem mem_of_shown (h : Shown ctx w userId row) : row ∈ w.folders ∧ row.userId = userId := by
  cases h with
  | first h => exact ⟨(mem_folderPage h).1, (mem_folderPage h).2.1⟩
  | step _ h => exact ⟨(mem_folderPage h).1, (mem_folderPage h).2.1⟩

theorem allFolders_spec (hw : w.WellFormed) (hrounds : w.folders.length < rounds) :
    ∃ folders, allFolders ctx w userId rounds = some folders ∧ folders.Nodup ∧
      ∀ row, row ∈ folders ↔ Shown ctx w userId row := by
  have hnodes : ∀ node : Option String, ∀ row ∈ folderPage ctx w userId node,
      some row.id ∈ none :: w.folders.map fun row => some row.id := by
    intro node row hrow
    exact List.mem_cons_of_mem _ (List.mem_map_of_mem (mem_folderPage hrow).1)
  have hlength : (none :: w.folders.map fun row => some row.id).length ≤ rounds := by
    rw [List.length_cons, List.length_map]
    exact hrounds
  obtain ⟨folders, hsearch, hdistinct, hsound, hcomplete⟩ := search_spec hnodes List.mem_cons_self hlength
  refine ⟨folders, hsearch, hdistinct.of_map, fun row => ⟨hsound row, ?_⟩⟩
  intro hrow
  obtain ⟨row', hrow', hkey⟩ := hcomplete row hrow nofun
  have hid : row'.id = row.id := Option.some.inj hkey
  have hsame := List.inj_on_of_nodup_map hw (mem_of_shown (hsound row' hrow')).1 (mem_of_shown hrow).1 hid
  exact hsame ▸ hrow'

theorem onlyId_eq_some {folders : List FolderRow} (h : folders.Nodup) {id : String} :
    onlyId folders = some id ↔ ∃ row ∈ folders, row.id = id ∧ ∀ other ∈ folders, other = row := by
  match folders with
  | [] => exact iff_of_false nofun (by rintro ⟨row, hrow, -⟩; cases hrow)
  | [folder] =>
    constructor
    · intro hid
      exact ⟨folder, List.mem_cons_self, Option.some.inj hid, fun other hother => List.mem_singleton.mp hother⟩
    · rintro ⟨row, hrow, rfl, -⟩
      rw [List.mem_singleton.mp hrow]
      rfl
  | first :: second :: folders =>
    refine iff_of_false nofun ?_
    rintro ⟨row, -, -, hall⟩
    have hsame : second = first := (hall second (by simp)).trans (hall first (by simp)).symm
    exact (List.nodup_cons.mp h).1 (hsame ▸ List.mem_cons_self)

theorem resolve_by_name (hw : w.WellFormed) (hrounds : w.folders.length < rounds)
    (hnone : w.ownFolder userId reference = none) :
    ∃ answer, resolveFolderId ctx w userId rounds reference = some answer ∧ ∀ id, answer = some id ↔
      ∃ row, (Named ctx w userId reference row ∧ Shown ctx w userId row) ∧ row.id = id ∧
        ∀ other, Named ctx w userId reference other → Shown ctx w userId other → other = row := by
  obtain ⟨folders, hall, hnodup, hmem⟩ : ∃ folders, allFolders ctx w userId rounds = some folders ∧ folders.Nodup ∧
      ∀ row, row ∈ folders ↔ Shown ctx w userId row := allFolders_spec hw hrounds
  refine ⟨onlyId (folders.filter fun folder => ctx.casefold folder.name = ctx.casefold reference), ?_, ?_⟩
  · unfold resolveFolderId
    rw [hnone, hall]
    rfl
  · have hfound : ∀ row, (row ∈ folders.filter fun folder => ctx.casefold folder.name = ctx.casefold reference) ↔
        Named ctx w userId reference row ∧ Shown ctx w userId row := by
      intro row
      rw [List.mem_filter, hmem, decide_eq_true_eq]
      constructor
      · rintro ⟨hshown, hname⟩
        exact ⟨⟨(mem_of_shown hshown).1, (mem_of_shown hshown).2, hname⟩, hshown⟩
      · rintro ⟨hnamed, hshown⟩
        exact ⟨hshown, hnamed.2.2⟩
    intro id
    rw [onlyId_eq_some (hnodup.filter _)]
    refine exists_congr fun row => and_congr (hfound row) (and_congr_right fun _ => forall_congr' fun other => ?_)
    rw [hfound, and_imp]

def Resolves (ctx : DriveContext) (w : FolderWorld) (userId : ℤ) (rounds : ℕ) (reference : String) : Prop :=
  ∃ answer, resolveFolderId ctx w userId rounds reference = some answer ∧
    ∀ id, answer = some id ↔ Means ctx w userId reference id

theorem resolves_iff (hw : w.WellFormed) (hrounds : w.folders.length < rounds) :
    Resolves ctx w userId rounds reference ↔
      (w.ownFolder userId reference = none → ¬ Hidden ctx w userId reference) := by
  cases hown : w.ownFolder userId reference with
  | some direct =>
    refine iff_of_true ⟨some direct.id, ?_, ?_⟩ nofun
    · unfold resolveFolderId
      rw [hown]
    · intro id
      unfold Means
      rw [hown, Option.some_inj]
  | none =>
    obtain ⟨answer, hanswer, hid⟩ : ∃ answer, resolveFolderId ctx w userId rounds reference = some answer ∧
        ∀ id, answer = some id ↔ ∃ row, (Named ctx w userId reference row ∧ Shown ctx w userId row) ∧ row.id = id ∧
          ∀ other, Named ctx w userId reference other → Shown ctx w userId other → other = row :=
      resolve_by_name hw hrounds hown
    have hresolves : Resolves ctx w userId rounds reference ↔
        ∀ id, answer = some id ↔ Means ctx w userId reference id := by
      constructor
      · rintro ⟨answer', hanswer', hall⟩
        rw [hanswer] at hanswer'
        obtain rfl := Option.some.inj hanswer'
        exact hall
      · exact fun hall => ⟨answer, hanswer, hall⟩
    have hmeans : ∀ id, Means ctx w userId reference id ↔ ∃ row, Named ctx w userId reference row ∧ row.id = id ∧
        ∀ other, Named ctx w userId reference other → other = row := by
      intro id
      unfold Means
      rw [hown]
    rw [hresolves, forall_prop_of_true rfl]
    constructor
    · rintro h ⟨hidden, hnamed, hnot, honly | ⟨row, hrow, hshown, honly⟩⟩
      · obtain ⟨row, ⟨hrow, hshown⟩, -⟩ :=
          (hid hidden.id).mp ((h hidden.id).mpr ((hmeans _).mpr ⟨hidden, hnamed, rfl, honly⟩))
        exact hnot (honly row hrow ▸ hshown)
      · obtain ⟨found, -, -, hall⟩ :=
          (hmeans _).mp ((h row.id).mp ((hid row.id).mpr ⟨row, ⟨hrow, hshown⟩, rfl, honly⟩))
        exact hnot (((hall hidden hnamed).trans (hall row hrow).symm) ▸ hshown)
    · intro h id
      rw [hid, hmeans]
      constructor
      · rintro ⟨row, ⟨hrow, hshown⟩, hrowid, honly⟩
        refine ⟨row, hrow, hrowid, ?_⟩
        intro other hother
        by_cases hseen : Shown ctx w userId other
        · exact honly other hother hseen
        · exact absurd ⟨other, hother, hseen, Or.inr ⟨row, hrow, hshown, honly⟩⟩ h
      · rintro ⟨row, hrow, hrowid, honly⟩
        refine ⟨row, ⟨hrow, ?_⟩, hrowid, fun other hother _ => honly other hother⟩
        by_contra hnot
        exact h ⟨row, hrow, hnot, Or.inl honly⟩

end Names

/-! ## Files by name -/

section Counts

variable {ctx : DriveContext} {w : FolderWorld} {userId : ℤ} {rounds : ℕ} {limit : Option ℤ}
  {query reference folderId : String} {extensions : Option (List String)}

/-- A listing for a folder and a query counts the files of the folder, of the formats that are asked for, whose name holds
the query. -/
def Counts (ctx : DriveContext) (w : FolderWorld) (userId : ℤ) (rounds : ℕ) (args : ListArguments)
    (query folderId : String) : Prop :=
  ∃ listing, listFiles ctx w userId rounds args = some (.listed listing) ∧
    listing.count = (w.files.filter fun file =>
      inFolder userId (some folderId) file && withExtension args.extensions file && named ctx query file).length

theorem counts_iff {args : ListArguments} (hfolder : args.folder = some reference) (hquery : args.query = some query)
    (hresolved : resolveFolderId ctx w userId rounds reference = some (some folderId)) :
    Counts ctx w userId rounds args query folderId ↔
      ∀ file ∈ (orderedFiles w args.extensions (inFolder userId (some folderId))).drop queryScanLimit,
        named ctx query file = false := by
  have hreply : listFiles ctx w userId rounds args = some (.listed (listFolder ctx w userId args folderId)) := by
    unfold listFiles
    rw [hfolder]
    dsimp only
    rw [hresolved]
    rfl
  have hcount : (listFolder ctx w userId args folderId).count =
      (((orderedFiles w args.extensions (inFolder userId (some folderId))).take queryScanLimit).filter
        (named ctx query)).length := by
    unfold listFolder
    rw [hquery]
    rfl
  have hall : (w.files.filter fun file =>
      inFolder userId (some folderId) file && withExtension args.extensions file && named ctx query file).length =
      ((orderedFiles w args.extensions (inFolder userId (some folderId))).filter (named ctx query)).length := by
    have hperm := List.mergeSort_perm
      (w.files.filter fun file => inFolder userId (some folderId) file && withExtension args.extensions file) newerFile
    rw [orderedFiles, (hperm.filter _).length_eq, List.filter_filter]
    congr 1
    refine List.filter_congr fun file _ => ?_
    exact Bool.and_comm _ _
  have hsplit : ((orderedFiles w args.extensions (inFolder userId (some folderId))).filter (named ctx query)).length =
      (((orderedFiles w args.extensions (inFolder userId (some folderId))).take queryScanLimit).filter
        (named ctx query)).length +
      (((orderedFiles w args.extensions (inFolder userId (some folderId))).drop queryScanLimit).filter
        (named ctx query)).length := by
    rw [← List.length_append, ← List.filter_append, List.take_append_drop]
  have hcounts : Counts ctx w userId rounds args query folderId ↔
      (((orderedFiles w args.extensions (inFolder userId (some folderId))).drop queryScanLimit).filter
        (named ctx query)).length = 0 := by
    unfold Counts
    rw [hall, hreply]
    constructor
    · rintro ⟨listing, hlisting, hlength⟩
      obtain rfl := ListReply.listed.inj (Option.some.inj hlisting)
      omega
    · intro hzero
      refine ⟨_, rfl, ?_⟩
      omega
  rw [hcounts, List.length_eq_zero_iff, List.filter_eq_nil_iff]
  exact forall_congr' fun file => forall_congr' fun _ => iff_of_eq (Bool.not_eq_true _)

/-- **A lookup by name sees the whole drive** exactly if no folder of the name hides behind a page while the lookup rests on
it; and the files of a query are counted exactly if none is behind the page. -/
theorem lookups_iff (hw : w.WellFormed) (hrounds : w.folders.length < rounds) (reference : String) :
    (Resolves ctx w userId rounds reference ↔
      (w.ownFolder userId reference = none → ¬ Hidden ctx w userId reference)) ∧
    ∀ args query folderId, args.folder = some reference → args.query = some query →
      resolveFolderId ctx w userId rounds reference = some (some folderId) →
        (Counts ctx w userId rounds args query folderId ↔
          ∀ file ∈ (orderedFiles w args.extensions (inFolder userId (some folderId))).drop queryScanLimit,
            named ctx query file = false) :=
  ⟨resolves_iff hw hrounds, fun _ _ _ hfolder hquery hresolved => counts_iff hfolder hquery hresolved⟩

/-- The order of texts by their code points. -/
def inOrder : List Char → List Char → Bool
  | [], _ => true
  | _ :: _, [] => false
  | a :: as, b :: bs => a < b || a = b && inOrder as bs

theorem inOrder_append (text rest : List Char) : inOrder text (text ++ rest) = true := by
  induction text with
  | nil => rfl
  | cons a text ih =>
    show (decide (a < a) || decide (a = a) && inOrder text (text ++ rest)) = true
    rw [ih, decide_eq_true rfl, Bool.and_true, Bool.or_true]

/-- Lower case for the letters of ASCII, and that order. -/
def plainContext : DriveContext where
  casefold text := String.ofList (text.toList.map Char.toLower)
  repr text := s!"'{text}'"
  before a b := inOrder a.toList b.toList
  ilike text query := isIn query text

def taxes : FolderRow := ⟨⟨"t", 7, none, "Taxes"⟩, 0, 0⟩

def invoice : UserFile := ⟨"i", 7, some "t", "k", "Invoice.pdf", "pdf", 10, "application/pdf", false, 0, none⟩

def taxDrive : FolderWorld := ⟨[taxes], [invoice]⟩

def findInvoices : ListArguments := ⟨none, some "invoice", some "TAXES", none⟩

/-- In a small drive, the folder is found and its file is counted. -/
theorem taxes_found : Resolves plainContext taxDrive 7 2 "TAXES" ∧
    Counts plainContext taxDrive 7 2 findInvoices "invoice" "t" := by
  have hw : taxDrive.WellFormed := List.nodup_singleton _
  have hboth : (Resolves plainContext taxDrive 7 2 "TAXES" ↔ _) ∧ ∀ args query folderId, _ :=
    lookups_iff hw (by decide) "TAXES"
  have hown : taxDrive.ownFolder 7 "TAXES" = none := by decide
  have hpage : folderPage plainContext taxDrive 7 none = [taxes] := by
    have hrows : folderPage plainContext taxDrive 7 none =
        ([taxes].mergeSort fun a b => plainContext.before a.name b.name).take 200 := rfl
    rw [hrows, List.mergeSort_singleton]
    rfl
  have hresolves : Resolves plainContext taxDrive 7 2 "TAXES" := by
    refine hboth.1.mpr ?_
    rintro - ⟨hidden, ⟨hrow, -, -⟩, hnot, -⟩
    rw [List.mem_singleton.mp hrow] at hnot
    refine hnot (.first ?_)
    rw [hpage]
    exact List.mem_cons_self
  refine ⟨hresolves, ?_⟩
  have hresolved : resolveFolderId plainContext taxDrive 7 2 "TAXES" = some (some "t") := by
    obtain ⟨answer, hanswer, hid⟩ := hresolves
    have hmeans : Means plainContext taxDrive 7 "TAXES" "t" := by
      unfold Means
      rw [hown]
      exact ⟨taxes, ⟨List.mem_cons_self, rfl, by decide +kernel⟩, rfl, fun other hother => List.mem_singleton.mp hother.1⟩
    rw [hanswer, (hid "t").mpr hmeans]
  refine (hboth.2 findInvoices "invoice" "t" rfl rfl hresolved).mpr ?_
  have hshort : (orderedFiles taxDrive findInvoices.extensions (inFolder 7 (some "t"))).length ≤ queryScanLimit := by
    rw [orderedFiles, List.length_mergeSort]
    exact (List.length_filter_le _ _).trans (by decide)
  rw [List.drop_eq_nil_of_le hshort]
  exact fun _ => nofun

/-- A folder with a name of a number of letters. -/
def crowd (i : ℕ) : FolderRow :=
  ⟨⟨String.ofList (List.replicate (i + 1) 'A'), 7, none, String.ofList (List.replicate (i + 1) 'A')⟩, 0, 0⟩

/-- A drive with two hundred folders in front of another one. -/
def crowdedDrive : FolderWorld := ⟨(List.range 200).map crowd ++ [taxes], []⟩

theorem name_crowd (i : ℕ) : (crowd i).name.toList = 'A' :: List.replicate i 'A' := by
  rw [crowd, String.toList_ofList, List.replicate_succ]

theorem id_crowd (i : ℕ) : (crowd i).id.toList = List.replicate (i + 1) 'A' := by
  rw [crowd, String.toList_ofList]

theorem crowd_ordered {i j : ℕ} (h : i < j) : plainContext.before (crowd i).name (crowd j).name = true := by
  show inOrder (crowd i).name.toList (crowd j).name.toList = true
  have happend : (crowd j).name.toList = (crowd i).name.toList ++ List.replicate (j - i) 'A' := by
    rw [name_crowd, name_crowd, List.cons_append, List.replicate_append_replicate]
    congr 2
    omega
  rw [happend]
  exact inOrder_append _ _

theorem mem_crowded {row : FolderRow} : row ∈ crowdedDrive.folders ↔ (∃ i < 200, crowd i = row) ∨ row = taxes := by
  show row ∈ (List.range 200).map crowd ++ [taxes] ↔ _
  rw [List.mem_append, List.mem_map, List.mem_singleton]
  exact or_congr_left (exists_congr fun i => and_congr_left fun _ => List.mem_range)

theorem folderPage_crowded : folderPage plainContext crowdedDrive 7 none = (List.range 200).map crowd := by
  have hrows : crowdedDrive.childRows 7 none = (List.range 200).map crowd ++ [taxes] := by
    refine List.filter_eq_self.mpr fun row hrow => ?_
    rcases mem_crowded.mp hrow with ⟨i, -, rfl⟩ | rfl
    · rfl
    · rfl
  have hsorted : ((List.range 200).map crowd ++ [taxes]).Pairwise
      fun a b => plainContext.before a.name b.name = true := by
    rw [List.pairwise_append, List.pairwise_map]
    refine ⟨List.pairwise_lt_range.imp fun h => crowd_ordered h, List.pairwise_singleton _ _, ?_⟩
    intro row hrow other hother
    obtain ⟨i, -, rfl⟩ := List.mem_map.mp hrow
    rw [List.mem_singleton.mp hother]
    show inOrder (crowd i).name.toList taxes.name.toList = true
    rw [name_crowd]
    rfl
  have hpage : folderPage plainContext crowdedDrive 7 none =
      ((crowdedDrive.childRows 7 none).mergeSort fun a b => plainContext.before a.name b.name).take 200 := rfl
  rw [hpage, hrows, List.mergeSort_of_pairwise hsorted]
  exact List.take_left' (by rw [List.length_map, List.length_range])

theorem crowd_ne_taxes (i : ℕ) : crowd i ≠ taxes := by
  intro h
  have hname : (crowd i).name.toList = taxes.name.toList := by rw [h]
  rw [name_crowd] at hname
  exact absurd (List.cons.inj hname).1 (by decide)

/-- The folder behind them is not found. -/
theorem taxes_missed : crowdedDrive.WellFormed ∧ ¬ Resolves plainContext crowdedDrive 7 202 "taxes" := by
  have hw : crowdedDrive.WellFormed := by
    show (((List.range 200).map crowd ++ [taxes]).map (·.id)).Nodup
    rw [List.map_append, List.map_map]
    refine (List.nodup_range.map ?_).append (List.nodup_singleton _) ?_
    · intro i j hid
      have hlength := congrArg (fun text => text.toList.length) hid
      simp only [Function.comp_apply, id_crowd, List.length_replicate] at hlength
      omega
    · intro text hcrowd htaxes
      obtain ⟨i, -, rfl⟩ := List.mem_map.mp hcrowd
      have hid : (crowd i).id.toList = taxes.id.toList := congrArg String.toList (List.mem_singleton.mp htaxes)
      rw [id_crowd, List.replicate_succ] at hid
      exact absurd (List.cons.inj hid).1 (by decide)
  refine ⟨hw, ?_⟩
  have hlength : crowdedDrive.folders.length < 202 := by
    show ((List.range 200).map crowd ++ [taxes]).length < 202
    rw [List.length_append, List.length_map, List.length_range]
    decide
  have hown : crowdedDrive.ownFolder 7 "taxes" = none := by
    have hfind : crowdedDrive.getFolder "taxes" = none := by
      refine List.find?_eq_none.mpr fun row hrow => ?_
      rw [decide_eq_true_eq]
      intro hid
      rcases mem_crowded.mp hrow with ⟨i, -, rfl⟩ | rfl
      · have hlist := congrArg String.toList hid
        rw [id_crowd, List.replicate_succ] at hlist
        exact absurd (List.cons.inj hlist).1 (by decide)
      · exact absurd hid (by decide)
    rw [FolderWorld.ownFolder, hfind]
    rfl
  rw [resolves_iff hw hlength]
  intro h
  refine h hown ⟨taxes, ⟨mem_crowded.mpr (Or.inr rfl), rfl, by decide +kernel⟩, ?_, Or.inl ?_⟩
  · intro hshown
    cases hshown with
    | first hpage =>
      rw [folderPage_crowded] at hpage
      obtain ⟨i, -, hi⟩ := List.mem_map.mp hpage
      exact crowd_ne_taxes i hi
    | step _ hpage => cases (mem_folderPage hpage).2.2
  · rintro other ⟨hrow, -, hname⟩
    rcases mem_crowded.mp hrow with ⟨i, -, rfl⟩ | rfl
    · -- no name of the crowd folds to this one
      have hfold : (String.ofList ((crowd i).name.toList.map Char.toLower)).toList =
          (String.ofList ("taxes".toList.map Char.toLower)).toList := congrArg String.toList hname
      rw [String.toList_ofList, String.toList_ofList, name_crowd] at hfold
      exact absurd (List.cons.inj hfold).1 (by decide)
    · rfl

end Counts

end Transform.Assistant
