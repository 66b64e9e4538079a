import Transform.Lib.Json
import Transform.Lib.Splitting
import Transform.Workspaces.Docker
import Mathlib.Data.List.Sort

/-!
# Workspaces.FilePaths — the files of a workspace by the paths of a listing

`list_files` gives each entry a path relative to the workspace, and `read_file`, `write_file` and `delete_file` resolve
such a path with `workspace_relative_path`, which strips blanks around the whole of it and refuses a leading tilde.
`listing_exact_iff` says for which names the two are inverse.
-/

namespace Transform.Workspaces

open Lib Conversions

/-! ## Directories -/

section Directories

structure FileName where
  text : String
  nonempty : text ≠ ""
  no_slash : '/' ∉ text.toList
  no_nul : '\x00' ∉ text.toList
  not_dot : text ≠ "."
  not_dots : text ≠ ".."

inductive Tree
  | file (contents : Bytes)
  | dir (entries : List (FileName × Tree))

/-- The components of a path. -/
def pathSegments (path : String) : List String := (path.splitOn "/").filter fun part => part ≠ "" ∧ part ≠ "."

namespace Tree

def isDir : Tree → Bool
  | .file _ => false
  | .dir _ => true

/-- `os.path.getsize` of a file; a directory counts 0. -/
def size : Tree → ℕ
  | .file contents => contents.length
  | .dir _ => 0

def child (tree : Tree) (name : String) : Option Tree :=
  match tree with
  | .file _ => none
  | .dir entries => (entries.find? fun entry => entry.1.text = name).map (·.2)

def follow : List String → Tree → Option Tree
  | [], tree => some tree
  | name :: names, tree => (tree.child name).bind (follow names)

/-- `sorted(os.listdir(path))`; what is no directory has no entries. -/
def listing (root : Tree) (path : String) : List (FileName × Tree) :=
  match root.follow (pathSegments path) with
  | some (.dir entries) => entries.insertionSort fun a b => a.1.text ≤ b.1.text
  | _ => []

end Tree

/-- What the listing script writes of one entry. -/
def entryJson (entry : FileName × Tree) : Json :=
  .obj [("name", .str entry.1.text), ("is_dir", .bool entry.2.isDir), ("size", .int entry.2.size)]

/-- What the listing script writes. -/
def listingOutput (root : Tree) (path : String) : String := (Json.arr ((root.listing path).map entryJson)).dumps

end Directories

/-! ## The file operations of the provider -/

section Ports

inductive ContainerFileOp
  | getContainer (providerRef : String)
  | reload
  | listDirectory (path : String)
  | getArchive (path : String)
  | putArchive (directory name : String) (payload : Bytes)
  | remove (path : String)

/-- The members of an archive; what is no regular file has no contents. -/
abbrev ContainerFileOp.Ans : ContainerFileOp → Type
  | .getContainer _ => Unit
  | .reload => String
  | .listDirectory _ => String
  | .getArchive _ => List (Option Bytes)
  | .putArchive _ _ _ => Unit
  | .remove _ => ℕ

abbrev ContainerFileSig : Sig := ⟨ContainerFileOp, ContainerFileOp.Ans, WorkError⟩

abbrev ContainerFileAct (α : Type) : Type := Act ContainerFileSig WorkError α

def containerFile (op : ContainerFileOp) : ContainerFileAct op.Ans := @ask ContainerFileSig op

end Ports

namespace ContainerFiles

/-- `_translate`, with the class of any other failure. -/
def translateAs (onError : String → WorkError) (e : WorkError) : WorkError :=
  if e.isProvider then e
  else if e.name = "NotFound" then
    ⟨"RuntimeNotFoundError", true, if e.message = "" then "Runtime not found." else e.message⟩
  else onError (if e.message = "" then e.name else e.message)

def getContainer (providerRef : String) : ContainerFileAct Unit :=
  (containerFile (.getContainer providerRef)).mapError fun e =>
    if e.name = "NotFound" then ⟨"RuntimeNotFoundError", true, "The runtime no longer exists on the provider."⟩ else e

def requireRunning (providerRef message : String) : ContainerFileAct Unit := do
  getContainer providerRef
  let status ← containerFile .reload
  Act.ofExcept (if status = "running" then .ok () else .error (providerExecutionError message))

structure ListedFile extends ProviderFileEntry where
  name : String

/-- `str.strip("/")`. -/
def stripSlashes (text : List Char) : List Char :=
  ((text.dropWhile (· = '/')).reverse.dropWhile (· = '/')).reverse

/-- A directory relative to the workspace, empty for the workspace itself. -/
def relativeDir (absolute : String) : String :=
  if absolute = workspaceRoot then ""
  else String.ofList (stripSlashes (absolute.toList.drop workspaceRoot.length))

def listedPath (absolute name : String) : String :=
  if relativeDir absolute = "" then name else relativeDir absolute ++ "/" ++ name

/-- One entry of the script's output, with the fields that the script writes. -/
def readEntry (absolute : String) : Json → Except WorkError ListedFile
  | .obj [("name", .str name), ("is_dir", .bool isDir), ("size", .int size)] =>
    .ok { path := listedPath absolute name, isDir, sizeBytes := size.toNat, name }
  | _ => .error { name := "AttributeError", message := "no entry of the listing" }

def readRows (absolute : String) : List Json → Except WorkError (List ListedFile)
  | [] => .ok []
  | item :: items => do
    let entry ← readEntry absolute item
    let entries ← readRows absolute items
    return entry :: entries

def readListing (absolute raw : String) : Except WorkError (List ListedFile) :=
  match Json.loads raw with
  | some (.arr items) => readRows absolute items
  | _ => .error (providerExecutionError "Could not list the workspace directory.")

/-- `list_files`. -/
def listFiles (providerRef relativePath : String) : ContainerFileAct (List ListedFile) := do
  let absolute ← Act.ofExcept (workspaceRelativePath relativePath)
  Act.mapError (translateAs providerExecutionError) do
    requireRunning providerRef "The runtime is not running; start it before browsing files."
    let raw ← containerFile (.listDirectory absolute)
    Act.ofExcept (readListing absolute raw)

/-- `read_file`: the first member of the archive. -/
def readFile (providerRef relativePath : String) : ContainerFileAct Bytes :=
  Act.mapError (translateAs providerResourceError) do
    getContainer providerRef
    let absolute ← Act.ofExcept (workspaceRelativePath relativePath)
    let members ← containerFile (.getArchive absolute)
    match members with
    | [] => .throw (providerResourceError "File archive was empty.")
    | contents :: _ => return contents.getD []

/-- The path of `PurePosixPath.relative_to(WORKSPACE_ROOT)`. -/
def relativeToRoot (absolute : String) : String :=
  match (pathSegments absolute).drop 1 with
  | [] => "."
  | segments => "/".intercalate segments

/-- `_put_workspace_file`: an archive of one file is extracted at the root of the workspace. -/
def putWorkspaceFile (absolute : String) (payload : Bytes) : ContainerFileAct Unit :=
  containerFile (.putArchive workspaceRoot (relativeToRoot absolute) payload)

/-- `write_file`. -/
def writeFile (providerRef relativePath : String) (data : Bytes) : ContainerFileAct Unit :=
  Act.mapError (translateAs providerResourceError) do
    getContainer providerRef
    let absolute ← Act.ofExcept (workspaceRelativePath relativePath)
    putWorkspaceFile absolute data

/-- `delete_file`. -/
def deleteFile (providerRef relativePath : String) : ContainerFileAct Unit := do
  let absolute ← Act.ofExcept (workspaceRelativePath relativePath)
  Act.mapError (translateAs providerResourceError) do
    requireRunning providerRef "The runtime is not running; start it before deleting files."
    let exitCode ← containerFile (.remove absolute)
    Act.ofExcept (if exitCode = 0 then .ok ()
      else .error (providerResourceError s!"Could not delete {pyRepr relativePath} in the workspace."))

end ContainerFiles

/-! ## Resolving -/

section Resolving

/-- A component that is none of the special ones. -/
structure Segment (s : String) : Prop where
  nonempty : s ≠ ""
  not_dot : s ≠ "."
  not_dots : s ≠ ".."
  no_slash : '/' ∉ s.toList
  no_nul : '\x00' ∉ s.toList

/-- The path of components below the root of the workspace. -/
def below (segments : List String) : String := "/".intercalate (workspaceRoot :: segments)

/-- What `workspace_relative_path` may give: the root or a path below it, with no `..`. -/
def Confined (resolved : Except WorkError String) : Prop :=
  ∀ path, resolved = .ok path → ∃ segments, (∀ s ∈ segments, Segment s) ∧ path = below segments

/-- No blanks around a path, and no tilde before it. -/
def Plain (path : String) : Prop := strip path = path ∧ path.startsWith "~" = false

instance (path : String) : Decidable (Plain path) := by
  unfold Plain
  infer_instance

variable {segments : List String} {path : String}

theorem splitOn_slash (s : String) : s.splitOn "/" = (s.toList.splitOn '/').map String.ofList := splitOn_singleton s '/'

theorem pathSegments_eq (s : String) : pathSegments s =
    ((s.toList.splitOn '/').map String.ofList).filter fun part => part ≠ "" ∧ part ≠ "." := by
  rw [pathSegments, splitOn_slash]

theorem toList_join (segments : List String) :
    ("/".intercalate segments).toList = ['/'].intercalate (segments.map String.toList) := String.toList_intercalate

theorem segment_of_mem {s : String} (h : path ∈ pathSegments s) (hdots : path ≠ "..") (hnul : '\x00' ∉ s.toList) :
    Segment path := by
  obtain ⟨hpart, hne⟩ := List.mem_filter.1 h
  obtain ⟨hne, hdot⟩ := of_decide_eq_true hne
  rw [splitOn_slash] at hpart
  obtain ⟨part, hsplit, rfl⟩ := List.mem_map.1 hpart
  refine ⟨hne, hdot, hdots, ?_, ?_⟩
  · rw [String.toList_ofList]
    exact not_mem_of_mem_splitOn hsplit
  · rw [String.toList_ofList]
    exact fun hmem => hnul (mem_of_mem_splitOn hsplit hmem)

theorem pathSegments_intercalate {parts : List String} (hne : parts ≠ []) (h : ∀ s ∈ parts, '/' ∉ s.toList) :
    pathSegments ("/".intercalate parts) = parts.filter fun part => part ≠ "" ∧ part ≠ "." := by
  have hslash : ∀ part ∈ parts.map String.toList, '/' ∉ part := by
    intro part hpart
    obtain ⟨s, hs, rfl⟩ := List.mem_map.1 hpart
    exact h s hs
  have hmap : parts.map String.toList ≠ [] := fun hnil => hne (List.map_eq_nil_iff.1 hnil)
  have hback : (parts.map String.toList).map String.ofList = parts := by
    rw [List.map_map]
    exact (List.map_congr_left fun s _ => String.ofList_toList).trans (List.map_id _)
  rw [pathSegments_eq, toList_join, List.splitOn_intercalate '/' hslash hmap, hback]

theorem filter_segments (h : ∀ s ∈ segments, Segment s) :
    segments.filter (fun part => part ≠ "" ∧ part ≠ ".") = segments :=
  List.filter_eq_self.2 fun s hs => decide_eq_true ⟨(h s hs).nonempty, (h s hs).not_dot⟩

theorem pathSegments_join (hne : segments ≠ []) (h : ∀ s ∈ segments, Segment s) :
    pathSegments ("/".intercalate segments) = segments := by
  rw [pathSegments_intercalate hne fun s hs => (h s hs).no_slash, filter_segments h]

theorem workspaceRelativePath_ok {s : String} (h : workspaceRelativePath s = .ok path) :
    path = below [] ∨ path = below (pathSegments (strip s)) ∧ ".." ∉ pathSegments (strip s) ∧
      '\x00' ∉ (strip s).toList ∧ (strip s).startsWith "~" = false := by
  unfold workspaceRelativePath at h
  dsimp only at h
  split_ifs at h with h1 h2 h3 h4
  · cases h
    exact .inl rfl
  · cases h
    exact .inr ⟨rfl, h4, fun hnul => h2 (.inl hnul), Bool.eq_false_iff.2 fun htilde => h2 (.inr htilde)⟩

/-- **The resolver stays in the workspace**, whatever it is given. -/
theorem workspaceRelativePath_confined (s : String) : Confined (workspaceRelativePath s) := by
  intro path h
  rcases workspaceRelativePath_ok h with rfl | ⟨rfl, hdots, hnul, -⟩
  · exact ⟨[], nofun, rfl⟩
  · exact ⟨_, fun part hpart => segment_of_mem hpart (fun heq => hdots (heq ▸ hpart)) hnul, rfl⟩

theorem below_eq (hne : segments ≠ []) : below segments = workspaceRoot ++ "/" ++ "/".intercalate segments :=
  String.intercalate_cons_of_ne_nil hne

theorem toList_ne_nil {s : String} (h : s ≠ "") : s.toList ≠ [] := fun hnil => h (String.toList_eq_nil_iff.1 hnil)

/-- A path of components neither begins nor ends with a slash. -/
theorem join_ends (hne : segments ≠ []) (h : ∀ s ∈ segments, Segment s) :
    ("/".intercalate segments).toList.head? ≠ some '/' ∧ ("/".intercalate segments).toList.getLast? ≠ some '/' := by
  rw [toList_join]
  constructor
  · obtain ⟨first, rest, rfl⟩ := List.exists_cons_of_ne_nil hne
    have hfirst := h first (List.mem_cons_self ..)
    rw [List.map_cons, head?_intercalate_cons (toList_ne_nil hfirst.nonempty)]
    exact fun hhead => hfirst.no_slash (List.mem_of_mem_head? hhead)
  · obtain ⟨init, last, rfl⟩ := (List.eq_nil_or_concat' segments).resolve_left hne
    have hlast := h last (List.mem_append_right _ (List.mem_singleton_self _))
    rw [List.map_append, List.map_singleton, getLast?_intercalate_concat (toList_ne_nil hlast.nonempty)]
    exact fun hend => hlast.no_slash (List.mem_of_getLast? hend)

theorem strip_sublist (s : String) : (strip s).toList.Sublist s.toList := by
  unfold strip
  rw [String.toList_ofList]
  have hfront : (s.toList.dropWhile isStripped).Sublist s.toList := List.dropWhile_sublist _
  have hback := (List.dropWhile_sublist isStripped (l := (s.toList.dropWhile isStripped).reverse)).reverse
  rw [List.reverse_reverse] at hback
  exact hback.trans hfront

/-- A path whose components a resolver keeps, which is no shorter than it was. -/
theorem strip_eq_of_length {s : String} (h : s.toList.length ≤ (strip s).toList.length) : strip s = s :=
  String.toList_inj.1 ((strip_sublist s).eq_of_length_le h)

/-- What the resolver makes of a text is no longer than the text, but for the root. -/
theorem length_pathSegments_le (s : String) :
    ("/".intercalate (pathSegments s)).toList.length ≤ s.toList.length := by
  have hfilter : (pathSegments s).map String.toList =
      (s.toList.splitOn '/').filter fun part => String.ofList part ≠ "" ∧ String.ofList part ≠ "." := by
    rw [pathSegments_eq, List.filter_map, List.map_map]
    have hid : String.toList ∘ String.ofList = id := funext fun _ => String.toList_ofList
    rw [hid, List.map_id]
    rfl
  have hle := length_intercalate_filter_le (x := '/')
    (fun part => decide (String.ofList part ≠ "" ∧ String.ofList part ≠ ".")) (s.toList.splitOn '/')
  rw [List.intercalate_splitOn] at hle
  rw [toList_join, hfilter]
  exact hle

theorem join_no_nul (h : ∀ s ∈ segments, Segment s) : '\x00' ∉ ("/".intercalate segments).toList := by
  rw [toList_join]
  intro hmem
  rcases mem_intercalate hmem with heq | ⟨part, hpart, hmem⟩
  · exact absurd heq (by decide)
  · obtain ⟨s, hs, rfl⟩ := List.mem_map.1 hpart
    exact (h s hs).no_nul hmem

/-- **The two are inverse on plain paths only**: a path of components resolves to itself below the root exactly when no
blank stands around it and no tilde before it. -/
theorem workspaceRelativePath_join_iff (hne : segments ≠ []) (h : ∀ s ∈ segments, Segment s) :
    workspaceRelativePath ("/".intercalate segments) = .ok (below segments) ↔ Plain ("/".intercalate segments) := by
  constructor
  · intro hok
    have hlong : ∀ {others : List String}, others ≠ [] → (below others).toList.length =
        workspaceRoot.toList.length + 1 + ("/".intercalate others).toList.length := by
      intro others hothers
      rw [below_eq hothers]
      simp only [String.toList_append, List.length_append]
      rfl
    have hroot : (below []).toList.length = workspaceRoot.toList.length := rfl
    have hlength := hlong hne
    rcases workspaceRelativePath_ok hok with hbelow | ⟨hbelow, -, -, htilde⟩
    · rw [hbelow] at hlength
      omega
    · have hraw := length_pathSegments_le (strip ("/".intercalate segments))
      have hstrip : strip ("/".intercalate segments) = "/".intercalate segments := by
        refine strip_eq_of_length ?_
        rw [hbelow] at hlength
        by_cases hnil : pathSegments (strip ("/".intercalate segments)) = []
        · rw [hnil] at hlength
          omega
        · rw [hlong hnil] at hlength
          omega
      rw [hstrip] at htilde
      exact ⟨hstrip, htilde⟩
  · rintro ⟨hstrip, htilde⟩
    have hsegments := pathSegments_join hne h
    have hspecial : ¬ ("/".intercalate segments = "" ∨ "/".intercalate segments = ".") := by
      rintro (hempty | hdot)
      · rw [hempty, pathSegments_eq] at hsegments
        exact hne (hsegments.symm.trans (by decide))
      · rw [hdot, pathSegments_eq] at hsegments
        exact hne (hsegments.symm.trans (by decide))
    have hslash : ("/".intercalate segments).startsWith "/" = false := by
      refine String.startsWith_string_eq_false_iff.2 fun hprefix => (join_ends hne h).1 ?_
      obtain ⟨rest, hrest⟩ := hprefix
      rw [← hrest]
      rfl
    have hdots : ".." ∉ segments := fun hmem => (h _ hmem).not_dots rfl
    have hnot : ¬ ('\x00' ∈ ("/".intercalate segments).toList ∨ ("/".intercalate segments).startsWith "~" = true) := by
      rintro (hmem | hhead)
      · exact join_no_nul h hmem
      · rw [htilde] at hhead
        cases hhead
    unfold workspaceRelativePath
    rw [hstrip]
    dsimp only
    rw [if_neg hspecial, if_neg hnot, if_neg (Bool.not_eq_true _ ▸ hslash), ← pathSegments, hsegments, if_neg hdots]
    rfl

/-! ### Entries of a listing -/

theorem segment_fileName (name : FileName) : Segment name.text :=
  ⟨name.nonempty, name.not_dot, name.not_dots, name.no_slash, name.no_nul⟩

theorem segment_concat (h : ∀ s ∈ segments, Segment s) (name : FileName) : ∀ s ∈ segments ++ [name.text], Segment s := by
  intro s hs
  rcases List.mem_append.1 hs with hs | hs
  · exact h s hs
  · rw [List.mem_singleton.1 hs]
    exact segment_fileName name

theorem below_concat (name : String) : below (segments ++ [name]) = below segments ++ "/" ++ name := by
  have happend : (workspaceRoot :: segments) ++ [name] = workspaceRoot :: (segments ++ [name]) := rfl
  rw [below, ← happend, String.intercalate_append_of_ne_nil (List.cons_ne_nil _ _) (List.cons_ne_nil _ _),
    String.intercalate_singleton]
  rfl

theorem stripSlashes_cons {text : List Char} (hhead : text.head? ≠ some '/') (hlast : text.getLast? ≠ some '/') :
    ContainerFiles.stripSlashes ('/' :: text) = text := by
  have hkeep : ∀ {t : List Char}, t.head? ≠ some '/' → t.dropWhile (· = '/') = t := by
    intro t ht
    rcases t with _ | ⟨c, t⟩
    · rfl
    · exact List.dropWhile_cons_of_neg fun hc => ht (congrArg some (of_decide_eq_true hc))
  rw [ContainerFiles.stripSlashes, List.dropWhile_cons_of_pos (by decide), hkeep hhead, hkeep, List.reverse_reverse]
  rwa [List.head?_reverse]

theorem relativeDir_below (h : ∀ s ∈ segments, Segment s) :
    ContainerFiles.relativeDir (below segments) = "/".intercalate segments := by
  by_cases hne : segments = []
  · rw [hne]
    rfl
  · have hdrop : (below segments).toList.drop workspaceRoot.length = '/' :: ("/".intercalate segments).toList := by
      rw [below_eq hne, String.append_assoc, String.toList_append, ← String.length_toList, List.drop_left,
        String.toList_append]
      rfl
    have hroot : below segments ≠ workspaceRoot := by
      intro hroot
      rw [hroot] at hdrop
      exact List.cons_ne_nil _ _ (hdrop.symm.trans (by decide))
    obtain ⟨hhead, hlast⟩ := join_ends hne h
    rw [ContainerFiles.relativeDir, if_neg hroot, hdrop, stripSlashes_cons hhead hlast, String.ofList_toList]

theorem listedPath_below (h : ∀ s ∈ segments, Segment s) (name : String) :
    ContainerFiles.listedPath (below segments) name = "/".intercalate (segments ++ [name]) := by
  rw [ContainerFiles.listedPath, relativeDir_below h]
  by_cases hne : segments = []
  · rw [hne]
    exact if_pos rfl
  · have hempty : "/".intercalate segments ≠ "" := by
      intro hempty
      have hsegments := pathSegments_join hne h
      rw [hempty, pathSegments_eq] at hsegments
      exact hne (hsegments.symm.trans (by decide))
    rw [if_neg hempty, String.intercalate_append_of_ne_nil hne (List.cons_ne_nil _ _), String.intercalate_singleton]

theorem pathSegments_below (h : ∀ s ∈ segments, Segment s) : pathSegments (below segments) = "workspace" :: segments := by
  have hparts : below segments = "/".intercalate ("" :: "workspace" :: segments) := by
    rcases segments with _ | ⟨first, rest⟩
    · rfl
    · rw [below, String.intercalate_cons_cons, String.intercalate_cons_cons, String.intercalate_cons_cons]
      simp only [← String.append_assoc]
      rfl
  have hslash : ∀ part ∈ "" :: "workspace" :: segments, '/' ∉ part.toList := by
    intro part hpart
    rcases List.mem_cons.1 hpart with rfl | hpart
    · decide
    rcases List.mem_cons.1 hpart with rfl | hpart
    · decide
    · exact (h part hpart).no_slash
  rw [hparts, pathSegments_intercalate (List.cons_ne_nil _ _) hslash, List.filter_cons_of_neg (by decide),
    List.filter_cons_of_pos (by decide), filter_segments h]

theorem relativeToRoot_below (hne : segments ≠ []) (h : ∀ s ∈ segments, Segment s) :
    workspaceRoot ++ "/" ++ ContainerFiles.relativeToRoot (below segments) = below segments := by
  obtain ⟨first, rest, rfl⟩ := List.exists_cons_of_ne_nil hne
  rw [ContainerFiles.relativeToRoot, pathSegments_below h, List.drop_one, List.tail_cons, below_eq hne]

end Resolving

/-! ## A listing and its entries -/

section Listing

open ContainerFiles

/-- The file operations of a call are on one path. -/
def OnFile (target : String) : ContainerFileOp → Prop
  | .getContainer _ | .reload => True
  | .listDirectory _ => False
  | .getArchive path => path = target
  | .putArchive directory name _ => directory ++ "/" ++ name = target
  | .remove path => path = target

/-- The path of an entry is that of its file: it resolves to it, and what is read, written or deleted by it is that file
and no other. -/
structure Exact (absolute : String) (e : ListedFile) : Prop where
  resolves : workspaceRelativePath e.path = .ok (absolute ++ "/" ++ e.name)
  reads : ∀ providerRef, (readFile providerRef e.path).Only (OnFile (absolute ++ "/" ++ e.name))
  writes : ∀ providerRef data, (writeFile providerRef e.path data).Only (OnFile (absolute ++ "/" ++ e.name))
  deletes : ∀ providerRef, (deleteFile providerRef e.path).Only (OnFile (absolute ++ "/" ++ e.name))

def Shows (root : Tree) : Event ContainerFileSig → Prop
  | ⟨.listDirectory path, .ok raw, _, _⟩ => raw = listingOutput root path
  | _ => True

variable {root : Tree} {providerRef relativePath absolute target path : String} {α : Type}

theorem only_mapError {S : Sig} {ε ε' : Type} {φ : S.Op → Prop} {f : ε → ε'} {p : Act S ε α} (h : p.Only φ) :
    (p.mapError f).Only φ := only_tryCatch h fun _ => only_throw

theorem only_resolved {β : Type} {φ : ContainerFileOp → Prop} {x : Except WorkError α} {a : α} {f : α → ContainerFileAct β}
    (h : x = .ok a) (hf : (f a).Only φ) : (Act.ofExcept x >>= f).Only φ := by
  subst h
  exact hf

theorem getContainer_onFile : (ContainerFiles.getContainer providerRef).Only (OnFile target) :=
  only_mapError (only_ask trivial)

theorem requireRunning_onFile {message : String} : (requireRunning providerRef message).Only (OnFile target) :=
  only_bind getContainer_onFile fun _ => only_bind (only_ask trivial) fun _ => only_ofExcept

theorem readFile_onFile (h : workspaceRelativePath path = .ok target) : (readFile providerRef path).Only (OnFile target) := by
  refine only_mapError (only_bind getContainer_onFile fun _ => only_resolved h (only_bind (only_ask rfl) fun members => ?_))
  rcases members with _ | ⟨contents, members⟩
  · exact only_throw
  · exact only_pure

theorem writeFile_onFile {data : Bytes} (h : workspaceRelativePath path = .ok target)
    (htarget : workspaceRoot ++ "/" ++ relativeToRoot target = target) :
    (writeFile providerRef path data).Only (OnFile target) :=
  only_mapError (only_bind getContainer_onFile fun _ => only_resolved h (only_ask htarget))

theorem deleteFile_onFile (h : workspaceRelativePath path = .ok target) :
    (deleteFile providerRef path).Only (OnFile target) :=
  only_resolved h (only_mapError (only_bind requireRunning_onFile fun _ => only_bind (only_ask rfl) fun _ => only_ofExcept))

def listedEntry (absolute : String) (entry : FileName × Tree) : ListedFile where
  path := listedPath absolute entry.1.text
  isDir := entry.2.isDir
  sizeBytes := entry.2.size
  name := entry.1.text

theorem readRows_map : ∀ entries : List (FileName × Tree),
    readRows absolute (entries.map entryJson) = .ok (entries.map (listedEntry absolute))
  | [] => rfl
  | entry :: entries => by
    have ih := readRows_map entries
    have hentry : readEntry absolute (entryJson entry) = .ok (listedEntry absolute entry) := rfl
    rw [List.map_cons, readRows, hentry, ih]
    rfl

theorem readListing_output : readListing absolute (listingOutput root path) =
    .ok ((root.listing path).map (listedEntry absolute)) := by
  have hdistinct : (Json.arr ((root.listing path).map entryJson)).Distinct := by
    refine distinctItems_iff.2 fun item hitem => ?_
    obtain ⟨entry, -, rfl⟩ := List.mem_map.1 hitem
    exact distinct_obj.2 ⟨by simp, by simp [Json.Distinct]⟩
  rw [readListing, listingOutput, loads_dumps hdistinct]
  exact readRows_map _

theorem listFiles_entries {tr : List (Event ContainerFileSig)} {entries : List ListedFile}
    (hdir : workspaceRelativePath relativePath = .ok absolute)
    (hrun : Run (listFiles providerRef relativePath).run tr (.ok entries)) (hroot : ∀ ev ∈ tr, Shows root ev) :
    entries = (root.listing absolute).map (listedEntry absolute) := by
  have hlist : wpe (.recording (Shows root)) (listFiles providerRef relativePath)
      (fun entries _ => entries = (root.listing absolute).map (listedEntry absolute)) (fun _ _ => True) [] := by
    unfold listFiles requireRunning ContainerFiles.getContainer
    rw [hdir, wpe_bind, wpe_ofExcept_ok, wpe_mapError, wpe_bind, wpe_bind, wpe_mapError]
    refine wpe_ask.2 ⟨trivial, fun _ _ => ?_, fun _ _ _ _ => trivial⟩
    rw [wpe_bind]
    refine wpe_ask.2 ⟨trivial, fun status _ => ?_, fun _ _ _ _ => trivial⟩
    refine wpe_ofExcept (fun _ _ => ?_) fun _ _ => trivial
    rw [wpe_bind]
    refine wpe_ask.2 ⟨trivial, fun raw hraw => ?_, fun _ _ _ _ => trivial⟩
    obtain rfl : raw = listingOutput root absolute := hraw
    rw [readListing_output]
    exact rfl
  exact wp_recording_run hlist hrun hroot

theorem exact_of_resolves {e : ListedFile} (h : workspaceRelativePath e.path = .ok target)
    (hname : absolute ++ "/" ++ e.name = target) (htarget : workspaceRoot ++ "/" ++ relativeToRoot target = target) :
    Exact absolute e := by
  subst hname
  exact ⟨h, fun _ => readFile_onFile h, fun _ _ => writeFile_onFile h htarget, fun _ => deleteFile_onFile h⟩

theorem exact_listedEntry_iff (hdir : workspaceRelativePath relativePath = .ok absolute) (entry : FileName × Tree) :
    Exact absolute (listedEntry absolute entry) ↔ Plain (listedPath absolute entry.1.text) := by
  obtain ⟨segments, h, rfl⟩ := workspaceRelativePath_confined relativePath absolute hdir
  have hall := segment_concat h entry.1
  have hne : segments ++ [entry.1.text] ≠ [] := List.concat_ne_nil _ _
  have hiff := workspaceRelativePath_join_iff hne hall
  have hpath : (listedEntry (below segments) entry).path = "/".intercalate (segments ++ [entry.1.text]) :=
    listedPath_below h entry.1.text
  rw [listedPath_below h]
  constructor
  · intro hexact
    have hresolves := hexact.resolves
    rw [hpath] at hresolves
    exact hiff.1 (hresolves.trans (congrArg Except.ok (below_concat _).symm))
  · intro hplain
    have hresolves : workspaceRelativePath (listedEntry (below segments) entry).path =
        .ok (below (segments ++ [entry.1.text])) := by
      rw [hpath]
      exact hiff.2 hplain
    exact exact_of_resolves hresolves (below_concat _).symm (relativeToRoot_below hne hall)

/-- **The paths of a listing**: each entry resolves to its own file, and is read, written and deleted there, exactly when
no blank stands around the path of an entry and no tilde before it.  The resolver itself never leaves the workspace. -/
theorem listing_exact_iff {tr : List (Event ContainerFileSig)} {entries : List ListedFile}
    (hdir : workspaceRelativePath relativePath = .ok absolute)
    (hrun : Run (listFiles providerRef relativePath).run tr (.ok entries)) (hroot : ∀ ev ∈ tr, Shows root ev) :
    ((∀ e ∈ entries, Exact absolute e) ∧ ∀ s, Confined (workspaceRelativePath s)) ↔
      ∀ entry ∈ root.listing absolute, Plain (listedPath absolute entry.1.text) := by
  rw [listFiles_entries hdir hrun hroot]
  constructor
  · rintro ⟨hexact, -⟩ entry hentry
    exact (exact_listedEntry_iff hdir entry).1 (hexact _ (List.mem_map_of_mem hentry))
  · intro hplain
    refine ⟨fun e he => ?_, workspaceRelativePath_confined⟩
    obtain ⟨entry, hentry, rfl⟩ := List.mem_map.1 he
    exact (exact_listedEntry_iff hdir entry).2 (hplain entry hentry)

theorem listFiles_runs (root : Tree) (providerRef : String) (hdir : workspaceRelativePath relativePath = .ok absolute) :
    ∃ tr, Run (listFiles providerRef relativePath).run tr (.ok ((root.listing absolute).map (listedEntry absolute))) ∧
      ∀ ev ∈ tr, Shows root ev := by
  refine ⟨[.done (.getContainer providerRef) (.ok ()), .done .reload (.ok "running"),
    .done (.listDirectory absolute) (.ok (listingOutput root absolute))], ?_, ?_⟩
  · unfold listFiles
    rw [hdir]
    refine ⟨_, _, _, _, rfl, _, _, _, _, rfl, _, _, _, _, rfl, ?_⟩
    change Run (Act.mapError (translateAs providerExecutionError)
      (Act.ofExcept (readListing absolute (listingOutput root absolute)))).run [] _
    rw [readListing_output]
    exact ⟨rfl, rfl⟩
  · intro ev hev
    simp only [List.mem_cons, List.not_mem_nil, or_false] at hev
    rcases hev with rfl | rfl | rfl
    · trivial
    · trivial
    · exact rfl

end Listing

/-! ## A blank at the end of a name -/

section Blank

open ContainerFiles

def notes : FileName := ⟨"notes", by decide, by decide, by decide, by decide, by decide⟩

def notesBlank : FileName := ⟨"notes ", by decide, by decide, by decide, by decide, by decide⟩

def workspaceName : FileName := ⟨"workspace", by decide, by decide, by decide, by decide, by decide⟩

/-- A container whose workspace has one empty file. -/
def oneFileRoot (name : FileName) : Tree := .dir [(workspaceName, .dir [(name, .file [])])]

theorem listing_oneFileRoot (name : FileName) : (oneFileRoot name).listing workspaceRoot = [(name, .file [])] := by
  have hbelow : pathSegments (below []) = ["workspace"] := pathSegments_below nofun
  have hsegments : pathSegments workspaceRoot = ["workspace"] := hbelow
  rw [Tree.listing, hsegments]
  rfl

theorem resolves_dot : workspaceRelativePath "." = .ok workspaceRoot := by
  unfold workspaceRelativePath
  exact if_pos (by decide)

theorem listing_exact_notes : ∃ entries : List ListedFile, entries.map (·.path) = ["notes"] ∧ ∀ e ∈ entries, Exact workspaceRoot e := by
  obtain ⟨tr, hrun, hshows⟩ := listFiles_runs (oneFileRoot notes) "c-1" resolves_dot
  refine ⟨_, ?_, ((listing_exact_iff resolves_dot hrun hshows).2 ?_).1⟩
  · rw [listing_oneFileRoot]
    rfl
  · rw [listing_oneFileRoot]
    decide +kernel

/-- The path of `"notes "` in a listing is that of `"notes"`. -/
theorem blank_names_another : ¬ ∀ (root : Tree) (providerRef relativePath absolute : String)
    (tr : List (Event ContainerFileSig)) (entries : List ListedFile),
    workspaceRelativePath relativePath = .ok absolute → Run (listFiles providerRef relativePath).run tr (.ok entries) →
      (∀ ev ∈ tr, Shows root ev) →
      (∀ e ∈ entries, Exact absolute e) ∧ ∀ s, Confined (workspaceRelativePath s) := by
  intro h
  obtain ⟨tr, hrun, hshows⟩ := listFiles_runs (oneFileRoot notesBlank) "c-1" resolves_dot
  have hexact := (h _ _ _ _ _ _ resolves_dot hrun hshows).1 (listedEntry workspaceRoot (notesBlank, .file []))
    (List.mem_map_of_mem (by rw [listing_oneFileRoot]; exact List.mem_singleton_self _))
  have hplain := ((exact_listedEntry_iff resolves_dot _).1 hexact).1
  exact absurd hplain (by decide)

end Blank

end Transform.Workspaces
