import Transform.Files.FolderForest

/-!
# Files.FolderListing — what a folder holds, and what lies below it

`list_by_parent`, `get_folder_contents` and `resolve_folder_scope`.  The walk of the last gives the folders of a subtree
(`wpe_resolveFolderScope`).  In a tree whose folders belong to whom their parents belong to, all that lies below a folder
of a user is that user's (`owner_of_under`).
-/

namespace Transform.Files

open Lib Conversions

/-! ## Listings -/

section Listing

/-- How the database orders names. -/
abbrev Collation : Type := String → String → Bool

variable (w : FolderWorld) (before : Collation)

def FolderWorld.childRows (userId : ℤ) (parentId : Option String) : List FolderRow :=
  w.folders.filter fun row => row.userId = userId ∧ row.parentId = parentId

/-- `list_by_parent`: a page of the rows, ordered by name, and how many there are. -/
def FolderWorld.listByParent (userId : ℤ) (parentId : Option String) (offset limit : ℤ) : List FolderRow × ℤ :=
  let base := w.childRows userId parentId
  (((base.mergeSort fun a b => before a.name b.name).drop offset.toNat).take limit.toNat, base.length)

/-- `list_files_in_folder`: newest first. -/
def FolderWorld.listFilesInFolder (userId : ℤ) (folderId : Option String) (offset limit : ℤ) : List UserFile × ℤ :=
  let base := w.files.filter fun file => file.userId = userId ∧ file.folderId = folderId
  (((base.mergeSort fun a b => b.createdAt ≤ a.createdAt).drop offset.toNat).take limit.toNat, base.length)

/-- `get_folder`, where it does not raise. -/
def FolderWorld.ownFolder (userId : ℤ) (folderId : String) : Option FolderRow :=
  (w.getFolder folderId).filter (·.userId = userId)

/-- `get_folder_contents`, where it does not raise. -/
def FolderWorld.getFolderContents (userId : ℤ) (folderId : String) (offset limit : ℤ) :
    Option (FolderRow × List FolderRow × ℤ × List UserFile × ℤ) :=
  (w.ownFolder userId folderId).map fun folder =>
    let (subfolders, totalFolders) := w.listByParent before userId (some folder.id) offset limit
    let (files, totalFiles) := w.listFilesInFolder userId (some folder.id) offset limit
    (folder, subfolders, totalFolders, files, totalFiles)

/-- `resolve_folder_scope`. -/
def resolveFolderScope (rounds : ℕ) (userId : ℤ) (folderId : String) : FolderM (Option (List String)) := do
  match ← onFolders (.getById folderId) with
  | none => pure none
  | some folder =>
    if folder.userId ≠ userId then pure none
    else do
      let descendants ← listSubtreeIds rounds folder.id
      pure (some (folder.id :: descendants))

def FolderWorld.subtreeIds (folderId : String) : List String :=
  (w.folders.filter fun row => w.cascades [folderId] row.id).map (·.id)

/-- What `resolve_folder_scope` answers of a table. -/
def FolderWorld.folderScope (userId : ℤ) (folderId : String) : Option (List String) :=
  (w.ownFolder userId folderId).map fun folder => w.subtreeIds folder.id

end Listing

/-! ## The scope of a folder -/

section Scope

variable {w : FolderWorld} {userId : ℤ} {folderId y : String} {folder : FolderRow}

theorem ownFolder_eq_some :
    w.ownFolder userId folderId = some folder ↔ w.getFolder folderId = some folder ∧ folder.userId = userId := by
  simp [FolderWorld.ownFolder, Option.filter_eq_some_iff]

theorem id_of_getFolder (h : w.getFolder folderId = some folder) : folder.id = folderId := by
  simpa using List.find?_some h

theorem links_of_getFolder (h : w.getFolder folderId = some folder) : w.links folderId = some folder.parentId := by
  rw [FolderWorld.links, h, Option.map_some]

theorem links_of_under (h : w.getFolder folderId = some folder) (hunder : Under w.links folderId y) :
    w.links y ≠ none := by
  obtain ⟨n, hlevel⟩ := hunder
  cases n with
  | zero =>
    obtain rfl := level_zero.1 hlevel
    rw [links_of_getFolder h]
    exact Option.some_ne_none _
  | succ n =>
    obtain ⟨p, hlink, -⟩ := level_succ.1 hlevel
    rw [hlink]
    exact Option.some_ne_none _

theorem mem_subtreeIds (hf : Forest w.links) (h : w.getFolder folderId = some folder) :
    y ∈ w.subtreeIds folderId ↔ Under w.links folderId y := by
  unfold FolderWorld.subtreeIds
  rw [List.mem_map]
  constructor
  · rintro ⟨row, hrow, rfl⟩
    simpa [cascades_iff hf] using (List.mem_filter.1 hrow).2
  · intro hunder
    obtain ⟨row, hrow, rfl⟩ := List.mem_map.1 (links_ne_none.1 (links_of_under h hunder))
    refine ⟨row, List.mem_filter.2 ⟨hrow, ?_⟩, rfl⟩
    simpa [cascades_iff hf] using hunder

/-- The walk ends, and gives the folders of the subtree. -/
theorem wpe_resolveFolderScope (hw : w.WellFormed) (hf : Forest w.links) {rounds : ℕ}
    (hrounds : w.folders.length < rounds) : wpe folderAlone (resolveFolderScope rounds userId folderId)
      (fun scope w' => w' = w ∧ Option.Rel (fun ids ids' => ∀ y, y ∈ ids ↔ y ∈ ids') scope (w.folderScope userId folderId))
      (fun e w' => w' = w ∧ e ≠ .unfinished) w := by
  unfold resolveFolderScope
  rw [wpe_bind, wpe_onFolders]
  refine ⟨fun row hrow => ?_, fun e took _ _ => ⟨rfl, by simp⟩⟩
  obtain rfl : row = w.getFolder folderId := hrow
  unfold FolderWorld.folderScope FolderWorld.ownFolder
  rcases hfound : w.getFolder folderId with _ | folder
  · exact ⟨rfl, .none⟩
  · dsimp only
    split_ifs with huser
    · rw [Option.filter_some_neg (by simpa using huser)]
      exact ⟨rfl, .none⟩
    · rw [Option.filter_some_pos (by simpa using huser)]
      obtain rfl := id_of_getFolder hfound
      rw [wpe_bind]
      refine wpe_mono (wpe_collectUnseen hw hf hrounds frontier_start fun y hy => ⟨0, le_rfl, ?_⟩) ?_ fun _ _ h => h
      · rw [level_zero]
        exact List.mem_singleton.1 hy
      · rintro ids w' ⟨rfl, hids⟩
        refine ⟨rfl, .some fun y => ?_⟩
        rw [List.mem_cons, hids, mem_subtreeIds hf hfound, under_iff]

theorem wpe_resolveFolderScope_nested : wpe folderAlone (resolveFolderScope 3 1 "a")
    (fun scope w' => w' = nestedFolders ∧
      Option.Rel (fun ids ids' => ∀ y, y ∈ ids ↔ y ∈ ids') scope (nestedFolders.folderScope 1 "a"))
    (fun e w' => w' = nestedFolders ∧ e ≠ .unfinished) nestedFolders :=
  wpe_resolveFolderScope sound_nestedFolders.1 sound_nestedFolders.2 (by decide)

end Scope

/-! ## Trees -/

section Tree

structure FolderTree extends FolderWorld where
  wellFormed : toFolderWorld.WellFormed
  forest : Forest toFolderWorld.links
  sameOwner : ∀ row ∈ folders, ∀ parent ∈ folders, row.parentId = some parent.id → row.userId = parent.userId

variable {tree : FolderTree} {folderId y : String} {folder : FolderRow}

theorem owner_of_under (h : tree.getFolder folderId = some folder) (hunder : Under tree.links folderId y) :
    ∃ row, tree.getFolder y = some row ∧ row.userId = folder.userId := by
  obtain ⟨n, hlevel⟩ := hunder
  induction n generalizing y with
  | zero =>
    obtain rfl := level_zero.1 hlevel
    exact ⟨folder, h, rfl⟩
  | succ n ih =>
    obtain ⟨p, hlink, hp⟩ := level_succ.1 hlevel
    obtain ⟨parent, hparent, howner⟩ := ih hp
    obtain ⟨row, hrow, hrowParent⟩ := Option.map_eq_some_iff.1 hlink
    obtain rfl := id_of_getFolder hparent
    have hsame := tree.sameOwner row (List.mem_of_find?_eq_some hrow) parent (List.mem_of_find?_eq_some hparent)
      hrowParent
    exact ⟨row, hrow, hsame.trans howner⟩

def FolderTree.children (tree : FolderTree) (parentId : String) : List FolderRow :=
  tree.folders.filter fun row => row.parentId = some parentId

theorem childRows_eq (h : tree.getFolder folderId = some folder) :
    tree.childRows folder.userId (some folderId) = tree.children folderId := by
  refine List.filter_congr fun row hrow => ?_
  obtain rfl := id_of_getFolder h
  refine decide_eq_decide.2 ⟨fun hchild => hchild.2, fun hparent => ⟨?_, hparent⟩⟩
  exact tree.sameOwner row hrow folder (List.mem_of_find?_eq_some h) hparent

theorem getFolderContents_eq {before : Collation} {offset limit : ℤ} (h : tree.getFolder folderId = some folder) :
    tree.getFolderContents before folder.userId folderId offset limit =
      some (folder, (((tree.children folderId).mergeSort fun a b => before a.name b.name).drop offset.toNat).take
        limit.toNat, ((tree.children folderId).length : ℤ),
        tree.listFilesInFolder folder.userId (some folderId) offset limit) := by
  unfold FolderWorld.getFolderContents
  rw [ownFolder_eq_some.2 ⟨h, rfl⟩, Option.map_some, id_of_getFolder h,
    FolderWorld.listByParent, childRows_eq h]

theorem under_of_children {bound : String} {row : FolderRow} (hunder : Under tree.links bound folderId)
    (hrow : row ∈ tree.children folderId) : Under tree.links bound row.id := by
  obtain ⟨hmem, hparent⟩ := List.mem_filter.1 hrow
  have hlink : tree.links row.id = some (some folderId) := by
    rw [links_of_getFolder (getFolder_mem tree.wellFormed hmem), of_decide_eq_true hparent]
  exact under_child hlink hunder

theorem nodup_children : ((tree.children folderId).map (·.id)).Nodup :=
  tree.wellFormed.sublist (List.filter_sublist.map _)

end Tree

end Transform.Files
