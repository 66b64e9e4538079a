import Transform.Files.FolderListing
import Transform.Mcp.ToolBox

/-!
# Mcp.FolderPages — the folders of a folder, page by page

An agent that is confined to a folder lists the folders in one of its subtree, page by page, until it has seen as many as
the answer says there are.  What is said is how many the page holds, so it stops after the first: it has them all exactly
when one page does, and every page says the same exactly when there are none (`pages_complete_iff`).
-/

namespace Transform.Mcp

open Lib Conversions Files Access Assistant

/-! ## Pages of a tree -/

section Pages

variable (tree : FolderTree) (before : Collation) (box : MCPToolBox) (ctx : MCPToolContext)

/-- What the file service answers about folders. -/
def treeReply : (op : PortOp) → Except PortError op.Ans
  | .resolveFolderScope userId folderId => .ok (tree.folderScope userId folderId)
  | .listRootFolders userId offset limit => .ok (tree.listByParent before userId none offset limit)
  | .getFolderContents userId folderId offset limit =>
    match tree.getFolderContents before userId folderId offset limit with
    | some found => .ok found
    | none => .error ⟨.folderNotFound, "Folder not found"⟩
  | _ => .error ⟨.other, ""⟩

def treeEnv : Env PortSig Unit := ⟨fun _ op => treeReply tree before op, fun _ _ => ()⟩

/-- What a call answers. -/
def folderPage (parentId : Option String) (limit offset : ℤ) : Except PortError Dict :=
  ((box.listFolders ctx parentId (.int limit) (.int offset)).run.exec (treeEnv tree before) ()).1

def folderIdOf : Json → Option String
  | .obj fields =>
    match mapGet fields "folder_id" with
    | some (.str id) => some id
    | _ => none
  | _ => none

def folderIdsOf (page : Dict) : List String :=
  match mapGet page "folders" with
  | some (.arr items) => items.filterMap folderIdOf
  | _ => []

/-- How many there are, as the page says. -/
def totalOf (page : Dict) : Option ℤ :=
  match mapGet page "total" with
  | some (.int total) => some total
  | _ => none

/-- The folders seen on the pages from the `k`-th on, until as many were seen as there are. -/
def seenFrom (page : ℕ → Except PortError Dict) : ℕ → ℕ → List String → Option (List String)
  | 0, _, _ => none
  | fuel + 1, k, seen =>
    match page k with
    | .error _ => none
    | .ok payload =>
      let seen := seen ++ folderIdsOf payload
      match totalOf payload with
      | none => none
      | some total => if total ≤ seen.length then some seen else seenFrom page fuel (k + 1) seen

/-- The grant is confined to `bound`, a folder of its user, and lets documents be read; `parentId` lies in the subtree, or
none is named. -/
structure Confined (bound : String) (parentId : Option String) : Prop where
  scope : ctx.allows .documentsRead = true
  access : ctx.folderAccess = .folder
  folderId : truthy ctx.folderId = some bound
  owned : ∃ folder, tree.getFolder bound = some folder ∧ folder.userId = ctx.userId
  inside : Under tree.links bound (parentId.getD bound)

/-- Paging ends, and has named every folder in the parent exactly once. -/
def PagesComplete (parentId : Option String) (parent : String) (limit : ℤ) : Prop :=
  ∃ fuel ids, seenFrom (fun k => folderPage tree before box ctx parentId limit (k * limit)) fuel 0 [] = some ids ∧
    ids.Nodup ∧ ∀ id, id ∈ ids ↔ id ∈ (tree.children parent).map (·.id)

/-- Every page says the same of how many there are. -/
def TotalsAgree (parentId : Option String) (limit : ℤ) : Prop :=
  ∃ total, ∀ k : ℕ, ∃ page, folderPage tree before box ctx parentId limit (k * limit) = .ok page ∧
    totalOf page = some total

end Pages

/-! ## One page -/

section Page

variable {tree : FolderTree} {before : Collation} {box : MCPToolBox} {ctx : MCPToolContext} {bound : String}
  {parentId : Option String} {limit offset : ℤ}

theorem totalOf_foldersPayload {folder : FolderResolution} {rows : List FolderRow} {total : ℤ} {parent : Option String} :
    totalOf (box.foldersPayload folder rows total parent) =
      some (if folder.subtree = none then total
        else (rows.filter fun row => folder.allows (some row.id)).length) := rfl

theorem folderIdsOf_foldersPayload {folder : FolderResolution} {rows : List FolderRow} {total : ℤ}
    {parent : Option String} : folderIdsOf (box.foldersPayload folder rows total parent) =
      (rows.filter fun row => folder.allows (some row.id)).map (·.id) := by
  have hrow : (folderIdOf ∘ fun row => Json.obj (box.folderPayload row)) = some ∘ fun row => row.id := rfl
  show ((rows.filter _).map _).filterMap folderIdOf = _
  rw [List.filterMap_map, hrow]
  exact congrFun List.filterMap_eq_map _

def pageRows (tree : FolderTree) (before : Collation) (box : MCPToolBox) (parent : String) (limit offset : ℤ) :
    List FolderRow :=
  (((tree.children parent).mergeSort fun a b => before a.name b.name).drop (max 0 offset).toNat).take
    (box.clampLimit (.int limit)).toNat

theorem target_of_confined (h : Confined tree ctx bound parentId) :
    ∃ folder, tree.getFolder (parentId.getD bound) = some folder ∧ folder.userId = ctx.userId := by
  obtain ⟨top, htop, howner⟩ := h.owned
  obtain ⟨folder, hfolder, hsame⟩ := owner_of_under htop h.inside
  exact ⟨folder, hfolder, hsame.trans howner⟩

theorem wpe_confined (h : Confined tree ctx bound parentId) {Q : FolderResolution → Unit → Prop}
    {E : PortError → Unit → Prop} (hQ : Q { subtree := some (tree.subtreeIds bound) } ()) :
    wpe (.of (treeEnv tree before)) (resolveFolder ctx) Q E () := by
  obtain ⟨top, htop, howner⟩ := h.owned
  have hscope : (treeEnv tree before).reply () (.resolveFolderScope ctx.userId bound) =
      .ok (some (tree.subtreeIds bound)) := by
    show Except.ok (tree.folderScope ctx.userId bound) = _
    rw [FolderWorld.folderScope, ownFolder_eq_some.2 ⟨htop, howner⟩, Option.map_some, id_of_getFolder htop]
  unfold resolveFolder
  rw [h.access]
  dsimp only
  rw [h.folderId]
  dsimp only
  rw [wpe_bind]
  exact (wpe_ask_answered hscope).2 hQ

theorem visible_rows (h : Confined tree ctx bound parentId) {rows : List FolderRow}
    (hrows : ∀ row ∈ rows, row ∈ tree.children (parentId.getD bound)) :
    (rows.filter fun row => FolderResolution.allows { subtree := some (tree.subtreeIds bound) } (some row.id)) =
      rows := by
  obtain ⟨top, htop, -⟩ := h.owned
  refine List.filter_eq_self.2 fun row hrow => ?_
  have hunder := under_of_children h.inside (hrows row hrow)
  exact List.contains_iff_mem.2 ((mem_subtreeIds tree.forest htop).2 hunder)

theorem folderPage_eq (before : Collation) (box : MCPToolBox) (limit offset : ℤ)
    (h : Confined tree ctx bound parentId) :
    ∃ page, folderPage tree before box ctx parentId limit offset = .ok page ∧
      folderIdsOf page = (pageRows tree before box (parentId.getD bound) limit offset).map (·.id) ∧
      totalOf page = some ((pageRows tree before box (parentId.getD bound) limit offset).length : ℤ) := by
  obtain ⟨target, htarget, howner⟩ := target_of_confined h
  have hreply : (treeEnv tree before).reply () (.getFolderContents ctx.userId (parentId.getD bound)
      (box.startOf (.int offset)) (box.clampLimit (.int limit))) =
        .ok (target, pageRows tree before box (parentId.getD bound) limit offset,
          (tree.children (parentId.getD bound)).length, tree.listFilesInFolder target.userId
            (some (parentId.getD bound)) (box.startOf (.int offset)) (box.clampLimit (.int limit))) := by
    simp only [treeEnv, treeReply, ← howner, getFolderContents_eq htarget]
    rfl
  refine exec_ok_of_wpe (wpe_guarded (fun hdenied => ?_) fun _ => wpe_confined h ⟨?_, fun _ => ?_⟩)
  · rw [h.scope] at hdenied
    cases hdenied
  · intro denial hdenial
    cases hdenial
  · have hreach : FolderResolution.allows { subtree := some (tree.subtreeIds bound) } (some (parentId.getD bound)) =
        true := by
      obtain ⟨top, htop, -⟩ := h.owned
      exact List.contains_iff_mem.2 ((mem_subtreeIds tree.forest htop).2 h.inside)
    have hparent : ¬ (parentId ≠ none ∧
        FolderResolution.allows { subtree := some (tree.subtreeIds bound) } parentId = false) := by
      rintro ⟨hsome, hdenied⟩
      obtain ⟨parent, rfl⟩ := Option.ne_none_iff_exists'.1 hsome
      rw [Option.getD_some, hdenied] at hreach
      cases hreach
    have hdefault : defaultFolder ctx { subtree := some (tree.subtreeIds bound) } parentId =
        some (parentId.getD bound) := by
      rcases parentId with _ | parent
      · have hbound : ctx.folderId = some bound := (Option.filter_eq_some_iff.1 h.folderId).1
        exact hbound
      · rfl
    have hrows : ∀ row ∈ pageRows tree before box (parentId.getD bound) limit offset,
        row ∈ tree.children (parentId.getD bound) := fun row hrow =>
      List.mem_mergeSort.1 (List.mem_of_mem_drop (List.mem_of_mem_take hrow))
    rw [if_neg hparent]
    dsimp only
    rw [hdefault]
    unfold orNotFound
    simp only [wpe_tryCatch, wpe_bind, wpe_pure]
    refine (wpe_ask_answered hreply).2 ?_
    refine ⟨?_, ?_⟩
    · rw [folderIdsOf_foldersPayload, visible_rows h hrows]
    · rw [totalOf_foldersPayload, visible_rows h hrows]
      rfl

theorem length_pageRows (before : Collation) {parent : String} : (pageRows tree before box parent limit offset).length =
    min (box.clampLimit (.int limit)).toNat ((tree.children parent).length - (max 0 offset).toNat) := by
  rw [pageRows, List.length_take, List.length_drop, List.length_mergeSort]

theorem clampLimit_int : box.clampLimit (.int limit) = max 1 (min limit box.maxListLimit) := rfl

end Page

/-! ## All pages -/

section All

variable {tree : FolderTree} {before : Collation} {box : MCPToolBox} {ctx : MCPToolContext} {bound : String}
  {parentId : Option String} {limit : ℤ} {fuel : ℕ}

theorem seenFrom_first (h : Confined tree ctx bound parentId) :
    seenFrom (fun k => folderPage tree before box ctx parentId limit (k * limit)) (fuel + 1) 0 [] =
      some ((pageRows tree before box (parentId.getD bound) limit 0).map (·.id)) := by
  obtain ⟨page, hpage, hids, htotal⟩ := folderPage_eq before box limit 0 h
  have hzero : ((0 : ℕ) : ℤ) * limit = 0 := Int.zero_mul limit
  rw [seenFrom, hzero, hpage]
  dsimp only
  rw [htotal, hids, List.nil_append, List.length_map]
  dsimp only
  rw [if_pos le_rfl]

theorem sorted_perm {parent : String} :
    ((tree.children parent).mergeSort fun a b => before a.name b.name).Perm (tree.children parent) :=
  List.mergeSort_perm ..

theorem first_page_iff (before : Collation) {parent : String} :
    (∀ id, id ∈ (pageRows tree before box parent limit 0).map (·.id) ↔ id ∈ (tree.children parent).map (·.id)) ↔
      ((tree.children parent).length : ℤ) ≤ max 1 (min limit box.maxListLimit) := by
  rw [← clampLimit_int]
  have hpos : 0 < box.clampLimit (.int limit) := Int.lt_of_lt_of_le Int.zero_lt_one (le_max_left ..)
  constructor
  · intro hsame
    have hsub : (tree.children parent).map (·.id) ⊆ (pageRows tree before box parent limit 0).map (·.id) :=
      fun id hid => (hsame id).2 hid
    have hle := (nodup_children.subperm hsub).length_le
    rw [List.length_map, List.length_map, length_pageRows] at hle
    omega
  · intro hle id
    have hall : pageRows tree before box parent limit 0 =
        (tree.children parent).mergeSort fun a b => before a.name b.name := by
      refine List.take_of_length_le ?_
      rw [List.length_drop, List.length_mergeSort]
      omega
    rw [hall]
    exact (sorted_perm.map _).mem_iff

theorem nodup_pageRows {parent : String} : ((pageRows tree before box parent limit 0).map (·.id)).Nodup := by
  have hsorted : (((tree.children parent).mergeSort fun a b => before a.name b.name).map (·.id)).Nodup :=
    (sorted_perm.map _).nodup_iff.2 nodup_children
  exact hsorted.sublist (((List.take_sublist _ _).trans (List.drop_sublist _ _)).map _)

theorem pagesComplete_iff (h : Confined tree ctx bound parentId) :
    PagesComplete tree before box ctx parentId (parentId.getD bound) limit ↔
      ((tree.children (parentId.getD bound)).length : ℤ) ≤ max 1 (min limit box.maxListLimit) := by
  rw [← first_page_iff before]
  constructor
  · rintro ⟨fuel, ids, hseen, -, hmem⟩
    cases fuel with
    | zero => cases hseen
    | succ fuel =>
      rw [seenFrom_first h, Option.some.injEq] at hseen
      rwa [← hseen] at hmem
  · intro hmem
    exact ⟨1, _, seenFrom_first h, nodup_pageRows, hmem⟩

theorem totalsAgree_iff (h : Confined tree ctx bound parentId) :
    TotalsAgree tree before box ctx parentId limit ↔ limit ≤ 0 ∨ tree.children (parentId.getD bound) = [] := by
  have hpos : 0 < box.clampLimit (.int limit) := Int.lt_of_lt_of_le Int.zero_lt_one (le_max_left ..)
  constructor
  · rintro ⟨total, hsame⟩
    have hlength : ∀ k : ℕ, total = (min (box.clampLimit (.int limit)).toNat
        ((tree.children (parentId.getD bound)).length - (max 0 (k * limit)).toNat) : ℕ) := by
      intro k
      obtain ⟨page, hpage, htotal⟩ := hsame k
      obtain ⟨page', hpage', -, htotal'⟩ := folderPage_eq before box limit (k * limit) h
      obtain rfl : page = page' := Except.ok.inj (hpage.symm.trans hpage')
      rw [← length_pageRows before]
      exact Option.some.inj (htotal.symm.trans htotal')
    rw [or_iff_not_imp_left, Int.not_le]
    intro hlimit
    have hfirst := hlength 0
    have hlast := hlength (tree.children (parentId.getD bound)).length
    have hbeyond : ((tree.children (parentId.getD bound)).length : ℤ) ≤
        (tree.children (parentId.getD bound)).length * limit :=
      le_mul_of_one_le_right (Int.natCast_nonneg _) hlimit
    rw [← List.length_eq_zero_iff]
    simp only [Nat.cast_zero, Int.zero_mul] at hfirst
    omega
  · intro hempty
    refine ⟨(pageRows tree before box (parentId.getD bound) limit 0).length, fun k => ?_⟩
    obtain ⟨page, hpage, -, htotal⟩ := folderPage_eq before box limit (k * limit) h
    refine ⟨page, hpage, htotal.trans ?_⟩
    rw [length_pageRows, length_pageRows]
    rcases hempty with hlimit | hnone
    · have hstart : max 0 ((k : ℤ) * limit) = max 0 0 :=
        max_eq_left (Int.mul_nonpos_of_nonneg_of_nonpos (Int.natCast_nonneg k) hlimit)
      rw [hstart]
    · rw [hnone]
      simp

/-- Paging by what the answers say of the total names every folder in the parent once exactly when one page holds them
all; the answers agree on the total exactly when there are none, or no page is but the first. -/
theorem pages_complete_iff (h : Confined tree ctx bound parentId) :
    (PagesComplete tree before box ctx parentId (parentId.getD bound) limit ↔
      ((tree.children (parentId.getD bound)).length : ℤ) ≤ max 1 (min limit box.maxListLimit)) ∧
    (TotalsAgree tree before box ctx parentId limit ↔ limit ≤ 0 ∨ tree.children (parentId.getD bound) = []) :=
  ⟨pagesComplete_iff h, totalsAgree_iff h⟩

def reportsRow : FolderRow where
  id := "reports"
  userId := 1
  parentId := none
  name := "Reports"
  createdAt := 0
  updatedAt := 0

def yearRow (year : String) : FolderRow := { reportsRow with id := year, parentId := some "reports", name := year }

/-- Two folders in a third. -/
def reportsTree : FolderTree where
  folders := [reportsRow, yearRow "2023", yearRow "2024"]
  wellFormed := (by decide : ["reports", "2023", "2024"].Nodup)
  forest := by
    intro x hx
    have hmem : x ∈ ["reports", "2023", "2024"] := links_ne_none.1 hx
    simp only [List.mem_cons, List.not_mem_nil, or_false] at hmem
    rcases hmem with rfl | rfl | rfl
    · exact ⟨0, .root rfl⟩
    · exact ⟨1, .child rfl (.root rfl)⟩
    · exact ⟨1, .child rfl (.root rfl)⟩
  sameOwner := by decide

def reportsContext : MCPToolContext :=
  { userId := 1, scopes := [.documentsRead], folderAccess := .folder, folderId := some "reports" }

theorem reports_confined : Confined reportsTree reportsContext "reports" none where
  scope := rfl
  access := rfl
  folderId := rfl
  owned := ⟨reportsRow, rfl, rfl⟩
  inside := under_refl

/-- On one page of twenty there are both, and no page after it says that there are two. -/
theorem reports_on_one_page :
    PagesComplete reportsTree (· ≤ ·) quietBox reportsContext none "reports" 20 ∧
      ¬ TotalsAgree reportsTree (· ≤ ·) quietBox reportsContext none 20 :=
  ⟨(pages_complete_iff reports_confined).1.2 (by decide),
    fun hagree => absurd ((pages_complete_iff reports_confined).2.1 hagree) (by decide)⟩

/-- On pages of one, the second folder is never seen. -/
theorem reports_one_by_one : Confined reportsTree reportsContext "reports" none ∧
    ¬ PagesComplete reportsTree (· ≤ ·) quietBox reportsContext none "reports" 1 := by
  refine ⟨reports_confined, fun hcomplete => ?_⟩
  exact absurd ((pagesComplete_iff reports_confined).1 hcomplete) (by decide)

end All

end Transform.Mcp
