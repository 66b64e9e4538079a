import Transform.Mcp.ToolBox

/-!
# Mcp.Download — a file read page after page

A caller that starts at the beginning and follows `next_offset` while there is more gets the first 25 MiB of the object,
and is then told that there is no more.  So it has the content, or a refusal, exactly when the file cannot be read at all
or its content is no longer than that (`download_delivers_iff`).
-/

namespace Transform.Mcp

open Lib Conversions Files Access Assistant

/-! ## A stored file -/

section Shelf

/-- The row of a file, the content of its object, and the folders that the caller's grant resolves to. -/
structure Shelf where
  row : UserFile
  content : Bytes
  subtree : Option (List String) := none

variable (shelf : Shelf) (box : MCPToolBox) (ctx : MCPToolContext) (fileId : String)

/-- `read_object` gives the first bytes of the object. -/
def Shelf.reply : (op : PortOp) → Except PortError op.Ans
  | .getFile userId fileId =>
    if userId = shelf.row.userId ∧ fileId = shelf.row.id then .ok shelf.row
    else .error ⟨.fileRecordNotFound, fileId⟩
  | .resolveFolderScope _ _ => .ok shelf.subtree
  | .readObject objectKey maxBytes _ =>
    if objectKey = shelf.row.fileKey then .ok (shelf.content.take maxBytes.toNat) else .error ⟨.fileSystem, objectKey⟩
  | _ => .error ⟨.other, ""⟩

def Shelf.env : Env PortSig Unit := ⟨fun _ op => shelf.reply op, fun _ _ => ()⟩

/-- The folders that the caller is confined to, where they can be resolved and hold the file. -/
def Shelf.Confined : Prop :=
  (truthy ctx.folderId).isSome = true ∧ ∃ subtree, shelf.subtree = some subtree ∧
    shelf.row.folderId.any subtree.contains = true

/-- The caller may read the file. -/
def Shelf.Readable : Prop :=
  ctx.allows .documentsRead = true ∧ (ctx.userId = shelf.row.userId ∧ fileId = shelf.row.id) ∧
    (ctx.folderAccess = .folder → shelf.Confined ctx)

/-- What a call answers. -/
def Shelf.download (offset maxBytes : Json) : Except PortError Dict :=
  ((box.downloadFile ctx fileId offset maxBytes).run.exec shelf.env ()).1

/-- The pages of a caller that follows `next_offset` while there is more; `maxBytes` is what it asks for in each call. -/
def Shelf.pages (maxBytes : ℕ → Json) : ℕ → ℕ → Json → Option (List Dict)
  | 0, _, _ => none
  | fuel + 1, calls, offset =>
    match shelf.download box ctx fileId offset (maxBytes calls) with
    | .error _ => none
    | .ok page =>
      if mapGet page "has_more" = some (.bool true) then
        (Shelf.pages maxBytes fuel (calls + 1) ((mapGet page "next_offset").getD .null)).map (page :: ·)
      else some [page]

def windowOf (page : Dict) : Option Bytes :=
  match mapGet page "content_base64" with
  | some (.str text) => b64decode text
  | _ => none

/-- The windows of all pages, one after the other. -/
def windowsOf : List Dict → Option Bytes
  | [] => some []
  | page :: rest => (windowOf page).bind fun window => (windowsOf rest).map (window ++ ·)

/-- The windows are the content, or a call was refused; where the last page says that there is no more, they are the
content. -/
structure Delivers (content : Bytes) (pages : List Dict) : Prop where
  whole : windowsOf pages = some content ∨ ∃ page ∈ pages, mapGet page "ok" = some (.bool false)
  ended : ∀ page, pages.getLast? = some page → mapGet page "has_more" = some (.bool false) →
    windowsOf pages = some content

end Shelf

/-! ## One call -/

section Call

variable {shelf : Shelf} {box : MCPToolBox} {ctx : MCPToolContext} {fileId : String} {offset maxBytes : Json}

def Refuses (page : Dict) : Prop := mapGet page "ok" = some (.bool false) ∧ mapGet page "has_more" = none

theorem refuses_failure (error : String) : Refuses (failure error) := ⟨rfl, rfl⟩

/-- What the guard makes of the grant. -/
def Shelf.resolution (shelf : Shelf) (ctx : MCPToolContext) : FolderResolution :=
  match ctx.folderAccess, truthy ctx.folderId, shelf.subtree with
  | .all, _, _ => {}
  | .folder, some _, some subtree => { subtree := some subtree }
  | .folder, _, _ => { denial := some folderUnavailable }

theorem wpe_resolution {Q : FolderResolution → Unit → Prop} {E : PortError → Unit → Prop}
    (h : Q (shelf.resolution ctx) ()) : wpe (.of shelf.env) (resolveFolder ctx) Q E () := by
  unfold Shelf.resolution at h
  unfold resolveFolder
  rcases haccess : ctx.folderAccess with _ | _
  · rw [haccess] at h
    exact h
  · rw [haccess] at h
    rcases hfolder : truthy ctx.folderId with _ | folderId
    · rw [hfolder] at h
      exact h
    · rw [hfolder] at h
      have hscope : shelf.env.reply () (.resolveFolderScope ctx.userId folderId) = .ok shelf.subtree := rfl
      dsimp only
      rw [wpe_bind]
      refine (wpe_ask_answered hscope).2 ?_
      rcases hsubtree : shelf.subtree with _ | subtree
      · rw [hsubtree] at h
        exact h
      · rw [hsubtree] at h
        exact h

theorem confined_iff (haccess : ctx.folderAccess = .folder) : shelf.Confined ctx ↔
    (shelf.resolution ctx).denial = none ∧ (shelf.resolution ctx).allows shelf.row.folderId = true := by
  unfold Shelf.Confined Shelf.resolution
  rw [haccess]
  rcases truthy ctx.folderId with _ | folderId
  · exact ⟨fun h => (by cases h.1), fun h => (by cases h.1)⟩
  · rcases shelf.subtree with _ | subtree
    · exact ⟨fun ⟨_, _, h, _⟩ => (by cases h), fun h => (by cases h.1)⟩
    · exact ⟨fun ⟨_, _, hsubtree, h⟩ => ⟨rfl, Option.some.inj hsubtree ▸ h⟩, fun h => ⟨rfl, subtree, rfl, h.2⟩⟩

theorem readable_iff : shelf.Readable ctx fileId ↔ ctx.allows .documentsRead = true ∧
    (shelf.resolution ctx).denial = none ∧ (ctx.userId = shelf.row.userId ∧ fileId = shelf.row.id) ∧
    (shelf.resolution ctx).allows shelf.row.folderId = true := by
  unfold Shelf.Readable
  rcases haccess : ctx.folderAccess with _ | _
  · have hall : shelf.resolution ctx = {} := by
      unfold Shelf.resolution
      rw [haccess]
    rw [hall]
    exact ⟨fun h => ⟨h.1, rfl, h.2.1, rfl⟩, fun h => ⟨h.1, h.2.2.1, fun hfolder => (by cases hfolder)⟩⟩
  · rw [confined_iff haccess]
    exact ⟨fun h => ⟨h.1, (h.2.2 rfl).1, h.2.1, (h.2.2 rfl).2⟩, fun h => ⟨h.1, h.2.2.1, fun _ => ⟨h.2.1, h.2.2.2⟩⟩⟩

theorem wpe_ownedFile_shelf {Q : Except Dict UserFile → Unit → Prop} {E : PortError → Unit → Prop}
    (hok : ctx.userId = shelf.row.userId ∧ fileId = shelf.row.id → Q (.ok shelf.row) ())
    (hno : ¬ (ctx.userId = shelf.row.userId ∧ fileId = shelf.row.id) → Q (.error (failure fileNotFoundError)) ()) :
    wpe (.of shelf.env) (ownedFile ctx fileId) Q E () := by
  unfold ownedFile
  simp only [wpe_tryCatch, wpe_bind, wpe_pure]
  by_cases hmine : ctx.userId = shelf.row.userId ∧ fileId = shelf.row.id
  · have hget : shelf.env.reply () (.getFile ctx.userId fileId) = .ok shelf.row := if_pos hmine
    exact (wpe_ask_answered hget).2 (hok hmine)
  · have hget : shelf.env.reply () (.getFile ctx.userId fileId) = .error ⟨.fileRecordNotFound, fileId⟩ := if_neg hmine
    exact (wpe_ask_raised hget).2 (hno hmine)

theorem download_refuses (box : MCPToolBox) (offset maxBytes : Json) (h : ¬ shelf.Readable ctx fileId) :
    ∃ page, shelf.download box ctx fileId offset maxBytes = .ok page ∧ Refuses page := by
  rw [readable_iff] at h
  refine exec_ok_of_wpe (wpe_guarded (fun _ error => ⟨rfl, rfl⟩) fun hscope => wpe_resolution ⟨?_, fun hopen => ?_⟩)
  · intro denial hdenial
    unfold Shelf.resolution at hdenial
    split at hdenial
    · cases hdenial
    · cases hdenial
    · cases hdenial
      exact refuses_failure _
  · rw [wpe_bind]
    unfold ownedFileInScope
    rw [wpe_bind]
    refine wpe_ownedFile_shelf (fun hmine => ?_) fun _ => refuses_failure _
    dsimp only
    rw [if_neg fun hallows => h ⟨hscope, hopen, hmine, hallows⟩]
    exact refuses_failure _

theorem download_eq (box : MCPToolBox) (offset maxBytes : Json) (h : shelf.Readable ctx fileId)
    (hrow : shelf.row.fileSizeBytes ≤ maxDownloadBytes) :
    shelf.download box ctx fileId offset maxBytes =
      .ok (pageOf shelf.row (box.startOf offset) (box.chunkOf maxBytes)
        (min maxDownloadBytes (box.startOf offset + box.chunkOf maxBytes + 1))
        (shelf.content.take (min maxDownloadBytes (box.startOf offset + box.chunkOf maxBytes + 1)).toNat)) := by
  obtain ⟨hscope, hopen, hmine, hallows⟩ := readable_iff.1 h
  generalize hlimit : min maxDownloadBytes (box.startOf offset + box.chunkOf maxBytes + 1) = readLimit
  have hread : shelf.env.reply () (.readObject shelf.row.fileKey readLimit ctx.userId.repr) =
      .ok (shelf.content.take readLimit.toNat) := if_pos rfl
  have hcall : wpe (.of shelf.env) (box.downloadFile ctx fileId offset maxBytes)
      (fun page _ => page = pageOf shelf.row (box.startOf offset) (box.chunkOf maxBytes) readLimit
        (shelf.content.take readLimit.toNat)) (fun _ _ => False) () := by
    refine wpe_guarded (fun hdenied => ?_) fun _ => wpe_resolution ⟨?_, fun _ => ?_⟩
    · rw [hscope] at hdenied
      cases hdenied
    · intro denial hdenial
      rw [hopen] at hdenial
      cases hdenial
    · rw [wpe_bind]
      unfold ownedFileInScope
      rw [wpe_bind]
      refine wpe_ownedFile_shelf (fun _ => ?_) fun hnot => absurd hmine hnot
      dsimp only
      rw [if_pos hallows]
      show wpe _ (if _ then _ else _) _ _ _
      rw [if_neg (Int.not_lt.2 hrow), hlimit]
      simp only [wpe_tryCatch, wpe_bind, wpe_pure]
      exact (wpe_ask_answered hread).2 rfl
  obtain ⟨page, hpage, rfl⟩ := exec_ok_of_wpe hcall
  exact hpage

end Call

/-! ## One page -/

section Page

variable {row : UserFile} {content window : Bytes} {start chunk total : ℤ} {hasMore : Bool}

theorem pagePayload_ok : mapGet (pagePayload row start total window hasMore) "ok" = some (.bool true) := rfl

theorem pagePayload_hasMore : mapGet (pagePayload row start total window hasMore) "has_more" = some (.bool hasMore) := rfl

theorem pagePayload_next :
    mapGet (pagePayload row start total window true) "next_offset" = some (.int (start + window.length)) := rfl

theorem windowOf_pagePayload : windowOf (pagePayload row start total window hasMore) = some window := by
  have hcontent : mapGet (pagePayload row start total window hasMore) "content_base64" =
      some (.str (b64encode window)) := rfl
  unfold windowOf
  rw [hcontent]
  exact b64decode_b64encode window

def reached (content : Bytes) : Bytes := content.take maxDownloadBytes.toNat

theorem length_reached : (reached content).length = min maxDownloadBytes.toNat content.length := List.length_take

theorem pageOf_end {offset : ℕ} {readLimit : ℕ} (hlimit : (readLimit : ℤ) ≤ maxDownloadBytes)
    (hoffset : offset < content.length ∨ content = [] ∧ offset = 0) (hchunk : readLimit ≤ offset + chunk.toNat + 1)
    (hend : content.length < readLimit) :
    ∃ total, pageOf row offset chunk readLimit (content.take readLimit) =
      pagePayload row offset total (content.drop offset) false := by
  have hlength : ((content.take readLimit).length : ℤ) = content.length := by
    rw [List.length_take, Nat.min_eq_right (Nat.le_of_lt hend)]
  have hwindow : (content.drop offset).take chunk.toNat = content.drop offset := by
    refine List.take_of_length_le ?_
    rw [List.length_drop]
    omega
  have hpast : ¬ ((content.length : ℤ) ≤ offset ∧ 0 < (content.length : ℤ)) := by
    rintro ⟨hle, hpos⟩
    rcases hoffset with hlt | ⟨rfl, -⟩
    · omega
    · exact absurd hpos (by simp)
  unfold pageOf
  dsimp only
  rw [hlength, if_neg (by omega), if_neg hpast, if_pos (by omega), List.take_of_length_le (Nat.le_of_lt hend),
    Int.toNat_natCast, hwindow]
  exact ⟨_, rfl⟩

theorem pageOf_bound (row : UserFile) (chunk : ℤ) {offset : ℕ} {readLimit : ℕ} (hlimit : (readLimit : ℤ) ≤ maxDownloadBytes)
    (hoffset : offset < readLimit) (hbound : readLimit ≤ content.length) :
    ∃ total, pageOf row offset chunk readLimit (content.take readLimit) =
      pagePayload row offset total (((content.take readLimit).drop offset).take chunk.toNat)
        (decide ((offset : ℤ) + min chunk.toNat (readLimit - offset) < readLimit) ||
          decide ((offset : ℤ) + min chunk.toNat (readLimit - offset) < row.fileSizeBytes)) := by
  have hlength : ((content.take readLimit).length : ℤ) = readLimit := by
    rw [List.length_take, Nat.min_eq_left hbound]
  have hwindow : ((((content.take readLimit).drop offset).take chunk.toNat).length : ℤ) =
      (min chunk.toNat (readLimit - offset) : ℕ) := by
    rw [List.length_take, List.length_drop, List.length_take, Nat.min_eq_left hbound]
  unfold pageOf
  dsimp only
  rw [hlength, if_neg (by omega), if_neg (by omega), if_neg (by omega), Int.toNat_natCast, hwindow]
  refine ⟨max row.fileSizeBytes readLimit, ?_⟩
  norm_cast

theorem pageOf_cases (hrow : row.fileSizeBytes ≤ maxDownloadBytes) {offset : ℕ}
    (hoffset : offset < (reached content).length ∨ content = [] ∧ offset = 0) (hchunk : 0 < chunk) :
    (∃ total, pageOf row offset chunk (min maxDownloadBytes (offset + chunk + 1))
        (content.take (min maxDownloadBytes (offset + chunk + 1)).toNat) =
      pagePayload row offset total ((reached content).drop offset) false) ∨
    (offset + chunk.toNat < (reached content).length ∧
      ∃ total, pageOf row offset chunk (min maxDownloadBytes (offset + chunk + 1))
        (content.take (min maxDownloadBytes (offset + chunk + 1)).toNat) =
      pagePayload row offset total (((reached content).drop offset).take chunk.toNat) true) := by
  obtain ⟨bound, hbound, hpos⟩ : ∃ bound : ℕ, maxDownloadBytes = bound ∧ 0 < bound :=
    ⟨maxDownloadBytes.toNat, rfl, by decide⟩
  have hlimit : min maxDownloadBytes (offset + chunk + 1) = (min bound (offset + chunk.toNat + 1) : ℕ) := by
    rw [hbound]
    omega
  rw [length_reached, hbound, Int.toNat_natCast] at hoffset ⊢
  rw [hbound] at hlimit hrow
  rw [hlimit, Int.toNat_natCast]
  have hreached : reached content = content.take bound := by
    unfold reached
    rw [hbound, Int.toNat_natCast]
  rw [hreached]
  rcases Nat.lt_or_ge content.length (min bound (offset + chunk.toNat + 1)) with hend | hmore
  · left
    rw [List.take_of_length_le (by omega : content.length ≤ bound)]
    refine pageOf_end (by omega) (hoffset.imp_left fun h => by omega) (by omega) hend
  · have hlt : offset < min bound (offset + chunk.toNat + 1) := by
      rcases hoffset with hlt | ⟨rfl, rfl⟩
      · omega
      · rw [List.length_nil] at hmore
        omega
    obtain ⟨total, hpage⟩ := pageOf_bound row chunk (by omega) hlt hmore
    rw [hpage]
    rcases Nat.lt_or_ge bound (offset + chunk.toNat + 1) with hcap | hfits
    · left
      have hall : ((content.take bound).drop offset).take chunk.toNat = (content.take bound).drop offset := by
        refine List.take_of_length_le ?_
        rw [List.length_drop, List.length_take]
        omega
      rw [Nat.min_eq_left (Nat.le_of_lt hcap)] at hlt hmore ⊢
      rw [hall, decide_eq_false (by omega), decide_eq_false (by omega)]
      exact ⟨total, rfl⟩
    · right
      have hwindow : ((content.take (offset + chunk.toNat + 1)).drop offset).take chunk.toNat =
          ((content.take bound).drop offset).take chunk.toNat := by
        rw [List.drop_take, List.drop_take, List.take_take, List.take_take]
        congr 1
        omega
      rw [Nat.min_eq_right hfits] at hlt hmore ⊢
      rw [hwindow, decide_eq_true (by omega), Bool.true_or]
      exact ⟨by omega, total, rfl⟩

end Page

/-! ## All pages -/

section Pages

variable {shelf : Shelf} {box : MCPToolBox} {ctx : MCPToolContext} {fileId : String} {maxBytes : ℕ → Json}
  {fuel calls offset : ℕ} {pages : List Dict}

theorem startOf_nat : box.startOf (.int offset) = offset := max_eq_right (Int.natCast_nonneg offset)

theorem chunkOf_pos (asked : Json) : 0 < box.chunkOf asked := by
  have hdefault : 0 < downloadChunkBytes := by decide
  unfold MCPToolBox.chunkOf
  split
  · split_ifs with hpos
    · exact lt_min hpos hdefault
    · exact hdefault
  · exact hdefault

def Shows (page : Dict) (window : Bytes) : Prop :=
  mapGet page "ok" = some (.bool true) ∧ windowOf page = some window

theorem shows_pagePayload {row : UserFile} {start total : ℤ} {window : Bytes} {hasMore : Bool} :
    Shows (pagePayload row start total window hasMore) window := ⟨pagePayload_ok, windowOf_pagePayload⟩

theorem pages_step (box : MCPToolBox) (maxBytes : ℕ → Json) (fuel calls : ℕ) (h : shelf.Readable ctx fileId)
    (hrow : shelf.row.fileSizeBytes ≤ maxDownloadBytes)
    (hoffset : offset < (reached shelf.content).length ∨ shelf.content = [] ∧ offset = 0) :
    (∃ page, Shows page ((reached shelf.content).drop offset) ∧
      shelf.pages box ctx fileId maxBytes (fuel + 1) calls (.int offset) = some [page]) ∨
    ∃ page next, offset < next ∧ next < (reached shelf.content).length ∧
      Shows page (((reached shelf.content).drop offset).take (next - offset)) ∧
      shelf.pages box ctx fileId maxBytes (fuel + 1) calls (.int offset) =
        (shelf.pages box ctx fileId maxBytes fuel (calls + 1) (.int next)).map (page :: ·) := by
  have hchunk : 0 < box.chunkOf (maxBytes calls) := chunkOf_pos _
  have hpage := download_eq box (.int offset) (maxBytes calls) h hrow
  rw [startOf_nat] at hpage
  rcases pageOf_cases hrow hoffset hchunk with ⟨total, hlast⟩ | ⟨hnext, total, hmore⟩
  · left
    rw [hlast] at hpage
    refine ⟨pagePayload shelf.row offset total ((reached shelf.content).drop offset) false, shows_pagePayload, ?_⟩
    rw [Shelf.pages, hpage]
    exact if_neg (by rw [pagePayload_hasMore]; decide)
  · right
    rw [hmore] at hpage
    have hlength : ((((reached shelf.content).drop offset).take (box.chunkOf (maxBytes calls)).toNat).length : ℤ) =
        (box.chunkOf (maxBytes calls)).toNat := by
      rw [List.length_take, List.length_drop]
      omega
    refine ⟨pagePayload shelf.row offset total
      (((reached shelf.content).drop offset).take (box.chunkOf (maxBytes calls)).toNat) true,
      offset + (box.chunkOf (maxBytes calls)).toNat, by omega, hnext, ?_, ?_⟩
    · rw [Nat.add_sub_cancel_left]
      exact shows_pagePayload
    · rw [Shelf.pages, hpage]
      dsimp only
      rw [if_pos pagePayload_hasMore, pagePayload_next, hlength]
      rfl

theorem windowsOf_cons {page : Dict} {window rest : Bytes} (hpage : Shows page window)
    (hrest : windowsOf pages = some rest) : windowsOf (page :: pages) = some (window ++ rest) := by
  rw [windowsOf, hpage.2, hrest]
  rfl

/-- However far a caller follows, its windows are what can be reached, and nothing is refused. -/
theorem pages_shows (offset : ℕ) (h : shelf.Readable ctx fileId) (hrow : shelf.row.fileSizeBytes ≤ maxDownloadBytes)
    (hoffset : offset < (reached shelf.content).length ∨ shelf.content = [] ∧ offset = 0)
    (hpages : shelf.pages box ctx fileId maxBytes fuel calls (.int offset) = some pages) :
    windowsOf pages = some ((reached shelf.content).drop offset) ∧
      ∀ page ∈ pages, mapGet page "ok" = some (.bool true) := by
  induction fuel generalizing calls offset pages with
  | zero => cases hpages
  | succ fuel ih =>
    rcases pages_step box maxBytes fuel calls h hrow hoffset with
      ⟨page, hshows, heq⟩ | ⟨page, next, hlt, hnext, hshows, heq⟩
    · rw [heq] at hpages
      cases hpages
      refine ⟨?_, List.forall_mem_singleton.2 hshows.1⟩
      rw [windowsOf_cons hshows rfl, List.append_nil]
    · rw [heq] at hpages
      obtain ⟨rest, hrest, rfl⟩ := Option.map_eq_some_iff.1 hpages
      obtain ⟨hwindows, hok⟩ := ih next (.inl hnext) hrest
      refine ⟨?_, List.forall_mem_cons.2 ⟨hshows.1, hok⟩⟩
      have hdrop : (reached shelf.content).drop next =
          ((reached shelf.content).drop offset).drop (next - offset) := by
        rw [List.drop_drop, Nat.add_sub_cancel' (Nat.le_of_lt hlt)]
      rw [windowsOf_cons hshows hwindows, hdrop, List.take_append_drop]

/-- Every page but the last moves the offset on, so there is a last one. -/
theorem pages_end (box : MCPToolBox) (maxBytes : ℕ → Json) (calls offset : ℕ) (h : shelf.Readable ctx fileId)
    (hrow : shelf.row.fileSizeBytes ≤ maxDownloadBytes)
    (hoffset : offset < (reached shelf.content).length ∨ shelf.content = [] ∧ offset = 0)
    (hfuel : (reached shelf.content).length - offset < fuel) :
    ∃ pages, shelf.pages box ctx fileId maxBytes fuel calls (.int offset) = some pages := by
  induction fuel generalizing calls offset with
  | zero => cases hfuel
  | succ fuel ih =>
    rcases pages_step box maxBytes fuel calls h hrow hoffset with
      ⟨page, -, heq⟩ | ⟨page, next, hlt, hnext, -, heq⟩
    · exact ⟨_, heq⟩
    · obtain ⟨rest, hrest⟩ : ∃ rest, shelf.pages box ctx fileId maxBytes fuel (calls + 1) (.int next) = some rest :=
        ih (calls + 1) next (.inl hnext) (by omega)
      rw [heq, hrest]
      exact ⟨_, rfl⟩

theorem reached_eq_iff {content : Bytes} : reached content = content ↔ (content.length : ℤ) ≤ maxDownloadBytes := by
  have hcap : ((maxDownloadBytes.toNat : ℕ) : ℤ) = maxDownloadBytes := rfl
  rw [reached, List.take_eq_self_iff]
  omega

theorem reached_start (content : Bytes) : 0 < (reached content).length ∨ content = [] ∧ 0 = 0 := by
  rcases content with _ | ⟨byte, content⟩
  · exact .inr ⟨rfl, rfl⟩
  · left
    have hcap : 0 < maxDownloadBytes.toNat := by decide
    rw [length_reached, List.length_cons]
    omega

theorem reached_of_delivers (h : shelf.Readable ctx fileId) (hrow : shelf.row.fileSizeBytes ≤ maxDownloadBytes)
    (hpages : shelf.pages box ctx fileId maxBytes fuel 0 (.int 0) = some pages)
    (hdelivers : Delivers shelf.content pages) : reached shelf.content = shelf.content := by
  obtain ⟨hwindows, hok⟩ := pages_shows 0 h hrow (reached_start _) hpages
  rw [List.drop_zero] at hwindows
  rcases hdelivers.whole with hwhole | ⟨page, hmem, hrefused⟩
  · exact Option.some.inj (hwindows.symm.trans hwhole)
  · rw [hok page hmem] at hrefused
    cases hrefused

/-- Whatever sizes a caller asks for, following the pages of a file ends and delivers the content, or a refusal, exactly
when the file may not be read or the content is within the limit. -/
theorem download_delivers_iff (hrow : shelf.row.fileSizeBytes ≤ maxDownloadBytes) :
    (∃ fuel pages, shelf.pages box ctx fileId maxBytes fuel 0 (.int 0) = some pages ∧ Delivers shelf.content pages) ↔
      (shelf.Readable ctx fileId → (shelf.content.length : ℤ) ≤ maxDownloadBytes) := by
  rw [← reached_eq_iff]
  constructor
  · rintro ⟨fuel, pages, hpages, hdelivers⟩ h
    exact reached_of_delivers h hrow hpages hdelivers
  · intro hwhole
    by_cases h : shelf.Readable ctx fileId
    · obtain ⟨pages, hpages⟩ := pages_end box maxBytes 0 0 h hrow
        (reached_start _) (Nat.lt_succ_self _)
      obtain ⟨hwindows, -⟩ := pages_shows 0 h hrow (reached_start _) hpages
      rw [List.drop_zero, hwhole h] at hwindows
      exact ⟨_, pages, hpages, .inl hwindows, fun _ _ _ => hwindows⟩
    · obtain ⟨page, hpage, hrefused, hmore⟩ := download_refuses box (.int 0) (maxBytes 0) h
      have hlast : shelf.pages box ctx fileId maxBytes 1 0 (.int 0) = some [page] := by
        rw [Shelf.pages, hpage]
        exact if_neg (by rw [hmore]; exact Option.some_ne_none _ |>.symm)
      refine ⟨1, [page], hlast, .inr ⟨page, List.mem_singleton_self _, hrefused⟩, fun last hget hended => ?_⟩
      obtain rfl : page = last := Option.some.inj hget
      rw [hmore] at hended
      cases hended

def fileRow : UserFile where
  id := "f1"
  userId := 1
  folderId := none
  fileKey := "uploads/f1.bin"
  fileName := "f1.bin"
  fileExtension := "bin"
  fileSizeBytes := 3
  mimeType := "application/octet-stream"
  createdAt := 0

def smallShelf : Shelf := { row := fileRow, content := [1, 2, 3, 4, 5] }

/-- An object of one byte more than the limit, under a row that says three bytes. -/
def staleShelf : Shelf := { row := fileRow, content := List.replicate (maxDownloadBytes.toNat + 1) 0 }

/-- Page by page of two bytes, a content of five comes whole, whatever its row says. -/
theorem delivers_small : ∃ fuel pages,
    smallShelf.pages quietBox readerContext "f1" (fun _ => .int 2) fuel 0 (.int 0) = some pages ∧
      Delivers smallShelf.content pages :=
  (download_delivers_iff (by decide)).2 fun _ => by decide

/-- The last byte of the object is never shown, and no call says so. -/
theorem stale_row_truncated : staleShelf.row.fileSizeBytes ≤ maxDownloadBytes ∧ ¬ ∃ fuel pages,
    staleShelf.pages quietBox readerContext "f1" (fun _ => .int 65536) fuel 0 (.int 0) = some pages ∧
      Delivers staleShelf.content pages := by
  have hrow : fileRow.fileSizeBytes ≤ maxDownloadBytes := by decide
  have hreadable : staleShelf.Readable readerContext "f1" := ⟨rfl, ⟨rfl, rfl⟩, fun hfolder => by cases hfolder⟩
  refine ⟨hrow, ?_⟩
  rintro ⟨fuel, pages, hpages, hdelivers⟩
  have hwhole := reached_eq_iff.1 (reached_of_delivers hreadable hrow hpages hdelivers)
  have hlength : (staleShelf.content.length : ℤ) = maxDownloadBytes + 1 :=
    congrArg Nat.cast (List.length_replicate (n := maxDownloadBytes.toNat + 1) (a := (0 : UInt8)))
  omega

end Pages

end Transform.Mcp
