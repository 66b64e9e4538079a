import Transform.Files.Folders
import Transform.Lib.Keyed

/-!
# Files.FolderForest — the folders of a user form a forest

* `forest_apply`: a statement keeps the parent links a forest exactly if no UPDATE puts a folder under one of its own.
* In a forest the two walks down visit exactly what lies below a folder, and end (`subtrees_walked`).
* `wpe_climb`: the walk up of `_is_descendant` finds the ancestor it looks for, so a call that runs by itself keeps the
  forest (`forest_alone`).
* `folders_forest_iff`: the same along every run of interleaved calls.
-/

namespace Transform.Files

open Lib Conversions

variable {w : FolderWorld} {folderId y p : String} {folderIds : List String}

/-! ## The links of the table -/

section Links

/-- The id is the key of the table. -/
def FolderWorld.WellFormed (w : FolderWorld) : Prop := (w.folders.map (·.id)).Nodup

theorem links_ne_none : w.links y ≠ none ↔ y ∈ w.folders.map (·.id) := by
  rw [← Option.isSome_iff_ne_none]
  simp [FolderWorld.links, FolderWorld.getFolder, List.find?_isSome]

theorem getFolder_mem (hw : w.WellFormed) {row : FolderRow} (hrow : row ∈ w.folders) :
    w.getFolder row.id = some row := find?_key hw hrow

theorem mem_children (hw : w.WellFormed) {frontier : List String} :
    y ∈ w.children frontier ↔ ∃ p ∈ frontier, w.links y = some (some p) := by
  unfold FolderWorld.children
  rw [List.mem_map]
  constructor
  · rintro ⟨row, hrow, rfl⟩
    obtain ⟨hmem, hparent⟩ := List.mem_filter.1 hrow
    obtain ⟨p, hp, hfrontier⟩ : ∃ p, row.parentId = some p ∧ p ∈ frontier := by simpa [Option.any_eq_true] using hparent
    refine ⟨p, hfrontier, ?_⟩
    rw [FolderWorld.links, getFolder_mem hw hmem, Option.map_some, hp]
  · rintro ⟨p, hfrontier, hlink⟩
    obtain ⟨row, hfound, hp⟩ := Option.map_eq_some_iff.1 hlink
    have hid : row.id = y := by simpa using List.find?_some hfound
    refine ⟨row, List.mem_filter.2 ⟨List.mem_of_find?_eq_some hfound, ?_⟩, hid⟩
    rw [hp]
    simpa using hfrontier

theorem links_insert {row : FolderRow} (hnew : w.links row.id = none) :
    ({ w with folders := w.folders ++ [row] } : FolderWorld).links =
      Function.update w.links row.id (some row.parentId) := by
  ext1 y
  by_cases hy : y = row.id
  · subst hy
    have hnone : w.folders.find? (·.id = row.id) = none := by simpa [FolderWorld.links, FolderWorld.getFolder] using hnew
    simp [FolderWorld.links, FolderWorld.getFolder, List.find?_append, hnone]
  · have hother : row.id ≠ y := fun h => hy h.symm
    rw [Function.update_of_ne hy]
    simp [FolderWorld.links, FolderWorld.getFolder, List.find?_append, hother]

theorem links_setParent {parentId : Option String} {updatedAt : Instant} :
    (w.setParent folderId parentId updatedAt).links =
      if w.links folderId = none then w.links else Function.update w.links folderId (some parentId) := by
  ext1 y
  have hfind : (w.setParent folderId parentId updatedAt).getFolder y = (w.getFolder y).map fun row =>
      if row.id = folderId then { row with parentId, updatedAt } else row := by
    unfold FolderWorld.getFolder FolderWorld.setParent
    rw [List.find?_map]
    congr 2
    ext1 row
    simp only [Function.comp_apply]
    split <;> rfl
  unfold FolderWorld.links at hfind ⊢
  rw [hfind]
  rcases hrow : w.getFolder y with _ | row
  · by_cases hy : y = folderId
    · subst hy
      simp [hrow]
    · split <;> simp [Function.update_of_ne hy, hrow]
  · have hid : row.id = y := by simpa using List.find?_some hrow
    by_cases hy : y = folderId
    · subst hy
      simp [hrow, hid]
    · have hother : row.id ≠ folderId := by rwa [hid]
      split <;> simp [Function.update_of_ne hy, hrow, hother]

theorem links_deleteTree {withFiles : Bool} :
    (w.deleteTree withFiles folderIds).links = fun y => if w.cascades folderIds y then none else w.links y := by
  ext1 y
  unfold FolderWorld.links FolderWorld.getFolder FolderWorld.deleteTree
  simp only [List.find?_filter]
  by_cases hy : w.cascades folderIds y = true
  · rw [if_pos hy, Option.map_eq_none_iff, List.find?_eq_none]
    rintro row - h
    simp only [Bool.not_eq_true', Bool.decide_and, Bool.and_eq_true, decide_eq_true_eq] at h
    rw [h.2, hy] at h
    cases h.1
  · rw [if_neg hy]
    congr 2
    ext1 row
    by_cases hid : row.id = y
    · simp [hid, hy]
    · simp [hid]

theorem reaches_iff : ∀ {steps : ℕ} {y : String},
    w.reaches folderIds steps y = true ↔ ∃ x ∈ folderIds, ∃ n, n ≤ steps ∧ Level w.links x n y
  | 0, y => by
    simp only [FolderWorld.reaches, decide_eq_true_eq, Nat.le_zero, exists_eq_left, level_zero]
    simp
  | steps + 1, y => by
    have ih : ∀ p, w.reaches folderIds steps p = true ↔ ∃ x ∈ folderIds, ∃ n, n ≤ steps ∧ Level w.links x n p :=
      fun _ => reaches_iff
    simp only [FolderWorld.reaches, Bool.or_eq_true, decide_eq_true_eq]
    constructor
    · rintro (hy | hparent)
      · exact ⟨y, hy, 0, Nat.zero_le _, .self⟩
      · split at hparent
        · rename_i p hlink
          obtain ⟨x, hx, n, hn, hlevel⟩ := (ih p).1 hparent
          exact ⟨x, hx, n + 1, Nat.succ_le_succ hn, .child hlink hlevel⟩
        · cases hparent
    · rintro ⟨x, hx, n, hn, hlevel⟩
      cases n with
      | zero =>
        obtain rfl := level_zero.1 hlevel
        exact .inl hx
      | succ n =>
        obtain ⟨p, hlink, hp⟩ := level_succ.1 hlevel
        refine .inr ?_
        simp only [hlink]
        exact (ih p).2 ⟨x, hx, n, Nat.le_of_succ_le_succ hn, hp⟩

theorem cascades_iff (hf : Forest w.links) : w.cascades folderIds y = true ↔ ∃ x ∈ folderIds, Under w.links x y := by
  unfold FolderWorld.cascades
  rw [reaches_iff]
  constructor
  · rintro ⟨x, hx, n, -, hlevel⟩
    exact ⟨x, hx, n, hlevel⟩
  · rintro ⟨x, hx, n, hlevel⟩
    have hle := level_le hf (fun y hy => links_ne_none.1 hy) hlevel
    rw [List.length_map] at hle
    exact ⟨x, hx, n, hle, hlevel⟩

end Links

/-! ## One statement -/

section Statement

/-- An UPDATE of a parent that changes a row puts it under a folder that is not in its own subtree. -/
def MovesOutside (w : FolderWorld) : Event FolderSig → Prop
  | ⟨.updateParent folderId (some parentId) _, _, true, _⟩ =>
    w.links folderId ≠ none → w.cascades [folderId] parentId = false
  | _ => True

theorem wellFormed_apply {ev : Event FolderSig} (hall : w.Allowed ev) (hw : w.WellFormed) : (w.apply ev).WellFormed := by
  obtain ⟨op, out, took, hok⟩ := ev
  rcases took with _ | _
  · cases op <;> exact hw
  · cases op with
    | insertFolder row =>
      have hnew : row.id ∉ w.folders.map (·.id) := fun hmem => links_ne_none.2 hmem (hall rfl).1
      show ((w.folders ++ [row]).map (·.id)).Nodup
      rw [List.map_append, List.nodup_append]
      refine ⟨hw, List.nodup_singleton _, ?_⟩
      rintro x hx y hy rfl
      obtain rfl := List.mem_singleton.1 hy
      exact hnew hx
    | updateParent folderId parentId updatedAt =>
      have hids : (w.setParent folderId parentId updatedAt).folders.map (·.id) = w.folders.map (·.id) := by
        refine map_key fun row => ?_
        split <;> rfl
      show ((w.setParent folderId parentId updatedAt).folders.map (·.id)).Nodup
      rw [hids]
      exact hw
    | deleteTree withFiles folderIds => exact hw.sublist (List.filter_sublist.map _)
    | _ => exact hw

/-- **One statement** keeps a forest exactly if it moves no folder under one of its own. -/
theorem forest_apply {ev : Event FolderSig} (hall : w.Allowed ev) (hf : Forest w.links) :
    Forest (w.apply ev).links ↔ MovesOutside w ev := by
  obtain ⟨op, out, took, hok⟩ := ev
  rcases took with _ | _
  · cases op with
    | updateParent folderId parentId updatedAt => cases parentId <;> exact iff_of_true hf trivial
    | _ => exact iff_of_true hf trivial
  · cases op with
    | insertFolder row =>
      obtain ⟨hnew, hparent, -⟩ := hall rfl
      refine iff_of_true ?_ trivial
      show Forest ({ w with folders := w.folders ++ [row] } : FolderWorld).links
      rw [links_insert hnew]
      exact forest_insert hf hnew hparent
    | updateParent folderId parentId updatedAt =>
      have hlinks : (w.apply ⟨.updateParent folderId parentId updatedAt, out, true, hok⟩).links = _ := links_setParent
      rw [hlinks]
      by_cases hrow : w.links folderId = none
      · rw [if_pos hrow]
        cases parentId with
        | none => exact iff_of_true hf trivial
        | some parentId => exact iff_of_true hf fun h => absurd hrow h
      · rw [if_neg hrow]
        cases parentId with
        | none => exact iff_of_true (forest_toRoot hf) trivial
        | some parentId =>
          obtain ⟨row, hfound⟩ : ∃ row, w.getFolder folderId = some row := by
            simpa [FolderWorld.links, Option.eq_none_iff_forall_ne_some] using hrow
          have hparent : w.links parentId ≠ none := (hall.2 rfl row hfound).1 parentId rfl
          have hcascade : w.cascades [folderId] parentId = true ↔ Under w.links folderId parentId := by
            simp [cascades_iff hf]
          rw [forest_reparent hf hrow hparent, ← hcascade]
          show _ ↔ (w.links folderId ≠ none → w.cascades [folderId] parentId = false)
          simp [hrow]
    | deleteTree withFiles folderIds =>
      refine iff_of_true ?_ trivial
      show Forest (w.deleteTree withFiles folderIds).links
      rw [links_deleteTree]
      refine forest_remove hf fun y p hlink hp => ?_
      rw [cascades_iff hf] at hp ⊢
      obtain ⟨x, hx, hunder⟩ := hp
      exact ⟨x, hx, under_child hlink hunder⟩
    | _ => exact iff_of_true hf trivial

end Statement

/-! ## The walks down -/

section Walks

theorem wpe_onFolders {op : FolderOp} {Q : op.Ans → FolderWorld → Prop} {E : FolderError → FolderWorld → Prop} :
    wpe folderAlone (onFolders op) Q E w ↔
      (∀ a, w.Allowed (.done op (.ok a)) → Q a (w.apply (.done op (.ok a)))) ∧
        ∀ e took h, w.Allowed ⟨op, .error e, took, h⟩ → E (.raised e) (w.apply ⟨op, .error e, took, h⟩) := by
  unfold onFolders
  rw [wpe_mapError, wpe_ask]
  exact and_iff_right trivial

/-- The folders `n` levels below a folder, and those on the levels before. -/
def Frontier (w : FolderWorld) (folderId : String) (n : ℕ) (frontier found : List String) : Prop :=
  (∀ y, y ∈ frontier ↔ Level w.links folderId n y) ∧
    ∀ y, y ∈ found ↔ ∃ m, m < n ∧ Level w.links folderId (m + 1) y

theorem frontier_start : Frontier w folderId 0 [folderId] [] := by
  refine ⟨fun y => ?_, fun y => ?_⟩
  · rw [List.mem_singleton, level_zero]
  · simp

theorem frontier_next (hw : w.WellFormed) {n : ℕ} {frontier found children : List String}
    (hchildren : ∀ y, y ∈ children ↔ y ∈ w.children frontier) (h : Frontier w folderId n frontier found) :
    Frontier w folderId (n + 1) children (found ++ children) := by
  have hlevel : ∀ y, y ∈ children ↔ Level w.links folderId (n + 1) y := by
    intro y
    rw [hchildren, mem_children hw, level_succ]
    constructor
    · rintro ⟨p, hp, hlink⟩
      exact ⟨p, hlink, (h.1 p).1 hp⟩
    · rintro ⟨p, hlink, hp⟩
      exact ⟨p, (h.1 p).2 hp, hlink⟩
  refine ⟨hlevel, fun y => ?_⟩
  rw [List.mem_append, h.2, hlevel]
  constructor
  · rintro (⟨m, hm, hy⟩ | hy)
    · exact ⟨m, by omega, hy⟩
    · exact ⟨n, by omega, hy⟩
  · rintro ⟨m, hm, hy⟩
    rcases Nat.lt_succ_iff_lt_or_eq.1 hm with hlt | rfl
    · exact .inl ⟨m, hlt, hy⟩
    · exact .inr hy

theorem below_of_frontier {n : ℕ} {found : List String} (h : Frontier w folderId n [] found) :
    y ∈ found ↔ Below w.links folderId y := by
  rw [h.2]
  constructor
  · rintro ⟨m, -, hy⟩
    exact ⟨m, hy⟩
  · rintro ⟨m, hy⟩
    by_cases hm : m < n
    · exact ⟨m, hm, hy⟩
    · -- the ancestor of `y` on level `n`
      have hup : ∀ k y, Level w.links folderId (n + k) y → ∃ z, Level w.links folderId n z := by
        intro k
        induction k with
        | zero => exact fun y hy => ⟨y, hy⟩
        | succ k ih =>
          intro y hy
          obtain ⟨p, -, hp⟩ := level_succ.1 hy
          exact ih p hp
      obtain ⟨k, hk⟩ := Nat.exists_eq_add_of_le (show n ≤ m + 1 by omega)
      rw [hk] at hy
      obtain ⟨z, hz⟩ := hup k y hy
      exact absurd ((h.1 z).2 hz) List.not_mem_nil

variable (hw : w.WellFormed) (hf : Forest w.links)
include hf

theorem frontier_le {n : ℕ} {x : String} {frontier found : List String}
    (h : Frontier w folderId n (x :: frontier) found) : n ≤ w.folders.length := by
  have hle := level_le hf (fun y hy => links_ne_none.1 hy) ((h.1 x).1 List.mem_cons_self)
  rwa [List.length_map] at hle

include hw

theorem wpe_collectDescendants : ∀ {rounds n : ℕ} {frontier found : List String},
    w.folders.length < rounds + n → Frontier w folderId n frontier found →
      wpe folderAlone (collectDescendants rounds frontier found)
        (fun ids w' => w' = w ∧ ∀ y, y ∈ ids ↔ Below w.links folderId y) (fun e w' => w' = w ∧ e ≠ .unfinished) w
  | rounds, n, [], found, _, h => by
    have hbelow : ∀ y, y ∈ found ↔ Below w.links folderId y := fun _ => below_of_frontier h
    cases rounds <;> exact ⟨rfl, hbelow⟩
  | 0, n, _ :: _, found, hrounds, h => by
    have hle := frontier_le hf h
    omega
  | rounds + 1, n, x :: frontier, found, hrounds, h => by
    simp only [collectDescendants]
    rw [wpe_bind, wpe_onFolders]
    refine ⟨fun children hperm => ?_, fun e took _ _ => ⟨rfl, by simp⟩⟩
    exact wpe_collectDescendants (by omega) (frontier_next hw (fun y => List.Perm.mem_iff hperm) h)

theorem wpe_collectUnseen : ∀ {rounds n : ℕ} {frontier found seen : List String},
    w.folders.length < rounds + n → Frontier w folderId n frontier found →
    (∀ y ∈ seen, ∃ m, m ≤ n ∧ Level w.links folderId m y) →
      wpe folderAlone (collectUnseen rounds frontier found seen)
        (fun ids w' => w' = w ∧ ∀ y, y ∈ ids ↔ Below w.links folderId y) (fun e w' => w' = w ∧ e ≠ .unfinished) w
  | rounds, n, [], found, seen, _, h, _ => by
    have hbelow : ∀ y, y ∈ found ↔ Below w.links folderId y := fun _ => below_of_frontier h
    cases rounds <;> exact ⟨rfl, hbelow⟩
  | 0, n, _ :: _, found, seen, hrounds, h, _ => by
    have hle := frontier_le hf h
    omega
  | rounds + 1, n, x :: frontier, found, seen, hrounds, h, hseen => by
    simp only [collectUnseen]
    rw [wpe_bind, wpe_onFolders]
    refine ⟨fun children hperm => ?_, fun e took _ _ => ⟨rfl, by simp⟩⟩
    have hmem : ∀ y, y ∈ children ↔ y ∈ w.children (x :: frontier) := fun y => List.Perm.mem_iff hperm
    have hnext := frontier_next hw hmem h
    have hkept : ∀ y, y ∈ children.filter (· ∉ seen) ↔ y ∈ children := by
      intro y
      rw [List.mem_filter, and_iff_left_iff_imp, decide_eq_true_eq]
      intro hy hmem
      obtain ⟨m, hm, hlevel⟩ := hseen y hmem
      have hy' := (hnext.1 y).1 hy
      obtain ⟨p, hlink, -⟩ := level_succ.1 hy'
      obtain ⟨k, hk⟩ := hf y (by rw [hlink]; exact Option.some_ne_none _)
      obtain ⟨j, hj⟩ := hf folderId (some_of_under hk ⟨n + 1, hy'⟩)
      have hsame := level_unique hj hlevel hy'
      omega
    refine wpe_collectUnseen (by omega) (frontier_next hw (fun y => (hkept y).trans (hmem y)) h) fun y hy => ?_
    rcases List.mem_append.1 hy with hy | hy
    · obtain ⟨m, hm, hlevel⟩ := hseen y hy
      exact ⟨m, by omega, hlevel⟩
    · exact ⟨n + 1, le_rfl, (hnext.1 y).1 ((hkept y).1 hy)⟩

omit hf hw in
/-- Both walks down from every folder end, and visit exactly what lies below it. -/
def SubtreesWalked (w : FolderWorld) : Prop := ∀ folderId, ∃ enough, ∀ rounds, enough ≤ rounds →
  wpe folderAlone (listSubtreeIds rounds folderId)
      (fun ids w' => w' = w ∧ ∀ y, y ∈ ids ↔ Below w.links folderId y) (fun e _ => e ≠ .unfinished) w ∧
    wpe folderAlone (deleteWithDescendants rounds folderId)
      (fun deleted w' => (∀ y, y ∈ deleted.2 ↔ Under w.links folderId y) ∧
        ∀ row, row ∈ w'.folders ↔ row ∈ w.folders ∧ ¬ Under w.links folderId row.id) (fun e _ => e ≠ .unfinished) w

theorem wpe_deleteWithDescendants {rounds : ℕ} (hrounds : w.folders.length < rounds) :
    wpe folderAlone (deleteWithDescendants rounds folderId)
      (fun deleted w' => (∀ y, y ∈ deleted.2 ↔ Under w.links folderId y) ∧
        ∀ row, row ∈ w'.folders ↔ row ∈ w.folders ∧ ¬ Under w.links folderId row.id) (fun e _ => e ≠ .unfinished) w := by
  unfold deleteWithDescendants
  rw [wpe_bind]
  refine wpe_mono (wpe_collectDescendants hw hf hrounds frontier_start) ?_ fun e w' h => h.2
  rintro ids w' ⟨hsame, hids⟩
  subst hsame
  have hall : ∀ y, y ∈ folderId :: ids ↔ Under w'.links folderId y := by
    intro y
    rw [List.mem_cons, hids, under_iff]
  rw [wpe_bind, wpe_onFolders]
  refine ⟨fun fileKeys _ => ?_, fun e took _ _ => by simp⟩
  rw [wpe_bind, wpe_onFolders]
  refine ⟨fun _ _ => ⟨hall, fun row => ?_⟩, fun e took _ _ => by simp⟩
  have hcascade : w'.cascades (folderId :: ids) row.id = true ↔ Under w'.links folderId row.id := by
    rw [cascades_iff hf]
    constructor
    · rintro ⟨x, hx, n, hn⟩
      obtain ⟨m, hm⟩ := (hall x).1 hx
      exact ⟨m + n, level_trans hm hn⟩
    · intro hunder
      exact ⟨folderId, List.mem_cons_self, hunder⟩
  show row ∈ w'.folders.filter (fun row => !w'.cascades (folderId :: ids) row.id) ↔ _
  rw [List.mem_filter, ← hcascade]
  simp

/-- **The walks down** in a forest. -/
theorem subtrees_walked : SubtreesWalked w := fun _ =>
  ⟨w.folders.length + 1, fun _ hrounds =>
    ⟨wpe_mono (wpe_collectUnseen hw hf hrounds frontier_start fun y hy => ⟨0, le_rfl, by
        rw [level_zero]
        exact List.mem_singleton.1 hy⟩) (fun _ _ h => h) fun _ _ h => h.2,
      wpe_deleteWithDescendants hw hf hrounds⟩⟩

end Walks

/-! ## A call by itself -/

section Alone

theorem wpe_climb {ancestorId : String} : ∀ {rounds : ℕ} {seen : List String} {folderId : String},
    wpe folderAlone (climb ancestorId rounds seen (w.getFolder folderId))
      (fun found w' => w' = w ∧ (found = false → ¬ Below w.links ancestorId folderId)) (fun _ w' => w' = w) w
  | 0, _, _ => rfl
  | rounds + 1, seen, folderId => by
    have hlink : ∀ p, (w.getFolder folderId).bind (·.parentId) = some p → w.links folderId = some (some p) := by
      intro p hp
      obtain ⟨row, hrow, hparent⟩ := Option.bind_eq_some_iff.1 hp
      rw [FolderWorld.links, hrow, Option.map_some, hparent]
    have hroot : (w.getFolder folderId).bind (·.parentId) = none → ¬ Below w.links ancestorId folderId := by
      rintro hnone ⟨n, hn⟩
      obtain ⟨p, hp, -⟩ := level_succ.1 hn
      obtain ⟨row, hrow, hparent⟩ := Option.map_eq_some_iff.1 hp
      rw [hrow] at hnone
      exact Option.some_ne_none p (hparent.symm.trans hnone)
    unfold climb
    split
    · rename_i hnone
      exact ⟨rfl, fun _ => hroot hnone⟩
    · rename_i p hp
      split_ifs with hseen hancestor
      · exact ⟨rfl, fun h => by cases h⟩
      · exact ⟨rfl, fun h => by cases h⟩
      · rw [wpe_bind, wpe_onFolders]
        refine ⟨fun row hrow => ?_, fun e took _ _ => rfl⟩
        obtain rfl : row = w.getFolder p := hrow
        refine wpe_mono wpe_climb ?_ fun _ _ h => h
        rintro found w' ⟨hsame, hfound⟩
        refine ⟨hsame, fun hfalse hbelow => ?_⟩
        rcases under_iff.1 ((below_parent (hlink p hp)).1 hbelow) with hself | hbelow
        · exact hancestor hself
        · exact hfound hfalse hbelow

theorem wpe_getOwnFolder {userId : ℤ} : wpe folderAlone (getOwnFolder userId folderId)
    (fun folder w' => w' = w ∧ w.getFolder folderId = some folder) (fun _ w' => w' = w) w := by
  unfold getOwnFolder
  rw [wpe_bind, wpe_onFolders]
  refine ⟨fun row hrow => ?_, fun e took _ _ => rfl⟩
  obtain rfl : row = w.getFolder folderId := hrow
  rcases hfound : w.getFolder folderId with _ | folder
  · exact rfl
  · dsimp only
    split_ifs with huser
    · exact ⟨rfl, rfl⟩
    · exact rfl

theorem wpe_checkParent {rounds : ℕ} {userId : ℤ} {folder : FolderRow} {parentId : Option String} :
    wpe folderAlone (checkParent rounds userId folder parentId)
      (fun _ w' => w' = w ∧ ∀ p ∈ parentId, ¬ Under w.links folder.id p) (fun _ w' => w' = w) w := by
  rcases parentId with _ | p
  · exact ⟨rfl, by simp⟩
  · unfold checkParent
    rw [wpe_bind]
    refine wpe_mono wpe_getOwnFolder ?_ fun _ _ h => h
    rintro parent w' ⟨rfl, -⟩
    split_ifs with hself
    · exact rfl
    · unfold isDescendant
      rw [wpe_bind, wpe_bind, wpe_onFolders]
      refine ⟨fun row hrow => ?_, fun e took _ _ => rfl⟩
      obtain rfl : row = w'.getFolder p := hrow
      refine wpe_mono wpe_climb ?_ fun _ _ h => h
      rintro found w'' ⟨rfl, hfound⟩
      rcases found with _ | _
      · refine ⟨rfl, fun p' hp' hunder => ?_⟩
        obtain rfl := Option.mem_some_iff.1 hp'
        rcases under_iff.1 hunder with h | hbelow
        · exact hself h
        · exact hfound rfl hbelow
      · exact rfl

def FolderWorld.Sound (w : FolderWorld) : Prop := w.WellFormed ∧ Forest w.links

theorem sound_apply {ev : Event FolderSig} (hall : w.Allowed ev) (houtside : MovesOutside w ev) (h : w.Sound) :
    (w.apply ev).Sound :=
  ⟨wellFormed_apply hall h.1, (forest_apply hall h.2).2 houtside⟩

def KeepsParents : FolderOp → Prop
  | .updateParent _ _ _ => False
  | _ => True

theorem sound_of_only {α : Type} {p : FolderM α} (hp : p.Only KeepsParents) (h : w.Sound) :
    wpe folderAlone p (fun _ w' => w'.Sound) (fun _ w' => w'.Sound) w := by
  refine wpe_of_only_inv hp (fun _ _ _ _ => trivial) (fun w ev hw hop hall => ?_) (fun _ _ h => h) (fun _ _ h => h) h
  refine sound_apply hall ?_ hw
  obtain ⟨op, out, took, hok⟩ := ev
  cases op with
  | updateParent folderId parentId updatedAt => cases hop
  | _ => cases took <;> trivial

theorem wpe_refusing {α : Type} {p : FolderM α} {R : FolderWorld → Prop}
    (h : wpe folderAlone p (fun _ => R) (fun _ => R) w) : wpe folderAlone (refusing p) (fun _ => R) (fun _ => R) w := by
  unfold refusing
  rw [wpe_tryCatch]
  refine wpe_mono h (fun _ _ h => h) fun e w' hR => ?_
  split
  · split_ifs
    · exact hR
    · exact hR
  · exact hR

theorem wpe_moveRow {parentId : Option String} (h : w.Sound) (houtside : ∀ p ∈ parentId, ¬ Under w.links folderId p) :
    wpe folderAlone (moveRow folderId parentId) (fun _ w' => w'.Sound) (fun _ w' => w'.Sound) w := by
  unfold moveRow
  rw [wpe_bind, wpe_onFolders]
  refine ⟨fun updatedAt _ => ?_, fun e took _ _ => h⟩
  rw [wpe_onFolders]
  have hmoves : ∀ out took hok, MovesOutside w ⟨.updateParent folderId parentId updatedAt, out, took, hok⟩ := by
    intro out took hok
    rcases parentId with _ | p
    · cases took <;> trivial
    · rcases took with _ | _
      · trivial
      · intro _
        rw [← Bool.not_eq_true, cascades_iff h.2]
        rintro ⟨x, hx, hunder⟩
        obtain rfl := List.mem_singleton.1 hx
        exact houtside p rfl hunder
  exact ⟨fun moved hall => sound_apply hall (hmoves _ _ _) h,
    fun e took hok hall => sound_apply hall (hmoves _ _ _) h⟩

theorem wpe_moveFolder {rounds : ℕ} {userId : ℤ} {parentId : Option String} (h : w.Sound) :
    wpe folderAlone (moveFolder rounds userId folderId parentId) (fun _ w' => w'.Sound) (fun _ w' => w'.Sound) w := by
  have hstay : ∀ (e : FolderError) (w' : FolderWorld), w' = w → w'.Sound := by
    rintro e w' rfl
    exact h
  unfold moveFolder
  rw [wpe_bind]
  refine wpe_mono wpe_getOwnFolder ?_ hstay
  rintro folder w' ⟨rfl, -⟩
  rw [wpe_bind]
  refine wpe_mono wpe_checkParent ?_ hstay
  rintro - w'' ⟨rfl, houtside⟩
  rw [wpe_bind]
  refine wpe_mono (wpe_refusing (wpe_moveRow h houtside)) ?_ fun _ _ h => h
  intro moved w' hsound
  rcases moved with _ | _
  · exact hsound
  · rw [if_pos rfl, wpe_bind, wpe_onFolders]
    refine ⟨fun row _ => ?_, fun e took _ _ => hsound⟩
    rcases row with _ | row
    · exact hsound
    · exact hsound

theorem only_onFolders {op : FolderOp} (h : KeepsParents op) : (onFolders op).Only KeepsParents :=
  only_tryCatch (only_ask h) fun _ => only_throw

theorem only_getOwnFolder {userId : ℤ} : (getOwnFolder userId folderId).Only KeepsParents := by
  refine only_bind (only_onFolders trivial) fun row => ?_
  rcases row with _ | folder
  · exact only_throw
  · dsimp only
    split_ifs
    · exact only_pure
    · exact only_throw

theorem only_refusing {α : Type} {p : FolderM α} (h : p.Only KeepsParents) : (refusing p).Only KeepsParents := by
  refine only_tryCatch h fun e => ?_
  split
  · split_ifs
    · exact only_throw
    · exact only_throw
  · exact only_throw

theorem only_createFolder {userId : ℤ} {name : String} {parentId : Option String} :
    (createFolder userId name parentId).Only KeepsParents := by
  have hcreate : (refusing (createRow userId (strip name) parentId)).Only KeepsParents :=
    only_refusing (only_bind (only_onFolders trivial) fun _ => only_bind (only_onFolders trivial) fun _ =>
      only_bind (only_onFolders trivial) fun _ => only_bind (only_onFolders trivial) fun _ => only_onFolders trivial)
  rcases parentId with _ | parentId
  · exact hcreate
  · exact only_bind only_getOwnFolder fun _ => hcreate

theorem only_collectDescendants : ∀ {rounds : ℕ} {frontier found : List String},
    (collectDescendants rounds frontier found).Only KeepsParents
  | rounds, [], _ => by cases rounds <;> exact only_pure
  | 0, _ :: _, _ => only_throw
  | _ + 1, _ :: _, _ => only_bind (only_onFolders trivial) fun _ => only_collectDescendants

theorem only_removeObjects : ∀ {keys : List String}, (removeObjects keys).Only KeepsParents
  | [] => only_pure
  | _ :: _ => only_bind (only_onFolders trivial) fun _ => only_removeObjects

theorem only_deleteFolder {rounds : ℕ} {userId : ℤ} : (deleteFolder rounds userId folderId).Only KeepsParents := by
  refine only_bind only_getOwnFolder fun folder => only_bind ?_ fun _ => only_removeObjects
  exact only_bind only_collectDescendants fun _ => only_bind (only_onFolders trivial) fun _ =>
    only_bind (only_onFolders trivial) fun _ => only_pure

/-- **One call at a time**: a call that runs by itself keeps the forest. -/
theorem forest_alone (rounds : ℕ) (party : FolderParty) (h : w.Sound) :
    wp folderAlone (party.program rounds) (fun _ w' => w'.Sound) w := by
  cases party with
  | create userId name parentId => exact wp_thread_of_wpe (sound_of_only only_createFolder h)
  | move userId folderId parentId => exact wp_thread_of_wpe (wpe_moveFolder h)
  | delete userId folderId => exact wp_thread_of_wpe (sound_of_only only_deleteFolder h)

def nestedFolders : FolderWorld := { folders := [⟨⟨"a", 1, none, "A"⟩, 0, 0⟩, ⟨⟨"b", 1, some "a", "B"⟩, 0, 0⟩] }

theorem sound_nestedFolders : nestedFolders.Sound := by
  refine ⟨(by decide : ["a", "b"].Nodup), fun x hx => ?_⟩
  have hmem : x ∈ ["a", "b"] := links_ne_none.1 hx
  simp only [List.mem_cons, List.not_mem_nil, or_false] at hmem
  rcases hmem with rfl | rfl
  · exact ⟨0, .root rfl⟩
  · exact ⟨1, .child rfl (.root rfl)⟩

/-- The outer folder is not moved under the inner one. -/
theorem forest_alone_nested : wp folderAlone ((FolderParty.move 1 "a" (some "b")).program 5) (fun _ w' => w'.Sound)
    nestedFolders := forest_alone 5 _ sound_nestedFolders

end Alone

/-! ## Interleaved calls -/

section Runs

/-- The links are a forest, and the walks down visit every subtree of it. -/
structure FolderWorld.Forested (w : FolderWorld) : Prop where
  forest : Forest w.links
  walked : SubtreesWalked w

theorem wellFormed_step {c c' : folderSystem.Config} {l : folderSystem.Label} (hw : FolderWorld.WellFormed c.world)
    (hs : folderSystem.Step c l c') : FolderWorld.WellFormed c'.world := by
  cases hs with
  | start _ hspawn =>
    obtain ⟨rfl, -⟩ := hspawn
    exact hw
  | @act i tag op k _ out took h hall =>
    rcases hall with hall | ⟨folderId, hop⟩
    · exact wellFormed_apply hall hw
    · obtain rfl : op = .getById folderId := hop
      exact hw
  | exit => exact hw

theorem forest_step {c c' : folderSystem.Config} {l : folderSystem.Label} (hf : Forest (FolderWorld.links c.world))
    (hs : folderSystem.Step c l c') :
    Forest (FolderWorld.links c'.world) ↔ ActOnly (fun c _ _ ev => MovesOutside c.world ev) c l c' := by
  cases hs with
  | start _ hspawn =>
    obtain ⟨rfl, -⟩ := hspawn
    exact iff_of_true hf trivial
  | @act i tag op k _ out took h hall =>
    rcases hall with hall | ⟨folderId, hop⟩
    · exact forest_apply hall hf
    · obtain rfl : op = .getById folderId := hop
      exact iff_of_true hf trivial
  | exit => exact iff_of_true hf trivial

/-- **Folders**: along every run of interleaved calls the folders are a forest whose subtrees the walks visit, exactly
if every UPDATE puts a folder under one that is not, at that moment, in its own subtree. -/
theorem folders_forest_iff {c : folderSystem.Config} {tr : List (folderSystem.Label × folderSystem.Config)}
    (hw : FolderWorld.WellFormed c.world) (hf : Forest (FolderWorld.links c.world)) (hs : folderSystem.Steps c tr) :
    Along (fun _ _ c' => FolderWorld.Forested c'.world) c tr ↔
      Along (ActOnly fun c _ _ ev => MovesOutside c.world ev) c tr := by
  refine along_iff (I := fun c => FolderWorld.WellFormed c.world) (K := fun c => FolderWorld.Forested c.world)
    (fun _ _ _ hw hst => wellFormed_step hw hst) (fun c l c' hw hk hst => ?_) hw ⟨hf, subtrees_walked hw hf⟩ hs
  rw [← forest_step hk.forest hst]
  constructor
  · exact fun h => h.forest
  · exact fun h => ⟨h, subtrees_walked (wellFormed_step hw hst) h⟩

end Runs

/-! ## Concrete runs -/

section Concrete

def folderReply (w : FolderWorld) : (op : FolderOp) → Except PyError op.Ans
  | .uuid4 => .ok (if w.folders.isEmpty then "a" else "b")
  | .utcNow => .ok 0
  | .getById folderId => .ok (w.getFolder folderId)
  | .insertFolder _ => .ok ()
  | .refresh folderId => match w.getFolder folderId with
    | some row => .ok row
    | none => .error ⟨.other, ""⟩
  | .updateParent folderId _ _ => .ok (w.getFolder folderId).isSome
  | .selectChildren frontier => .ok (w.children frontier)
  | .selectFileKeys folderIds => .ok (w.fileKeys folderIds)
  | .deleteTree _ _ => .ok ()
  | .removeObject _ => .ok ()

instance decidableFolderAllowed (w : FolderWorld) (ev : Event FolderSig) : Decidable (w.Allowed ev) := by
  unfold FolderWorld.Allowed
  split <;> infer_instance

instance decidableMovesOutside (w : FolderWorld) (ev : Event FolderSig) : Decidable (MovesOutside w ev) := by
  unfold MovesOutside
  split <;> infer_instance

def folderDriver : folderSystem.Driver where
  reply w := folderReply w
  check w _ _ ev := @decide _ (decidableFolderAllowed w ev)
  sound {w _ _ ev} h := .inl (@of_decide_eq_true _ (decidableFolderAllowed w ev) h)

def folderStarter (i : ℕ) (party : FolderParty) : folderSystem.Starter i where
  start w := some (party, party.program 5, w)
  sound {w tag p w'} h := by
    cases h
    exact ⟨rfl, 5, rfl⟩

def noFolders : folderSystem.Config := ⟨{}, fun _ => none⟩

theorem wellFormed_noFolders : FolderWorld.WellFormed noFolders.world := List.nodup_nil

theorem forest_noFolders : Forest (FolderWorld.links noFolders.world) := fun _ h => absurd rfl h

/-- Two folders are created, and the second is moved under the first. -/
def movedUnder : List (folderSystem.Label × folderSystem.Config) :=
  Sys.drive folderDriver noFolders
    [.start 0 (folderStarter 0 (.create 1 "A" none)), .go 0, .go 0, .go 0, .go 0, .go 0,
      .start 1 (folderStarter 1 (.create 1 "B" none)), .go 1, .go 1, .go 1, .go 1, .go 1,
      .start 2 (folderStarter 2 (.move 1 "b" (some "a"))), .go 2, .go 2, .go 2, .go 2, .go 2, .go 2]

/-- The two are moved under each other: both moves look at the way up before either UPDATE. -/
def crossingMoves : List (folderSystem.Label × folderSystem.Config) :=
  Sys.drive folderDriver noFolders
    [.start 0 (folderStarter 0 (.create 1 "A" none)), .go 0, .go 0, .go 0, .go 0, .go 0,
      .start 1 (folderStarter 1 (.create 1 "B" none)), .go 1, .go 1, .go 1, .go 1, .go 1,
      .start 2 (folderStarter 2 (.move 1 "b" (some "a"))), .start 3 (folderStarter 3 (.move 1 "a" (some "b"))),
      .go 2, .go 2, .go 2, .go 3, .go 3, .go 3, .go 2, .go 2, .go 2, .go 3, .go 3, .go 3]

theorem folders_forest_iff_movedUnder : FolderWorld.Forested (lastConfig noFolders movedUnder).world ∧
    FolderWorld.links (lastConfig noFolders movedUnder).world "b" = some (some "a") := by
  have hmoves : Along (ActOnly fun c _ _ ev => MovesOutside c.world ev) noFolders movedUnder :=
    @of_decide_eq_true _ (@decidableAlong _ _ _ (@decidableActOnly _ _ _ fun (c : folderSystem.Config) _ _ ev =>
      decidableMovesOutside c.world ev) _ _) (by decide +kernel)
  have hall := (folders_forest_iff wellFormed_noFolders forest_noFolders (steps_drive _ _ _)).2 hmoves
  refine ⟨last_of_along (K := fun c : folderSystem.Config => FolderWorld.Forested c.world)
    ⟨forest_noFolders, subtrees_walked wellFormed_noFolders forest_noFolders⟩ hall, by rfl⟩

/-- Two folders moved under each other at once form a cycle. -/
theorem crossing_moves : ¬ ∀ (c : folderSystem.Config) (tr : List (folderSystem.Label × folderSystem.Config)),
    (∀ i, c.threads i = none) → FolderWorld.WellFormed c.world → Forest (FolderWorld.links c.world) →
      folderSystem.Steps c tr → Along (fun _ _ c' => FolderWorld.Forested c'.world) c tr := by
  intro h
  have hall := h noFolders crossingMoves (fun _ => rfl) wellFormed_noFolders forest_noFolders (steps_drive _ _ _)
  have hlast := last_of_along (K := fun c : folderSystem.Config => FolderWorld.Forested c.world)
    ⟨forest_noFolders, subtrees_walked wellFormed_noFolders forest_noFolders⟩ hall
  have hb : FolderWorld.links (lastConfig noFolders crossingMoves).world "b" = some (some "a") := by rfl
  have ha : FolderWorld.links (lastConfig noFolders crossingMoves).world "a" = some (some "b") := by rfl
  obtain ⟨n, hn⟩ := hlast.forest "a" (by rw [ha]; exact Option.some_ne_none _)
  exact not_below_self hn ⟨1, .child ha (.child hb .self)⟩

end Concrete

end Transform.Files
