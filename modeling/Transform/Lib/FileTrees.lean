import Transform.Lib.Keyed
import Mathlib.Data.List.Infix
import Mathlib.Data.List.Induction
import Mathlib.Tactic.SplitIfs

/-!
# Lib.FileTrees — a directory and what is in it, by path

A path is the list of its components.  `place` puts a node at a path and makes the directories above it, as an extraction
does; a tree that is made so is `Closed`.  `placeFiles_spec` is the tree that a list of files leaves.
-/

namespace Transform.Lib

variable {ν β γ : Type} [DecidableEq ν]

/-- What stands at a path. -/
inductive Node (β : Type)
  | directory
  | file (contents : β)
  deriving DecidableEq, Repr

def Node.map (f : β → γ) : Node β → Node γ
  | .directory => .directory
  | .file contents => .file (f contents)

/-- The nodes below a directory, with their paths in it. -/
abbrev FileTree (ν β : Type) := List (List ν × Node β)

/-! ## Paths -/

/-- The directories on the way to a path, the upper ones first. -/
def parents (path : List ν) : List (List ν) := path.inits.filter fun above => above ≠ [] ∧ above ≠ path

variable {path path' above : List ν}

theorem mem_parents : above ∈ parents path ↔ above <+: path ∧ above ≠ [] ∧ above ≠ path := by
  simp [parents, List.mem_filter]

theorem not_mem_parents : path ∉ parents path := fun h => (mem_parents.mp h).2.2 rfl

theorem parents_trans (h : above ∈ parents path) (h' : path ∈ parents path') : above ∈ parents path' := by
  rw [mem_parents] at h h' ⊢
  refine ⟨h.1.trans h'.1, h.2.1, ?_⟩
  rintro rfl
  exact h.2.2 (h.1.eq_of_length (le_antisymm h.1.length_le h'.1.length_le))

/-! ## Making directories -/

/-- `os.makedirs(…, exist_ok=True)` for one level; `none` where a file is in the way. -/
def makeDir (tree : FileTree ν β) (path : List ν) : Option (FileTree ν β) :=
  match mapGet tree path with
  | some .directory => some tree
  | some (.file _) => none
  | none => some (mapSet tree path .directory)

variable {tree tree' : FileTree ν β} {paths : List (List ν)} {node : Node β}

theorem makeDir_eq_some (h : makeDir tree path = some tree') :
    (∀ contents, mapGet tree path ≠ some (.file contents)) ∧
      ∀ p, mapGet tree' p = if p = path then some .directory else mapGet tree p := by
  unfold makeDir at h
  cases hget : mapGet tree path with
  | none =>
    rw [hget] at h
    obtain rfl := Option.some.inj h
    exact ⟨fun _ => nofun, fun p => mapGet_mapSet⟩
  | some node =>
    cases node with
    | directory =>
      rw [hget] at h
      obtain rfl := Option.some.inj h
      refine ⟨fun _ => nofun, fun p => ?_⟩
      split_ifs with hp
      · rw [hp, hget]
      · rfl
    | file contents =>
      rw [hget] at h
      cases h

theorem makeDir_isSome (h : ∀ contents, mapGet tree path ≠ some (.file contents)) : (makeDir tree path).isSome := by
  unfold makeDir
  cases hget : mapGet tree path with
  | none => rfl
  | some node =>
    cases node with
    | directory => rfl
    | file contents => exact absurd hget (h contents)

theorem nodup_makeDir (hnodup : (tree.map (·.1)).Nodup) (h : makeDir tree path = some tree') :
    (tree'.map (·.1)).Nodup := by
  unfold makeDir at h
  split at h
  · exact Option.some.inj h ▸ hnodup
  · cases h
  · exact Option.some.inj h ▸ nodup_mapSet hnodup

theorem makeDirs_eq_some (h : paths.foldlM makeDir tree = some tree') :
    (∀ path ∈ paths, ∀ contents, mapGet tree path ≠ some (.file contents)) ∧
      ∀ p, mapGet tree' p = if p ∈ paths then some .directory else mapGet tree p := by
  induction paths generalizing tree with
  | nil =>
    obtain rfl : tree = tree' := Option.some.inj h
    exact ⟨fun _ => nofun, fun p => (if_neg (List.not_mem_nil)).symm⟩
  | cons path paths ih =>
    rw [List.foldlM_cons] at h
    obtain ⟨next, hmake, hrest⟩ := Option.bind_eq_some_iff.mp h
    obtain ⟨hfree, hget⟩ := makeDir_eq_some hmake
    obtain ⟨hfree', hget'⟩ := ih hrest
    refine ⟨?_, ?_⟩
    · intro p hp contents hfile
      rcases List.mem_cons.mp hp with rfl | hp
      · exact hfree contents hfile
      · have hne : p ≠ path := by
          rintro rfl
          exact hfree contents hfile
        refine hfree' p hp contents ?_
        rw [hget, if_neg hne, hfile]
    · intro p
      rw [hget', hget]
      by_cases hp : p ∈ paths
      · rw [if_pos hp, if_pos (List.mem_cons_of_mem _ hp)]
      · by_cases hself : p = path
        · rw [if_neg hp, if_pos hself, if_pos (hself ▸ List.mem_cons_self)]
        · rw [if_neg hp, if_neg hself, if_neg (List.not_mem_cons_of_ne_of_not_mem hself hp)]

theorem makeDirs_isSome (h : ∀ path ∈ paths, ∀ contents, mapGet tree path ≠ some (.file contents)) :
    ∃ tree', paths.foldlM makeDir tree = some tree' := by
  induction paths generalizing tree with
  | nil => exact ⟨tree, rfl⟩
  | cons path paths ih =>
    obtain ⟨next, hmake⟩ := Option.isSome_iff_exists.mp (makeDir_isSome (h path List.mem_cons_self))
    have hget := (makeDir_eq_some hmake).2
    rw [List.foldlM_cons, hmake]
    refine ih ?_
    intro p hp contents hfile
    rw [hget] at hfile
    split_ifs at hfile with hself
    · cases hfile
    · exact h p (List.mem_cons_of_mem _ hp) contents hfile

theorem nodup_makeDirs (hnodup : (tree.map (·.1)).Nodup) (h : paths.foldlM makeDir tree = some tree') :
    (tree'.map (·.1)).Nodup := by
  induction paths generalizing tree with
  | nil => exact Option.some.inj h ▸ hnodup
  | cons path paths ih =>
    rw [List.foldlM_cons] at h
    obtain ⟨next, hmake, hrest⟩ := Option.bind_eq_some_iff.mp h
    exact ih (nodup_makeDir hnodup hmake) hrest

/-! ## Placing a node -/

/-- `open(path, "wb")` and what is written; `none` where a directory is in the way. -/
def makeFile (tree : FileTree ν β) (path : List ν) (contents : β) : Option (FileTree ν β) :=
  if path = [] then none
  else
    match mapGet tree path with
    | some .directory => none
    | _ => some (mapSet tree path (.file contents))

theorem makeFile_eq_some {contents : β} : makeFile tree path contents = some tree' ↔
    (path ≠ [] ∧ mapGet tree path ≠ some .directory) ∧ mapSet tree path (.file contents) = tree' := by
  unfold makeFile
  by_cases hnil : path = []
  · rw [if_pos hnil]
    exact iff_of_false nofun fun h => h.1.1 hnil
  · rw [if_neg hnil]
    split
    · rename_i hget
      exact iff_of_false nofun fun h => h.1.2 hget
    · rename_i hget
      rw [Option.some_inj]
      exact (and_iff_right ⟨hnil, hget⟩).symm

/-- Puts a node at a path and makes the directories above it; the root is there already.  A file replaces a file. -/
def place (tree : FileTree ν β) (path : List ν) (node : Node β) : Option (FileTree ν β) := do
  let tree ← (parents path).foldlM makeDir tree
  match node with
  | .directory => if path = [] then some tree else makeDir tree path
  | .file contents => makeFile tree path contents

/-- Nothing is in the way of a node. -/
structure HasRoom (tree : FileTree ν β) (path : List ν) (node : Node β) : Prop where
  above : ∀ above ∈ parents path, ∀ contents, mapGet tree above ≠ some (.file contents)
  directory : node = .directory → ∀ contents, mapGet tree path ≠ some (.file contents)
  file : ∀ contents, node = .file contents → path ≠ [] ∧ mapGet tree path ≠ some .directory

/-- What stands at a path when a node has been placed. -/
def placed (path : List ν) (node : Node β) (tree : FileTree ν β) (p : List ν) : Option (Node β) :=
  if p = path ∧ p ≠ [] then some node else if p ∈ parents path then some .directory else mapGet tree p

theorem place_eq_some (hroot : mapGet tree [] = none) (h : place tree path node = some tree') :
    HasRoom tree path node ∧ ∀ p, mapGet tree' p = placed path node tree p := by
  obtain ⟨below, hmake, hlast⟩ := Option.bind_eq_some_iff.mp h
  obtain ⟨hfree, hget⟩ := makeDirs_eq_some hmake
  have hself : mapGet below path = mapGet tree path := by rw [hget, if_neg not_mem_parents]
  cases node with
  | directory =>
    by_cases hnil : path = []
    · rw [if_pos hnil] at hlast
      obtain rfl := Option.some.inj hlast
      refine ⟨⟨hfree, ?_, fun _ => nofun⟩, ?_⟩
      · intro _ contents
        rw [hnil, hroot]
        nofun
      · intro p
        rw [placed, if_neg (fun hp => hp.2 (hp.1.trans hnil)), hget]
    · rw [if_neg hnil] at hlast
      obtain ⟨hnofile, hget'⟩ := makeDir_eq_some hlast
      refine ⟨⟨hfree, fun _ contents => hself ▸ hnofile contents, fun _ => nofun⟩, ?_⟩
      intro p
      rw [hget', hget, placed]
      by_cases hp : p = path
      · rw [if_pos hp, if_pos ⟨hp, hp ▸ hnil⟩]
      · rw [if_neg hp, if_neg (fun (hand : p = path ∧ p ≠ []) => hp hand.1)]
  | file contents =>
    obtain ⟨hfits, rfl⟩ := makeFile_eq_some.mp hlast
    rw [hself] at hfits
    refine ⟨⟨hfree, nofun, fun _ _ => hfits⟩, ?_⟩
    intro p
    rw [mapGet_mapSet, hget, placed]
    by_cases hp : p = path
    · rw [if_pos hp, if_pos ⟨hp, hp ▸ hfits.1⟩]
    · rw [if_neg hp, if_neg (fun (hand : p = path ∧ p ≠ []) => hp hand.1)]

theorem place_isSome (h : HasRoom tree path node) : ∃ tree', place tree path node = some tree' := by
  obtain ⟨below, hmake⟩ := makeDirs_isSome h.above
  have hself : mapGet below path = mapGet tree path := by rw [(makeDirs_eq_some hmake).2, if_neg not_mem_parents]
  unfold place
  rw [hmake, Option.bind_eq_bind, Option.bind_some]
  cases node with
  | directory =>
    by_cases hnil : path = []
    · exact ⟨below, if_pos hnil⟩
    · have hfree : ∀ contents, mapGet below path ≠ some (.file contents) := hself ▸ h.directory rfl
      obtain ⟨tree', hdir⟩ := Option.isSome_iff_exists.mp (makeDir_isSome hfree)
      exact ⟨tree', (if_neg hnil).trans hdir⟩
  | file contents =>
    obtain ⟨hnil, hnodir⟩ := h.file contents rfl
    exact ⟨_, makeFile_eq_some.mpr ⟨⟨hnil, hself ▸ hnodir⟩, rfl⟩⟩

theorem nodup_place (hnodup : (tree.map (·.1)).Nodup) (h : place tree path node = some tree') :
    (tree'.map (·.1)).Nodup := by
  obtain ⟨below, hmake, hlast⟩ := Option.bind_eq_some_iff.mp h
  have hbelow := nodup_makeDirs hnodup hmake
  cases node with
  | directory =>
    by_cases hnil : path = []
    · rw [if_pos hnil] at hlast
      exact Option.some.inj hlast ▸ hbelow
    · rw [if_neg hnil] at hlast
      exact nodup_makeDir hbelow hlast
  | file contents =>
    exact (makeFile_eq_some.mp hlast).2 ▸ nodup_mapSet hbelow

/-! ## Trees that are closed -/

/-- A path has one node, and the directories above it are there. -/
structure Closed (tree : FileTree ν β) : Prop where
  nodup : (tree.map (·.1)).Nodup
  root : mapGet tree [] = none
  above : ∀ path, mapGet tree path ≠ none → ∀ above ∈ parents path, mapGet tree above = some .directory

theorem closed_nil : Closed ([] : FileTree ν β) := ⟨List.nodup_nil, rfl, fun _ h => absurd rfl h⟩

theorem Closed.place (hclosed : Closed tree) (h : place tree path node = some tree') : Closed tree' := by
  obtain ⟨hroom, hget⟩ := place_eq_some hclosed.root h
  refine ⟨nodup_place hclosed.nodup h, ?_, ?_⟩
  · rw [hget, placed, if_neg (fun hp => hp.2 rfl), if_neg (fun hp => (mem_parents.mp hp).2.1 rfl), hclosed.root]
  · intro p hp a ha
    have hdirectory : a ∈ parents path → mapGet tree' a = some .directory := by
      intro ha'
      rw [hget, placed, if_neg (fun hself => (mem_parents.mp ha').2.2 hself.1), if_pos ha']
    rw [hget, placed] at hp
    by_cases hself : p = path ∧ p ≠ []
    · exact hdirectory (hself.1 ▸ ha)
    · rw [if_neg hself] at hp
      by_cases hparent : p ∈ parents path
      · exact hdirectory (parents_trans ha hparent)
      · rw [if_neg hparent] at hp
        have hold := hclosed.above p hp a ha
        rw [hget, placed, hold]
        by_cases ha' : a = path ∧ a ≠ []
        · -- a directory is there, and no file was put in its place
          rw [if_pos ha']
          cases node with
          | directory => rfl
          | file contents => exact absurd (ha'.1 ▸ hold) (hroom.file contents rfl).2
        · rw [if_neg ha', ite_self]

/-! ## Files of a tree -/

def treeFiles (tree : FileTree ν β) : List (List ν × β) :=
  tree.filterMap fun e =>
    match e.2 with
    | .directory => none
    | .file contents => some (e.1, contents)

theorem mem_treeFiles (hnodup : (tree.map (·.1)).Nodup) {e : List ν × β} :
    e ∈ treeFiles tree ↔ mapGet tree e.1 = some (.file e.2) := by
  unfold treeFiles
  rw [List.mem_filterMap]
  constructor
  · rintro ⟨⟨p, node⟩, hmem, hnode⟩
    cases node with
    | directory => cases hnode
    | file contents =>
      obtain rfl := Option.some.inj hnode
      exact mapGet_of_mem hnodup hmem
  · intro hget
    exact ⟨(e.1, .file e.2), mem_of_mapGet hget, rfl⟩

omit [DecidableEq ν] in
theorem nodup_treeFiles (hnodup : (tree.map (·.1)).Nodup) : ((treeFiles tree).map (·.1)).Nodup := by
  refine List.Nodup.sublist ?_ hnodup
  unfold treeFiles
  induction tree with
  | nil => exact List.Sublist.slnil
  | cons e tree ih =>
    have ih := ih (List.nodup_cons.mp hnodup).2
    obtain ⟨p, node⟩ := e
    cases node with
    | directory => exact ih.cons p
    | file contents => exact ih.cons_cons p

/-- The tree of a list of files, put into an empty directory one after the other. -/
def placeFiles (entries : List (List ν × β)) : Option (FileTree ν β) :=
  entries.foldlM (fun tree e => place tree e.1 (.file e.2)) []

theorem placeFiles_closed {entries : List (List ν × β)} (h : placeFiles entries = some tree) : Closed tree := by
  induction entries using List.reverseRecOn generalizing tree with
  | nil => exact Option.some.inj h ▸ closed_nil
  | append_singleton entries e ih =>
    rw [placeFiles, List.foldlM_append] at h
    obtain ⟨before, hbefore, hlast⟩ := Option.bind_eq_some_iff.mp h
    rw [List.foldlM_cons] at hlast
    obtain ⟨after, hplace, hnil⟩ := Option.bind_eq_some_iff.mp hlast
    exact Option.some.inj hnil ▸ (ih hbefore).place hplace

/-- **Files that stood in some tree make one with the same files**, in which a directory is above a file. -/
theorem placeFiles_spec {shape : FileTree ν γ} (hshape : Closed shape) {entries : List (List ν × β)}
    (hnodup : (entries.map (·.1)).Nodup) (hfiles : ∀ e ∈ entries, ∃ contents, mapGet shape e.1 = some (.file contents)) :
    ∃ tree, placeFiles entries = some tree ∧
      (∀ path contents, mapGet tree path = some (.file contents) ↔ (path, contents) ∈ entries) ∧
      ∀ path, mapGet tree path = some .directory ↔ ∃ e ∈ entries, path ∈ parents e.1 := by
  induction entries using List.reverseRecOn with
  | nil =>
    refine ⟨[], rfl, fun path contents => ?_, fun path => ?_⟩
    · exact iff_of_false nofun List.not_mem_nil
    · exact iff_of_false nofun (by rintro ⟨e, he, -⟩; exact List.not_mem_nil he)
  | append_singleton entries e ih =>
    rw [List.map_append, List.nodup_append] at hnodup
    obtain ⟨tree, hplace, hfile, hdir⟩ := ih hnodup.1 fun e he => hfiles e (List.mem_append_left _ he)
    obtain ⟨contents₀, hstood⟩ := hfiles e (List.mem_append_right _ List.mem_cons_self)
    have hnew : ∀ contents, (e.1, contents) ∉ entries := by
      intro contents hmem
      exact hnodup.2.2 e.1 (List.mem_map.mpr ⟨_, hmem, rfl⟩) e.1 (by simp) rfl
    have hstands : mapGet shape e.1 ≠ none := by
      rw [hstood]
      nofun
    have hnone : e.1 ≠ [] := by
      intro hnil
      rw [hnil, hshape.root] at hstood
      cases hstood
    -- what is above a file of the shape is no file there, and what is a file there is above none
    have hnodir : mapGet tree e.1 ≠ some .directory := by
      intro hd
      obtain ⟨other, hother, hparent⟩ := (hdir e.1).mp hd
      obtain ⟨contents, hget⟩ := hfiles other (List.mem_append_left _ hother)
      have habove := hshape.above other.1 (by rw [hget]; nofun) e.1 hparent
      rw [hstood] at habove
      cases habove
    have hroom : HasRoom tree e.1 (.file e.2) := by
      refine ⟨?_, nofun, fun _ _ => ⟨hnone, hnodir⟩⟩
      intro above habove contents hget
      obtain ⟨contents', hget'⟩ := hfiles _ (List.mem_append_left _ ((hfile above contents).mp hget))
      have hdirectory := hshape.above e.1 hstands above habove
      rw [hget'] at hdirectory
      cases hdirectory
    obtain ⟨tree', hlast⟩ := place_isSome hroom
    have hclosed := placeFiles_closed hplace
    obtain ⟨-, hget⟩ := place_eq_some hclosed.root hlast
    refine ⟨tree', ?_, ?_, ?_⟩
    · rw [placeFiles, List.foldlM_append]
      show (placeFiles entries >>= _) = _
      rw [hplace, Option.bind_eq_bind, Option.bind_some, List.foldlM_cons, hlast]
      rfl
    · intro path contents
      rw [hget, placed, List.mem_append, List.mem_singleton]
      by_cases hself : path = e.1
      · subst hself
        rw [if_pos ⟨rfl, hnone⟩]
        constructor
        · intro h
          obtain rfl := Node.file.inj (Option.some.inj h)
          exact Or.inr rfl
        · rintro (hmem | heq)
          · exact absurd hmem (hnew contents)
          · rw [← heq]
      · rw [if_neg (fun h => hself h.1)]
        have hne : ¬ (path, contents) = e := fun h => hself (congrArg Prod.fst h)
        by_cases hparent : path ∈ parents e.1
        · rw [if_pos hparent]
          refine iff_of_false nofun ?_
          rintro (hmem | heq)
          · exact hroom.above path hparent contents ((hfile path contents).mpr hmem)
          · exact hne heq
        · rw [if_neg hparent, hfile, or_iff_left hne]
    · intro path
      rw [hget, placed]
      by_cases hself : path = e.1
      · subst hself
        rw [if_pos ⟨rfl, hnone⟩]
        refine iff_of_false nofun ?_
        rintro ⟨other, hother, hparent⟩
        rcases List.mem_append.mp hother with hother | hother
        · exact hnodir ((hdir _).mpr ⟨other, hother, hparent⟩)
        · rw [List.mem_singleton.mp hother] at hparent
          exact not_mem_parents hparent
      · rw [if_neg (fun h => hself h.1)]
        by_cases hparent : path ∈ parents e.1
        · rw [if_pos hparent]
          exact iff_of_true rfl ⟨e, by simp, hparent⟩
        · rw [if_neg hparent, hdir]
          constructor
          · rintro ⟨other, hother, h⟩
            exact ⟨other, List.mem_append_left _ hother, h⟩
          · rintro ⟨other, hother, h⟩
            rcases List.mem_append.mp hother with hother | hother
            · exact ⟨other, hother, h⟩
            · rw [List.mem_singleton.mp hother] at h
              exact absurd h hparent

end Transform.Lib
