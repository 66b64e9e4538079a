import Transform.Archives.Converters

/-!
# Archives.Repacking — the tree of an archive that is repacked

The reader of an input is not taken from its declared format, and only files are packed.  A directory without files is lost,
and a tar archive that also reads as a zip file is taken for one.

* `preserved_iff`: the archives whose tree is kept.
-/

namespace Transform.Archives

open Lib

section Trees

variable {File : Type} {tools : ArchiveTools File} {format : ArchiveFormat} {tree tree' : Directory}
  {members : List Member}

/-- What stands at a path, without time stamps. -/
def look (tree : Directory) (path : List String) : Option (Node Bytes) :=
  (mapGet tree path).map (Node.map StoredFile.contents)

/-- The same directories, paths of files, and contents. -/
def SameTree (tree tree' : Directory) : Prop := ∀ path, look tree path = look tree' path

def SameFiles (tree tree' : Directory) : Prop :=
  ∀ path bytes, look tree path = some (.file bytes) ↔ look tree' path = some (.file bytes)

def Filled (tree : Directory) : Prop :=
  ∀ path, look tree path = some .directory → ∃ file bytes, look tree file = some (.file bytes) ∧ path ∈ parents file

theorem look_file {path : List String} {bytes : Bytes} : look tree path = some (.file bytes) ↔
    ∃ file, mapGet tree path = some (.file file) ∧ file.contents = bytes := by
  unfold look
  rw [Option.map_eq_some_iff]
  constructor
  · rintro ⟨node, hget, hnode⟩
    cases node with
    | directory => cases hnode
    | file file => exact ⟨file, hget, Node.file.inj hnode⟩
  · rintro ⟨file, hget, rfl⟩
    exact ⟨.file file, hget, rfl⟩

theorem look_directory {path : List String} : look tree path = some .directory ↔ mapGet tree path = some .directory := by
  unfold look
  rw [Option.map_eq_some_iff]
  constructor
  · rintro ⟨node, hget, hnode⟩
    cases node with
    | directory => exact hget
    | file file => cases hnode
  · intro hget
    exact ⟨.directory, hget, rfl⟩

theorem extractAll_closed (hplain : ∀ m ∈ members, m.kind ≠ .special)
    (h : extractAll tools format members = some tree) : Closed tree := by
  induction members using List.reverseRecOn generalizing tree with
  | nil => exact Option.some.inj h ▸ closed_nil
  | append_singleton members m ih =>
    rw [extractAll, List.foldlM_append] at h
    obtain ⟨before, hbefore, hlast⟩ := Option.bind_eq_some_iff.mp h
    have hclosed := ih (fun m' hm => hplain m' (List.mem_append_left _ hm)) hbefore
    rw [List.foldlM_cons] at hlast
    obtain ⟨after, hmember, hnil⟩ := Option.bind_eq_some_iff.mp hlast
    obtain rfl := Option.some.inj hnil
    obtain ⟨contents, -, hplace⟩ := Option.bind_eq_some_iff.mp hmember
    cases hkind : m.kind with
    | directory =>
      rw [hkind] at hplace
      exact hclosed.place hplace
    | file =>
      rw [hkind] at hplace
      exact hclosed.place hplace
    | special => exact absurd hkind (hplain m (List.mem_append_right _ List.mem_cons_self))

end Trees

/-! ## What the libraries promise -/

section Promises

variable {File : Type}

def ArchiveTools.readAs (tools : ArchiveTools File) : ArchiveFormat → File → Option (List Member)
  | .zip => tools.openZip
  | .tar => tools.openTarAs .plain
  | .tarGz => tools.openTarAs .gz
  | .tarBz2 => tools.openTarAs .bz2
  | .tarXz => tools.openTarAs .xz

structure Gives (file : List String × StoredFile) (m : Member) : Prop where
  path : m.path = file.1
  kind : m.kind = .file
  contents : m.contents = some file.2.contents

/-- The libraries read back what they wrote.  `is_zipfile` finds what `zipfile` opens, and `"r:*"` what a mode opens; links
are nothing to `zipfile`. -/
structure Promised (tools : ArchiveTools File) : Prop where
  zip_seen : ∀ data members, tools.openZip data = some members → tools.isZipfile data = true
  zip_plain : ∀ data members, tools.openZip data = some members → ∀ m ∈ members, m.kind ≠ .special
  tar_seen : ∀ mode data members, tools.openTarAs mode data = some members →
    tools.isTarfile data = true ∧ tools.openTar data = some members
  zip_back : ∀ files, ∃ members, tools.openZip (tools.writeZip files) = some members ∧ List.Forall₂ Gives files members
  tar_back : ∀ mode files, ∃ members, tools.openTarAs mode (tools.writeTar mode files) = some members ∧
    List.Forall₂ Gives files members
  year : ZipYear tools.year

variable {tools : ArchiveTools File} {format target : ArchiveFormat} {files : Listing} {members : List Member}
  {tree : Directory} {outputFile : String}

def texts (files : Listing) : List (List String × Bytes) := files.map fun file => (file.1, file.2.contents)

/-- Reading files back is placing them, with some time stamps. -/
theorem extractAll_gives (tools : ArchiveTools File) (format : ArchiveFormat)
    (h : List.Forall₂ Gives files members) :
    ∃ entries, texts entries = texts files ∧ extractAll tools format members = placeFiles entries := by
  suffices hfold : ∃ entries, texts entries = texts files ∧ ∀ tree, members.foldlM (extractMember tools format) tree =
      entries.foldlM (fun tree e => place tree e.1 (.file e.2)) tree by
    obtain ⟨entries, htexts, hfold⟩ := hfold
    exact ⟨entries, htexts, hfold []⟩
  induction h with
  | nil => exact ⟨[], rfl, fun _ => rfl⟩
  | @cons file m files members hgives _ ih =>
    obtain ⟨entries, htexts, hfold⟩ := ih
    refine ⟨(file.1, ⟨file.2.contents, tools.stamp format m⟩) :: entries, congrArg (_ :: ·) htexts, ?_⟩
    intro tree
    have hmember : extractMember tools format tree m =
        place tree file.1 (.file ⟨file.2.contents, tools.stamp format m⟩) := by
      unfold extractMember
      rw [hgives.contents, Option.bind_eq_bind, Option.bind_some, hgives.kind, hgives.path]
    rw [List.foldlM_cons, List.foldlM_cons, hmember]
    exact congrArg _ (funext hfold)

theorem mem_texts {entries : Listing} {path : List String} {bytes : Bytes} :
    (path, bytes) ∈ texts entries ↔ ∃ file, (path, file) ∈ entries ∧ file.contents = bytes := by
  unfold texts
  rw [List.mem_map]
  constructor
  · rintro ⟨⟨p, file⟩, hmem, heq⟩
    obtain ⟨rfl, rfl⟩ := Prod.mk.inj heq
    exact ⟨file, hmem, rfl⟩
  · rintro ⟨file, hmem, rfl⟩
    exact ⟨(path, file), hmem, rfl⟩

theorem paths_texts (entries : Listing) : (texts entries).map (·.1) = entries.map (·.1) := by
  rw [texts, List.map_map]
  rfl

theorem texts_treeFiles (hclosed : Closed tree) {path : List String} {bytes : Bytes} :
    (path, bytes) ∈ texts (treeFiles tree) ↔ look tree path = some (.file bytes) := by
  rw [mem_texts, look_file]
  exact exists_congr fun file => and_congr_left fun _ => mem_treeFiles hclosed.nodup

/-- **What is packed is read back with the same files**; a directory is one that is above a file. -/
theorem read_back (format : ArchiveFormat) (hclosed : Closed tree) (h : List.Forall₂ Gives (tools.walk (treeFiles tree)) members) :
    ∃ back, extractAll tools format members = some back ∧ SameFiles tree back ∧
      ∀ path, look back path = some .directory ↔
        ∃ file bytes, look tree file = some (.file bytes) ∧ path ∈ parents file := by
  obtain ⟨entries, htexts, hread⟩ := extractAll_gives tools format h
  have hperm : (texts entries).Perm (texts (treeFiles tree)) := by
    rw [htexts]
    exact (tools.walk_perm _).map _
  have hlook : ∀ path bytes, (path, bytes) ∈ texts entries ↔ look tree path = some (.file bytes) := by
    intro path bytes
    rw [hperm.mem_iff, texts_treeFiles hclosed]
  have hnodup : (entries.map (·.1)).Nodup := by
    rw [← paths_texts, (hperm.map _).nodup_iff, paths_texts]
    exact nodup_treeFiles hclosed.nodup
  have hfiles : ∀ e ∈ entries, ∃ file, mapGet tree e.1 = some (.file file) := by
    intro e he
    obtain ⟨file, hget, -⟩ := look_file.mp ((hlook e.1 e.2.contents).mp (mem_texts.mpr ⟨e.2, he, rfl⟩))
    exact ⟨file, hget⟩
  obtain ⟨back, hplace, hfile, hdir⟩ := placeFiles_spec hclosed hnodup hfiles
  refine ⟨back, hread.trans hplace, ?_, ?_⟩
  · intro path bytes
    rw [← hlook, mem_texts, look_file]
    exact exists_congr fun file => and_congr_left fun _ => (hfile path file).symm
  · intro path
    rw [look_directory, hdir]
    constructor
    · rintro ⟨e, he, hparent⟩
      exact ⟨e.1, e.2.contents, (hlook e.1 _).mp (mem_texts.mpr ⟨e.2, he, rfl⟩), hparent⟩
    · rintro ⟨path', bytes, hget, hparent⟩
      obtain ⟨file, hmem, -⟩ := mem_texts.mp ((hlook path' bytes).mpr hget)
      exact ⟨(path', file), hmem, hparent⟩

theorem sameTree_iff {packed back : Directory} (hclosed : Closed tree) (hfiles : SameFiles packed back)
    (hdir : ∀ path, look back path = some .directory ↔
      ∃ file bytes, look packed file = some (.file bytes) ∧ path ∈ parents file) :
    SameTree tree back ↔ SameFiles tree packed ∧ Filled tree := by
  constructor
  · intro h
    have hsame : SameFiles tree packed := fun path bytes => by rw [h path, hfiles path bytes]
    refine ⟨hsame, ?_⟩
    intro path hpath
    obtain ⟨file, bytes, hfile, hparent⟩ := (hdir path).mp ((h path).symm.trans hpath)
    exact ⟨file, bytes, (hsame file bytes).mpr hfile, hparent⟩
  · rintro ⟨hsame, hfilled⟩ path
    cases hlook : look tree path with
    | none =>
      symm
      cases hback : look back path with
      | none => rfl
      | some node =>
        cases node with
        | file bytes =>
          have hthere := (hsame path bytes).mpr ((hfiles path bytes).mpr hback)
          rw [hlook] at hthere
          cases hthere
        | directory =>
          -- it is above a file of the tree, which is closed
          obtain ⟨file, bytes, hfile, hparent⟩ := (hdir path).mp hback
          obtain ⟨stored, hget, -⟩ := look_file.mp ((hsame file bytes).mpr hfile)
          have habove := look_directory.mpr (hclosed.above file (by rw [hget]; nofun) path hparent)
          rw [hlook] at habove
          cases habove
    | some node =>
      cases node with
      | file bytes => exact ((hfiles path bytes).mp ((hsame path bytes).mp hlook)).symm
      | directory =>
        obtain ⟨file, bytes, hfile, hparent⟩ := hfilled path hlook
        exact ((hdir path).mpr ⟨file, bytes, (hsame file bytes).mp hfile, hparent⟩).symm

end Promises

/-! ## Packing in the target format -/

section Packed

variable {File : Type} {tools : ArchiveTools File} {target format : ArchiveFormat} {outputFile : String}
  {tree : Directory}

/-- The output of a format. -/
def ArchiveTools.writeAs (tools : ArchiveTools File) : ArchiveFormat → Listing → File
  | .zip => tools.writeZip
  | .tar => tools.writeTar .plain
  | .tarGz => tools.writeTar .gz
  | .tarBz2 => tools.writeTar .bz2
  | .tarXz => tools.writeTar .xz

def ArchiveFormat.suffix (format : ArchiveFormat) : String := "." ++ format.name

theorem suffix_free : ∀ a ∈ archiveFormats, ∀ b ∈ archiveFormats, a ≠ b →
    ¬ a.suffix.toList <:+ b.suffix.toList := by decide +kernel

theorem mem_archiveFormats (format : ArchiveFormat) : format ∈ archiveFormats := by
  cases format <;> decide

theorem endsWith_other (h : endsWith outputFile target.suffix = true) (hne : format ≠ target) :
    endsWith outputFile format.suffix = false := by
  rw [← Bool.not_eq_true]
  intro h'
  rw [endsWith, List.isSuffixOf_iff_suffix] at h h'
  rcases List.suffix_or_suffix_of_suffix h' h with hsuffix | hsuffix
  · exact suffix_free _ (mem_archiveFormats _) _ (mem_archiveFormats _) hne hsuffix
  · exact suffix_free _ (mem_archiveFormats _) _ (mem_archiveFormats _) (Ne.symm hne) hsuffix

/-- The files of a tree can go into a zip file. -/
def ZipYears (tree : Directory) : Prop := ∀ path file, mapGet tree path = some (.file file) → ZipYear file.year

theorem zipYears_iff (hclosed : Closed tree) :
    (∀ file ∈ tools.walk (treeFiles tree), ZipYear file.2.year) ↔ ZipYears tree := by
  constructor
  · intro h path file hget
    exact h (path, file) ((tools.walk_perm _).mem_iff.mpr ((mem_treeFiles hclosed.nodup).mpr hget))
  · intro h file hfile
    exact h file.1 file.2 ((mem_treeFiles hclosed.nodup).mp ((tools.walk_perm _).mem_iff.mp hfile))

theorem pack_eq_ok (hclosed : Closed tree) (hout : endsWith outputFile target.suffix = true) {output : File} :
    pack tools tree outputFile target = .ok output ↔
      (target = .zip → ZipYears tree) ∧ tools.writeAs target (tools.walk (treeFiles tree)) = output := by
  have hzip : target ≠ .zip → endsWith outputFile ".zip" = false := fun hne => endsWith_other hout (Ne.symm hne)
  have hgz : target ≠ .tarGz → endsWith outputFile ".tar.gz" = false := fun hne => endsWith_other hout (Ne.symm hne)
  have hbz2 : target ≠ .tarBz2 → endsWith outputFile ".tar.bz2" = false := fun hne => endsWith_other hout (Ne.symm hne)
  have hxz : target ≠ .tarXz → endsWith outputFile ".tar.xz" = false := fun hne => endsWith_other hout (Ne.symm hne)
  have hok : ∀ a b : File, (Except.ok a : Except ArchiveError File) = .ok b ↔ a = b :=
    fun a b => ⟨Except.ok.inj, congrArg _⟩
  unfold pack packMode
  cases target with
  | zip =>
    rw [if_pos (by simp)]
    by_cases hyears : ∀ file ∈ tools.walk (treeFiles tree), ZipYear file.2.year
    · rw [if_pos hyears, and_iff_right (fun _ => (zipYears_iff hclosed).mp hyears)]
      exact hok _ _
    · rw [if_neg hyears]
      exact iff_of_false nofun fun h => hyears ((zipYears_iff hclosed).mpr (h.1 rfl))
  | tar =>
    rw [hzip nofun, hgz nofun, hbz2 nofun, hxz nofun, and_iff_right nofun]
    exact hok _ _
  | tarGz =>
    rw [hzip nofun, and_iff_right nofun]
    exact hok _ _
  | tarBz2 =>
    rw [hzip nofun, hgz nofun, and_iff_right nofun]
    exact hok _ _
  | tarXz =>
    rw [hzip nofun, hgz nofun, hbz2 nofun, and_iff_right nofun]
    exact hok _ _

theorem Promised.read_written (h : Promised tools) (target : ArchiveFormat) (files : Listing) :
    ∃ members, tools.readAs target (tools.writeAs target files) = some members ∧ List.Forall₂ Gives files members := by
  cases target with
  | zip => exact h.zip_back files
  | tar => exact h.tar_back .plain files
  | tarGz => exact h.tar_back .gz files
  | tarBz2 => exact h.tar_back .bz2 files
  | tarXz => exact h.tar_back .xz files

end Packed

/-! ## Repacking -/

section Repacking

variable {File : Type} {tools : ArchiveTools File} {source target : ArchiveFormat} {inputFile outputFile : String}
  {data : File} {members : List Member} {tree : Directory}

/-- The tree of a converter's output, read in the target format. -/
def readBack (tools : ArchiveTools File) (source target : ArchiveFormat) (inputFile outputFile : String) (data : File) :
    Option Directory := do
  let converted ← (convert tools (.repack source target) inputFile outputFile data).toOption
  let members ← tools.readAs target converted.output
  extractAll tools target members

def Preserved (tools : ArchiveTools File) (source target : ArchiveFormat) (inputFile outputFile : String) (data : File)
    (tree : Directory) : Prop :=
  ∃ back, readBack tools source target inputFile outputFile data = some back ∧ SameTree tree back

theorem readBack_eq_some {back : Directory} : readBack tools source target inputFile outputFile data = some back ↔
    ∃ converted members, convert tools (.repack source target) inputFile outputFile data = .ok converted ∧
      tools.readAs target converted.output = some members ∧ extractAll tools target members = some back := by
  unfold readBack
  cases convert tools (.repack source target) inputFile outputFile data with
  | error err => exact iff_of_false nofun (by rintro ⟨_, _, h, -⟩; cases h)
  | ok converted =>
    constructor
    · intro h
      obtain ⟨_, ⟨⟩, hrest⟩ := Option.bind_eq_some_iff.mp h
      obtain ⟨members, hread, hback⟩ := Option.bind_eq_some_iff.mp hrest
      exact ⟨converted, members, rfl, hread, hback⟩
    · rintro ⟨_, members, ⟨⟩, hread, hback⟩
      exact Option.bind_eq_some_iff.mpr ⟨converted, rfl, Option.bind_eq_some_iff.mpr ⟨members, hread, hback⟩⟩

/-- Every directory is above a file.  Where the archive is read in its format, it is within the limits, and the time stamps
fit into a zip file if that is the target; a tar archive that is taken for a zip file has the same files as one. -/
structure Repackable (tools : ArchiveTools File) (source target : ArchiveFormat) (inputFile : String) (data : File)
    (members : List Member) (tree : Directory) : Prop where
  filled : Filled tree
  declared : source = .zip ∨ takesZip tools inputFile data = false →
    WithinLimits members ∧ (target = .zip → ZipYears tree)
  taken : source ≠ .zip → takesZip tools inputFile data = true → ∃ inner other, tools.openZip data = some inner ∧
    WithinLimits inner ∧ extractAll tools .zip inner = some other ∧ SameFiles tree other

theorem preserved_of_extract (hlib : Promised tools) (hout : endsWith outputFile target.suffix = true)
    (hclosed : Closed tree) {e : Extraction} (hextract : extract tools inputFile data = .ok e) (htree : Closed e.tree) :
    Preserved tools source target inputFile outputFile data tree ↔
      (target = .zip → ZipYears e.tree) ∧ SameFiles tree e.tree ∧ Filled tree := by
  obtain ⟨members, hread, hgives⟩ := hlib.read_written target (tools.walk (treeFiles e.tree))
  obtain ⟨back, hback, hfiles, hdir⟩ := read_back target htree hgives
  rw [← sameTree_iff hclosed hfiles hdir]
  constructor
  · rintro ⟨back', hrun, hsame⟩
    obtain ⟨converted, members', hconvert, hread', hback'⟩ := readBack_eq_some.mp hrun
    obtain ⟨e', he', hrest⟩ := bind_eq_ok.mp hconvert
    obtain rfl := Except.ok.inj (hextract.symm.trans he')
    obtain ⟨output, hpack, hconverted⟩ := bind_eq_ok.mp hrest
    obtain rfl := Except.ok.inj hconverted
    obtain ⟨hyears, rfl⟩ := (pack_eq_ok htree hout).mp hpack
    obtain rfl := Option.some.inj (hread.symm.trans hread')
    obtain rfl := Option.some.inj (hback.symm.trans hback')
    exact ⟨hyears, hsame⟩
  · rintro ⟨hyears, hsame⟩
    have hpack : pack tools e.tree outputFile target =
        .ok (tools.writeAs target (tools.walk (treeFiles e.tree))) := (pack_eq_ok htree hout).mpr ⟨hyears, rfl⟩
    have hconvert : convert tools (.repack source target) inputFile outputFile data =
        .ok ⟨tools.writeAs target (tools.walk (treeFiles e.tree)), e.produced, e.entries⟩ :=
      bind_eq_ok.mpr ⟨e, hextract, bind_eq_ok.mpr ⟨_, hpack, rfl⟩⟩
    exact ⟨back, readBack_eq_some.mpr ⟨_, members, hconvert, hread, hback⟩, hsame⟩

/-- Files of a zip file have the time of their extraction. -/
theorem zipYears_extractAll (hyear : ZipYear tools.year) (hplain : ∀ m ∈ members, m.kind ≠ .special)
    (h : extractAll tools .zip members = some tree) : ZipYears tree := by
  induction members using List.reverseRecOn generalizing tree with
  | nil =>
    obtain rfl := Option.some.inj h
    intro path file hget
    cases hget
  | append_singleton members m ih =>
    rw [extractAll, List.foldlM_append] at h
    obtain ⟨before, hbefore, hlast⟩ := Option.bind_eq_some_iff.mp h
    have hplain' : ∀ m' ∈ members, m'.kind ≠ .special := fun m' hm => hplain m' (List.mem_append_left _ hm)
    have hclosed := extractAll_closed hplain' hbefore
    rw [List.foldlM_cons] at hlast
    obtain ⟨after, hmember, hnil⟩ := Option.bind_eq_some_iff.mp hlast
    obtain rfl := Option.some.inj hnil
    obtain ⟨contents, -, hplace⟩ := Option.bind_eq_some_iff.mp hmember
    have hstep : ∀ node, place before m.path node = some after →
        (∀ file, node = .file file → ZipYear file.year) → ZipYears after := by
      intro node hnode hfile path file hget
      rw [(place_eq_some hclosed.root hnode).2, placed] at hget
      split_ifs at hget
      · exact hfile file (Option.some.inj hget)
      · cases hget
      · exact ih hplain' hbefore path file hget
    cases hkind : m.kind with
    | directory =>
      rw [hkind] at hplace
      refine hstep _ hplace ?_
      rintro file ⟨⟩
    | file =>
      rw [hkind] at hplace
      refine hstep _ hplace ?_
      rintro file ⟨⟩
      exact hyear
    | special => exact absurd hkind (hplain m (List.mem_append_right _ List.mem_cons_self))

theorem extractAll_tar (hsource : source ≠ .zip) (members : List Member) :
    extractAll tools .tar members = extractAll tools source members := by
  cases source with
  | zip => exact absurd rfl hsource
  | tar => rfl
  | tarGz => rfl
  | tarBz2 => rfl
  | tarXz => rfl

theorem extract_declared (hlib : Promised tools) (hread : tools.readAs source data = some members)
    (hdeclared : source = .zip ∨ takesZip tools inputFile data = false) (e : Extraction) :
    extract tools inputFile data = .ok e ↔ WithinLimits members ∧ extractAll tools source members = some e.tree ∧
      e.produced = (members.map Member.written).sum ∧ e.entries = members.length := by
  have hbranch : ∀ format, extractAll tools format members = extractAll tools source members →
      (extractFrom tools format (some members) = .ok e ↔ WithinLimits members ∧
        extractAll tools source members = some e.tree ∧
        e.produced = (members.map Member.written).sum ∧ e.entries = members.length) := by
    intro format hformat
    rw [extractFrom_eq_ok]
    constructor
    · rintro ⟨_, ⟨⟩, hlimits, htree, hrest⟩
      exact ⟨hlimits, hformat.symm.trans htree, hrest⟩
    · rintro ⟨hlimits, htree, hrest⟩
      exact ⟨members, rfl, hlimits, hformat.trans htree, hrest⟩
  unfold extract
  by_cases hzip : source = .zip
  · subst hzip
    have hopen : tools.openZip data = some members := hread
    have htakes : takesZip tools inputFile data = true := by
      rw [takesZip, hlib.zip_seen data members hopen, Bool.or_true]
    rw [if_pos htakes, hopen]
    exact hbranch .zip rfl
  · have htakes := hdeclared.resolve_left hzip
    obtain ⟨mode, hmode⟩ : ∃ mode, tools.openTarAs mode data = some members := by
      cases source with
      | zip => exact absurd rfl hzip
      | tar => exact ⟨.plain, hread⟩
      | tarGz => exact ⟨.gz, hread⟩
      | tarBz2 => exact ⟨.bz2, hread⟩
      | tarXz => exact ⟨.xz, hread⟩
    obtain ⟨his, hopen⟩ := hlib.tar_seen mode data members hmode
    rw [htakes, if_neg Bool.false_ne_true, if_pos his, hopen]
    exact hbranch .tar (extractAll_tar hzip members)

/-- **Repacking preserves the tree of an archive** exactly if every directory is above a file, the limits and the time
stamps allow it, and the archive is not taken for a zip file with other files. -/
theorem preserved_iff (hlib : Promised tools) (hread : tools.readAs source data = some members)
    (hplain : ∀ m ∈ members, m.kind ≠ .special) (htree : extractAll tools source members = some tree)
    (hout : endsWith outputFile target.suffix = true) :
    Preserved tools source target inputFile outputFile data tree ↔
      Repackable tools source target inputFile data members tree := by
  have hclosed := extractAll_closed hplain htree
  by_cases hdeclared : source = .zip ∨ takesZip tools inputFile data = false
  · have hextract := extract_declared hlib hread hdeclared
    have htaken : ∀ {P : Prop}, source ≠ .zip → takesZip tools inputFile data = true → P := by
      intro P hne htakes
      rw [hdeclared.resolve_left hne] at htakes
      cases htakes
    constructor
    · intro h
      obtain ⟨_, hrun, -⟩ := id h
      obtain ⟨_, _, hconvert, -⟩ := readBack_eq_some.mp hrun
      obtain ⟨e, he, -⟩ := bind_eq_ok.mp hconvert
      obtain ⟨hlimits, hsame, -⟩ := (hextract e).mp he
      have heq : e.tree = tree := Option.some.inj (hsame.symm.trans htree)
      obtain ⟨hyears, -, hfilled⟩ := (preserved_of_extract hlib hout hclosed he (heq ▸ hclosed)).mp h
      exact ⟨hfilled, fun _ => ⟨hlimits, heq ▸ hyears⟩, htaken⟩
    · intro h
      obtain ⟨hlimits, hyears⟩ := h.declared hdeclared
      have he : extract tools inputFile data = .ok ⟨tree, (members.map Member.written).sum, members.length⟩ :=
        (hextract _).mpr ⟨hlimits, htree, rfl, rfl⟩
      exact (preserved_of_extract hlib hout hclosed he hclosed).mpr ⟨hyears, fun _ _ => Iff.rfl, h.filled⟩
  · obtain ⟨hsource, htakes⟩ := not_or.mp hdeclared
    rw [Bool.not_eq_false] at htakes
    have hextract : extract tools inputFile data = extractFrom tools .zip (tools.openZip data) := if_pos htakes
    constructor
    · intro h
      obtain ⟨_, hrun, -⟩ := id h
      obtain ⟨_, _, hconvert, -⟩ := readBack_eq_some.mp hrun
      obtain ⟨e, he, -⟩ := bind_eq_ok.mp hconvert
      obtain ⟨inner, hopen, hlimits, hother, -⟩ := extractFrom_eq_ok.mp (hextract.symm.trans he)
      have hplain' := hlib.zip_plain data inner hopen
      obtain ⟨-, hfiles, hfilled⟩ :=
        (preserved_of_extract hlib hout hclosed he (extractAll_closed hplain' hother)).mp h
      exact ⟨hfilled, fun hor => absurd hor hdeclared, fun _ _ => ⟨inner, e.tree, hopen, hlimits, hother, hfiles⟩⟩
    · intro h
      obtain ⟨inner, other, hopen, hlimits, hother, hfiles⟩ := h.taken hsource htakes
      have hplain' := hlib.zip_plain data inner hopen
      have he : extract tools inputFile data = .ok ⟨other, (inner.map Member.written).sum, inner.length⟩ :=
        hextract.trans (extractFrom_eq_ok.mpr ⟨inner, hopen, hlimits, hother, rfl, rfl⟩)
      exact (preserved_of_extract hlib hout hclosed he (extractAll_closed hplain' hother)).mpr
        ⟨fun _ => zipYears_extractAll hlib.year hplain' hother, hfiles, h.filled⟩

theorem promised_sampleTools : Promised sampleTools where
  zip_seen data members h := Option.isSome_iff_exists.mpr ⟨members, h⟩
  zip_plain data members h := by
    have hfilter : ∃ all : List Member, members = all.filter (·.kind ≠ .special) := by
      cases data with
      | compressed opener payload => cases h
      | archive format all atEnd =>
        cases format with
        | zip => exact ⟨all, (Option.some.inj h).symm⟩
        | tar | tarGz | tarBz2 | tarXz =>
          obtain ⟨inner, -, hinner⟩ := Option.map_eq_some_iff.mp h
          exact ⟨inner, hinner.symm⟩
    obtain ⟨all, rfl⟩ := hfilter
    intro m hm
    exact of_decide_eq_true (List.mem_filter.mp hm).2
  tar_seen mode data members h := by
    cases data with
    | compressed opener payload => cases h
    | archive format all atEnd =>
      obtain ⟨hmode, hall⟩ := Option.ite_none_right_eq_some.mp h
      cases format with
      | zip => cases hmode
      | tar | tarGz | tarBz2 | tarXz => exact ⟨rfl, hall⟩
  zip_back files := by
    have hall : (files.map Member.ofFile).filter (·.kind ≠ .special) = files.map Member.ofFile := by
      rw [List.filter_eq_self]
      intro m hm
      obtain ⟨file, -, rfl⟩ := List.mem_map.mp hm
      rfl
    refine ⟨files.map Member.ofFile, congrArg some hall, ?_⟩
    rw [List.forall₂_map_right_iff]
    exact List.forall₂_same.mpr fun file _ => ⟨rfl, rfl, rfl⟩
  tar_back mode files := by
    refine ⟨files.map Member.ofFile, ?_, ?_⟩
    · cases mode <;> rfl
    · rw [List.forall₂_map_right_iff]
      exact List.forall₂_same.mpr fun file _ => ⟨rfl, rfl, rfl⟩
  year := by decide

def letter : List String × StoredFile := (["docs", "letter.txt"], ⟨[0x48, 0x69], 2024⟩)

def mail : Directory := [(["docs"], .directory), (["docs", "letter.txt"], .file letter.2)]

/-- A folder with a letter is kept. -/
theorem mail_preserved : Preserved sampleTools .tar .zip "mail.tar" "mail.zip"
    (.archive .tar [Member.ofFile letter] none) mail := by
  refine (preserved_iff promised_sampleTools rfl (by decide) (by decide +kernel) (by decide +kernel)).mpr ?_
  refine ⟨?_, ?_, ?_⟩
  · intro path hpath
    have hmem := mem_of_mapGet (look_directory.mp hpath)
    have hdocs : path = ["docs"] := by simpa [mail] using hmem
    exact ⟨["docs", "letter.txt"], [0x48, 0x69], by decide, by rw [hdocs]; decide⟩
  · intro _
    refine ⟨⟨by decide, by decide⟩, ?_⟩
    intro _ path file hget
    have hfile : path = ["docs", "letter.txt"] ∧ file = letter.2 := by simpa [mail] using mem_of_mapGet hget
    rw [hfile.2]
    decide
  · intro _ htakes
    exact absurd htakes (by decide)

def folder : Member := ⟨["empty"], .directory, 0, some [], 2024, fun _ h => Option.some.inj h ▸ le_rfl⟩

/-- A zip file without members: its end record alone. -/
def emptyZip : List String × StoredFile := (["old.zip"], ⟨[0x50, 0x4B, 5, 6] ++ List.replicate 18 0, 2024⟩)

def emptied : SampleFile := .archive .zip [folder] none

def mailbox : SampleFile := .archive .tar [Member.ofFile letter, Member.ofFile emptyZip] (some [])

/-- An empty folder is lost; and of a tar archive that ends with an empty zip file, nothing is left. -/
theorem trees_changed : Promised sampleTools ∧
    ((sampleTools.readAs .zip emptied).bind (extractAll sampleTools .zip) = some [(["empty"], .directory)] ∧
      ¬ Preserved sampleTools .zip .tar "empty.zip" "empty.tar" emptied [(["empty"], .directory)]) ∧
    ((sampleTools.readAs .tar mailbox).bind (extractAll sampleTools .tar) =
        some (mail ++ [(["old.zip"], .file emptyZip.2)]) ∧
      ¬ Preserved sampleTools .tar .tarGz "mail.tar" "mail.tar.gz" mailbox
        (mail ++ [(["old.zip"], .file emptyZip.2)])) := by
  refine ⟨promised_sampleTools, ⟨by decide +kernel, ?_⟩, by decide +kernel, ?_⟩
  · rintro ⟨back, hrun, hsame⟩
    have hback : readBack sampleTools .zip .tar "empty.zip" "empty.tar" emptied = some [] := by decide +kernel
    obtain rfl := Option.some.inj (hback.symm.trans hrun)
    exact absurd (hsame ["empty"]) (by decide)
  · rintro ⟨back, hrun, hsame⟩
    have hback : readBack sampleTools .tar .tarGz "mail.tar" "mail.tar.gz" mailbox = some [] := by decide +kernel
    obtain rfl := Option.some.inj (hback.symm.trans hrun)
    exact absurd (hsame ["old.zip"]) (by decide)

end Repacking

end Transform.Archives
