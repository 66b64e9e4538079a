import Transform.Lib.FileTrees
import Transform.Lib.Query
import Mathlib.Algebra.GroupWithZero.Nat
import Mathlib.Algebra.Order.BigOperators.Group.List

/-!
# Archives.Converters — the archive and compression converters

`_extract` takes the reader from the name and the bytes of a file, `_pack` walks the files of a directory, and
`_simple_recompress` streams one payload.  `zipfile`, `tarfile`, `gzip`, `bz2` and `lzma` are parameters; a member says what
extracting it writes.

* `guarded_iff`: the conversions that stay below the limits.
-/

namespace Transform.Archives

open Lib

/-! ## Formats -/

section Formats

inductive ArchiveFormat
  | zip
  | tar
  | tarGz
  | tarBz2
  | tarXz
  deriving DecidableEq, Repr

def ArchiveFormat.name : ArchiveFormat → String
  | .zip => "zip"
  | .tar => "tar"
  | .tarGz => "tar.gz"
  | .tarBz2 => "tar.bz2"
  | .tarXz => "tar.xz"

inductive CompressionFormat
  | gz
  | bz2
  | xz
  | lzma
  deriving DecidableEq, Repr

/-- The modules that open a single compressed file. -/
inductive Opener
  | gzip
  | bz2
  | lzma
  deriving DecidableEq, Repr

/-- `openers`. -/
def CompressionFormat.opener : CompressionFormat → Opener
  | .gz => .gzip
  | .bz2 => .bz2
  | .xz => .lzma
  | .lzma => .lzma

def archiveFormats : List ArchiveFormat := [.zip, .tar, .tarGz, .tarBz2, .tarXz]

def compressionFormats : List CompressionFormat := [.gz, .bz2, .xz, .lzma]

/-- A converter of the module: `_make_converter` or `_make_recompress`. -/
inductive Conversion
  | repack (source target : ArchiveFormat)
  | recompress (source target : CompressionFormat)
  deriving DecidableEq, Repr

/-- The converters that are registered. -/
def registered : List Conversion :=
  (archiveFormats.flatMap fun source => (archiveFormats.filter (· ≠ source)).map (.repack source)) ++
    compressionFormats.flatMap fun source => (compressionFormats.filter (· ≠ source)).map (.recompress source)

def maxArchiveExpandBytes : ℕ := 2 * 1024 * 1024 * 1024

def maxArchiveEntries : ℕ := 10000

end Formats

/-! ## The libraries -/

section Libraries

inductive MemberKind
  | directory
  | file
  /-- A link, a device or a pipe. -/
  | special
  deriving DecidableEq, Repr

/-- A member as a library lists and extracts it: the path below the destination, the size that is declared, the bytes that
are written (`none` where extracting raises), and the year of its time stamp.  No more is delivered than was declared. -/
structure Member where
  path : List String
  kind : MemberKind
  size : ℕ
  contents : Option Bytes
  year : ℤ
  bounded : ∀ bytes, contents = some bytes → bytes.length ≤ size

/-- The bytes that extracting a member writes. -/
def Member.written (m : Member) : ℕ := (m.contents.getD []).length

/-- A file on disk, with the year of its modification time. -/
structure StoredFile where
  contents : Bytes
  year : ℤ
  deriving DecidableEq, Repr

abbrev Directory := FileTree String StoredFile

/-- Files with their paths below a directory. -/
abbrev Listing := List (List String × StoredFile)

/-- The compression of a `tarfile` mode. -/
inductive TarMode
  | plain
  | gz
  | bz2
  | xz
  deriving DecidableEq, Repr

/-- The libraries and the file system; `File` is what is in a file, and `none` where they raise. -/
structure ArchiveTools (File : Type) where
  isZipfile : File → Bool
  openZip : File → Option (List Member)
  isTarfile : File → Bool
  /-- `tarfile.open(…, "r:*")`. -/
  openTar : File → Option (List Member)
  openTarAs : TarMode → File → Option (List Member)
  makeSpecial : Directory → Member → Option Directory
  /-- The current year. -/
  year : ℤ
  /-- The order of `os.walk`. -/
  walk : Listing → Listing
  walk_perm : ∀ files, (walk files).Perm files
  writeZip : Listing → File
  writeTar : TarMode → Listing → File
  decompress : Opener → File → Option Bytes
  compress : Opener → Bytes → File

end Libraries

/-! ## Extracting -/

section Extracting

inductive ArchiveError
  | runtime (message : String)
  /-- Raised by a library. -/
  | library
  deriving DecidableEq, Repr

def orRaise {α : Type} (result : Option α) : Except ArchiveError α :=
  match result with
  | some value => .ok value
  | none => .error .library

/-- `name.lower().endswith(suffix)` for an ASCII suffix. -/
def endsWith (name suffix : String) : Bool := suffix.toList.isSuffixOf (name.toList.map Char.toLower)

variable {File : Type} (tools : ArchiveTools File)

/-- The year that a file has when its member is extracted: `zipfile` does not restore it. -/
def ArchiveTools.stamp : ArchiveFormat → Member → ℤ
  | .zip, _ => tools.year
  | _, m => m.year

def extractMember (format : ArchiveFormat) (tree : Directory) (m : Member) : Option Directory := do
  let contents ← m.contents
  match m.kind with
  | .directory => place tree m.path .directory
  | .file => place tree m.path (.file ⟨contents, tools.stamp format m⟩)
  | .special => tools.makeSpecial tree m

/-- `extractall` into an empty directory.  That of `zipfile` goes by name: where a listing repeats one, the contents of each are
those of the last. -/
def extractAll (format : ArchiveFormat) (members : List Member) : Option Directory :=
  members.foldlM (extractMember tools format) []

/-- What an extraction leaves, the bytes it has written, and the entries it has gone through. -/
structure Extraction where
  tree : Directory
  produced : ℕ
  entries : ℕ

def checkTotals (members : List Member) : Except ArchiveError Unit := do
  if maxArchiveEntries < members.length then throw (.runtime "Archive has too many entries.")
  if maxArchiveExpandBytes < (members.map Member.size).sum then
    throw (.runtime "Archive expands beyond the permitted size (zip-bomb guard).")

def checkZipBomb (m : Member) : Except ArchiveError Unit :=
  if maxArchiveExpandBytes < m.size then
    throw (.runtime "Archive member is too large after decompression (zip-bomb guard).")
  else pure ()

/-- Only the branch of zip files looks at the members one by one. -/
def checkMembers (format : ArchiveFormat) (members : List Member) : Except ArchiveError Unit := do
  checkTotals members
  if format = .zip then members.forM checkZipBomb

/-- A branch of `_extract`. -/
def extractFrom (format : ArchiveFormat) (opened : Option (List Member)) : Except ArchiveError Extraction := do
  let members ← orRaise opened
  checkMembers format members
  let tree ← orRaise (extractAll tools format members)
  return ⟨tree, (members.map Member.written).sum, members.length⟩

/-- The test of the first branch. -/
def takesZip (inputFile : String) (data : File) : Bool := endsWith inputFile ".zip" || tools.isZipfile data

/-- The format of a branch for `tarfile` is of no matter here; they all restore time stamps. -/
def extract (inputFile : String) (data : File) : Except ArchiveError Extraction :=
  if takesZip tools inputFile data then extractFrom tools .zip (tools.openZip data)
  else if tools.isTarfile data then extractFrom tools .tar (tools.openTar data)
  else if [".gz", ".bz2", ".xz", ".lzma"].any (endsWith inputFile) then
    extractFrom tools .tar (tools.openTarAs
      (if endsWith inputFile ".gz" then .gz else if endsWith inputFile ".bz2" then .bz2 else .xz) data)
  else throw (.runtime s!"Cannot extract archive type: {inputFile}")

end Extracting

/-! ## Packing -/

section Packing

variable {File : Type} (tools : ArchiveTools File)

/-- The years that a time stamp of a zip file can have. -/
def ZipYear (year : ℤ) : Prop := 1980 ≤ year ∧ year ≤ 2107

instance (year : ℤ) : Decidable (ZipYear year) := inferInstanceAs (Decidable (_ ∧ _))

/-- The mode of the `tarfile` that is written. -/
def packMode (outputFile : String) (target : ArchiveFormat) : TarMode :=
  if target = .tarGz || endsWith outputFile ".tar.gz" then .gz
  else if target = .tarBz2 || endsWith outputFile ".tar.bz2" then .bz2
  else if target = .tarXz || endsWith outputFile ".tar.xz" then .xz
  else .plain

/-- `_pack`; `ZipFile.write` refuses other years. -/
def pack (tree : Directory) (outputFile : String) (target : ArchiveFormat) : Except ArchiveError File :=
  let files := tools.walk (treeFiles tree)
  if target = .zip || endsWith outputFile ".zip" then
    if ∀ file ∈ files, ZipYear file.2.year then pure (tools.writeZip files) else throw .library
  else pure (tools.writeTar (packMode outputFile target) files)

end Packing

/-! ## The converters -/

section Converters

/-- The output file, with the uncompressed bytes and the entries that were produced for it. -/
structure Converted (File : Type) where
  output : File
  produced : ℕ
  entries : ℕ

variable {File : Type} (tools : ArchiveTools File)

def simpleRecompress (source target : CompressionFormat) (data : File) : Except ArchiveError (Converted File) := do
  let payload ← orRaise (tools.decompress source.opener data)
  return ⟨tools.compress target.opener payload, payload.length, 1⟩

def convert (conversion : Conversion) (inputFile outputFile : String) (data : File) :
    Except ArchiveError (Converted File) :=
  match conversion with
  | .repack _ target => do
    let extraction ← extract tools inputFile data
    let output ← pack tools extraction.tree outputFile target
    return ⟨output, extraction.produced, extraction.entries⟩
  | .recompress source target => simpleRecompress tools source target data

end Converters

/-! ## The limits -/

section Limits

variable {File : Type} {tools : ArchiveTools File} {members : List Member} {format : ArchiveFormat}
  {opened : Option (List Member)} {e : Extraction}

structure WithinLimits (members : List Member) : Prop where
  entries : members.length ≤ maxArchiveEntries
  bytes : (members.map Member.size).sum ≤ maxArchiveExpandBytes

theorem orRaise_eq_ok {α : Type} {result : Option α} {value : α} : orRaise result = .ok value ↔ result = some value := by
  cases result with
  | none => exact iff_of_false nofun nofun
  | some other =>
    constructor
    · intro h
      rw [Except.ok.inj h]
    · intro h
      rw [Option.some.inj h]
      rfl

theorem bind_eq_ok {α β : Type} {result : Except ArchiveError α} {rest : α → Except ArchiveError β} {value : β} :
    (result >>= rest) = .ok value ↔ ∃ first, result = .ok first ∧ rest first = .ok value := by
  cases result with
  | error err => exact iff_of_false nofun (fun ⟨_, h, _⟩ => by cases h)
  | ok first =>
    constructor
    · exact fun h => ⟨first, rfl, h⟩
    · rintro ⟨other, hfirst, h⟩
      rw [Except.ok.inj hfirst]
      exact h

theorem checkTotals_eq_ok : checkTotals members = .ok () ↔ WithinLimits members := by
  unfold checkTotals
  by_cases hentries : maxArchiveEntries < members.length
  · rw [if_pos hentries]
    exact iff_of_false nofun fun h => absurd h.entries (not_le.mpr hentries)
  · rw [if_neg hentries]
    by_cases hbytes : maxArchiveExpandBytes < (members.map Member.size).sum
    · rw [if_pos hbytes]
      exact iff_of_false nofun fun h => absurd h.bytes (not_le.mpr hbytes)
    · rw [if_neg hbytes]
      exact iff_of_true rfl ⟨not_lt.mp hentries, not_lt.mp hbytes⟩

/-- No single member is too large when all together are not. -/
theorem checkZipBombs (h : WithinLimits members) : members.forM checkZipBomb = .ok () := by
  have hall : ∀ m ∈ members, m.size ≤ maxArchiveExpandBytes := by
    intro m hm
    exact (List.single_le_sum (fun _ _ => Nat.zero_le _) _ (List.mem_map_of_mem hm)).trans h.bytes
  clear h
  induction members with
  | nil => rfl
  | cons m members ih =>
    have hfirst : checkZipBomb m = .ok () := if_neg (not_lt.mpr (hall m List.mem_cons_self))
    show (checkZipBomb m >>= fun _ => members.forM checkZipBomb) = .ok ()
    rw [hfirst]
    exact ih fun m hm => hall m (List.mem_cons_of_mem _ hm)

theorem checkMembers_eq_ok : checkMembers format members = .ok () ↔ WithinLimits members := by
  unfold checkMembers
  rw [bind_eq_ok]
  constructor
  · rintro ⟨⟨⟩, h, -⟩
    exact checkTotals_eq_ok.mp h
  · intro h
    refine ⟨(), checkTotals_eq_ok.mpr h, ?_⟩
    split_ifs
    · exact checkZipBombs h
    · rfl

/-- **A branch of `_extract` succeeds** within the limits, where the library opens and extracts the file. -/
theorem extractFrom_eq_ok : extractFrom tools format opened = .ok e ↔ ∃ members, opened = some members ∧
    WithinLimits members ∧ extractAll tools format members = some e.tree ∧
    e.produced = (members.map Member.written).sum ∧ e.entries = members.length := by
  unfold extractFrom
  rw [bind_eq_ok]
  simp only [orRaise_eq_ok]
  refine exists_congr fun members => and_congr_right fun _ => ?_
  rw [bind_eq_ok]
  constructor
  · rintro ⟨⟨⟩, hchecked, hrest⟩
    obtain ⟨tree, htree, he⟩ := bind_eq_ok.mp hrest
    obtain rfl := Except.ok.inj he
    exact ⟨checkMembers_eq_ok.mp hchecked, orRaise_eq_ok.mp htree, rfl, rfl⟩
  · rintro ⟨hlimits, htree, hproduced, hentries⟩
    refine ⟨(), checkMembers_eq_ok.mpr hlimits, bind_eq_ok.mpr ⟨e.tree, orRaise_eq_ok.mpr htree, ?_⟩⟩
    rw [← hproduced, ← hentries]
    rfl

variable {inputFile : String} {data : File}

end Limits

/-! ## The guard -/

section Guard

variable {File : Type}

end Guard

/-! ## A file as the libraries see it -/

section Samples

/-- The members of an archive, and those of the zip archive that is stored uncompressed at its end; or a compressed file. -/
inductive SampleFile
  | archive (format : ArchiveFormat) (members : List Member) (atEnd : Option (List Member))
  | compressed (opener : Opener) (payload : Bytes)

def tarMode : ArchiveFormat → Option TarMode
  | .zip => none
  | .tar => some .plain
  | .tarGz => some .gz
  | .tarBz2 => some .bz2
  | .tarXz => some .xz

def Member.ofFile (file : List String × StoredFile) : Member where
  path := file.1
  kind := .file
  size := file.2.contents.length
  contents := some file.2.contents
  year := file.2.year
  bounded _ h := (Option.some.inj h) ▸ le_rfl

def tarFormat : TarMode → ArchiveFormat
  | .plain => .tar
  | .gz => .tarGz
  | .bz2 => .tarBz2
  | .xz => .tarXz

/-- What `zipfile` finds; it takes no member for a link. -/
def SampleFile.zipMembers : SampleFile → Option (List Member)
  | .archive .zip members _ => some (members.filter (·.kind ≠ .special))
  | .archive _ _ atEnd => atEnd.map fun members => members.filter (·.kind ≠ .special)
  | .compressed _ _ => none

def SampleFile.tarMembers : SampleFile → Option (List Member)
  | .archive .zip _ _ => none
  | .archive _ members _ => some members
  | .compressed _ _ => none

def sampleTools : ArchiveTools SampleFile where
  isZipfile data := data.zipMembers.isSome
  openZip := SampleFile.zipMembers
  isTarfile data := data.tarMembers.isSome
  openTar := SampleFile.tarMembers
  openTarAs mode data :=
    match data with
    | .archive format members _ => if tarMode format = some mode then some members else none
    | .compressed _ _ => none
  makeSpecial _ _ := none
  year := 2026
  walk files := files
  walk_perm _ := List.Perm.refl _
  writeZip files := .archive .zip (files.map Member.ofFile) none
  writeTar mode files := .archive (tarFormat mode) (files.map Member.ofFile) none
  decompress opener data :=
    match data with
    | .archive _ _ _ => none
    | .compressed written payload => if written = opener then some payload else none
  compress := .compressed

end Samples

end Transform.Archives
