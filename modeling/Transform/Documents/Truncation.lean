import Transform.Documents.Extraction

/-!
# Documents.Truncation — how much of a document the extracted text is

The text is cut at the budget after blanks have been collapsed, and `truncated` is set from that text.  But the pages of a
PDF are read until the budget is spent on what they hold uncollapsed, and the parts of an archive are read in the order of
their names.

* `honest_iff`: the documents whose text is cut where its budget ends, and said to be cut.
-/

namespace Transform.Documents

open Lib Conversions Files

/-! ## Documents -/

section Documents

/-- A slide or a worksheet: its number, its bytes and what they parse to. -/
structure Part where
  number : ℕ
  data : Bytes
  root : Element

/-- Pages by their index, slides and worksheets by their numbers; the strings of a workbook stand in a part of their own. -/
inductive Document
  | pdf (pages : List (List Char))
  | slides (parts : List Part)
  | sheets (shared : Option (Bytes × Element)) (parts : List Part)

def slideName (number : ℕ) : String := "ppt/slides/slide" ++ toString number ++ ".xml"

def sheetName (number : ℕ) : String := "xl/worksheets/sheet" ++ toString number ++ ".xml"

def sharedName : String := "xl/sharedStrings.xml"

def entryOf (name : String) (data : Bytes) : ZipEntry := { name, fileSize := data.length, content := .ok data }

/-- The strings of a workbook. -/
def strings (shared : Option (Bytes × Element)) : List String := (shared.map fun part => sharedItems part.2).getD []

namespace Document

def extension : Document → String
  | pdf _ => "pdf"
  | slides _ => "pptx"
  | sheets _ _ => "xlsx"

def fullText : Document → List Char
  | pdf pages => joined pages
  | slides parts => joined (parts.map fun part => paragraphs part.root)
  | sheets shared parts => joined (parts.flatMap fun part => sheetLines (strings shared) part.root)

end Document

variable (lib : DocumentLibraries) (self : DocumentTextExtractor)

/-- An archive has these parts under their names, and no others where parts of their kind stand. -/
structure Holds (archive : List ZipEntry) (start : String) (name : ℕ → String) (parts : List Part) : Prop where
  ordered : parts.Pairwise fun part part' => part.number < part'.number
  entries : (archive.filter fun entry => isPart start entry.name).Perm
    (parts.map fun part => entryOf (name part.number) part.data)
  parsed : ∀ part ∈ parts, lib.fromXml part.data = .ok part.root

/-- What an archive has where the strings of a workbook stand. -/
def HoldsShared (archive : List ZipEntry) : Option (Bytes × Element) → Prop
  | none => getInfo archive sharedName = none
  | some (xml, root) => getInfo archive sharedName = some (entryOf sharedName xml) ∧ lib.fromXml xml = .ok root

def Opens (data : Bytes) : Document → Prop
  | .pdf pages => lib.pdfPages data = .ok (pages.map .ok)
  | .slides parts => ∃ archive, lib.zipFile data = .ok archive ∧ Holds lib archive "ppt/slides/slide" slideName parts
  | .sheets shared parts => ∃ archive, lib.zipFile data = .ok archive ∧
      Holds lib archive "xl/worksheets/" sheetName parts ∧ HoldsShared lib archive shared

structure FileOf (document : Document) (fileName : String) (data : Bytes) : Prop where
  nonempty : data ≠ []
  extension : extensionFromFilename fileName = document.extension
  opens : Opens lib data document

/-- The first characters of the text, up to the budget, and a text that is not said to be cut is all of it. -/
structure Honest (budget : ℕ) (document : Document) (extracted : ExtractedDocument) : Prop where
  supported : extracted.supported = true
  text : extracted.text = String.ofList ((collapseWhitespace document.fullText).take budget)
  truncated : extracted.truncated = false → (collapseWhitespace document.fullText).length ≤ budget

end Documents

/-! ## What is read -/

section Reading

variable (self : DocumentTextExtractor)

/-- How many pages are read, when `total` characters have been: as long as the budget is not spent on them as they are. -/
def pagesRead (budget : ℕ) : (total : ℕ) → List (List Char) → ℕ
  | _, [] => 0
  | total, page :: pages => if budget < total + page.length then 1 else pagesRead budget (total + page.length) pages + 1

/-- Parts in the order of their names. -/
def byName (name : ℕ → String) (parts : List Part) : List Part :=
  parts.insertionSort fun part part' => name part.number ≤ name part'.number

/-- Parts within the limit on what is decompressed, without a document type. -/
structure Readable (cap : ℕ) (parts : List Part) : Prop where
  within : (parts.map fun part => part.data.length).sum ≤ cap
  plain : ∀ part ∈ parts, hasDtd part.data = false

/-- A text that is read in the place of another: up to the budget they are the same, and if all of it is within the budget,
the other is too. -/
def Agree (budget : ℕ) (read full : List Char) : Prop :=
  read.take budget = full.take budget ∧ (read.length ≤ budget → full.length ≤ budget)

/-- The documents that are read as far as the budget goes.  Behind the pages of a PDF on which the budget is spent there are
only blanks, or their text without blanks is more than the budget; the parts of an archive are within the limits and read
the same in the order of their names, with the strings that are within the limit. -/
def Budgeted : Document → Prop
  | .pdf pages =>
    (∀ page ∈ pages.drop (pagesRead self.maxInputChars 0 pages), ∀ c ∈ page, isStripped c = true) ∨
      self.maxInputChars < (collapseWhitespace (joined (pages.take (pagesRead self.maxInputChars 0 pages)))).length
  | .slides parts => Readable self.memberCap parts ∧
      Agree self.maxInputChars
        (collapseWhitespace (joined ((byName slideName parts).map fun part => paragraphs part.root)))
        (collapseWhitespace (Document.slides parts).fullText)
  | .sheets shared parts =>
    let within := shared.filter fun part => part.1.length ≤ self.memberCap
    (∀ part ∈ within, hasDtd part.1 = false) ∧ Readable self.memberCap parts ∧
      Agree self.maxInputChars
        (collapseWhitespace (joined ((byName sheetName parts).flatMap fun part => sheetLines (strings within) part.root)))
        (collapseWhitespace (Document.sheets shared parts).fullText)

end Reading

/-! ## Extraction -/

section Extraction

variable {lib : DocumentLibraries} {self : DocumentTextExtractor} {document : Document} {fileName : String} {data : Bytes}
  {raw read full more : List Char} {budget : ℕ}

theorem extract_of_raw (hsize : data.length ≤ self.maxDocumentBytes) (hne : data ≠ [])
    (hraw : extractBytes lib self (extensionFromFilename fileName) data = .ok raw) :
    extract lib self fileName data =
      { text := String.ofList ((collapseWhitespace raw).take self.maxInputChars)
        truncated := decide (self.maxInputChars < (collapseWhitespace raw).length)
        supported := true } := by
  simp only [extract]
  rw [if_neg (Nat.not_lt.mpr hsize), if_neg hne, hraw]

theorem extract_refused (hne : data ≠ []) (h : self.maxDocumentBytes < data.length ∨
    ∃ raised, extractBytes lib self (extensionFromFilename fileName) data = .error raised) :
    (extract lib self fileName data).supported = false := by
  simp only [extract]
  by_cases hsize : self.maxDocumentBytes < data.length
  · rw [if_pos hsize]
    rfl
  · obtain ⟨raised, hraised⟩ := h.resolve_left hsize
    rw [if_neg hsize, if_neg hne, hraised]
    cases raised <;> rfl

theorem honest_iff_agree (hne : data ≠ []) : Honest self.maxInputChars document (extract lib self fileName data) ↔
    data.length ≤ self.maxDocumentBytes ∧ ∃ raw, extractBytes lib self (extensionFromFilename fileName) data = .ok raw ∧
      Agree self.maxInputChars (collapseWhitespace raw) (collapseWhitespace document.fullText) := by
  by_cases hsize : self.maxDocumentBytes < data.length
  · refine iff_of_false ?_ fun h => Nat.not_lt.mpr h.1 hsize
    intro h
    exact Bool.false_ne_true ((extract_refused hne (Or.inl hsize)).symm.trans h.supported)
  · rw [and_iff_right (Nat.not_lt.mp hsize)]
    cases hread : extractBytes lib self (extensionFromFilename fileName) data with
    | error raised =>
      refine iff_of_false ?_ nofun
      intro h
      exact Bool.false_ne_true ((extract_refused hne (Or.inr ⟨raised, hread⟩)).symm.trans h.supported)
    | ok raw =>
      have hextract := extract_of_raw (Nat.not_lt.mp hsize) hne hread
      constructor
      · intro h
        refine ⟨raw, rfl, ?_, ?_⟩
        · have htext := h.text
          rw [hextract] at htext
          exact String.ofList_injective htext
        · intro hshort
          refine h.truncated ?_
          rw [hextract]
          exact decide_eq_false (Nat.not_lt.mpr hshort)
      · rintro ⟨raw', heq, hagree, hshort⟩
        obtain rfl := Except.ok.inj heq
        rw [hextract]
        refine ⟨rfl, congrArg String.ofList hagree, ?_⟩
        intro hcut
        exact hshort (Nat.not_lt.mp (of_decide_eq_false hcut))

theorem agree_refl : Agree budget full full := ⟨rfl, id⟩

/-- A text agrees with one that goes on if the budget is over, or there is nothing more. -/
theorem agree_append : Agree budget read (read ++ more) ↔ more = [] ∨ budget < read.length := by
  constructor
  · rintro ⟨htake, hshort⟩
    by_cases hlong : budget < read.length
    · exact Or.inr hlong
    · have hread := Nat.not_lt.mp hlong
      rw [List.take_of_length_le hread, List.take_of_length_le (hshort hread)] at htake
      exact Or.inl (List.append_cancel_left ((List.append_nil read).trans htake)).symm
  · rintro (rfl | hlong)
    · rw [List.append_nil]
      exact agree_refl
    · refine ⟨?_, fun hshort => absurd hlong (Nat.not_lt.mpr hshort)⟩
      rw [List.take_append_of_le_length hlong.le]

end Extraction

/-! ## Pages -/

section Pages

variable {lib : DocumentLibraries} {self : DocumentTextExtractor} {data : Bytes} {pages first rest : List (List Char)}

theorem readPages_eq (budget total : ℕ) (pages : List (List Char)) :
    readPages budget total (pages.map .ok) = .ok (pages.take (pagesRead budget total pages)) := by
  induction pages generalizing total with
  | nil => rfl
  | cons page pages ih =>
    rw [List.map_cons, readPages, pagesRead]
    show (if budget < total + page.length then Except.ok [page] else _) = _
    by_cases h : budget < total + page.length
    · rw [if_pos h, if_pos h]
      rfl
    · rw [if_neg h, if_neg h, ih]
      rfl

theorem extractPdf_eq (h : lib.pdfPages data = .ok (pages.map .ok)) :
    extractPdf lib self data = .ok (joined (pages.take (pagesRead self.maxInputChars 0 pages))) := by
  rw [extractPdf, h]
  show (readPages self.maxInputChars 0 (pages.map .ok)).map joined = _
  rw [readPages_eq]
  rfl

theorem pagesRead_pos (budget total : ℕ) (hne : pages ≠ []) : 0 < pagesRead budget total pages := by
  cases pages with
  | nil => exact absurd rfl hne
  | cons page pages =>
    unfold pagesRead
    split_ifs
    · exact Nat.one_pos
    · exact Nat.succ_pos _

theorem joined_append (hfirst : first ≠ []) (hrest : rest ≠ []) :
    joined (first ++ rest) = joined first ++ '\n' :: joined rest := by
  induction first with
  | nil => exact absurd rfl hfirst
  | cons page first ih =>
    cases first with
    | nil =>
      show ['\n'].intercalate (page :: rest) = ['\n'].intercalate [page] ++ _
      rw [List.intercalate_cons_of_ne_nil hrest, List.intercalate_singleton]
      exact List.append_assoc _ _ _
    | cons page' first =>
      have hne : page' :: first ++ rest ≠ [] := List.cons_ne_nil _ _
      show ['\n'].intercalate (page :: (page' :: first ++ rest)) = ['\n'].intercalate (page :: page' :: first) ++ _
      rw [List.intercalate_cons_of_ne_nil hne, List.intercalate_cons_of_ne_nil (List.cons_ne_nil _ _)]
      have hstep : ['\n'].intercalate (page' :: first ++ rest) =
          ['\n'].intercalate (page' :: first) ++ '\n' :: joined rest := ih (List.cons_ne_nil _ _)
      rw [hstep]
      simp only [List.append_assoc]

theorem blank_joined : (∀ c ∈ joined pages, isStripped c = true) ↔ ∀ page ∈ pages, ∀ c ∈ page, isStripped c = true := by
  constructor
  · intro h page hpage c hc
    exact h c (mem_intercalate_of_mem hc hpage)
  · intro h c hc
    rcases mem_intercalate hc with rfl | ⟨page, hpage, hin⟩
    · decide
    · exact h page hpage c hin

theorem agree_pages (budget : ℕ) (hfirst : first ≠ []) :
    Agree budget (collapseWhitespace (joined first)) (collapseWhitespace (joined (first ++ rest))) ↔
      (∀ page ∈ rest, ∀ c ∈ page, isStripped c = true) ∨ budget < (collapseWhitespace (joined first)).length := by
  by_cases hrest : rest = []
  · subst hrest
    rw [List.append_nil]
    exact iff_of_true agree_refl (Or.inl nofun)
  · have hline : isStripped '\n' = true := by decide
    have hreturn : isStripped '\r' = true := by decide
    obtain ⟨more, hmore, hnil⟩ := collapse_more hline hreturn (joined first) (joined rest)
    have hfull : collapseWhitespace (joined (first ++ rest)) = collapseWhitespace (joined first) ++ more := by
      rw [joined_append hfirst hrest]
      exact hmore
    rw [hfull, agree_append, hnil, blank_joined]

theorem budgeted_pages : Agree self.maxInputChars
      (collapseWhitespace (joined (pages.take (pagesRead self.maxInputChars 0 pages))))
      (collapseWhitespace (Document.pdf pages).fullText) ↔ Budgeted self (.pdf pages) := by
  by_cases hne : pages = []
  · subst hne
    exact iff_of_true agree_refl (Or.inl nofun)
  · have hfirst : pages.take (pagesRead self.maxInputChars 0 pages) ≠ [] := by
      intro h
      have hpos := pagesRead_pos self.maxInputChars 0 hne
      rcases List.take_eq_nil_iff.mp h with hzero | hnil
      · omega
      · exact hne hnil
    have hfull : joined pages = joined (pages.take (pagesRead self.maxInputChars 0 pages) ++
        pages.drop (pagesRead self.maxInputChars 0 pages)) := congrArg joined (List.take_append_drop ..).symm
    show Agree _ _ (collapseWhitespace (joined pages)) ↔ _
    rw [hfull]
    exact agree_pages self.maxInputChars hfirst

end Pages

/-! ## Parts of archives -/

section Parts

variable {lib : DocumentLibraries} {archive : List ZipEntry} {start : String} {name : ℕ → String} {parts : List Part}
  {cap total : ℤ} {data : Bytes} {α : Type} {read : Bytes → Except Raised α} {value : Part → α} {values : List α}

/-- Names of parts: they are told from other names, and no two numbers give one name. -/
structure Names (start : String) (name : ℕ → String) : Prop where
  isPart : ∀ n, isPart start (name n) = true
  injective : Function.Injective name

theorem names_of_numbers (start before : String) (h : start.toList <+: before.toList) :
    Names start fun n => before ++ toString n ++ ".xml" := by
  constructor
  · intro n
    have hlist : (before ++ toString n ++ ".xml").toList = before.toList ++ ((toString n).toList ++ ".xml".toList) := by
      rw [String.toList_append, String.toList_append, List.append_assoc]
    rw [isPart, hlist, Bool.and_eq_true]
    constructor
    · exact List.isPrefixOf_iff_prefix.mpr (h.trans (List.prefix_append _ _))
    · refine List.isSuffixOf_iff_suffix.mpr ?_
      rw [← List.append_assoc]
      exact List.suffix_append _ _
  · intro n n' heq
    have hnumber := String.append_right_inj _ |>.mp (String.append_left_inj _ |>.mp heq)
    have hdigits : Nat.toDigits 10 n = Nat.toDigits 10 n' := by
      have hlist := congrArg String.toList hnumber
      rwa [Nat.toString_eq_repr, Nat.toString_eq_repr, Nat.toList_repr, Nat.toList_repr] at hlist
    rw [← Nat.ofDigitChars_ten_toDigits (n := n), hdigits, Nat.ofDigitChars_ten_toDigits]

theorem slideNames : Names "ppt/slides/slide" slideName := names_of_numbers _ _ List.prefix_rfl

theorem sheetNames : Names "xl/worksheets/" sheetName := by
  refine names_of_numbers _ _ ?_
  exact ⟨"sheet".toList, by decide⟩

theorem mem_byName {part : Part} : part ∈ byName name parts ↔ part ∈ parts := List.mem_insertionSort _

theorem perm_byName (name : ℕ → String) (parts : List Part) : (byName name parts).Perm parts := List.perm_insertionSort _ _

theorem byName_eq_iff : byName name parts = parts ↔
    parts.Pairwise fun part part' => name part.number ≤ name part'.number := by
  have htrans : IsTrans Part fun part part' => name part.number ≤ name part'.number := ⟨fun _ _ _ => le_trans⟩
  have htotal : Std.Total fun part part' : Part => name part.number ≤ name part'.number := ⟨fun _ _ => le_total _ _⟩
  constructor
  · intro h
    rw [← h]
    exact List.pairwise_insertionSort _ _
  · exact List.Pairwise.insertionSort_eq

theorem sortedNames_eq (h : Holds lib archive start name parts) :
    sortedNames archive start = (byName name parts).map fun part => name part.number := by
  have hnames : ((archive.map ZipEntry.name).filter fun other => isPart start other).Perm
      (parts.map fun part => name part.number) := by
    rw [List.filter_map]
    have hperm := h.entries.map ZipEntry.name
    rw [List.map_map] at hperm
    exact hperm
  have hsorted : ((byName name parts).map fun part => name part.number) =
      (parts.map fun part => name part.number).insertionSort (· ≤ ·) :=
    List.map_insertionSort _ _ _ _ fun _ _ _ _ => Iff.rfl
  rw [hsorted, sortedNames]
  refine List.Perm.eq_of_pairwise' (List.pairwise_insertionSort _ _) (List.pairwise_insertionSort _ _) ?_
  exact ((List.perm_insertionSort _ _).trans hnames).trans (List.perm_insertionSort _ _).symm

theorem getInfo_eq_some {other : String} {entry : ZipEntry} (hmem : entry ∈ archive) (hname : entry.name = other)
    (hunique : ∀ info ∈ archive, info.name = other → info = entry) : getInfo archive other = some entry := by
  rw [getInfo]
  cases hfind : archive.reverse.find? fun info => info.name = other with
  | none =>
    have hnone := List.find?_eq_none.mp hfind entry (List.mem_reverse.mpr hmem)
    exact absurd (decide_eq_true hname) hnone
  | some info =>
    have hinfo := List.mem_reverse.mp (List.mem_of_find?_eq_some hfind)
    have hname' : info.name = other := by simpa using List.find?_some hfind
    rw [hunique info hinfo hname']

theorem getInfo_part (hnames : Names start name) (h : Holds lib archive start name parts) {part : Part}
    (hpart : part ∈ parts) : getInfo archive (name part.number) = some (entryOf (name part.number) part.data) := by
  refine getInfo_eq_some ?_ rfl ?_
  · have hmem := h.entries.mem_iff.mpr (List.mem_map_of_mem hpart)
    exact (List.mem_filter.mp hmem).1
  · intro info hinfo hname
    have hmem : info ∈ archive.filter fun entry => isPart start entry.name := by
      refine List.mem_filter.mpr ⟨hinfo, ?_⟩
      rw [hname]
      exact hnames.isPart _
    obtain ⟨part', hpart', rfl⟩ := List.mem_map.mp (h.entries.mem_iff.mp hmem)
    have hnumber : part'.number = part.number := hnames.injective hname
    have hnodup : (parts.map Part.number).Nodup := List.pairwise_map.mpr (h.ordered.imp fun hlt => hlt.ne)
    rw [List.inj_on_of_nodup_map hnodup hpart' hpart hnumber]

theorem readMember_part {other : String} (hfound : getInfo archive other = some (entryOf other data)) :
    readMember archive other cap = if cap < data.length then .error (.value "ValueError") else .ok data := by
  rw [readMember, hfound]
  rfl

theorem map_eq_ok {β : Type} {f : α → β} {x : Except Raised α} {y : β} :
    x.map f = .ok y ↔ ∃ a, x = .ok a ∧ f a = y := by
  cases x with
  | error raised => exact iff_of_false nofun nofun
  | ok a => exact ⟨fun h => ⟨a, rfl, Except.ok.inj h⟩, fun ⟨a', ha, hy⟩ => by rw [Except.ok.inj ha, ← hy]; rfl⟩

theorem readParts_eq_ok (hfound : ∀ part ∈ parts,
      getInfo archive (name part.number) = some (entryOf (name part.number) part.data))
    (hread : ∀ part ∈ parts, read part.data =
      if hasDtd part.data = true then .error (.value "ValueError") else .ok (value part)) (htotal : total ≤ cap) :
    readParts archive read cap total (parts.map fun part => name part.number) = .ok values ↔
      (total + (parts.map fun part => part.data.length).sum ≤ cap ∧ ∀ part ∈ parts, hasDtd part.data = false) ∧
        values = parts.map value := by
  induction parts generalizing total values with
  | nil =>
    have hcap : total + (0 : ℕ) ≤ cap := by omega
    rw [and_iff_right ⟨hcap, nofun⟩]
    exact ⟨fun h => (Except.ok.inj h).symm, fun h => congrArg Except.ok h.symm⟩
  | cons part parts ih =>
    rw [List.forall_mem_cons] at hfound hread
    rw [List.map_cons, readParts, readMember_part hfound.1, List.map_cons, List.sum_cons, List.forall_mem_cons]
    by_cases hsize : cap - total < part.data.length
    · rw [if_pos hsize]
      refine iff_of_false nofun ?_
      rintro ⟨⟨hsum, -⟩, -⟩
      omega
    · rw [if_neg hsize]
      show (read part.data).bind _ = _ ↔ _
      rw [hread.1]
      cases hdtd : hasDtd part.data with
      | true => exact iff_of_false nofun fun h => Bool.false_ne_true h.1.2.1.symm
      | false =>
        show (readParts archive read cap _ _).map _ = _ ↔ _
        have hrest := fun values => @ih (total + part.data.length) values hfound.2 hread.2 (by omega)
        have hsum : total + (part.data.length + (parts.map fun part => part.data.length).sum : ℕ) =
            total + part.data.length + (parts.map fun part => part.data.length).sum := by
          omega
        rw [map_eq_ok, hsum, and_iff_right rfl, List.map_cons]
        constructor
        · rintro ⟨rest, hok, rfl⟩
          obtain ⟨hfit, rfl⟩ := (hrest rest).mp hok
          exact ⟨hfit, rfl⟩
        · rintro ⟨hfit, rfl⟩
          exact ⟨_, (hrest _).mpr ⟨hfit, rfl⟩, rfl⟩

theorem readParts_sortedNames {cap : ℕ} (hnames : Names start name) (h : Holds lib archive start name parts)
    (hread : ∀ part ∈ parts, read part.data =
      if hasDtd part.data = true then .error (.value "ValueError") else .ok (value part)) :
    readParts archive read cap 0 (sortedNames archive start) = .ok values ↔
      Readable cap parts ∧ values = (byName name parts).map value := by
  have hcap : (0 : ℤ) ≤ (cap : ℤ) := Int.natCast_nonneg cap
  have hperm := perm_byName name parts
  have hfit : (0 + (((byName name parts).map fun part => part.data.length).sum : ℕ) ≤ (cap : ℤ) ∧
      ∀ part ∈ byName name parts, hasDtd part.data = false) ↔ Readable cap parts := by
    rw [zero_add, Int.ofNat_le, (hperm.map _).sum_eq]
    exact ⟨fun hboth => ⟨hboth.1, fun part hpart => hboth.2 part (mem_byName.mpr hpart)⟩,
      fun hboth => ⟨hboth.within, fun part hpart => hboth.plain part (mem_byName.mp hpart)⟩⟩
  rw [sortedNames_eq h, readParts_eq_ok (fun part hpart => getInfo_part hnames h (mem_byName.mp hpart))
    (fun part hpart => hread part (mem_byName.mp hpart)) hcap, hfit]

theorem safeParse_eq {root : Element} (h : lib.fromXml data = .ok root) :
    safeParse lib data = if hasDtd data = true then .error (.value "ValueError") else .ok root := by
  rw [safeParse, h]

/-- What is read of the parsed bytes. -/
theorem map_safeParse {root : Element} {f : Element → α} (h : lib.fromXml data = .ok root) :
    (safeParse lib data).map f = if hasDtd data = true then .error (.value "ValueError") else .ok (f root) := by
  rw [safeParse_eq h]
  split_ifs <;> rfl

variable {self : DocumentTextExtractor} {shared : Option (Bytes × Element)} {raw : List Char}

theorem extractPptx_eq_ok (hzip : lib.zipFile data = .ok archive)
    (h : Holds lib archive "ppt/slides/slide" slideName parts) : extractPptx lib self data = .ok raw ↔
      Readable self.memberCap parts ∧ raw = joined ((byName slideName parts).map fun part => paragraphs part.root) := by
  have hread : ∀ part ∈ parts, xmlText lib part.data =
      if hasDtd part.data = true then .error (.value "ValueError") else .ok (paragraphs part.root) :=
    fun part hpart => map_safeParse (h.parsed part hpart)
  rw [extractPptx, hzip]
  show (readParts archive (xmlText lib) self.memberCap 0 (sortedNames archive "ppt/slides/slide")).map joined = _ ↔ _
  rw [map_eq_ok]
  constructor
  · rintro ⟨texts, hok, rfl⟩
    obtain ⟨hfit, rfl⟩ := (readParts_sortedNames slideNames h hread).mp hok
    exact ⟨hfit, rfl⟩
  · rintro ⟨hfit, rfl⟩
    exact ⟨_, (readParts_sortedNames slideNames h hread).mpr ⟨hfit, rfl⟩, rfl⟩

/-- The strings of a workbook that are too large are taken for none. -/
theorem xlsxSharedStrings_eq_ok {cap : ℕ} {found : List String} (h : HoldsShared lib archive shared) :
    xlsxSharedStrings lib archive cap = .ok found ↔
      (∀ part ∈ shared.filter fun part => part.1.length ≤ cap, hasDtd part.1 = false) ∧
        found = strings (shared.filter fun part => part.1.length ≤ cap) := by
  cases shared with
  | none =>
    have hnone : getInfo archive "xl/sharedStrings.xml" = none := h
    rw [xlsxSharedStrings, readMember, hnone]
    show Except.ok [] = Except.ok found ↔ _
    rw [and_iff_right nofun]
    exact ⟨fun heq => (Except.ok.inj heq).symm, fun heq => congrArg Except.ok heq.symm⟩
  | some part =>
    obtain ⟨xml, root⟩ := part
    obtain ⟨hentry, hparse⟩ : getInfo archive sharedName = some (entryOf sharedName xml) ∧ lib.fromXml xml = .ok root := h
    have hmember : readMember archive "xl/sharedStrings.xml" cap =
        if (cap : ℤ) < xml.length then .error (.value "ValueError") else .ok xml :=
      readMember_part hentry
    rw [xlsxSharedStrings, hmember]
    by_cases hlarge : cap < xml.length
    · have hfilter : (some (xml, root)).filter (fun part => part.1.length ≤ cap) = none :=
        if_neg fun hle => Nat.not_lt.mpr (of_decide_eq_true hle) hlarge
      rw [if_pos (by exact_mod_cast hlarge), hfilter, and_iff_right nofun]
      show Except.ok [] = Except.ok found ↔ _
      exact ⟨fun heq => (Except.ok.inj heq).symm, fun heq => congrArg Except.ok heq.symm⟩
    · have hfilter : (some (xml, root)).filter (fun part => part.1.length ≤ cap) = some (xml, root) :=
        if_pos (decide_eq_true (Nat.not_lt.mp hlarge))
      rw [if_neg (by exact_mod_cast hlarge), hfilter]
      show (safeParse lib xml).map sharedItems = _ ↔ _
      rw [map_safeParse hparse]
      cases hdtd : hasDtd xml with
      | true =>
        refine iff_of_false nofun ?_
        intro hboth
        exact Bool.false_ne_true ((hboth.1 _ rfl).symm.trans hdtd)
      | false =>
        have hplain : ∀ part ∈ some (xml, root), hasDtd part.1 = false := by
          rintro part hmem
          rw [← Option.some.inj hmem]
          exact hdtd
        rw [and_iff_right hplain]
        exact ⟨fun heq => (Except.ok.inj heq).symm, fun heq => congrArg Except.ok heq.symm⟩

theorem extractXlsx_eq_ok (hzip : lib.zipFile data = .ok archive) (h : Holds lib archive "xl/worksheets/" sheetName parts)
    (hshared : HoldsShared lib archive shared) : extractXlsx lib self data = .ok raw ↔
      ((∀ part ∈ shared.filter fun part => part.1.length ≤ self.memberCap, hasDtd part.1 = false) ∧
        Readable self.memberCap parts) ∧
        raw = joined ((byName sheetName parts).flatMap fun part =>
          sheetLines (strings (shared.filter fun part => part.1.length ≤ self.memberCap)) part.root) := by
  obtain ⟨found, hfound⟩ : ∃ found, found = strings (shared.filter fun part => part.1.length ≤ self.memberCap) := ⟨_, rfl⟩
  have hread : ∀ part ∈ parts, (safeParse lib part.data).map (sheetLines found) =
      if hasDtd part.data = true then .error (.value "ValueError") else .ok (sheetLines found part.root) :=
    fun part hpart => map_safeParse (h.parsed part hpart)
  rw [extractXlsx, hzip, ← hfound]
  show (xlsxSharedStrings lib archive self.memberCap).bind _ = _ ↔ _
  constructor
  · intro hok
    cases hstrings : xlsxSharedStrings lib archive self.memberCap with
    | error raised =>
      rw [hstrings] at hok
      cases hok
    | ok found' =>
      obtain ⟨hplain, hsame⟩ := (xlsxSharedStrings_eq_ok hshared).mp hstrings
      rw [← hfound] at hsame
      subst hsame
      rw [hstrings] at hok
      obtain ⟨lines, hlines, rfl⟩ := map_eq_ok.mp hok
      obtain ⟨hfit, rfl⟩ := (readParts_sortedNames sheetNames h hread).mp hlines
      exact ⟨⟨hplain, hfit⟩, by rw [List.flatMap]⟩
  · rintro ⟨⟨hplain, hfit⟩, rfl⟩
    rw [(xlsxSharedStrings_eq_ok hshared).mpr ⟨hplain, hfound⟩]
    exact map_eq_ok.mpr ⟨_, (readParts_sortedNames sheetNames h hread).mpr ⟨hfit, rfl⟩, by rw [List.flatMap]⟩

end Parts

/-! ## Truncation -/

section Truncation

variable {lib : DocumentLibraries} {self : DocumentTextExtractor} {document : Document} {fileName : String} {data : Bytes}
  {parts : List Part}

/-- **The text is cut where the budget ends, and said to be**, exactly for the files within the limit whose documents are
read as far as the budget goes. -/
theorem honest_iff (h : FileOf lib document fileName data) :
    Honest self.maxInputChars document (extract lib self fileName data) ↔
      data.length ≤ self.maxDocumentBytes ∧ Budgeted self document := by
  have hopens := h.opens
  rw [honest_iff_agree h.nonempty, h.extension]
  refine and_congr_right fun _ => ?_
  cases document with
  | pdf pages =>
    have hraw : extractBytes lib self "pdf" data = _ := extractPdf_eq hopens
    constructor
    · rintro ⟨raw, hok, hagree⟩
      obtain rfl := Except.ok.inj (hraw.symm.trans hok)
      exact budgeted_pages.mp hagree
    · exact fun hbudget => ⟨_, hraw, budgeted_pages.mpr hbudget⟩
  | slides parts =>
    obtain ⟨archive, hzip, hholds⟩ := hopens
    constructor
    · rintro ⟨raw, hok, hagree⟩
      obtain ⟨hfit, rfl⟩ := (extractPptx_eq_ok hzip hholds).mp hok
      exact ⟨hfit, hagree⟩
    · rintro ⟨hfit, hagree⟩
      exact ⟨_, (extractPptx_eq_ok hzip hholds).mpr ⟨hfit, rfl⟩, hagree⟩
  | sheets shared parts =>
    obtain ⟨archive, hzip, hholds, hshared⟩ := hopens
    constructor
    · rintro ⟨raw, hok, hagree⟩
      obtain ⟨⟨hplain, hfit⟩, rfl⟩ := (extractXlsx_eq_ok hzip hholds hshared).mp hok
      exact ⟨hplain, hfit, hagree⟩
    · rintro ⟨hplain, hfit, hagree⟩
      exact ⟨_, (extractXlsx_eq_ok hzip hholds hshared).mpr ⟨⟨hplain, hfit⟩, rfl⟩, hagree⟩

theorem budgeted_slides (h : parts.Pairwise fun part part' => slideName part.number ≤ slideName part'.number) :
    Budgeted self (.slides parts) ↔ Readable self.memberCap parts := by
  rw [Budgeted, byName_eq_iff.mpr h]
  exact and_iff_left agree_refl

theorem few_slides (h : parts.Pairwise fun part part' => part.number < part'.number)
    (hfew : ∀ part ∈ parts, part.number < 10) :
    parts.Pairwise fun part part' => slideName part.number ≤ slideName part'.number := by
  have hdigits : ∀ n < 10, ∀ n' < 10, n ≤ n' → slideName n ≤ slideName n' := by decide +kernel
  refine List.Pairwise.imp_of_mem ?_ h
  intro part part' hpart hpart' hlt
  exact hdigits _ (hfew part hpart) _ (hfew part' hpart') hlt.le

example : ¬ slideName 2 ≤ slideName 10 := by decide +kernel

def slideOf (text : String) : Element := .node (some "sld") [] none [.node (some "t") [] (some text) []]

/-- A deck of two slides. -/
def deck : List Part := [⟨1, [1], slideOf "a"⟩, ⟨2, [2], slideOf "b"⟩]

/-- Stand-ins for the libraries, that take any bytes for this file. -/
def deckLibraries : DocumentLibraries where
  native := .little
  pdfPages _ := .error (.other "PdfiumError")
  zipFile _ := .ok (deck.map fun part => entryOf (slideName part.number) part.data)
  fromXml data := if data = [1] then .ok (slideOf "a") else .ok (slideOf "b")

theorem deck_honest : Honest 3 (.slides deck) (extract deckLibraries ⟨100, 3⟩ "deck.pptx" [80, 75]) := by
  have hordered : deck.Pairwise fun part part' => part.number < part'.number := by
    simp [deck]
  have hfile : FileOf deckLibraries (.slides deck) "deck.pptx" [80, 75] := by
    refine ⟨nofun, by decide +kernel, _, rfl, hordered, ?_, ?_⟩
    · rw [List.filter_eq_self.mpr]
      intro entry hentry
      obtain ⟨part, -, rfl⟩ := List.mem_map.mp hentry
      exact slideNames.isPart _
    · intro part hpart
      simp only [deck, List.mem_cons, List.not_mem_nil, or_false] at hpart
      rcases hpart with rfl | rfl <;> rfl
  have hfew : ∀ part ∈ deck, part.number < 10 := by
    simp [deck]
  have hbudget : Budgeted ⟨100, 3⟩ (.slides deck) :=
    (budgeted_slides (few_slides hordered hfew)).mpr ⟨by decide, by decide⟩
  exact (honest_iff hfile).mpr ⟨by decide, hbudget⟩

/-- A PDF whose first page has two lines, which are within the budget when they are joined by a line feed only. -/
def linesFirst : List (List Char) := ["ab\r\ncd".toList, "zz".toList]

/-- Stand-ins for the libraries, that take any bytes for this file. -/
def linesLibraries : DocumentLibraries where
  native := .little
  pdfPages _ := .ok (linesFirst.map .ok)
  zipFile _ := .error (.other "BadZipFile")
  fromXml _ := .error (.other "ParseError")

/-- The page uses up the budget before its line ends are made one character: the next is not read, and the text is not said
to be cut. -/
theorem pages_unread : ¬ ∀ (lib : DocumentLibraries) (self : DocumentTextExtractor) (document : Document)
    (fileName : String) (data : Bytes), FileOf lib document fileName data → 1 ≤ self.maxInputChars →
      Honest self.maxInputChars document (extract lib self fileName data) := by
  intro h
  have hfile : FileOf linesLibraries (.pdf linesFirst) "scan.pdf" [37, 80] := ⟨nofun, by decide +kernel, rfl⟩
  have hhonest := h linesLibraries ⟨100, 5⟩ (.pdf linesFirst) "scan.pdf" [37, 80] hfile (by decide)
  have hcut : (extract linesLibraries ⟨100, 5⟩ "scan.pdf" [37, 80]).truncated = false := by decide +kernel
  exact absurd (hhonest.truncated hcut) (by decide +kernel)

end Truncation

end Transform.Documents
